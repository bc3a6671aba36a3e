import SelectorLang.CommandLine.Report
import SelectorLang.Proofs.Parsing.SelectorLists
import SelectorLang.Proofs.Text.Quoted
import SelectorLang.Proofs.Tokenizer.Lossless
import SelectorLang.Tree.Identity

/-! # What a listing of lexemes tells

The line of a lexeme has no line feed in it, so that a listing has one line for each lexeme
(`SelectorLang.CommandLine.lines_listing`), and the line tells the place, the kind and the
source of the lexeme, each by where it ends
(`SelectorLang.CommandLine.listed_eq_of_shownLine`). Listings are therefore told apart like
the lexemes in them. Nothing in a line can pass for the escape that turns it yellow, and the
first yellow line is that of the token for which the selector is refused
(`SelectorLang.CommandLine.tokenListing_faithful`).
-/

namespace SelectorLang

open Text

/-- What a listing says of a lexeme. -/
def Lexeme.listed (lexeme : Lexeme) : Nat × String × String × Bool :=
  (lexeme.offset, lexeme.token.kindName, lexeme.source, lexeme.token.isSupported)

/-- The first lexeme of a kind that selectors are not written with. -/
def firstUnsupported? (lexemes : List Lexeme) : Option Lexeme :=
  lexemes.find? fun lexeme => !lexeme.token.isSupported

section Guard

variable {text source : String} {lexemes : List Lexeme}

/-- Lexemes of supported kinds are never refused for their kind. -/
theorem cause_of_supported (supported : firstUnsupported? lexemes = none) {failure : Failure}
    (fails : readArguments text lexemes = .error failure) :
    failure.cause ≠ .unsupportedToken source := by
  unfold firstUnsupported? at supported
  rw [readArguments, checkSupported, supported] at fails
  dsimp only at fails
  split at fails <;> cases fails
  rename_i unexpected _
  cases unexpected <;> exact Cause.noConfusion

/-- A text that is cut is refused for an unsupported token when it has one, and for the first. -/
theorem parseSelector_unsupportedToken_iff (succeeds : tokenize text = .ok lexemes) :
    (∃ failure, parseSelector text = .error failure ∧
        failure.cause = .unsupportedToken source) ↔
      (firstUnsupported? lexemes).map Lexeme.source = some source := by
  have parsed : parseArguments text = readArguments text lexemes := by
    rw [parseArguments, lexemesOf, succeeds]
  rw [parseSelector_eq_bind, parsed]
  cases found : firstUnsupported? lexemes with
  | some lexeme =>
      have refused : readArguments text lexemes =
          .error ⟨.unsupportedToken lexeme.source, text⟩ := by
        unfold firstUnsupported? at found
        rw [readArguments, checkSupported, found]
      rw [refused, Option.map_some, Option.some.injEq]
      constructor
      · rintro ⟨failure, fails, isUnsupported⟩
        cases fails
        exact Cause.unsupportedToken.inj isUnsupported
      · rintro rfl
        exact ⟨_, rfl, rfl⟩
  | none =>
      rw [Option.map_none]
      refine iff_of_false ?_ (Option.some_ne_none _).symm
      rintro ⟨failure, fails, isUnsupported⟩
      cases reads : readArguments text lexemes with
      | error cause =>
          rw [reads] at fails
          cases fails
          exact cause_of_supported found reads isUnsupported
      | ok arguments =>
          rw [reads] at fails
          dsimp only [Except.bind, SelectorList.ofRead] at fails
          split at fails <;> cases fails
          contradiction

end Guard

namespace CommandLine

/-- The lines of an output: the parts between its line feeds. -/
def lines (output : String) : List String :=
  (output.toList.splitOn '\n').map String.ofList

/-- The line of a lexeme in a listing, in yellow if its kind is unsupported. -/
def shownLine (lexeme : Lexeme) : String :=
  if lexeme.token.isSupported then lexemeText lexeme
  else "\x1b[33m" ++ lexemeText lexeme ++ "\x1b[39m"

/-- Whether a line starts in yellow. -/
def isHighlighted (line : String) : Bool :=
  "\x1b[33m".toList.isPrefixOf line.toList

/-- What the program prints when it is asked to list the lexemes of a text. -/
def tokenListing (text : String) : String :=
  (report ["--format", "tokens", "--", text]).output

theorem tokenListing_of_ok {text : String} {lexemes : List Lexeme}
    (succeeds : tokenize text = .ok lexemes) : tokenListing text = listing lexemes := by
  have asked : report ["--format", "tokens", "--", text] = listLexemes text := rfl
  rw [tokenListing, asked, listLexemes, succeeds]
  rfl

theorem tokenListing_of_error {text : String} {error : LexicalError}
    (fails : tokenize text = .error error) : tokenListing text = "" := by
  have asked : report ["--format", "tokens", "--", text] = listLexemes text := rfl
  rw [tokenListing, asked, listLexemes, fails]
  rfl

/-! ## Lines -/

theorem lexemeLine_eq (lexeme : Lexeme) : lexemeLine lexeme = shownLine lexeme ++ "\n" := by
  have switchedOff : "\x1b[39m\n" = "\x1b[39m" ++ "\n" := by decide +kernel
  unfold lexemeLine shownLine
  split
  · rfl
  · rw [switchedOff, ← String.append_assoc]

theorem toList_lexemeText (lexeme : Lexeme) :
    (lexemeText lexeme).toList =
      List.replicate (4 - (toString lexeme.offset).length) ' ' ++
        (Nat.toDigits 10 lexeme.offset ++
          ' ' :: (lexeme.token.kindName.toList ++ ' ' :: (quoted lexeme.source).toList)) := by
  simp [lexemeText, rightAligned]

theorem kindName_plain (token : Token) :
    ∀ character ∈ token.kindName.toList, character ≠ ' ' ∧ isControl character = false := by
  have all : (token.kindName.toList.all fun character =>
      character != ' ' && !isControl character) = true := by
    unfold Token.kindName
    split <;> decide +kernel
  intro character member
  have plain := List.all_eq_true.mp all character member
  rwa [Bool.and_eq_true, bne_iff_ne, Bool.not_eq_true'] at plain

/-- There is no control character in the line of a lexeme, neither a line feed nor an escape. -/
theorem not_mem_lexemeText_of_isControl {character : Char} (control : isControl character = true)
    (lexeme : Lexeme) : character ∉ (lexemeText lexeme).toList := by
  have noBlank : character ≠ ' ' := by
    rintro rfl
    exact absurd control (by decide)
  have noDigit : character ∉ Nat.toDigits 10 lexeme.offset := by
    intro member
    have plain := @forall_mem_toDigits (isControl · = false) 10 (by decide) (by decide)
      lexeme.offset character member
    exact Bool.noConfusion (plain.symm.trans control)
  have noKind : character ∉ lexeme.token.kindName.toList := by
    intro member
    have plain := (kindName_plain lexeme.token character member).2
    exact Bool.noConfusion (plain.symm.trans control)
  have noSource := not_mem_quoted_of_isControl control lexeme.source
  simp only [toList_lexemeText, List.mem_append, List.mem_cons, List.mem_replicate, noBlank,
    noDigit, noKind, noSource, and_false, or_self, not_false_eq_true]

theorem lineFeed_not_mem_shownLine (lexeme : Lexeme) : '\n' ∉ (shownLine lexeme).toList := by
  have plain := not_mem_lexemeText_of_isControl (by decide : isControl '\n' = true) lexeme
  unfold shownLine
  split
  · exact plain
  · rw [String.toList_append, String.toList_append, List.mem_append, List.mem_append]
    rintro ((switchedOn | inside) | switchedOff)
    · exact absurd switchedOn (by decide)
    · exact plain inside
    · exact absurd switchedOff (by decide)

theorem isHighlighted_shownLine (lexeme : Lexeme) :
    isHighlighted (shownLine lexeme) = !lexeme.token.isSupported := by
  unfold shownLine isHighlighted
  split
  · rename_i supported
    rw [supported, Bool.not_true, Bool.eq_false_iff]
    intro highlighted
    have front := List.isPrefixOf_iff_prefix.mp highlighted
    have escape : '\x1b' ∈ (lexemeText lexeme).toList := front.subset (by decide)
    exact not_mem_lexemeText_of_isControl (by decide) lexeme escape
  · rename_i unsupported
    rw [Bool.eq_false_iff.mpr unsupported, Bool.not_false, List.isPrefixOf_iff_prefix,
      String.append_assoc, String.toList_append]
    exact List.prefix_append _ _

/-- The listing of lexemes has a line for each of them, and ends with a line feed. -/
theorem lines_listing (lexemes : List Lexeme) :
    lines (listing lexemes) = lexemes.map shownLine ++ [""] := by
  induction lexemes with
  | nil => rfl
  | cons lexeme lexemes ih =>
      have characters : (listing (lexeme :: lexemes)).toList =
          (shownLine lexeme).toList ++ '\n' :: (listing lexemes).toList := by
        rw [listing, List.map_cons, String.join_cons, String.toList_append, lexemeLine_eq,
          String.toList_append, List.append_assoc]
        rfl
      unfold lines at ih ⊢
      rw [characters, List.splitOn_append_cons_self_of_not_mem (lineFeed_not_mem_shownLine lexeme),
        List.map_cons, String.ofList_toList, ih]
      rfl

/-! ## What a line tells -/

theorem blank_not_mem_digits (number : Nat) : ' ' ∉ Nat.toDigits 10 number := by
  intro member
  exact @forall_mem_toDigits (· ≠ ' ') 10 (by decide) (by decide) number ' ' member rfl

/-- Without the blanks in front of it, a number starts with its digits. -/
theorem dropWhile_padded (count number : Nat) (rest : List Char) :
    (List.replicate count ' ' ++ (Nat.toDigits 10 number ++ rest)).dropWhile (· == ' ') =
      Nat.toDigits 10 number ++ rest := by
  rw [List.dropWhile_append_of_pos fun character member => by
    rw [List.eq_of_mem_replicate member]; rfl]
  have noBlank := blank_not_mem_digits number
  cases digits : Nat.toDigits 10 number with
  | nil => exact absurd digits Nat.toDigits_ne_nil
  | cons first others =>
      rw [digits] at noBlank
      refine List.dropWhile_cons_of_neg ?_
      rw [beq_iff_eq]
      rintro rfl
      exact noBlank List.mem_cons_self

/-- The line of a lexeme tells what is listed of it, whatever stands behind the line. -/
theorem lexemeText_append_inj {lexeme other : Lexeme} {tail tail' : List Char}
    (same : (lexemeText lexeme).toList ++ tail = (lexemeText other).toList ++ tail') :
    lexeme.offset = other.offset ∧ lexeme.token.kindName = other.token.kindName ∧
      lexeme.source = other.source := by
  have noBlank (token : Token) : ' ' ∉ token.kindName.toList :=
    fun member => (kindName_plain token ' ' member).1 rfl
  have unpadded := congrArg (List.dropWhile (· == ' ')) same
  simp only [toList_lexemeText, List.append_assoc, List.cons_append, dropWhile_padded] at unpadded
  obtain ⟨digits, behind⟩ :=
    append_cons_inj (blank_not_mem_digits _) (blank_not_mem_digits _) unpadded
  obtain ⟨kinds, sources⟩ := append_cons_inj (noBlank _) (noBlank _) behind
  refine ⟨?_, String.toList_injective kinds, (quoted_append_inj sources).1⟩
  have numbers := congrArg (fun digits => Nat.ofDigitChars 10 digits 0) digits
  simpa only [Nat.ofDigitChars_toDigits (by decide : 1 < 10) (by decide : 10 ≤ 10)] using numbers

/-- **A line tells all that is listed of its lexeme.** -/
theorem listed_eq_of_shownLine {lexeme other : Lexeme} (same : shownLine lexeme = shownLine other) :
    lexeme.listed = other.listed := by
  have supported : lexeme.token.isSupported = other.token.isSupported := by
    have highlighted := congrArg isHighlighted same
    rwa [isHighlighted_shownLine, isHighlighted_shownLine, Bool.not_inj_iff] at highlighted
  have texts : ∃ tail : List Char,
      (lexemeText lexeme).toList ++ tail = (lexemeText other).toList ++ tail := by
    unfold shownLine at same
    rw [supported] at same
    split at same
    · exact ⟨[], congrArg (String.toList · ++ []) same⟩
    · have characters := congrArg String.toList same
      simp only [String.append_assoc, String.toList_append,
        List.append_cancel_left_eq] at characters
      exact ⟨_, characters⟩
  obtain ⟨tail, together⟩ := texts
  obtain ⟨offsets, kinds, sources⟩ := lexemeText_append_inj together
  rw [Lexeme.listed, Lexeme.listed, offsets, kinds, sources, supported]

/-- Lexemes are told by their lines one by one. -/
theorem map_listed_eq_of_map_shownLine {lexemes others : List Lexeme}
    (same : lexemes.map shownLine = others.map shownLine) :
    lexemes.map Lexeme.listed = others.map Lexeme.listed := by
  induction lexemes generalizing others with
  | nil =>
      rw [List.map_nil, eq_comm, List.map_eq_nil_iff] at same
      rw [same]
  | cons lexeme lexemes ih =>
      cases others with
      | nil => contradiction
      | cons other others =>
          obtain ⟨line, lines⟩ := List.cons.inj same
          rw [List.map_cons, List.map_cons, listed_eq_of_shownLine line, ih lines]

/-! ## Lines in yellow -/

/-- The first line in yellow is that of the first lexeme of an unsupported kind. -/
theorem find?_isHighlighted_listing (lexemes : List Lexeme) :
    (lines (listing lexemes)).find? isHighlighted =
      (firstUnsupported? lexemes).map shownLine := by
  have lastLine : [""].find? isHighlighted = none := by decide
  have highlighted : isHighlighted ∘ shownLine = fun lexeme => !lexeme.token.isSupported :=
    funext isHighlighted_shownLine
  rw [lines_listing, List.find?_append, lastLine, Option.or_none, List.find?_map, highlighted,
    firstUnsupported?]

/-! ## Listings of texts -/

/-- Only a text without lexical errors has a listing. -/
theorem tokenListing_ne_empty {text : String} {lexemes : List Lexeme}
    (succeeds : tokenize text = .ok lexemes) : tokenListing text ≠ "" := by
  intro empty
  have parts := lines_listing lexemes
  rw [← tokenListing_of_ok succeeds, empty] at parts
  have noLexemes := List.map_eq_nil_iff.mp (List.self_eq_append_left.mp parts)
  -- There is one for the end of the text, though.
  obtain ⟨noFailure, rfl⟩ := tokenize_eq_ok_iff.mp succeeds
  have tiles := Run.tiles_of_failure_eq_none 0 text.toList noFailure
  obtain ⟨front, hasEnd, -⟩ := tiles.lossless.ending
  rw [hasEnd] at noLexemes
  exact absurd noLexemes (List.append_ne_nil_of_right_ne_nil front (List.cons_ne_nil _ _))

/-- **A listing tells what the lexemes of a text are, and which of them is refused.** It has one
line for each lexeme; a text with the same listing has lexemes at the same places, of the same
kinds and with the same sources; and a line is yellow just when the selector is refused for an
unsupported token, the first such line being that of this token. -/
theorem tokenListing_faithful {text : String} {lexemes : List Lexeme}
    (succeeds : tokenize text = .ok lexemes) :
    lines (tokenListing text) = lexemes.map shownLine ++ [""] ∧
      (∀ other, tokenListing other = tokenListing text → ∃ others,
        tokenize other = .ok others ∧
          others.map Lexeme.listed = lexemes.map Lexeme.listed) ∧
      ((∃ line ∈ lines (tokenListing text), isHighlighted line = true) ↔
        ∃ failure source, parseSelector text = .error failure ∧
          failure.cause = .unsupportedToken source) ∧
      ∀ failure source, parseSelector text = .error failure →
        failure.cause = .unsupportedToken source →
          ∃ line, (lines (tokenListing text)).find? isHighlighted = some line ∧
            (∃ lexeme ∈ lexemes, shownLine lexeme = line) ∧
              ∀ lexeme, shownLine lexeme = line → lexeme.source = source := by
  have isListing := tokenListing_of_ok succeeds
  have parts := lines_listing lexemes
  have firstYellow := find?_isHighlighted_listing lexemes
  rw [← isListing] at parts firstYellow
  have named (failure : Failure) (source : String) (fails : parseSelector text = .error failure)
      (isUnsupported : failure.cause = .unsupportedToken source) :
      ∃ line, (lines (tokenListing text)).find? isHighlighted = some line ∧
        (∃ lexeme ∈ lexemes, shownLine lexeme = line) ∧
          ∀ lexeme, shownLine lexeme = line → lexeme.source = source := by
    have refused := (parseSelector_unsupportedToken_iff succeeds).mp ⟨failure, fails, isUnsupported⟩
    obtain ⟨lexeme, found, rfl⟩ := Option.map_eq_some_iff.mp refused
    refine ⟨shownLine lexeme, by rw [firstYellow, found, Option.map_some],
      ⟨lexeme, List.mem_of_find?_eq_some found, rfl⟩, fun other same => ?_⟩
    exact congrArg (fun listed => listed.2.2.1) (listed_eq_of_shownLine same)
  refine ⟨parts, fun other same => ?_, ⟨?_, ?_⟩, named⟩
  · cases cut : tokenize other with
    | error error =>
        rw [tokenListing_of_error cut] at same
        exact absurd same.symm (tokenListing_ne_empty succeeds)
    | ok others =>
        have otherParts := lines_listing others
        rw [← tokenListing_of_ok cut, same, parts] at otherParts
        have shown := List.append_cancel_right otherParts
        exact ⟨others, rfl, map_listed_eq_of_map_shownLine shown.symm⟩
  · intro isYellow
    rw [← List.find?_isSome, firstYellow, Option.isSome_map] at isYellow
    obtain ⟨lexeme, found⟩ := Option.isSome_iff_exists.mp isYellow
    have refused := congrArg (Option.map Lexeme.source) found
    obtain ⟨failure, fails⟩ := (parseSelector_unsupportedToken_iff succeeds).mpr refused
    exact ⟨failure, lexeme.source, fails⟩
  · rintro ⟨failure, source, fails, isUnsupported⟩
    obtain ⟨line, found, -⟩ := named failure source fails isUnsupported
    exact ⟨line, List.mem_of_find?_eq_some found, List.find?_some found⟩

/-- A text with a quote, a backslash, a line feed and an escape in it, and with two tokens that
selectors are not written with. -/
def refusedText : String := "'\"\\\x1b'\n\x7b;"

/-- The lexemes of the text. -/
def refusedLexemes : List Lexeme :=
  [⟨.string "\"\x1b", "'\"\\\x1b'", 0⟩, ⟨.whitespace, "\n", 5⟩, ⟨.openBrace, "\x7b", 6⟩,
    ⟨.semicolon, ";", 7⟩, Lexeme.endAt 8]

theorem refusedText_listed :
    lines (tokenListing refusedText) =
        ["   0 string \"'\\\"\\\\\\u\x7b1b\x7d'\"", "   5 whitespace \"\\n\"",
          "\x1b[33m   6 \x7b \"\x7b\"\x1b[39m", "\x1b[33m   7 semicolon \";\"\x1b[39m",
          "   8 EOF \"\"", ""] ∧
      (∃ line ∈ lines (tokenListing refusedText), isHighlighted line = true) ∧
        ∃ line, (lines (tokenListing refusedText)).find? isHighlighted = some line ∧
          ∀ lexeme, shownLine lexeme = line → lexeme.source = "\x7b" := by
  have succeeds : tokenize refusedText = .ok refusedLexemes :=
    tokenize_eq_ok_iff.mpr (by decide +kernel)
  have fails : parseSelector refusedText = .error ⟨.unsupportedToken "\x7b", refusedText⟩ := by
    decide +kernel
  obtain ⟨parts, -, highlighted, named⟩ := tokenListing_faithful succeeds
  obtain ⟨line, found, -, source⟩ := named _ _ fails rfl
  exact ⟨parts.trans (by decide +kernel), highlighted.mpr ⟨_, _, fails, rfl⟩, line, found, source⟩

end CommandLine

end SelectorLang
