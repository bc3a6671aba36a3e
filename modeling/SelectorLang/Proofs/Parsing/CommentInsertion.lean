import SelectorLang.Proofs.Parsing.Pieces
import SelectorLang.Proofs.Parsing.SelectorLists
import SelectorLang.Proofs.Tokenizer.Tails
import SelectorLang.Tree.Identity

/-! # Comments put into a text

A comment in front of a lexeme leaves the lexemes of a text as they are, further on behind
the comment, and with them what is parsed (`SelectorLang.transparent_of_comment`). Only a
hyphen sees it: the one in `-(` needs the character behind the parenthesis to start a name,
and is a sign without (`SelectorLang.not_transparent_behind_call`); and the one in front of an
escaped backslash is a sign of its own only in front of a line feed.
-/

namespace SelectorLang

open Scan CodePoint Grammar

/-! ## The place of a lexeme -/

/-- In front of a lexeme a text is cut into the lexemes before it, and what stands from
there on is cut as it is alone. -/
theorem exists_cuts_of_mem (offset : Nat) (text : List Char) :
    ∀ lexeme ∈ (Run.ofText offset text).lexemes, lexeme.token ≠ .endOfText →
      ∃ pieces gap tail, Cuts text pieces (gap ++ tail) ∧ AreComments gap ∧ tail ≠ [] ∧
        offset + extent pieces + gap.length = lexeme.offset := by
  refine Run.ofText_induction (motive := fun offset text run =>
    ∀ lexeme ∈ run.lexemes, lexeme.token ≠ .endOfText →
      ∃ pieces gap tail, Cuts text pieces (gap ++ tail) ∧ AreComments gap ∧ tail ≠ [] ∧
        offset + extent pieces + gap.length = lexeme.offset)
    ?unterminated ?ends ?stray ?lexeme offset text
  case unterminated => exact fun _ _ _ _ member => absurd member List.not_mem_nil
  case stray => exact fun _ _ _ _ _ _ _ _ member => absurd member List.not_mem_nil
  case ends =>
    intro offset text gap _ lexeme member notEnd
    rw [List.mem_singleton.mp member] at notEnd
    exact absurd rfl notEnd
  case lexeme =>
    intro offset text gap first rest scan skipped found ih lexeme member notEnd
    obtain ⟨areComments, -, whole⟩ := areComments_of_comments skipped
    rcases List.mem_cons.mp member with rfl | later
    · exact ⟨[], gap, first :: rest, whole ▸ .done _, areComments, List.cons_ne_nil _ _, rfl⟩
    · have uncut : scan.value.cutOff = none := by
        cases cutOff : scan.value.cutOff with
        | none => rfl
        | some construct =>
            rw [(token_of_cutOff found cutOff).1, Run.ofText_of_end (comments_of_none rfl)] at later
            rw [List.mem_singleton.mp later] at notEnd
            exact absurd rfl notEnd
      obtain ⟨pieces, inner, tail, cuts, areInner, nonempty, stands⟩ := ih lexeme later notEnd
      refine ⟨_, inner, tail, .piece skipped found uncut cuts, areInner, nonempty, ?_⟩
      rw [← stands, extent]
      dsimp only
      omega

theorem stop_le_of_place {offset : Nat} {pieces : List Piece} :
    ∀ lexeme ∈ place offset pieces, lexeme.stop ≤ offset + extent pieces := by
  induction pieces generalizing offset with
  | nil => exact fun _ member => absurd member List.not_mem_nil
  | cons piece pieces ih =>
      refine List.forall_mem_cons.mpr ⟨?_, fun lexeme member => ?_⟩
      · rw [Lexeme.stop, String.length_ofList, extent]
        dsimp only
        omega
      · have inside := ih lexeme member
        rw [extent]
        omega

/-- A piece is placed behind those in front of it. -/
theorem exists_mem_place (front behind : List Piece) (piece : Piece) :
    ∃ lexeme ∈ place 0 (front ++ piece :: behind), lexeme.token = piece.token ∧
      lexeme.source = String.ofList piece.source ∧
        lexeme.offset = extent front + piece.gap.length ∧
          lexeme.stop = extent (front ++ [piece]) := by
  rw [place_append, place, Nat.zero_add]
  refine ⟨_, List.mem_append_right _ List.mem_cons_self, rfl, rfl, rfl, ?_⟩
  rw [Lexeme.stop, String.length_ofList, extent_append, extent, extent]
  dsimp only
  omega

/-! ## Comments between lexemes -/

/-- A text with some characters put in at an offset. -/
def putIn (text : String) (offset : Nat) (characters : List Char) : String :=
  String.ofList (text.toList.take offset ++ characters ++ text.toList.drop offset)

/-- A lexeme of a text in which so many characters are put in at an offset. -/
def Lexeme.makeRoom (offset count : Nat) (lexeme : Lexeme) : Lexeme :=
  if lexeme.offset < offset then lexeme else lexeme.shift count

/-- Some characters put into a text change nothing but places: neither its lexemes nor what
is parsed, nor why nothing is. -/
structure Transparent (text : String) (lexemes : List Lexeme) (offset : Nat)
    (characters : List Char) : Prop where
  /-- The lexemes behind the characters are further on. -/
  tokenized : tokenize (putIn text offset characters) =
    .ok (lexemes.map (.makeRoom offset characters.length))
  /-- The text is parsed as the same selector list, or fails alike. -/
  selector : parseSelector (putIn text offset characters) =
    (parseSelector text).mapError fun failure => ⟨failure.cause, putIn text offset characters⟩
  /-- The text is parsed as the same argument list, or fails alike. -/
  arguments : parseArguments (putIn text offset characters) =
    (parseArguments text).mapError fun failure => ⟨failure.cause, putIn text offset characters⟩

/-- Whether a lexeme looks no further than its own characters: it is no hyphen that is a
name, no function `url` and no broken string. -/
def Lexeme.isPlain (lexeme : Lexeme) : Bool :=
  match lexeme.token with
  | .ident _ => lexeme.source != "-"
  | .function name => name.toLower != "url"
  | .badString => false
  | _ => true

/-- Lexemes that look no further than their own characters. -/
def Plain (lexemes : List Lexeme) : Prop :=
  ∀ lexeme ∈ lexemes, lexeme.isPlain = true

instance (lexemes : List Lexeme) : Decidable (Plain lexemes) :=
  inferInstanceAs (Decidable (∀ lexeme ∈ lexemes, lexeme.isPlain = true))

theorem Lexeme.makeRoom_token (offset count : Nat) (lexeme : Lexeme) :
    (lexeme.makeRoom offset count).token = lexeme.token ∧
      (lexeme.makeRoom offset count).source = lexeme.source := by
  unfold makeRoom
  split <;> exact ⟨rfl, rfl⟩

theorem map_makeRoom_of_lt {lexemes : List Lexeme} {offset : Nat} (count : Nat)
    (before : ∀ lexeme ∈ lexemes, lexeme.offset < offset) :
    lexemes.map (.makeRoom offset count) = lexemes := by
  have same : ∀ lexeme ∈ lexemes, lexeme.makeRoom offset count = id lexeme :=
    fun lexeme member => if_pos (before lexeme member)
  rw [List.map_congr_left same, List.map_id]

theorem map_makeRoom_of_le {lexemes : List Lexeme} {offset : Nat} (count : Nat)
    (behind : ∀ lexeme ∈ lexemes, offset ≤ lexeme.offset) :
    lexemes.map (Lexeme.makeRoom offset count) = lexemes.map (Lexeme.shift count) :=
  List.map_congr_left fun lexeme member => if_neg (Nat.not_lt.mpr (behind lexeme member))

/-- When the lexemes only make room, what is parsed stays. -/
theorem transparent_of_tokenize {text : String} {lexemes : List Lexeme} {offset : Nat}
    {characters : List Char} (cut : tokenize text = .ok lexemes)
    (cut' : tokenize (putIn text offset characters) =
      .ok (lexemes.map (.makeRoom offset characters.length))) :
    Transparent text lexemes offset characters := by
  have arguments : parseArguments (putIn text offset characters) =
      (parseArguments text).mapError fun failure =>
        ⟨failure.cause, putIn text offset characters⟩ := by
    unfold parseArguments lexemesOf
    rw [cut, cut']
    exact readArguments_map (Lexeme.makeRoom_token offset characters.length) text
      (putIn text offset characters) lexemes
  refine ⟨cut', ?selector, arguments⟩
  rw [parseSelector_eq_bind, parseSelector_eq_bind, arguments]
  cases parseArguments text with
  | error failure => rfl
  | ok arguments =>
      dsimp only [Except.mapError, Except.bind, SelectorList.ofRead]
      cases SelectorList.ofArguments? arguments <;> rfl

/-- Where the front of a text stays cut alike, its lexemes make room for a comment. -/
theorem tokenize_putIn {text : String} {front gap tail comment : List Char} {pieces : List Piece}
    (isText : text.toList = front ++ (gap ++ tail)) (cuts : Cuts text.toList pieces (gap ++ tail))
    (cuts' : Cuts (front ++ (gap ++ comment ++ tail)) pieces (gap ++ comment ++ tail))
    (areComments : AreComments gap) (isComment : IsComment comment)
    (noFailure : (Run.ofText 0 text.toList).failure = none) :
    tokenize (putIn text (extent pieces + gap.length) comment) =
      .ok ((Run.ofText 0 text.toList).lexemes.map
        (.makeRoom (extent pieces + gap.length) comment.length)) := by
  have length := cuts.length_eq
  rw [isText, List.length_append, Nat.add_right_cancel_iff] at length
  have isText' : (putIn text (extent pieces + gap.length) comment).toList =
      front ++ (gap ++ comment ++ tail) := by
    have place : extent pieces + gap.length = (front ++ gap).length := by
      rw [List.length_append, length]
    rw [putIn, String.toList_ofList, isText, place, ← List.append_assoc front, List.take_left,
      List.drop_left]
    simp only [List.append_assoc]
  have run := cuts.run_eq 0
  have run' := cuts'.run_eq 0
  rw [Nat.zero_add] at run run'
  obtain ⟨failure, lexemes⟩ := Run.ofText_append areComments (extent pieces) tail
  obtain ⟨failure', lexemes'⟩ :=
    Run.ofText_append (areComments.append isComment.areComments) (extent pieces) tail
  obtain ⟨shifted, shiftedLexemes⟩ :=
    Run.ofText_shift comment.length (extent pieces + gap.length) tail
  rw [List.length_append, ← Nat.add_assoc] at failure' lexemes'
  rw [run] at noFailure ⊢
  have noFailure : (Run.ofText (extent pieces + gap.length) tail).failure = none :=
    failure ▸ noFailure
  rw [tokenize_eq_ok_iff, isText', run']
  simp only [Run.prepend, failure', lexemes', shifted, shiftedLexemes, lexemes, noFailure,
    Option.map_none, List.map_append, true_and]
  rw [map_makeRoom_of_lt, map_makeRoom_of_le]
  · exact (Run.tiles_of_failure_eq_none _ tail noFailure).offset_le
  · intro lexeme member
    have wide := (cuts.wide 0 lexeme member).2.1
    have inside := stop_le_of_place lexeme member
    rw [Lexeme.stop] at inside
    omega

section Front

variable {text : String} {gap tail : List Char} {pieces : List Piece}
  (cuts : Cuts text.toList pieces (gap ++ tail)) (areComments : AreComments gap)

include cuts

/-- The pieces of a front are lexemes of the text. -/
theorem Cuts.mem_lexemes : ∀ lexeme ∈ place 0 pieces,
    lexeme ∈ (Run.ofText 0 text.toList).lexemes := by
  intro lexeme member
  rw [cuts.run_eq 0]
  exact List.mem_append_left _ member

include areComments

/-- What goes on with a hyphen stands right behind the front, where no call `-(` is. -/
theorem Cuts.source_ne_call
    (noCall : ∀ call ∈ (Run.ofText 0 text.toList).lexemes, call.source = "-(" →
      call.stop ≠ extent pieces + gap.length)
    (continues : continuesHyphen (gap ++ tail) = true) :
    ∀ piece ∈ pieces.getLast?, piece.source ≠ ['-', '('] := by
  intro call isLast isCall
  obtain ⟨front, rfl⟩ := List.getLast?_eq_some_iff.mp isLast
  rcases areComments.eq_nil_or with rfl | ⟨rest, rfl⟩
  · obtain ⟨lexeme, among, -, source, -, stop⟩ := exists_mem_place front [] call
    exact noCall lexeme (cuts.mem_lexemes _ among) (by rw [source, isCall]) stop
  · contradiction

/-- A stray backslash stands right behind the front, where no hyphen in front of an escaped
backslash is. -/
theorem Cuts.source_ne_escape
    (noEscape : ∀ hyphen ∈ (Run.ofText 0 text.toList).lexemes,
      ∀ name ∈ (Run.ofText 0 text.toList).lexemes, hyphen.source = "-" →
        hyphen.stop = name.offset → name.source = "\\\\" →
          name.stop ≠ extent pieces + gap.length)
    (stray : escapes (gap ++ tail) = false) (hyphen name : Piece)
    (atEnd : [hyphen, name] <:+ pieces) (isHyphen : hyphen.source = ['-'])
    (touches : name.gap = []) : name.source ≠ ['\\', '\\'] := by
  intro isName
  obtain ⟨front, rfl⟩ := atEnd
  rcases areComments.eq_nil_or with rfl | ⟨rest, rfl⟩
  · obtain ⟨first, amongFirst, -, firstSource, -, firstStop⟩ :=
      exists_mem_place front [name] hyphen
    obtain ⟨second, among, -, source, offset, stop⟩ :=
      exists_mem_place (front ++ [hyphen]) [] name
    rw [List.append_assoc] at among stop
    rw [touches, List.length_nil, Nat.add_zero] at offset
    exact noEscape first (cuts.mem_lexemes _ amongFirst) second (cuts.mem_lexemes _ among)
      (by rw [firstSource, isHyphen]) (by rw [firstStop, offset]) (by rw [source, isName]) stop
  · contradiction

end Front

/-- The front of a text with plain lexemes does not see a comment behind it. -/
theorem detached_of_plain {text : String} {gap tail comment : List Char} {pieces : List Piece}
    (cuts : Cuts text.toList pieces (gap ++ tail)) (areComments : AreComments gap)
    (nonempty : tail ≠ []) (isComment : IsComment comment)
    (plain : Plain (Run.ofText 0 text.toList).lexemes)
    (noCall : ∀ call ∈ (Run.ofText 0 text.toList).lexemes, call.source = "-(" →
      call.stop ≠ extent pieces + gap.length)
    (noEscape : ∀ hyphen ∈ (Run.ofText 0 text.toList).lexemes,
      ∀ name ∈ (Run.ofText 0 text.toList).lexemes, hyphen.source = "-" →
        hyphen.stop = name.offset → name.source = "\\\\" →
          name.stop ≠ extent pieces + gap.length) :
    Detached pieces (gap ++ tail) (gap ++ comment ++ tail) := by
  obtain ⟨inner, starts⟩ : ∃ inner, gap ++ comment ++ tail = '/' :: '*' :: inner := by
    obtain ⟨body, rfl, -⟩ := isComment
    rcases areComments.eq_nil_or with rfl | ⟨rest, rfl⟩
    · exact ⟨_, rfl⟩
    · exact ⟨_, rfl⟩
  have isPlain {piece : Piece} (member : piece ∈ pieces) :
      Lexeme.isPlain ⟨piece.token, String.ofList piece.source, 0⟩ = true := by
    obtain ⟨front, behind, rfl⟩ := List.append_of_mem member
    obtain ⟨lexeme, among, token, source, -⟩ := exists_mem_place front behind piece
    have plain := plain lexeme (cuts.mem_lexemes _ among)
    rwa [Lexeme.isPlain, token, source] at plain
  constructor
  case goesOn => exact List.append_ne_nil_of_right_ne_nil gap nonempty
  case quiet =>
    rw [starts]
    intro first head
    cases head
    decide
  case visible =>
    rw [starts]
    rfl
  case ahead =>
    rw [starts]
    exact fun _ _ _ => rfl
  case unbroken =>
    intro piece member isBroken
    have plain := isPlain member
    rw [isBroken] at plain
    contradiction
  case quoted =>
    intro piece member name isFunction isUrl
    have plain := isPlain member
    rw [isFunction] at plain
    refine absurd (String.toList_injective ?_) (bne_iff_ne.mp plain)
    rw [toLower_eq_map, String.toList_map, isUrl]
    rfl
  case noName =>
    intro piece member name isIdent hyphen
    have plain := isPlain member
    rw [isIdent, hyphen] at plain
    contradiction
  case noCall => exact cuts.source_ne_call areComments noCall
  case escaped => exact cuts.source_ne_escape areComments noEscape

/-- **Comments in front of lexemes are transparent**, except right behind the function `-(`,
and behind a hyphen that touches a name of one escaped backslash. -/
theorem transparent_of_comment {text : String} {lexemes : List Lexeme} {lexeme : Lexeme}
    {comment : List Char} (cut : tokenize text = .ok lexemes) (plain : Plain lexemes)
    (member : lexeme ∈ lexemes) (notEnd : lexeme.token ≠ .endOfText)
    (isComment : IsComment comment)
    (noCall : ∀ call ∈ lexemes, call.source = "-(" → call.stop ≠ lexeme.offset)
    (noEscape : ∀ hyphen ∈ lexemes, ∀ name ∈ lexemes, hyphen.source = "-" →
      hyphen.stop = name.offset → name.source = "\\\\" → name.stop ≠ lexeme.offset) :
    Transparent text lexemes lexeme.offset comment := by
  obtain ⟨noFailure, isRun⟩ := tokenize_eq_ok_iff.mp cut
  subst isRun
  obtain ⟨pieces, gap, tail, cuts, areComments, nonempty, stands⟩ :=
    exists_cuts_of_mem 0 text.toList lexeme member notEnd
  obtain ⟨front, isText⟩ := cuts.exists_front
  rw [Nat.zero_add] at stands
  have detached := detached_of_plain cuts areComments nonempty isComment plain
    (stands ▸ noCall) (stands ▸ noEscape)
  have cuts' := cuts.detach isText detached
  rw [← stands]
  exact transparent_of_tokenize cut
    (tokenize_putIn isText cuts cuts' areComments isComment noFailure)

/-- The lexemes of `-ab:c(d)`. -/
def calledName : List Lexeme :=
  [⟨.ident "-ab", "-ab", 0⟩, ⟨.colon, ":", 3⟩, ⟨.function "c", "c(", 4⟩, ⟨.ident "d", "d", 6⟩,
    ⟨.closeParen, ")", 7⟩, Lexeme.endAt 8]

theorem calledName_transparent :
    tokenize "-ab:c(d)" = .ok calledName ∧ Plain calledName ∧
      Transparent "-ab:c(d)" calledName 6 "/***/".toList := by
  have cut : tokenize "-ab:c(d)" = .ok calledName := tokenize_eq_ok_iff.mpr (by decide +kernel)
  have plain : Plain calledName := by decide +kernel
  have member : ⟨.ident "d", "d", 6⟩ ∈ calledName := by decide
  exact ⟨cut, plain, transparent_of_comment cut plain member (by decide)
    (@isComment_of_body ['*'] (by decide)) (by decide) (by decide)⟩

/-- The lexemes of `-(a`. -/
def calledHyphen : List Lexeme :=
  [⟨.function "-", "-(", 0⟩, ⟨.ident "a", "a", 2⟩, Lexeme.endAt 3]

/-- Behind the function `-(` a comment is seen. -/
theorem not_transparent_behind_call :
    tokenize "-(a" = .ok calledHyphen ∧ Plain calledHyphen ∧
      ⟨.ident "a", "a", 2⟩ ∈ calledHyphen ∧ IsComment "/**/".toList ∧
        ¬ Transparent "-(a" calledHyphen 2 "/**/".toList := by
  refine ⟨tokenize_eq_ok_iff.mpr (by decide +kernel), by decide +kernel,
    by decide, @isComment_of_body [] (by decide), fun transparent => ?_⟩
  exact absurd transparent.tokenized (by decide +kernel)

end SelectorLang
