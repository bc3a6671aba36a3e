import SelectorLang.Proofs.Grammar.Soundness
import SelectorLang.Proofs.Parsing.SelectorLists
import SelectorLang.Proofs.Reader.FirstViolation
import SelectorLang.Proofs.RoundTrip.Written
import SelectorLang.Proofs.Tokenizer.Warnings

/-! # Native fragments in a text

Conditions are no longer than the lexemes they are read from, start with no blank and end
with a name, a hash, an asterisk or what closes them (`SelectorLang.Grammar.Derives.spans`).
A native text that is parsed as itself has therefore nothing around its conditions, and
stands in a text as it would alone (`SelectorLang.IsFragment.exists_pieces`).
-/

namespace SelectorLang

open Scan CodePoint

/-! ## The extent of conditions -/

/-- The tokens that a condition ends with. -/
def Token.closesItem : Token → Bool
  | ident _ | hash _ _ | closeParen | closeBracket => true
  | delim character => character == '*'
  | _ => false

/-- A lexeme that takes room, and more than its name where it opens a parenthesis. -/
def Lexeme.IsWide (lexeme : Lexeme) : Prop :=
  0 < lexeme.source.length ∧
    ∀ name, lexeme.token = .function name → name.length < lexeme.source.length

namespace Grammar

/-- What is known of the ends and the length of conditions. -/
def Phrase.Spans (lexemes : List Lexeme) : Phrase → Prop
  | item text _ | items text _ =>
      (∃ first rest, lexemes = first :: rest ∧ first.token ≠ .whitespace) ∧
      (∃ front last, lexemes = front ++ [last] ∧ last.token.closesItem = true) ∧
      ((∀ lexeme ∈ lexemes, lexeme.IsWide) → text.length ≤ (sources lexemes).length)
  | _ => True

theorem sources_single (lexeme : Lexeme) : sources [lexeme] = lexeme.source := by
  rw [sources_cons, sources_nil, String.append_empty]

private theorem spans_single {lexeme : Lexeme} (closes : lexeme.token.closesItem = true) :
    (Phrase.item lexeme.source []).Spans [lexeme] := by
  refine ⟨⟨lexeme, [], rfl, ?_⟩, ⟨[], lexeme, rfl, closes⟩, fun _ => ?_⟩
  · intro blank
    rw [blank] at closes
    contradiction
  · exact Nat.le_of_eq (congrArg String.length (sources_single lexeme).symm)

/-- A condition of several lexemes spans them by its ends, if it is no longer than what
stands between them allows. -/
private theorem spans_between {first last : Lexeme} {middle : List Lexeme} {text : String}
    {functions : List EngineFunction} (visible : first.token ≠ .whitespace)
    (closes : last.token.closesItem = true)
    (room : (∀ lexeme ∈ first :: middle ++ [last], lexeme.IsWide) →
      text.length ≤ first.source.length + (sources middle).length + last.source.length) :
    (Phrase.item text functions).Spans (first :: middle ++ [last]) := by
  refine ⟨⟨first, middle ++ [last], rfl, visible⟩, ⟨first :: middle, last, rfl, closes⟩,
    fun wide => ?_⟩
  have whole := room wide
  rw [sources_append, sources_cons, sources_single, String.length_append, String.length_append]
  exact whole

theorem eq_nil_of_sources {lexemes : List Lexeme} (wide : ∀ lexeme ∈ lexemes, lexeme.IsWide)
    (none : (sources lexemes).length = 0) : lexemes = [] := by
  cases lexemes with
  | nil => rfl
  | cons lexeme rest =>
      have room := (wide lexeme List.mem_cons_self).1
      rw [sources_cons, String.length_append] at none
      omega

/-- Conditions span their lexemes. -/
theorem Derives.spans {lexemes : List Lexeme} {phrase : Phrase}
    (derived : Derives lexemes phrase) : phrase.Spans lexemes := by
  induction derived with
  | name token => exact spans_single (by rw [token]; rfl)
  | hash token => exact spans_single (by rw [token]; rfl)
  | asterisk token => exact spans_single (by rw [token]; rfl)
  | @className dot lexeme name dotToken token =>
      refine @spans_between dot lexeme [] _ _ (by rw [dotToken]; nofun) (by rw [token]; rfl)
        fun wide => ?_
      have dotWide := (wide dot List.mem_cons_self).1
      have one : ".".length = 1 := rfl
      rw [String.length_append]
      omega
  | @nativeClass colon lexeme name colonToken token native =>
      refine @spans_between colon lexeme [] _ _ (by rw [colonToken]; nofun) (by rw [token]; rfl)
        fun wide => ?_
      have colonWide := (wide colon List.mem_cons_self).1
      have one : ":".length = 1 := rfl
      rw [String.length_append]
      omega
  | @bareFunction colon lexeme name colonToken token engine =>
      exact @spans_between colon lexeme [] _ _ (by rw [colonToken]; nofun) (by rw [token]; rfl)
        fun _ => Nat.zero_le _
  | @nativeFunction colon call closing name inner colonToken token native balanced closes =>
      refine @spans_between colon closing (call :: inner) _ _ (by rw [colonToken]; nofun)
        (by rw [closes]; rfl) fun wide => ?_
      have colonWide := (wide colon List.mem_cons_self).1
      have callWide := (wide call (.tail _ List.mem_cons_self)).2 name token
      have closingWide := (wide closing (List.mem_append_right _ List.mem_cons_self)).1
      have lowered : name.toLower.length = name.length := by
        rw [toLower_eq_map, String.length_map]
      have colonOne : ":".length = 1 := rfl
      have openingOne : "(".length = 1 := rfl
      have closingOne : ")".length = 1 := rfl
      simp only [sources_cons, String.length_append, lowered]
      omega
  | @function colon call closing name inner arguments colonToken token engine _ closes =>
      exact @spans_between colon closing (call :: inner) _ _ (by rw [colonToken]; nofun)
        (by rw [closes]; rfl) fun _ => Nat.zero_le _
  | @condition opening closing inner opens inside closes =>
      refine @spans_between opening closing inner _ _ (by rw [opens]; nofun) (by rw [closes]; rfl)
        fun _ => ?_
      simp only [sources_append, sources_cons, sources_nil, String.length_append,
        String.length_empty]
      omega
  | oneItem _ ih => exact ih
  | @moreItems front lexemes text added functions addedFunctions _ _ ihBefore ih =>
      obtain ⟨⟨first, rest, isCons, visible⟩, -, lengthBefore⟩ := ihBefore
      obtain ⟨-, ⟨inner, last, isLast, closes⟩, length⟩ := ih
      refine ⟨⟨first, rest ++ lexemes, by rw [isCons, List.cons_append], visible⟩,
        ⟨front ++ inner, last, by rw [isLast, List.append_assoc], closes⟩, fun wide => ?_⟩
      have before := lengthBefore fun lexeme member => wide lexeme (List.mem_append_left _ member)
      have behind := length fun lexeme member => wide lexeme (List.mem_append_right _ member)
      rw [sources_append, String.length_append, String.length_append]
      omega
  | _ => trivial

/-! ## A fragment alone -/

theorem Derives.arguments_ne_nil {lexemes : List Lexeme} {arguments : List Argument}
    (derived : Derives lexemes (.arguments arguments)) : arguments ≠ [] := by
  cases derived with
  | oneArgument => exact List.cons_ne_nil _ _
  | moreArguments => exact List.append_ne_nil_of_right_ne_nil _ (List.cons_ne_nil _ _)

theorem Derives.eq_nil_of_joined {lexemes : List Lexeme}
    (derived : Derives lexemes (.joined [])) : lexemes = [] := by
  generalize isNil : ([] : List Part) = parts at derived
  cases derived with
  | noParts => rfl
  | moreParts =>
      exact absurd isNil.symm (List.append_ne_nil_of_right_ne_nil _ (List.cons_ne_nil _ _))

/-- The only part of a selector is derived from its conditions. -/
theorem Derives.simple_of_one_part {lexemes : List Lexeme} {part : Part}
    (derived : Derives lexemes (.complex ⟨[part]⟩)) : Derives lexemes (.simple part.selector) := by
  generalize one : [part] = parts at derived
  cases derived with
  | @complex front lexemes others selector before derived =>
      rcases List.append_eq_singleton_iff.mp one.symm with ⟨rfl, same⟩ | ⟨-, none⟩
      · cases same
        rwa [before.eq_nil_of_joined]
      · exact absurd none (List.cons_ne_nil _ _)

theorem Derives.argument_of_one {lexemes : List Lexeme} {argument : Argument}
    (derived : Derives lexemes (.arguments [argument])) : Derives lexemes (.argument argument) := by
  generalize one : [argument] = arguments at derived
  cases derived with
  | oneArgument derived =>
      cases one
      exact derived
  | moreArguments before =>
      rcases List.append_eq_singleton_iff.mp one.symm with ⟨none, -⟩ | ⟨-, none⟩
      · exact absurd none before.arguments_ne_nil
      · exact absurd none (List.cons_ne_nil _ _)

/-- A native text alone is derived from its conditions with blanks around them. -/
theorem Derives.of_fragment {lexemes : List Lexeme} {text : String} {combinator : Combinator}
    (derived : Derives lexemes (.arguments [.selector ⟨[⟨⟨some text, []⟩, combinator⟩]⟩])) :
    ∃ before items after, lexemes = before ++ items ++ after ∧
      Blanks before ∧ Blanks after ∧ Derives items (.items text []) ∧ text ≠ "" := by
  cases derived.argument_of_one with
  | @selector before items after _ blanksBefore derived blanksAfter =>
      cases derived.simple_of_one_part with
      | native derived nonempty =>
          exact ⟨before, items, after, rfl, blanksBefore, blanksAfter, derived, nonempty⟩

/-- A selector ends with a blank or with what a condition ends with. -/
theorem Derives.last_of_selector {lexemes : List Lexeme} {selector : ComplexSelector}
    (derived : Derives lexemes (.argument (.selector selector))) :
    ∃ front last, lexemes = front ++ [last] ∧
      (last.token = .whitespace ∨ last.token.closesItem = true) := by
  cases derived with
  | @selector before inner after _ _ derived blanks =>
      cases derived with
      | @complex joined simple _ _ _ derived =>
          have conditions : ∃ front last, simple = front ++ [last] ∧
              last.token.closesItem = true := by
            cases derived with
            | native derived => exact derived.spans.2.1
            | engine derived => exact derived.spans.2.1
          obtain ⟨inner, last, rfl, closes⟩ := conditions
          by_cases empty : after = []
          · subst empty
            exact ⟨before ++ (joined ++ inner), last,
              by simp only [List.append_assoc, List.append_nil], Or.inr closes⟩
          · have whole := List.dropLast_concat_getLast empty
            refine ⟨before ++ (joined ++ (inner ++ [last])) ++ after.dropLast,
              after.getLast empty, ?_, Or.inl (blanks _ (List.getLast_mem empty))⟩
            rw [List.append_assoc _ after.dropLast, whole]

/-- A list of selectors ends like the last one of them. -/
theorem Derives.last_of_selectors {lexemes : List Lexeme} {selectors : List ComplexSelector}
    (derived : Derives lexemes (.arguments (selectors.map .selector))) :
    ∃ front last, lexemes = front ++ [last] ∧
      (last.token = .whitespace ∨ last.token.closesItem = true) := by
  have isSelector : ∀ argument ∈ selectors.map Argument.selector,
      ∃ selector, argument = .selector selector := by
    intro argument member
    obtain ⟨selector, -, same⟩ := List.mem_map.mp member
    exact ⟨selector, same.symm⟩
  generalize selectors.map Argument.selector = arguments at derived isSelector
  cases derived with
  | @oneArgument _ argument derived =>
      obtain ⟨selector, rfl⟩ := isSelector argument List.mem_cons_self
      exact derived.last_of_selector
  | @moreArguments front lexemes comma arguments argument _ _ derived =>
      obtain ⟨selector, rfl⟩ := isSelector argument (List.mem_append_right _ List.mem_cons_self)
      obtain ⟨inner, last, rfl, ends⟩ := derived.last_of_selector
      exact ⟨front ++ comma :: inner, last, by rw [List.append_assoc, List.cons_append], ends⟩

end Grammar

/-! ## The lexemes of a text -/

theorem Scan.length_name_le (text : List Char) :
    (name text).value.length ≤ (name text).source.length := by
  fun_induction name text with
  | case1 => exact Nat.le_refl _
  | case2 first rest continues ih => exact Nat.succ_le_succ ih
  | case3 first rest _ _ escaped ih =>
      simp only [Scan.map, Scan.after, List.cons_append, List.length_cons, List.length_append]
      omega
  | case4 => exact Nat.le_refl _

/-- The name in front of a parenthesis takes as much room as it is long. -/
theorem Scan.length_lt_of_function {first : Char} {text : List Char} {scan : Scan Recognized}
    {name : String} (found : token (first :: text) = some scan)
    (isFunction : scan.value.token = .function name) : name.length < scan.source.length := by
  have room := Scan.length_name_le (first :: text)
  obtain ⟨rfl, -⟩ := nameToken_of_named found (by rw [isFunction]; rfl)
  obtain ⟨called, -, same, rfl⟩ := exists_of_nameToken_function isFunction
  rw [same, String.length_ofList]
  simp only [Scan.after, List.length_append, List.length_singleton]
  omega

namespace Cuts

variable {text rest : List Char} {pieces : List Piece}

/-- The lexemes of pieces take room, and none ends the text. -/
theorem wide (cuts : Cuts text pieces rest) (offset : Nat) :
    ∀ lexeme ∈ place offset pieces, lexeme.token ≠ .endOfText ∧ lexeme.IsWide := by
  induction cuts generalizing offset with
  | done => exact fun _ member => absurd member List.not_mem_nil
  | piece skipped found whole _ ih =>
      refine List.forall_mem_cons.mpr ⟨⟨token_ne_endOfText found, ?_, ?_⟩, ih _⟩
      · rw [String.length_ofList]
        exact List.length_pos_iff.mpr (token_source_ne_nil found)
      · intro name isFunction
        rw [String.length_ofList]
        exact length_lt_of_function found isFunction

/-- A hyphen at the end of a text, comments apart, is no name. -/
theorem token_of_hyphen (cuts : Cuts text pieces rest) (atEnd : AreComments rest) {last : Piece}
    (isLast : last ∈ pieces.getLast?) (hyphen : last.source = ['-']) :
    last.token = .delim '-' := by
  induction cuts with
  | done => contradiction
  | @piece text gap behind rest first scan pieces skipped found whole others ih =>
      cases pieces with
      | nil =>
          cases isLast
          cases others
          have covers := token_covers found
          have hyphen : scan.source = ['-'] := hyphen
          unfold Covers at covers
          rw [hyphen] at covers
          rw [← covers] at found
          rcases atEnd.eq_nil_or with none | ⟨rest, comment⟩
          · rw [none] at found
            cases found
            rfl
          · rw [comment] at found
            cases found
            rfl
      | cons second pieces => exact ih atEnd (by rwa [List.getLast?_cons_cons] at isLast)

end Cuts

/-- The lexemes are no longer than the pieces with the comments between them. -/
theorem length_sources_place_le (offset : Nat) (pieces : List Piece) :
    (Grammar.sources (place offset pieces)).length ≤ extent pieces := by
  induction pieces generalizing offset with
  | nil => exact Nat.le_refl 0
  | cons piece pieces ih =>
      have others := ih (offset + piece.gap.length + piece.source.length)
      rw [place, Grammar.sources_cons, String.length_append, String.length_ofList, extent]
      omega

/-- What the reader sees of a piece. -/
def Piece.symbol (piece : Piece) : Symbol :=
  ⟨piece.token.letter, String.ofList piece.source⟩

theorem map_symbol_place (offset : Nat) (pieces : List Piece) :
    (place offset pieces).map Lexeme.symbol = pieces.map Piece.symbol := by
  induction pieces generalizing offset with
  | nil => rfl
  | cons piece pieces ih => exact congrArg (List.cons _) (ih _)

/-- Reading does not see where lexemes stand. -/
theorem State.run_place_congr (pieces : List Piece) (state : State) (offset offset' : Nat) :
    state.run (place offset pieces) = state.run (place offset' pieces) :=
  run_congr ((map_symbol_place offset pieces).trans (map_symbol_place offset' pieces).symm) state

/-! ## What is parsed -/

/-- What is parsed as a selector list is read from the lexemes of the text. -/
theorem exists_lexemes_of_parseSelector {text : String} {list : SelectorList}
    (parses : parseSelector text = .ok list) :
    ∃ lexemes, tokenize text = .ok lexemes ∧
      readArguments text lexemes = .ok (list.selectors.map .selector) := by
  have reads := parseSelector_eq_ok_iff.mp parses
  unfold parseArguments lexemesOf at reads
  cases cut : tokenize text with
  | error error =>
      rw [cut] at reads
      contradiction
  | ok lexemes =>
      rw [cut] at reads
      exact ⟨lexemes, rfl, reads⟩

/-- The lexemes that are read as an argument list, in front of the end of the text, derive
it. -/
theorem derives_of_readArguments {selector : String} {front : List Lexeme} {offset : Nat}
    {arguments : List Argument} (endless : ∀ lexeme ∈ front, lexeme.token ≠ .endOfText)
    (reads : readArguments selector (front ++ [Lexeme.endAt offset]) = .ok arguments) :
    Grammar.Derives front (.arguments arguments) := by
  have supported := supported_of_accepts ⟨arguments, reads⟩
  have none : beforeEnd [Lexeme.endAt offset] = [] := rfl
  rw [readArguments_of_supported selector supported, beforeEnd_append endless, none,
    List.append_nil] at reads
  rw [← Grammar.read_eq_ok_iff_derives]
  split at reads
  · contradiction
  · cases reads
    assumption

/-- A text of selectors is cut into pieces that derive them; nothing at its end is cut off. -/
theorem exists_cuts_of_parseSelector {text : String} {list : SelectorList}
    (parses : parseSelector text = .ok list) :
    ∃ pieces trail, Cuts text.toList pieces trail ∧
      tokenize text = .ok (place 0 pieces ++ [Lexeme.endAt text.length]) ∧
      (∀ lexeme ∈ place 0 pieces, lexeme.token.isSupported = true) ∧
      Grammar.Derives (place 0 pieces) (.arguments (list.selectors.map .selector)) := by
  obtain ⟨lexemes, cut, reads⟩ := exists_lexemes_of_parseSelector parses
  obtain ⟨noFailure, isRun⟩ := tokenize_eq_ok_iff.mp cut
  have supported := supported_of_accepts ⟨_, reads⟩
  obtain ⟨front, isFront, endless⟩ := (Run.tiles_of_failure_eq_none 0 text.toList noFailure).ending
  rw [isRun] at isFront
  rw [isFront] at reads
  have derived := derives_of_readArguments endless reads
  have quiet : (Run.ofText 0 text.toList).warnings = [] := by
    cases Run.marks 0 text.toList with
    | nothing quiet _ => exact quiet
    | @last earlier cutOff construct value _ _ isLast isToken _ _ =>
        -- What is cut off is the last token, and no string ends a condition.
        rw [isRun] at isLast
        obtain ⟨inner, last, isInner, ends⟩ := derived.last_of_selectors
        have same : earlier ++ [cutOff] ++ [Lexeme.endAt (0 + text.toList.length)] =
            inner ++ [last] ++ [Lexeme.endAt (0 + text.toList.length)] := by
          rw [← isInner, ← isFront, isLast, List.append_assoc]
          rfl
        have sameFront := (List.append_inj' same rfl).1
        have sameLast := List.cons.inj (List.append_inj' sameFront rfl).2
        rw [← sameLast.1, isToken] at ends
        have allowed := supported cutOff
          (by rw [isLast]; exact List.mem_append_right _ List.mem_cons_self)
        rw [isToken] at allowed
        cases construct with
        | string => rcases ends with blank | closes <;> contradiction
        | address => contradiction
  obtain ⟨pieces, trail, cuts, atEnd, isPlaced⟩ := exists_cuts 0 text.toList noFailure quiet
  rw [isRun, isFront] at isPlaced
  have placed := (List.append_inj' isPlaced rfl).1
  subst placed
  refine ⟨pieces, trail, cuts, tokenize_of_cuts cuts atEnd,
    fun lexeme member => supported lexeme ?_, derived⟩
  rw [isFront]
  exact List.mem_append_left _ member

section Fragment

variable {text : String} {combinator : Combinator}

/-- A native text that stands in a text as some pieces, which are read as conditions. -/
structure FragmentPieces (text : String) (pieces : List Piece) : Prop where
  written : Written text.toList pieces
  starts : StartsVisibly text.toList
  nonempty : text ≠ ""
  reads : ∀ offset, (Grammar.Phrase.items text []).IsRead (place offset pieces)

/-- Where the lexemes of a native text derive it, there is nothing else in it. -/
theorem items_of_cuts {pieces : List Piece} {trail : List Char}
    (cuts : Cuts text.toList pieces trail)
    (derived : Grammar.Derives (place 0 pieces)
      (.arguments [.selector ⟨[⟨⟨some text, []⟩, combinator⟩]⟩])) :
    Grammar.Derives (place 0 pieces) (.items text []) ∧ text ≠ "" ∧ trail = [] ∧
      ∀ first ∈ pieces.head?, first.gap = [] := by
  obtain ⟨before, items, after, whole, -, -, derived, nonempty⟩ := derived.of_fragment
  have wide (lexeme : Lexeme) (member : lexeme ∈ place 0 pieces) : lexeme.IsWide :=
    (cuts.wide 0 lexeme member).2
  rw [whole] at wide
  have room := derived.spans.2.2 fun lexeme member =>
    wide lexeme (List.mem_append_left _ (List.mem_append_right _ member))
  have total := cuts.length_eq
  rw [String.length_toList] at total
  have least := length_sources_place_le 0 pieces
  have sum := congrArg (fun lexemes => (Grammar.sources lexemes).length) whole
  simp only [Grammar.sources_append, String.length_append] at sum
  -- The conditions alone are as long as the text, so that nothing else in it takes room.
  have noneBefore : before = [] := Grammar.eq_nil_of_sources
    (fun lexeme member => wide lexeme (List.mem_append_left _ (List.mem_append_left _ member)))
    (by omega)
  have noneAfter : after = [] := Grammar.eq_nil_of_sources
    (fun lexeme member => wide lexeme (List.mem_append_right _ member)) (by omega)
  have noTrail : trail = [] := List.eq_nil_of_length_eq_zero (by omega)
  subst noneBefore noneAfter
  rw [List.nil_append, List.append_nil] at whole
  refine ⟨whole ▸ derived, nonempty, noTrail, ?_⟩
  intro first isFirst
  cases pieces with
  | nil => cases isFirst
  | cons piece pieces =>
      cases isFirst
      have others := length_sources_place_le (0 + first.gap.length + first.source.length) pieces
      have sources := congrArg (fun lexemes => (Grammar.sources lexemes).length) whole
      simp only [place, Grammar.sources_cons, String.length_append, String.length_ofList]
        at sources
      rw [extent] at total
      exact List.eq_nil_of_length_eq_zero (by omega)

/-- A native text starts with a character that is seen. -/
theorem startsVisibly_of_cuts {pieces : List Piece} (cuts : Cuts text.toList pieces [])
    (derived : Grammar.Derives (place 0 pieces) (.items text []))
    (noGap : ∀ first ∈ pieces.head?, first.gap = []) : StartsVisibly text.toList := by
  obtain ⟨⟨lexeme, rest, isCons, visible⟩, -⟩ := derived.spans
  generalize text.toList = characters at cuts ⊢
  cases cuts with
  | done => contradiction
  | @piece _ gap behind _ first scan others skipped found =>
      have none : gap = [] := noGap _ rfl
      subst none
      have covers := comments_covers characters
      rw [skipped] at covers
      refine ⟨first, behind, covers.symm, ?_⟩
      rw [← Bool.not_eq_true]
      intro blank
      rw [token, opening_of_blank blank] at found
      cases found
      cases isCons
      exact visible rfl

/-- A native text is cut alike in front of every boundary. -/
theorem separable_of_cuts {pieces : List Piece} {tail : List Char}
    (noBackslash : '\\' ∉ text.toList) (cuts : Cuts text.toList pieces [])
    (supported : ∀ lexeme ∈ place 0 pieces, lexeme.token.isSupported = true)
    (derived : Grammar.Derives (place 0 pieces) (.items text [])) (boundary : Boundary tail) :
    Separable text.toList pieces tail := by
  obtain ⟨-, ⟨inner, lexeme, isLast, closes⟩, -⟩ := derived.spans
  have closing (piece : Piece) (last : piece ∈ pieces.getLast?) :
      piece.token.closesItem = true := by
    obtain ⟨front, rfl⟩ := List.getLast?_eq_some_iff.mp last
    rw [place_append] at isLast
    have same := (List.cons.inj (List.append_inj' isLast rfl).2).1
    rw [← same] at closes
    exact closes
  refine ⟨boundary.quiet, ?_, ?_, fun _ => ⟨endsOpen_of_noBackslash noBackslash, ?_⟩, ?_⟩
  · exact (forall_mem_place (·.isSupported = true) 0).mp supported
  · intro last
    exact noBackslash (List.mem_of_getLast? last)
  · intro piece last blank
    have closes := closing piece last
    rw [blank] at closes
    contradiction
  · intro piece last hyphen
    have closes := closing piece last
    rw [cuts.token_of_hyphen areComments_nil last hyphen] at closes
    contradiction

theorem IsFragment.exists_pieces (fragment : IsFragment text) :
    ∃ pieces, FragmentPieces text pieces := by
  obtain ⟨noBackslash, combinator, parses⟩ := fragment
  obtain ⟨pieces, trail, cuts, -, supported, derived⟩ := exists_cuts_of_parseSelector parses
  obtain ⟨derived, nonempty, rfl, noGap⟩ := items_of_cuts cuts derived
  refine ⟨pieces, ⟨fun tail boundary => ?_, ?_, ?_⟩, startsVisibly_of_cuts cuts derived noGap,
    nonempty, fun offset state level isPlace => ?_⟩
  · exact cuts.in_front_of (separable_of_cuts noBackslash cuts supported derived boundary)
  · exact (forall_mem_place (·.isSupported = true) 0).mp supported
  · exact (forall_mem_place (· ≠ .endOfText) 0).mp fun lexeme member =>
      (cuts.wide 0 lexeme member).1
  · rw [State.run_place_congr pieces state offset 0]
    exact derived.isRead state level isPlace

end Fragment

end SelectorLang
