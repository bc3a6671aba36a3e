import SelectorLang.Proofs.Scan.PlainName
import SelectorLang.Proofs.Tokenizer.Comments

/-! # Cutting the front of a text

That the front of a text is cut into some pieces, in front of a certain rest, composes
(`SelectorLang.Cuts.append`) and says what a run comes to (`SelectorLang.Cuts.run_eq`).
A text that is cut to its end is cut alike in front of a quiet text
(`SelectorLang.Cuts.in_front_of`).
-/

namespace SelectorLang

open Scan CodePoint

/-- A token with the text it was read from and the comments in front of it. -/
structure Piece where
  /-- The comments. -/
  gap : List Char
  /-- The token. -/
  token : Token
  /-- The text. -/
  source : List Char

/-- The lexemes that pieces are from an offset on. -/
def place (offset : Nat) : List Piece → List Lexeme
  | [] => []
  | piece :: pieces =>
    ⟨piece.token, String.ofList piece.source, offset + piece.gap.length⟩ ::
      place (offset + piece.gap.length + piece.source.length) pieces

/-- How many characters pieces are long. -/
def extent : List Piece → Nat
  | [] => 0
  | piece :: pieces => piece.gap.length + piece.source.length + extent pieces

theorem extent_append (front pieces : List Piece) :
    extent (front ++ pieces) = extent front + extent pieces := by
  induction front with
  | nil => exact (Nat.zero_add _).symm
  | cons piece front ih => rw [List.cons_append, extent, extent, ih, ← Nat.add_assoc]

theorem place_append (offset : Nat) (front pieces : List Piece) :
    place offset (front ++ pieces) =
      place offset front ++ place (offset + extent front) pieces := by
  induction front generalizing offset with
  | nil => rfl
  | cons piece front ih =>
      simp only [List.cons_append, place, extent, ih]
      rw [Nat.add_assoc, Nat.add_assoc, Nat.add_assoc]

/-- The tokens of the lexemes are those of the pieces, wherever these are placed. -/
theorem forall_mem_place (Holds : Token → Prop) {pieces : List Piece} (offset : Nat) :
    (∀ lexeme ∈ place offset pieces, Holds lexeme.token) ↔
      ∀ piece ∈ pieces, Holds piece.token := by
  induction pieces generalizing offset with
  | nil => exact ⟨fun _ => List.forall_mem_nil _, fun _ => List.forall_mem_nil _⟩
  | cons piece pieces ih =>
      rw [place, List.forall_mem_cons, List.forall_mem_cons, ih]

/-- The front of a text is cut into pieces, none of which the end of the text cuts off,
in front of a rest. -/
inductive Cuts : List Char → List Piece → List Char → Prop
  | done (text : List Char) : Cuts text [] text
  | piece {text gap behind rest : List Char} {first : Char} {scan : Scan Recognized}
      {pieces : List Piece} (skipped : comments text = ⟨true, gap, first :: behind⟩)
      (found : token (first :: behind) = some scan) (whole : scan.value.cutOff = none)
      (others : Cuts scan.rest pieces rest) :
      Cuts text (⟨gap, scan.value.token, scan.source⟩ :: pieces) rest

/-- The run that has cut some more lexemes before. -/
def Run.prepend (lexemes : List Lexeme) (run : Run) : Run :=
  ⟨run.failure, lexemes ++ run.lexemes, run.warnings, run.remaining, run.offset⟩

namespace Cuts

variable {text rest : List Char} {pieces : List Piece}

theorem append {middle : List Char} {front : List Piece} (cuts : Cuts text front middle)
    (others : Cuts middle pieces rest) : Cuts text (front ++ pieces) rest := by
  induction cuts with
  | done => exact others
  | piece skipped found whole _ ih => exact .piece skipped found whole (ih others)

/-- A run first cuts the pieces. -/
theorem run_eq (cuts : Cuts text pieces rest) (offset : Nat) :
    Run.ofText offset text =
      (Run.ofText (offset + extent pieces) rest).prepend (place offset pieces) := by
  induction cuts generalizing offset with
  | done => rfl
  | piece skipped found whole _ ih =>
      rw [Run.ofText_of_token skipped found, ih, whole]
      simp only [extent, place, Nat.add_assoc]
      rfl

/-- The pieces and the rest make up the text. -/
theorem length_eq (cuts : Cuts text pieces rest) : text.length = extent pieces + rest.length := by
  induction cuts with
  | done => exact (Nat.zero_add _).symm
  | @piece text gap behind rest first scan pieces skipped found _ _ ih =>
      have covers := congrArg List.length (comments_covers text)
      have tokenCovers := congrArg List.length (token_covers found)
      rw [skipped] at covers
      simp only [List.length_append] at covers tokenCovers
      simp only [extent]
      omega

end Cuts

/-- A text that is cut into pieces up to the comments at its end has those lexemes. -/
theorem tokenize_of_cuts {text : String} {pieces : List Piece} {trail : List Char}
    (cuts : Cuts text.toList pieces trail) (atEnd : comments trail = ⟨true, trail, []⟩) :
    tokenize text = .ok (place 0 pieces ++ [Lexeme.endAt text.length]) := by
  have length := cuts.length_eq
  rw [String.length_toList] at length
  rw [tokenize_eq_ok_iff, cuts.run_eq 0, Run.ofText_of_end atEnd, Nat.zero_add, ← length]
  exact ⟨rfl, rfl⟩

/-- A run to the end of the text that warns of nothing has cut the text into pieces up to
the comments at its end. -/
theorem exists_cuts (offset : Nat) (text : List Char) :
    (Run.ofText offset text).failure = none → (Run.ofText offset text).warnings = [] →
      ∃ pieces trail, Cuts text pieces trail ∧ comments trail = ⟨true, trail, []⟩ ∧
        (Run.ofText offset text).lexemes =
          place offset pieces ++ [Lexeme.endAt (offset + text.length)] := by
  refine Run.ofText_induction (motive := fun offset text run =>
    run.failure = none → run.warnings = [] →
      ∃ pieces trail, Cuts text pieces trail ∧ comments trail = ⟨true, trail, []⟩ ∧
        run.lexemes = place offset pieces ++ [Lexeme.endAt (offset + text.length)])
    ?unterminated ?ends ?stray ?lexeme offset text
  case unterminated =>
    intro offset text _ succeeds
    contradiction
  case stray =>
    intro offset text gap first rest _ _ succeeds
    contradiction
  case ends =>
    intro offset text gap skipped _ _
    have covers := comments_covers text
    rw [skipped] at covers
    have whole : gap = text := (List.append_nil gap).symm.trans covers
    subst whole
    exact ⟨[], gap, .done gap, skipped, rfl⟩
  case lexeme =>
    intro offset text gap first rest scan skipped found ih succeeds quiet
    obtain ⟨noWarning, quiet⟩ := List.append_eq_nil_iff.mp quiet
    have whole : scan.value.cutOff = none := by
      cases cutOff : scan.value.cutOff with
      | none => rfl
      | some construct =>
          rw [cutOff] at noWarning
          contradiction
    obtain ⟨pieces, trail, cuts, atEnd, lexemes⟩ := ih succeeds quiet
    refine ⟨⟨gap, scan.value.token, scan.source⟩ :: pieces, trail,
      .piece skipped found whole cuts, atEnd, ?_⟩
    have covers := congrArg List.length (comments_covers text)
    have tokenCovers := congrArg List.length (token_covers found)
    rw [skipped] at covers
    simp only [List.length_append] at covers tokenCovers
    have length : offset + gap.length + scan.source.length + scan.rest.length =
        offset + text.length := by omega
    rw [length] at lexemes
    exact congrArg (List.cons _) lexemes

/-! ## A text in front of another one -/

/-- What stands behind characters of a class stays there when some of these are dropped. -/
theorem dropWhile_drop {member : Char → Bool} {text : List Char} {count : Nat}
    (few : count ≤ (text.takeWhile member).length) :
    (text.drop count).dropWhile member = text.dropWhile member := by
  induction count generalizing text with
  | zero => rfl
  | succ count ih =>
      cases text with
      | nil => rfl
      | cons first text =>
          by_cases belongs : member first = true
          · rw [List.takeWhile_cons_of_pos belongs, List.length_cons] at few
            rw [List.drop_succ_cons, ih (Nat.le_of_succ_le_succ few),
              List.dropWhile_cons_of_pos belongs]
          · rw [List.takeWhile_cons_of_neg belongs] at few
            exact absurd few (Nat.not_succ_le_zero count)

/-- An address function is one because of a quote behind its blanks. -/
theorem quoted_of_token {first : Char} {text : List Char} {scan : Scan Recognized}
    (found : token (first :: text) = some scan) (name : String)
    (isFunction : scan.value.token = .function name)
    (isUrl : name.toList.map Char.toLower = ['u', 'r', 'l']) :
    (scan.rest.dropWhile isBlank).head?.any isQuote = true := by
  obtain ⟨rfl, -⟩ := nameToken_of_named found (by rw [isFunction]; rfl)
  obtain ⟨called, -, same, rfl⟩ := exists_of_nameToken_function isFunction
  rw [String.toList_ofList] at isUrl
  rw [same, callToken] at isFunction ⊢
  dsimp only [Scan.after] at isFunction ⊢
  rw [if_pos isUrl] at isFunction ⊢
  by_cases quote : (called.dropWhile isBlank).head?.any isQuote = true
  · rw [if_pos quote, fixed]
    dsimp only
    rwa [dropWhile_drop (Nat.sub_le _ _)]
  · rw [if_neg quote] at isFunction
    have isAddress := isAddress_of_addressToken called
    rw [isFunction] at isAddress
    contradiction

/-- The conditions under which a text that is cut to its end is cut alike in front of
another text. -/
structure Separable (text : List Char) (pieces : List Piece) (tail : List Char) : Prop where
  /-- No token goes on with the other text, blanks apart. -/
  quiet : Quiet tail
  /-- The tokens are supported. -/
  supported : ∀ piece ∈ pieces, piece.token.isSupported = true
  /-- No backslash at the end is left to escape what follows. -/
  escaped : text.getLast? ≠ some '\\'
  /-- In front of a blank, no escape and no blank can go on. -/
  blank : tail.head?.any isBlank = true →
    endsOpen text = false ∧ ∀ piece ∈ pieces.getLast?, piece.token ≠ .whitespace
  /-- A hyphen at the end is no name. -/
  hyphen : ∀ piece ∈ pieces.getLast?, piece.source = ['-'] →
    continuesHyphen (tail.drop 1) = false

theorem Cuts.eq_nil {pieces : List Piece} {rest : List Char} (cuts : Cuts [] pieces rest) :
    pieces = [] ∧ rest = [] := by
  cases cuts with
  | done => exact ⟨rfl, rfl⟩
  | piece skipped =>
      rw [comments_of_none rfl] at skipped
      cases skipped

theorem mem_getLast?_cons {piece last : Piece} {pieces : List Piece}
    (isLast : last ∈ pieces.getLast?) : last ∈ (piece :: pieces).getLast? := by
  cases pieces with
  | nil => contradiction
  | cons second pieces => rwa [List.getLast?_cons_cons]

/-- What a token leaves is separable where the text is. -/
theorem Separable.rest {taken rest tail : List Char} {piece : Piece} {pieces : List Piece}
    (separable : Separable (taken ++ rest) (piece :: pieces) tail) :
    Separable rest pieces tail where
  quiet := separable.quiet
  supported other member := separable.supported other (.tail _ member)
  escaped := getLast?_append_ne separable.escaped
  blank isBlank := by
    obtain ⟨closed, noBlank⟩ := separable.blank isBlank
    exact ⟨endsOpen_of_append closed, fun last isLast => noBlank last (mem_getLast?_cons isLast)⟩
  hyphen last isLast := separable.hyphen last (mem_getLast?_cons isLast)

/-- The first token of a separable text is the same in front of the other text. -/
theorem Separable.tokenEnds {gap behind tail : List Char} {first : Char} {scan : Scan Recognized}
    {pieces : List Piece} (found : token (first :: behind) = some scan)
    (whole : scan.value.cutOff = none) (atEnd : scan.rest = [] → pieces = [])
    (separable : Separable (gap ++ first :: behind) (⟨gap, scan.value.token, scan.source⟩ :: pieces)
      tail) :
    TokenEnds scan scan.rest [] tail := by
  have covers := token_covers found
  unfold Covers at covers
  have supported := separable.supported _ List.mem_cons_self
  have last (noRest : scan.rest = []) :
      (⟨gap, scan.value.token, scan.source⟩ : Piece) ∈
        (⟨gap, scan.value.token, scan.source⟩ :: pieces).getLast? := by
    rw [atEnd noRest]
    rfl
  refine ⟨separable.quiet, ⟨separable.quiet.endsName, separable.quiet.escapes_eq, ?_, ?_,
    fun _ => rfl⟩, ?_, whole, ?_, ?_, ?_, ?_⟩
  · intro noRest isBlank
    have closed := endsOpen_of_append (separable.blank isBlank).1
    rwa [← covers, noRest, List.append_nil] at closed
  · intro _ noRest
    rw [noRest, List.append_nil] at covers
    rw [covers]
    exact getLast?_append_ne separable.escaped
  · intro noRest isBlank
    exact (separable.blank isBlank).2 _ (last noRest)
  · rintro - isBad
    rw [isBad] at supported
    contradiction
  · intro isAddress
    cases token : scan.value.token <;> rw [token] at supported isAddress <;> contradiction
  · intro name isFunction isUrl noQuote
    have quote := quoted_of_token found name isFunction isUrl
    rw [noQuote] at quote
    contradiction
  · intro hyphen _
    rw [List.append_nil]
    rw [covers] at hyphen ⊢
    cases hyphen
    cases behind with
    | cons second behind =>
        exact (continuesHyphen_congr separable.quiet.endsName separable.quiet.escapes_eq
          (fun _ => rfl) (fun _ => rfl)).trans
          (by rw [List.append_nil]; rfl)
    | nil =>
        have nonempty := List.length_pos_iff.mpr (token_source_ne_nil found)
        have lengths := congrArg List.length covers
        rw [List.length_append] at lengths
        have noRest : scan.rest = [] := List.eq_nil_of_length_eq_zero (by
          simp only [List.length_cons, List.length_nil] at lengths
          omega)
        rw [noRest, List.append_nil] at covers
        exact separable.hyphen _ (last noRest) covers

/-- **A text that is cut to its end is cut alike in front of a quiet text.** -/
theorem Cuts.in_front_of {text trail tail : List Char} {pieces : List Piece}
    (cuts : Cuts text pieces trail) (separable : Separable text pieces tail) :
    Cuts (text ++ tail) pieces (trail ++ tail) := by
  induction cuts with
  | done => exact .done _
  | @piece text gap behind trail first scan pieces skipped found whole others ih =>
      have skipped' := @comments_tail text [] tail gap behind first separable.quiet
        (by simpa only [List.append_nil] using skipped)
      have covers := comments_covers text
      rw [skipped] at covers
      have whole' : gap ++ first :: behind = text := covers
      rw [← whole'] at separable
      have atEnd (noRest : scan.rest = []) : pieces = [] := by
        rw [noRest] at others
        exact others.eq_nil.1
      have found' := @token_tail behind scan.rest [] tail first scan
        (by simpa only [List.append_nil] using found) (List.append_nil _).symm
        (separable.tokenEnds found whole atEnd)
      have tokenCovers : scan.source ++ scan.rest = first :: behind := token_covers found
      rw [← tokenCovers, ← List.append_assoc] at separable
      exact @Cuts.piece (text ++ tail) gap (behind ++ tail) (trail ++ tail) first
        (scan.leaving (scan.rest ++ tail)) pieces skipped' found' whole (ih separable.rest)

end SelectorLang
