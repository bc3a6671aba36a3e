import SelectorLang.Proofs.Parsing.CommentInsertion

/-! # Texts of one token

A lexeme cut out of its text is the same lexeme when it stands alone
(`SelectorLang.isOneToken_of_mem`), except for those that look beyond their own characters. The
hyphen in `-(` is one of them (`SelectorLang.not_isOneToken_of_calledHyphen`).
-/

namespace SelectorLang

open Scan CodePoint

/-- A whole text is one token. -/
def IsOneToken (text : String) (token : Token) : Prop :=
  tokenize text = .ok [⟨token, text, 0⟩, Lexeme.endAt text.length]

instance (text : String) (token : Token) : Decidable (IsOneToken text token) :=
  inferInstanceAs (Decidable (tokenize text = .ok _))

/-- A text is one token when the token at its front takes all of it. -/
theorem isOneToken_of_token {text : String} {characters : List Char} {recognized : Recognized}
    (isText : text.toList = characters) (nonempty : characters ≠ [])
    (noComment : commentStarts characters = false)
    (found : token characters = some ⟨recognized, characters, []⟩) :
    IsOneToken text recognized.token := by
  obtain ⟨first, behind, rfl⟩ := List.exists_cons_of_ne_nil nonempty
  have run := @Run.ofText_of_token 0 _ _ _ _ _ (comments_of_none noComment) found
  rw [← isText, Run.ofText_of_end (comments_of_none rfl)] at run
  rw [IsOneToken, tokenize_eq_ok_iff, run]
  simp only [Run.cons, Run.stop, String.ofList_toList, String.length_toList, List.length_nil,
    Nat.zero_add, Nat.add_zero, and_self]

theorem isOneToken_of_cons {text : String} {first : Char} {behind : List Char}
    {recognized : Recognized} (isText : text.toList = first :: behind) (noSlash : first ≠ '/')
    (found : token (first :: behind) = some ⟨recognized, first :: behind, []⟩) :
    IsOneToken text recognized.token :=
  isOneToken_of_token isText (List.cons_ne_nil _ _)
    (commentStarts_of_head fun slash => noSlash (Option.some.inj slash)) found

/-! ## The place where a lexeme was read -/

/-- Each lexeme is the token at its place in the text, where no comment starts. -/
theorem Run.exists_place_of_mem (offset : Nat) (text : List Char) :
    ∀ lexeme ∈ (ofText offset text).lexemes, lexeme.token ≠ .endOfText →
      ∃ front first behind scan, text = front ++ first :: behind ∧
        lexeme.offset = offset + front.length ∧ commentStarts (first :: behind) = false ∧
          token (first :: behind) = some scan ∧ lexeme.token = scan.value.token ∧
            lexeme.source = String.ofList scan.source := by
  refine ofText_induction (motive := fun offset text run =>
    ∀ lexeme ∈ run.lexemes, lexeme.token ≠ .endOfText →
      ∃ front first behind scan, text = front ++ first :: behind ∧
        lexeme.offset = offset + front.length ∧ commentStarts (first :: behind) = false ∧
          token (first :: behind) = some scan ∧ lexeme.token = scan.value.token ∧
            lexeme.source = String.ofList scan.source)
    ?unterminated ?ends ?stray ?lexeme offset text
  case unterminated => exact fun _ _ _ _ member => absurd member List.not_mem_nil
  case stray => exact fun _ _ _ _ _ _ _ _ member => absurd member List.not_mem_nil
  case ends =>
    intro offset text gap _ lexeme member notEnd
    rw [List.mem_singleton.mp member] at notEnd
    exact absurd rfl notEnd
  case lexeme =>
    intro offset text gap first rest scan skipped found ih lexeme member notEnd
    have covers := comments_covers text
    rw [skipped] at covers
    rcases List.mem_cons.mp member with rfl | later
    · exact ⟨gap, first, rest, scan, covers.symm, rfl, (areComments_of_comments skipped).2.1,
        found, rfl, rfl⟩
    · obtain ⟨front, next, behind, other, left, stands, noComment⟩ := ih lexeme later notEnd
      refine ⟨gap ++ (scan.source ++ front), next, behind, other, ?_, ?_, noComment⟩
      · rw [List.append_assoc, List.append_assoc, ← left, token_covers found]
        exact covers.symm
      · rw [stands]
        simp only [List.length_append, Nat.add_assoc]

theorem commentStarts_of_append {text tail : List Char}
    (none : commentStarts (text ++ tail) = false) : commentStarts text = false := by
  refine Bool.eq_false_iff.mpr fun starts => ?_
  obtain ⟨behind, rfl⟩ := exists_of_commentStarts starts
  contradiction

/-! ## A lexeme alone -/

section Alone

variable {first : Char} {behind tail : List Char} {scan : Scan Recognized}
  (found : token (first :: (behind ++ tail)) = some scan) (source : scan.source = first :: behind)

include found source

/-- A backslash that ends a token behind a hyphen and one more character escapes something. -/
theorem escapes_of_source (hyphen : first = '-')
    (noNumber : numberStarts (first :: (behind ++ tail)) = false)
    (backslash : behind.drop 1 = ['\\']) : escapes tail = true := by
  subst hyphen
  cases stray : escapes tail with
  | true => rfl
  | false =>
      match behind with
      | [] => contradiction
      | second :: behind =>
          rw [List.drop_succ_cons, List.drop_zero] at backslash
          subst backslash
          have noArrow : (second :: '\\' :: tail).take 2 ≠ ['-', '>'] := by
            intro arrow
            cases arrow
          have alone := eq_hyphenToken found noNumber
          rw [List.cons_append, List.singleton_append, hyphenToken, if_neg noArrow,
            if_neg fun named => Bool.false_ne_true (stray ▸ named.2)] at alone
          rw [alone] at source
          cases source

/-- A token that looks no further than its own characters is the same in front of nothing. -/
theorem tokenEnds_alone (rest : scan.rest = tail) (goesOn : tail ≠ [])
    (unbroken : scan.value.token ≠ .badString)
    (unquoted : ∀ name, scan.value.token = .function name →
      name.toList.map Char.toLower ≠ ['u', 'r', 'l'])
    (noName : ∀ name, scan.value.token = .ident name → scan.source ≠ ['-'])
    (noCall : scan.source ≠ ['-', '(']) : TokenEnds scan [] tail [] := by
  have noBlank : ¬ ([] : List Char).head?.any isBlank = true := Bool.false_ne_true
  have noBackslash : ¬ (([] : List Char) = ['\\'] ∨ ([] : List Char) = ['-', '\\']) := by
    rintro (same | same) <;> cases same
  refine ⟨quiet_nil, ⟨endsName_nil, rfl, fun _ blank => absurd blank noBlank,
    fun none => absurd none goesOn, fun escape => absurd escape noBackslash⟩,
    fun _ blank => absurd blank noBlank, ?_, fun _ => unbroken, fun _ => goesOn, ?_, ?_⟩
  · cases cutOff : scan.value.cutOff with
    | none => rfl
    | some construct =>
        exact absurd (rest.symm.trans (token_of_cutOff found cutOff).1) goesOn
  · exact fun name isFunction isUrl => absurd isUrl (unquoted name isFunction)
  · intro hyphen noNumber
    have front : scan.source ++ [] = first :: behind := (List.append_nil _).trans source
    rw [front] at hyphen noNumber ⊢
    cases hyphen
    exact continuesHyphen_tail found noNumber front quiet_nil (fun _ _ => rfl) noName
      (fun _ _ => noCall) (escapes_of_source found source rfl noNumber)

/-- Such a token is the same when nothing stands behind it. -/
theorem token_alone (rest : scan.rest = tail)
    (ends : tail ≠ [] → TokenEnds scan [] tail []) :
    token scan.source = some (scan.leaving []) := by
  rw [source]
  by_cases atEnd : tail = []
  · subst atEnd
    rw [List.append_nil] at found
    rw [found, leaving, ← rest]
  · have alone := @token_tail behind [] tail [] first scan found rest (ends atEnd)
    rwa [List.append_nil] at alone

end Alone

/-- **A lexeme that looks no further than its own characters is the same alone**: its source
is one token, of the same kind and with the same values. A hyphen called as a function is the
exception. -/
theorem isOneToken_of_mem {text : String} {lexemes : List Lexeme} {lexeme : Lexeme}
    (cut : tokenize text = .ok lexemes) (member : lexeme ∈ lexemes)
    (notEnd : lexeme.token ≠ .endOfText) (plain : lexeme.isPlain = true)
    (noCall : lexeme.source ≠ "-(") : IsOneToken lexeme.source lexeme.token := by
  obtain ⟨-, rfl⟩ := tokenize_eq_ok_iff.mp cut
  obtain ⟨-, first, rest, scan, -, -, noComment, found, token, source⟩ :=
    Run.exists_place_of_mem 0 text.toList lexeme member notEnd
  obtain ⟨character, behind, isSource⟩ := List.exists_cons_of_ne_nil (token_source_ne_nil found)
  have covers : scan.source ++ scan.rest = first :: rest := token_covers found
  rw [← covers, isSource, List.cons_append] at found
  rw [← covers] at noComment
  rw [Lexeme.isPlain, token, source] at plain
  rw [source] at noCall
  have alone := token_alone found isSource rfl fun goesOn => by
    refine tokenEnds_alone found isSource rfl goesOn ?unbroken ?unquoted ?noName ?noCall
    case unbroken =>
      intro isBroken
      rw [isBroken] at plain
      contradiction
    case unquoted =>
      intro name isFunction isUrl
      rw [isFunction] at plain
      refine absurd (String.toList_injective ?_) (bne_iff_ne.mp plain)
      rw [toLower_eq_map, String.toList_map, isUrl]
      rfl
    case noName =>
      intro name isIdent hyphen
      rw [isIdent, hyphen] at plain
      contradiction
    case noCall =>
      intro hyphen
      rw [hyphen] at noCall
      exact noCall rfl
  have isText : lexeme.source.toList = scan.source := by rw [source, String.toList_ofList]
  rw [token]
  exact isOneToken_of_token isText (token_source_ne_nil found) (commentStarts_of_append noComment)
    alone

/-- The lexemes of `-\\|=1e-x`. -/
def escapedHyphen : List Lexeme :=
  [⟨.ident "-\\", "-\\\\", 0⟩, ⟨.matchOperator .dash, "|=", 3⟩,
    ⟨.dimension (.ofRatio false 1 1) "e-x", "1e-x", 5⟩, Lexeme.endAt 9]

theorem escapedHyphen_isOneToken :
    tokenize "-\\\\|=1e-x" = .ok escapedHyphen ∧
      IsOneToken "-\\\\" (.ident "-\\") := by
  have cut : tokenize "-\\\\|=1e-x" = .ok escapedHyphen :=
    tokenize_eq_ok_iff.mpr (by decide +kernel)
  have alone := isOneToken_of_mem cut List.mem_cons_self Token.noConfusion (by decide) (by decide)
  exact ⟨cut, alone⟩

/-- The function `-(` is two tokens alone: its hyphen needs the character behind the
parenthesis to start a name. -/
theorem not_isOneToken_of_calledHyphen :
    tokenize "-(a" = .ok calledHyphen ∧ ⟨.function "-", "-(", 0⟩ ∈ calledHyphen ∧
      Plain calledHyphen ∧ ¬ IsOneToken "-(" (.function "-") :=
  ⟨tokenize_eq_ok_iff.mpr (by decide +kernel), by decide, by decide +kernel, by decide +kernel⟩

end SelectorLang
