import SelectorLang.Proofs.Tokenizer.Cuts

/-! # The front of a text in front of another rest

The pieces of the front of a text are the same in front of a quiet text
(`SelectorLang.Cuts.detach`). The exceptions are conditions
(`SelectorLang.Detached`): a hyphen looks two characters ahead, which is one too far, so that
the names `-` and `-(` come from what stands behind them.
-/

namespace SelectorLang

open Scan CodePoint

variable {tail tail' : List Char}

/-- What pieces leave stands at the end of the text. -/
theorem Cuts.exists_front {text rest : List Char} {pieces : List Piece}
    (cuts : Cuts text pieces rest) : ∃ front, text = front ++ rest := by
  induction cuts with
  | done => exact ⟨[], rfl⟩
  | @piece text gap behind rest first scan pieces skipped found _ _ ih =>
      obtain ⟨left, stays⟩ := ih
      obtain ⟨-, -, whole⟩ := areComments_of_comments skipped
      refine ⟨gap ++ (scan.source ++ left), ?_⟩
      have covers : scan.source ++ scan.rest = first :: behind := token_covers found
      rw [whole, ← covers, stays]
      simp only [List.append_assoc]

/-- Pieces take something. -/
theorem Cuts.pieces_eq_nil {pieces : List Piece} (cuts : Cuts tail pieces tail) : pieces = [] := by
  have length := cuts.length_eq
  cases cuts with
  | done => rfl
  | piece _ found =>
      have taken := List.length_pos_iff.mpr (token_source_ne_nil found)
      rw [extent] at length
      dsimp only at length
      omega

/-! ## Backslashes in front of a line feed -/

section Stray

variable {pieces : List Piece} (stray : escapes tail = false)

include stray

theorem exists_of_stray : ∃ behind, tail = '\n' :: behind := by
  cases tail with
  | nil => contradiction
  | cons first behind =>
      have isBreak : first = '\n' := by
        simpa [escapes] using stray
      exact ⟨behind, by rw [isBreak]⟩

theorem Cuts.false_of_stray (cuts : Cuts ('\\' :: tail) pieces tail) : False := by
  generalize isText : '\\' :: tail = text at cuts
  cases cuts with
  | done => exact List.cons_ne_self _ _ isText
  | @piece _ gap behind _ first scan _ skipped found =>
      subst isText
      rw [comments_of_none (by rfl)] at skipped
      cases skipped
      rw [token, opening_of_stray stray] at found
      contradiction

/-- A character in front of a backslash that does not escape is a token of its own, or
opens a string. -/
theorem token_in_front_of_stray {first : Char} {scan : Scan Recognized}
    (other : first ≠ '\\') (found : token (first :: '\\' :: tail) = some scan) :
    scan.rest = '\\' :: tail ∨ scan.rest.length < tail.length := by
  obtain ⟨behind, rfl⟩ := exists_of_stray stray
  have noName : name ('\\' :: '\n' :: behind) = ⟨[], [], '\\' :: '\n' :: behind⟩ :=
    name_of_stops rfl fun escape => Bool.false_ne_true (stray ▸ escape.2)
  rw [token] at found
  cases announced : opening first ('\\' :: '\n' :: behind) <;> rw [announced] at found <;>
    cases found
  case quote =>
    right
    have shorter := (quotedString_covers first behind).length_rest_le
    have joined : (quotedString first ('\\' :: '\n' :: behind)).rest =
        (quotedString first behind).rest := by
      rw [quotedString_of_joined (Ne.symm other) stray]
      rfl
    change (quotedString first ('\\' :: '\n' :: behind)).rest.length < _
    rw [joined, List.length_cons]
    omega
  case number =>
    left
    have number := opening_number announced
    rw [numberStarts_eq] at number
    by_cases sign : isSign first = true
    · rw [signPart, takeRun_cons 0 sign] at number
      contradiction
    · have noSign : (first :: '\\' :: '\n' :: behind).head?.any isSign = false :=
        Bool.eq_false_iff.mpr sign
      rw [signPart, takeRun_of_head 1 noSign] at number
      have digit : first.isDigit = true := by
        simpa [unsignedStarts, digitFirst] using number
      have digits : digitsPart (first :: '\\' :: '\n' :: behind) =
          ([first], '\\' :: '\n' :: behind) := by
        rw [digitsPart, List.takeWhile_cons_of_pos digit, List.dropWhile_cons_of_pos digit]
        rfl
      have literal := numberLiteral_eq (takeRun_of_head 1 noSign) digits rfl rfl
      rw [numericToken_of_number literal rfl (show some '\\' ≠ some '%' by decide)]
      rfl
  case name =>
    left
    have continues := continuesName_of_startsName
      ((opening_name announced).resolve_right fun escape => other escape.1)
    have read := @name_of_continues ('\\' :: '\n' :: behind) _ continues
    rw [noName] at read
    rw [nameToken_of_name read (show some '\\' ≠ some '(' by decide)]
    rfl
  case markup =>
    cases (opening_markup announced).2
  case symbol =>
    left
    unfold symbolToken
    split
    · rename_i equals
      cases equals
    · rename_i column
      cases column
    · rfl
  all_goals exact Or.inl rfl

/-- In front of a line feed, a character and a backslash are pieces only if the character
is a backslash as well. -/
theorem Cuts.eq_backslash_of_stray {first : Char}
    (cuts : Cuts (first :: '\\' :: tail) pieces tail) : first = '\\' := by
  apply Decidable.byContradiction
  intro other
  generalize isText : first :: '\\' :: tail = text at cuts
  cases cuts with
  | done =>
      have lengths := congrArg List.length isText
      simp only [List.length_cons] at lengths
      omega
  | @piece _ gap behind _ character scan _ skipped found _ others =>
      subst isText
      have noComment : commentStarts (first :: '\\' :: tail) = false := by
        cases starts : commentStarts (first :: '\\' :: tail) with
        | false => rfl
        | true =>
            obtain ⟨_, opened⟩ := exists_of_commentStarts starts
            cases opened
      rw [comments_of_none noComment] at skipped
      cases skipped
      rcases token_in_front_of_stray stray other found with left | shorter
      · rw [left] at others
        exact others.false_of_stray stray
      · have longer := others.length_eq
        omega

/-- Two backslashes in front of a line feed are one piece. -/
theorem Cuts.eq_single_of_stray (cuts : Cuts ('\\' :: '\\' :: tail) pieces tail) :
    ∃ token, pieces = [⟨[], token, ['\\', '\\']⟩] := by
  generalize isText : '\\' :: '\\' :: tail = text at cuts
  cases cuts with
  | done =>
      have lengths := congrArg List.length isText
      simp only [List.length_cons] at lengths
      omega
  | @piece _ gap behind _ character scan pieces skipped found _ others =>
      subst isText
      rw [comments_of_none (by rfl)] at skipped
      cases skipped
      obtain ⟨left, stays⟩ := others.exists_front
      have covers : scan.source ++ scan.rest = '\\' :: '\\' :: tail := token_covers found
      rw [stays, ← List.append_assoc] at covers
      have taken : scan.source ++ left = ['\\', '\\'] := List.append_cancel_right covers
      rw [stays] at others
      match source : scan.source, taken with
      | [], _ => exact absurd source (token_source_ne_nil found)
      | [_], taken =>
          cases taken
          exact (others.false_of_stray stray).elim
      | [_, _], taken =>
          cases taken
          rw [others.pieces_eq_nil]
          exact ⟨_, rfl⟩

end Stray

/-- A backslash at the end of what is left escapes something. -/
theorem Cuts.escapes_of_rest {rest : List Char} {pieces : List Piece}
    (cuts : Cuts (rest ++ tail) pieces tail) (backslash : rest = ['\\'] ∨ rest = ['-', '\\']) :
    escapes tail = true := by
  cases stray : escapes tail with
  | true => rfl
  | false =>
      rcases backslash with rfl | rfl
      · exact (cuts.false_of_stray stray).elim
      · exact absurd (cuts.eq_backslash_of_stray stray) (by decide)

/-! ## Hyphens -/

/-- A hyphen that starts no number starts a name, an arrow or nothing. -/
theorem eq_hyphenToken {text : List Char} {scan : Scan Recognized}
    (found : token ('-' :: text) = some scan) (noNumber : numberStarts ('-' :: text) = false) :
    scan = hyphenToken '-' text := by
  rw [token, opening_of_hyphen noNumber] at found
  exact (Option.some.inj found).symm

/-- A hyphen with the start of a name behind the character behind it starts a name. -/
theorem eq_nameToken_of_hyphen {text : List Char} {scan : Scan Recognized}
    (found : token ('-' :: text) = some scan) (noNumber : numberStarts ('-' :: text) = false)
    (continues : continuesHyphen (text.drop 1) = true) : scan = nameToken ('-' :: text) := by
  rw [eq_hyphenToken found noNumber, hyphenToken_of_name continues]

/-- A name that starts with a hyphen takes it, and the hyphen alone only as a name of its
own or in front of a parenthesis. -/
theorem nameToken_hyphen (text : List Char) :
    (∃ name, (nameToken ('-' :: text)).value.token = .ident name ∧
      (nameToken ('-' :: text)).source = '-' :: (Scan.name text).source) ∨
    ∃ called, (nameToken ('-' :: text)).source =
      '-' :: (Scan.name text).source ++ '(' :: called := by
  have read := @name_of_continues text '-' (by decide)
  by_cases isCall : (Scan.name text).rest.head? = some '('
  · right
    cases behind : (Scan.name text).rest with
    | nil =>
        rw [behind] at isCall
        contradiction
    | cons first called =>
        rw [behind] at isCall
        cases isCall
        rw [nameToken_of_call read behind]
        refine ⟨(callToken ('-' :: (Scan.name text).value) called).source, ?_⟩
        simp only [Scan.after, Scan.map, List.append_assoc, List.cons_append, List.nil_append]
  · left
    rw [nameToken_of_name read isCall]
    exact ⟨_, rfl, rfl⟩

section Alone

variable {scan : Scan Recognized}
  (noName : ∀ name, scan.value.token = .ident name → scan.source ≠ ['-'])

include noName

/-- Behind a hyphen alone no name starts one character further on. -/
theorem continuesHyphen_of_alone {text : List Char} (found : token ('-' :: text) = some scan)
    (noNumber : numberStarts ('-' :: text) = false) (alone : scan.source = ['-']) :
    continuesHyphen (text.drop 1) = false := by
  cases continues : continuesHyphen (text.drop 1) with
  | false => rfl
  | true =>
      have isName := eq_nameToken_of_hyphen found noNumber continues
      subst isName
      rcases nameToken_hyphen text with ⟨name, isIdent, -⟩ | ⟨called, source⟩
      · exact absurd alone (noName name isIdent)
      · rw [alone] at source
        have lengths := congrArg List.length source
        simp only [List.length_append, List.length_cons, List.length_nil] at lengths
        omega

/-- Behind a hyphen and one more character, which a lexeme does not go beyond, no name goes on,
unless they are the call `-(`. -/
theorem continuesHyphen_of_pair {first : Char} {text rest : List Char}
    (found : token ('-' :: first :: text) = some scan)
    (noNumber : numberStarts ('-' :: first :: text) = false)
    (front : scan.source ++ rest = ['-', first])
    (noCall : rest = [] → continuesHyphen text = true → scan.source ≠ ['-', '(']) :
    continuesHyphen text = false := by
  cases continues : continuesHyphen text with
  | false => rfl
  | true =>
      have isName := eq_nameToken_of_hyphen found noNumber continues
      subst isName
      have lengths := congrArg List.length front
      rcases nameToken_hyphen (first :: text) with ⟨name, isIdent, source⟩ | ⟨called, source⟩
      · rcases @name_source_of_continuesHyphen first text continues with alone | more
        · exact absurd (by rw [source, alone]) (noName name isIdent)
        · rw [source] at lengths
          simp only [List.length_append, List.length_cons, List.length_nil] at lengths
          omega
      · rw [source] at lengths
        simp only [List.length_append, List.length_cons, List.length_nil] at lengths
        have alone : (name (first :: text)).source = [] :=
          List.eq_nil_of_length_eq_zero (by omega)
        have none : called = [] := List.eq_nil_of_length_eq_zero (by omega)
        have atEnd : rest = [] := List.eq_nil_of_length_eq_zero (by omega)
        exact absurd (by rw [source, alone, none]; rfl) (noCall atEnd continues)

end Alone

/-- The two characters behind a hyphen at the front of a text show alike what it starts,
unless it is itself a name or called as one. -/
theorem continuesHyphen_tail {behind rest : List Char} {scan : Scan Recognized}
    (found : token ('-' :: (behind ++ tail)) = some scan)
    (noNumber : numberStarts ('-' :: (behind ++ tail)) = false)
    (front : scan.source ++ rest = '-' :: behind) (quiet : Quiet tail')
    (ahead : rest = [] → scan.source = ['-'] → continuesHyphen (tail'.drop 1) = false)
    (noName : ∀ name, scan.value.token = .ident name → scan.source ≠ ['-'])
    (noCall : rest = [] → continuesHyphen tail = true → scan.source ≠ ['-', '('])
    (escaping : behind.drop 1 = ['\\'] → escapes tail = true) :
    continuesHyphen ((behind ++ tail').drop 1) = continuesHyphen ((behind ++ tail).drop 1) := by
  match behind with
  | [] =>
      obtain ⟨alone, atEnd⟩ : scan.source = ['-'] ∧ rest = [] :=
        (List.append_eq_singleton_iff.mp front).resolve_left
          fun empty => token_source_ne_nil found empty.1
      exact (ahead atEnd alone).trans (continuesHyphen_of_alone noName found noNumber alone).symm
  | [first] =>
      exact quiet.endsName.continuesHyphen_eq.trans
        (continuesHyphen_of_pair noName found noNumber front noCall).symm
  | _ :: _ :: _ =>
      exact continuesHyphen_congr quiet.endsName quiet.escapes_eq escaping fun empty =>
        absurd empty (List.cons_ne_nil _ _)

/-- A backslash that is the second character behind a hyphen escapes something, unless it is
escaped itself. -/
theorem escapes_of_hyphen {gap behind left : List Char} {scan : Scan Recognized}
    {pieces : List Piece} (found : token ('-' :: (behind ++ tail)) = some scan)
    (noNumber : numberStarts ('-' :: (behind ++ tail)) = false)
    (stays : scan.rest = left ++ tail) (backslash : behind.drop 1 = ['\\'])
    (others : Cuts (left ++ tail) pieces tail)
    (escaped : escapes tail = false → ∀ hyphen name : Piece,
      [hyphen, name] <:+ ⟨gap, scan.value.token, scan.source⟩ :: pieces →
        hyphen.source = ['-'] → name.gap = [] → name.source ≠ ['\\', '\\']) :
    escapes tail = true := by
  cases stray : escapes tail with
  | true => rfl
  | false =>
      cases behind with
      | nil => contradiction
      | cons first behind =>
          rw [List.drop_succ_cons, List.drop_zero] at backslash
          subst backslash
          have noArrow : (first :: '\\' :: tail).take 2 ≠ ['-', '>'] := by
            intro arrow
            cases arrow
          have alone := eq_hyphenToken found noNumber
          rw [List.cons_append, List.singleton_append, hyphenToken, if_neg noArrow,
            if_neg fun named => Bool.false_ne_true (stray ▸ named.2)] at alone
          subst alone
          have left : [first, '\\'] ++ tail = left ++ tail := stays
          rw [← List.append_cancel_right left] at others
          cases others.eq_backslash_of_stray stray
          obtain ⟨token, rfl⟩ := others.eq_single_of_stray stray
          exact absurd rfl (escaped stray _ _ (List.suffix_refl _) rfl rfl)

/-! ## Another rest -/

/-- The conditions under which the pieces of a front do not see what stands behind it. -/
structure Detached (pieces : List Piece) (tail tail' : List Char) : Prop where
  /-- Something stands behind the front, so that nothing is cut off. -/
  goesOn : tail ≠ []
  /-- No token goes on with the other text. -/
  quiet : Quiet tail'
  /-- The other text starts with no blank. -/
  visible : tail'.head?.any isBlank = false
  /-- A hyphen at the end of the front is no name in front of the other text. -/
  ahead : ∀ piece ∈ pieces.getLast?, piece.source = ['-'] →
    continuesHyphen (tail'.drop 1) = false
  /-- No string is broken by a line feed. -/
  unbroken : ∀ piece ∈ pieces, piece.token ≠ .badString
  /-- The quote that an address function looks for stands in the front. -/
  quoted : ∀ piece ∈ pieces, ∀ name, piece.token = .function name →
    name.toList.map Char.toLower = ['u', 'r', 'l'] →
      (tail.dropWhile isBlank).head?.any isQuote = false
  /-- No hyphen alone is a name. -/
  noName : ∀ piece ∈ pieces, ∀ name, piece.token = .ident name → piece.source ≠ ['-']
  /-- No function at the end of the front has a hyphen alone for its name. -/
  noCall : continuesHyphen tail = true → ∀ piece ∈ pieces.getLast?, piece.source ≠ ['-', '(']
  /-- In front of a line feed, the front does not end with a hyphen and a backslash that
  escapes another. -/
  escaped : escapes tail = false → ∀ hyphen name : Piece, [hyphen, name] <:+ pieces →
    hyphen.source = ['-'] → name.gap = [] → name.source ≠ ['\\', '\\']

/-- What a token leaves of a detached front is detached. -/
theorem Detached.rest {piece : Piece} {pieces : List Piece}
    (detached : Detached (piece :: pieces) tail tail') : Detached pieces tail tail' where
  goesOn := detached.goesOn
  quiet := detached.quiet
  visible := detached.visible
  ahead last isLast := detached.ahead last (mem_getLast?_cons isLast)
  unbroken other member := detached.unbroken other (.tail _ member)
  quoted other member := detached.quoted other (.tail _ member)
  noName other member := detached.noName other (.tail _ member)
  noCall continues last isLast := detached.noCall continues last (mem_getLast?_cons isLast)
  escaped stray hyphen name atEnd :=
    detached.escaped stray hyphen name (atEnd.trans (List.suffix_cons piece pieces))

/-- The first token of a detached front is the same in front of the other text. -/
theorem Detached.tokenEnds {gap behind left : List Char} {first : Char} {scan : Scan Recognized}
    {pieces : List Piece} (found : token (first :: (behind ++ tail)) = some scan)
    (whole : scan.value.cutOff = none) (front : scan.source ++ left = first :: behind)
    (stays : scan.rest = left ++ tail) (others : Cuts scan.rest pieces tail)
    (detached : Detached (⟨gap, scan.value.token, scan.source⟩ :: pieces) tail tail') :
    TokenEnds scan left tail tail' := by
  have invisible : ¬ tail'.head?.any isBlank = true := by
    rw [detached.visible]
    exact Bool.false_ne_true
  rw [stays] at others
  refine ⟨detached.quiet, ⟨detached.quiet.endsName, detached.quiet.escapes_eq,
    fun _ blank => absurd blank invisible, fun none => absurd none detached.goesOn,
    others.escapes_of_rest⟩, fun _ blank => absurd blank invisible, whole, fun _ => ?_,
    fun _ => ?_, ?_, ?_⟩
  · exact detached.unbroken _ List.mem_cons_self
  · exact List.append_ne_nil_of_right_ne_nil _ detached.goesOn
  · intro name isFunction isUrl blanks
    have quote := quoted_of_token found name isFunction isUrl
    rw [stays, List.dropWhile_append, blanks, List.isEmpty_nil, if_pos rfl,
      detached.quoted _ List.mem_cons_self name isFunction isUrl] at quote
    contradiction
  · intro hyphen noNumber
    rw [front] at hyphen noNumber ⊢
    cases hyphen
    refine continuesHyphen_tail found noNumber front detached.quiet ?_
      (detached.noName _ List.mem_cons_self) ?_ ?_
    · rintro rfl hyphen
      exact detached.ahead _ (by rw [others.pieces_eq_nil]; rfl) hyphen
    · rintro rfl continues
      exact detached.noCall continues _ (by rw [others.pieces_eq_nil]; rfl)
    exact fun backslash =>
      escapes_of_hyphen found noNumber stays backslash others detached.escaped

/-- **The pieces of the front of a text are the same in front of another text** when a
condition on the pieces that are left keeps each token from seeing the difference. -/
theorem Cuts.exchange {Keeps : List Piece → Prop}
    (step : ∀ {gap behind left : List Char} {first : Char} {scan : Scan Recognized}
      {pieces : List Piece}, token (first :: (behind ++ tail)) = some scan →
        scan.value.cutOff = none → scan.source ++ left = first :: behind →
        scan.rest = left ++ tail → Cuts scan.rest pieces tail →
        Keeps (⟨gap, scan.value.token, scan.source⟩ :: pieces) →
          TokenEnds scan left tail tail' ∧ Keeps pieces)
    (quiet : Quiet tail') {text front : List Char} {pieces : List Piece}
    (cuts : Cuts text pieces tail) (isText : text = front ++ tail) (keeps : Keeps pieces) :
    Cuts (front ++ tail') pieces tail' := by
  induction cuts generalizing front with
  | done =>
      have none : front = [] := List.append_left_eq_self.mp isText.symm
      subst none
      exact .done tail'
  | @piece text gap behind tail first scan pieces skipped found whole others ih =>
      obtain ⟨left, stays⟩ := others.exists_front
      obtain ⟨-, -, isGap⟩ := areComments_of_comments skipped
      have covers : scan.source ++ scan.rest = first :: behind := token_covers found
      obtain ⟨character, taken, source⟩ := List.exists_cons_of_ne_nil (token_source_ne_nil found)
      rw [source, stays, List.cons_append] at covers
      cases covers
      have isFront : front = gap ++ (scan.source ++ left) := by
        refine @List.append_cancel_right _ _ tail _ ?_
        rw [← isText, isGap, source]
        simp only [List.append_assoc, List.cons_append]
      subst isFront
      rw [← List.append_assoc] at skipped found
      rw [isText] at skipped
      have skipped' := @comments_tail _ _ tail' _ _ _ quiet skipped
      obtain ⟨ends, keepsLeft⟩ := step found whole (by rw [source]; rfl) stays others keeps
      have found' := token_tail found stays ends
      exact @Cuts.piece _ _ _ _ _ (scan.leaving (left ++ tail')) _ skipped' found' whole
        (ih step stays keepsLeft)

/-- **The pieces of a detached front are the same in front of the other text.** -/
theorem Cuts.detach {text front : List Char} {pieces : List Piece} (cuts : Cuts text pieces tail)
    (isText : text = front ++ tail) (detached : Detached pieces tail tail') :
    Cuts (front ++ tail') pieces tail' := by
  refine @Cuts.exchange tail tail' (Detached · tail tail') ?_
    detached.quiet _ _ _ cuts isText detached
  intro gap behind left first scan pieces found whole front stays others detached
  exact ⟨detached.tokenEnds found whole front stays others, detached.rest⟩

end SelectorLang
