import SelectorLang.Scan.Token

/-! # What scans see of the text behind them

A scan that stays within the front of a text does the same when something else stands
behind that front, unless this goes on with what was scanned. The characters that go on
with nothing but blanks are quiet (`SelectorLang.Scan.Quiet`); each scan has one lemma,
up to names, strings and number literals.
-/

namespace SelectorLang.Scan

open CodePoint

/-- No token goes on with these characters, blanks apart. -/
def isQuiet (character : Char) : Bool :=
  !continuesName character &&
    !(['\\', '(', '.', '%', '+', '=', '|', '>', '!', '*', '\n'].contains character)

/-- A text that no token in front of it goes on with, blanks apart. -/
def Quiet (text : List Char) : Prop :=
  ∀ first ∈ text.head?, isQuiet first = true

theorem quiet_nil : Quiet [] :=
  fun _ head => absurd head (Option.not_mem_none _)

/-! ## The rest of a scan -/

/-- The same reading in front of another text. -/
def leaving {α : Type} (scan : Scan α) (rest : List Char) : Scan α :=
  ⟨scan.value, scan.source, rest⟩

/-- A scan that leaves the text behind a front took the rest of that front. -/
theorem Covers.front_eq {α : Type} {scan : Scan α} {text rest tail : List Char}
    (covers : scan.Covers (text ++ tail)) (stays : scan.rest = rest ++ tail) :
    text = scan.source ++ rest := by
  unfold Covers at covers
  rw [stays, ← List.append_assoc] at covers
  exact (List.append_cancel_right covers).symm

variable {text rest tail tail' : List Char}

theorem eq_nil_of_append_right {taken : List Char} (whole : taken ++ (rest ++ tail) = tail) :
    taken = [] ∧ rest = [] := by
  have length := congrArg List.length whole
  simp only [List.length_append] at length
  exact ⟨List.eq_nil_of_length_eq_zero (by omega), List.eq_nil_of_length_eq_zero (by omega)⟩

/-! ## Runs of characters -/

section Runs

variable {member : Char → Bool}

theorem takeRun_of_head (limit : Nat) (stops : text.head?.any member = false) :
    takeRun limit member text = ([], text) := by
  cases text with
  | nil => simp [takeRun]
  | cons first text =>
      cases limit with
      | zero => rfl
      | succ limit =>
          have stops : member first = false := stops
          simp [takeRun, stops]

theorem takeRun_cons (limit : Nat) {first : Char} (belongs : member first = true) :
    takeRun (limit + 1) member (first :: text) =
      (first :: (takeRun limit member text).1, (takeRun limit member text).2) := by
  simp [takeRun, belongs]

theorem takeRun_zero : takeRun 0 member text = ([], text) :=
  rfl

theorem all_takeRun (limit : Nat) (text : List Char) :
    (takeRun limit member text).1.all member = true := by
  unfold takeRun
  exact List.all_takeWhile

/-- A run of characters ends where it did, when the other text does not go on with one that
may be longer. -/
theorem takeRun_tail {limit : Nat}
    (stays : (takeRun limit member (text ++ tail)).2 = rest ++ tail)
    (stops : rest = [] → (takeRun limit member (text ++ tail)).1.length < limit →
      tail'.head?.any member = false) :
    takeRun limit member (text ++ tail') =
      ((takeRun limit member (text ++ tail)).1, rest ++ tail') := by
  induction text generalizing limit with
  | nil =>
      have whole := takeRun_append limit member ([] ++ tail)
      rw [stays] at whole
      obtain ⟨none, rfl⟩ := eq_nil_of_append_right whole
      rw [none] at stops ⊢
      cases limit with
      | zero => exact takeRun_zero
      | succ limit => exact takeRun_of_head _ (stops rfl (Nat.succ_pos limit))
  | cons first text ih =>
      cases limit with
      | zero =>
          rw [takeRun_zero] at stays
          have same : first :: text = rest := List.append_cancel_right stays
          rw [takeRun_zero, takeRun_zero, same]
      | succ limit =>
          by_cases belongs : member first = true
          · rw [List.cons_append, takeRun_cons limit belongs] at stays stops ⊢
            rw [List.cons_append, takeRun_cons limit belongs,
              ih stays fun empty fewer => stops empty (Nat.succ_lt_succ fewer)]
          · have outside (behind : List Char) : (first :: behind).head?.any member = false :=
              Bool.eq_false_iff.mpr belongs
            rw [List.cons_append, takeRun_of_head _ (outside _)] at stays ⊢
            have same : first :: text = rest := List.append_cancel_right stays
            rw [List.cons_append, takeRun_of_head _ (outside _), ← same, List.cons_append]

/-- What stands behind characters of a class ends where it did. -/
theorem dropWhile_tail (stays : (text ++ tail).dropWhile member = rest ++ tail)
    (stops : rest = [] → tail'.head?.any member = false) :
    (text ++ tail').takeWhile member = (text ++ tail).takeWhile member ∧
      (text ++ tail').dropWhile member = rest ++ tail' := by
  induction text with
  | nil =>
      have whole : ([] ++ tail).takeWhile member ++ ([] ++ tail).dropWhile member = tail :=
        List.takeWhile_append_dropWhile
      rw [stays] at whole
      obtain ⟨none, rfl⟩ := eq_nil_of_append_right whole
      rw [none]
      cases tail' with
      | nil => exact ⟨rfl, rfl⟩
      | cons first tail' =>
          have outside : member first = false := stops rfl
          simp [outside]
  | cons first text ih =>
      by_cases belongs : member first = true
      · simp only [List.cons_append, List.takeWhile_cons, List.dropWhile_cons, belongs,
          ↓reduceIte] at stays ⊢
        obtain ⟨taken, left⟩ := ih stays
        exact ⟨congrArg (first :: ·) taken, left⟩
      · simp only [List.cons_append, List.takeWhile_cons, List.dropWhile_cons, belongs] at stays ⊢
        have same : first :: text = rest := List.append_cancel_right stays
        exact ⟨rfl, congrArg (· ++ tail') same⟩

end Runs

/-! ## Quiet texts -/

section Quiet

variable (quiet : Quiet tail')

include quiet

/-- A class of characters that are not quiet has none at the front of a quiet text. -/
theorem Quiet.head_any {member : Char → Bool}
    (loud : ∀ character, isQuiet character = true → member character = false) :
    tail'.head?.any member = false := by
  cases tail' with
  | nil => rfl
  | cons first tail' => exact loud first (quiet first rfl)

theorem Quiet.head_ne {character : Char} (loud : isQuiet character = false) :
    tail'.head? ≠ some character := by
  intro head
  have found := quiet character head
  rw [loud] at found
  contradiction

end Quiet

theorem isQuiet_not_continuesName {character : Char} (quiet : isQuiet character = true) :
    continuesName character = false := by
  rw [isQuiet, Bool.and_eq_true, Bool.not_eq_true'] at quiet
  exact quiet.1

theorem isQuiet_not_digit {character : Char} (quiet : isQuiet character = true) :
    character.isDigit = false := by
  have outside := isQuiet_not_continuesName quiet
  rw [continuesName, Bool.or_eq_false_iff, Bool.or_eq_false_iff] at outside
  exact outside.1.2

theorem isQuiet_ne {character loud : Char} (quiet : isQuiet character = true)
    (isLoud : isQuiet loud = false) : character ≠ loud := by
  rintro rfl
  rw [isLoud] at quiet
  contradiction

theorem isQuiet_not_sign {character : Char} (quiet : isQuiet character = true) :
    isSign character = false := by
  rw [isSign, Bool.or_eq_false_iff, beq_eq_false_iff_ne, beq_eq_false_iff_ne]
  exact ⟨isQuiet_ne quiet (by decide), isQuiet_ne quiet (by decide)⟩

theorem isBlank_of_continuesName {character : Char} (continues : continuesName character = true) :
    isBlank character = false := by
  rw [isBlank]
  simp only [Bool.or_eq_false_iff, beq_eq_false_iff_ne]
  refine ⟨⟨⟨⟨?_, ?_⟩, ?_⟩, ?_⟩, ?_⟩ <;> rintro rfl <;> contradiction

theorem isQuote_of_continuesName {character : Char} (continues : continuesName character = true) :
    isQuote character = false := by
  rw [isQuote, Bool.or_eq_false_iff, beq_eq_false_iff_ne, beq_eq_false_iff_ne]
  constructor <;> rintro rfl <;> contradiction

theorem isAlpha_eq (character : Char) :
    character.isAlpha = (character.isUpper || character.isLower) :=
  rfl

theorem isUpper_eq (character : Char) :
    character.isUpper = decide ('A'.val ≤ character.val ∧ character.val ≤ 'Z'.val) :=
  rfl

theorem isLower_eq (character : Char) :
    character.isLower = ('a'.val ≤ character.val && character.val ≤ 'z'.val) :=
  rfl

theorem continuesName_of_isHexDigit {character : Char} (hex : isHexDigit character = true) :
    continuesName character = true := by
  have letter : character.isDigit = true ∨ character.isAlpha = true := by
    unfold isHexDigit hexValue? at hex
    split at hex
    · exact Or.inl ‹_›
    · right
      simp only [isAlpha_eq, isUpper_eq, isLower_eq, Bool.or_eq_true, Bool.and_eq_true,
        decide_eq_true_eq]
      split at hex
      · rename_i between
        simp only [Bool.and_eq_true, decide_eq_true_eq, Char.le_def] at between
        exact Or.inr ⟨between.1, UInt32.le_trans between.2 (by decide)⟩
      · split at hex
        · rename_i between
          simp only [Bool.and_eq_true, decide_eq_true_eq, Char.le_def] at between
          exact Or.inl ⟨between.1, UInt32.le_trans between.2 (by decide)⟩
        · contradiction
  rcases letter with digit | alpha
  · simp only [continuesName, digit, Bool.or_true, Bool.true_or]
  · simp only [continuesName, startsName, alpha, Bool.true_or]

/-! ## Number literals -/

section Numbers

/-- When the digits stay within the front of a text, so does the first of them. -/
theorem digitFirst_of_stays (stays : (digitsPart (text ++ tail)).2 = rest ++ tail)
    (digit : digitFirst (text ++ tail) = true) (behind : List Char) :
    digitFirst (text ++ behind) = true := by
  cases text with
  | cons first text => exact digit
  | nil =>
      have taken := digitsPart_append ([] ++ tail)
      rw [stays] at taken
      have none := (eq_nil_of_append_right taken).1
      cases tail with
      | nil => contradiction
      | cons first tail =>
          have digit : first.isDigit = true := digit
          simp [digitsPart, digit] at none

/-- What a part leaves is the rest of the front, with the text behind it, when what
the next part leaves is. -/
theorem eq_append_of_part {part whole taken : List Char} (covers : taken ++ whole = part)
    (left : whole = rest ++ tail) : part = (taken ++ rest) ++ tail := by
  rw [← covers, left, List.append_assoc]

/-- The parts of a number literal. -/
theorem numberLiteral_eq {signs behindSign digits behindDigits fraction behindFraction exponent
    behind : List Char} (sign : signPart text = (signs, behindSign))
    (whole : digitsPart behindSign = (digits, behindDigits))
    (point : fractionPart behindDigits = (fraction, behindFraction))
    (power : exponentPart behindFraction = (exponent, behind)) :
    numberLiteral text =
      ⟨if fraction = [] ∧ exponent = [] then .integer else .general,
        signs ++ digits ++ fraction ++ exponent, behind⟩ := by
  simp only [numberLiteral, sign, whole, point, power]

/-- A number starts where its literal has digits before or behind the point. -/
theorem numberStarts_iff {signs behindSign digits behindDigits fraction behindFraction : List Char}
    (sign : signPart text = (signs, behindSign))
    (whole : digitsPart behindSign = (digits, behindDigits))
    (point : fractionPart behindDigits = (fraction, behindFraction)) :
    numberStarts text = true ↔ digits ≠ [] ∨ fraction ≠ [] := by
  rw [numberStarts, sign]
  cases behindSign with
  | nil =>
      cases whole
      cases point
      simp
  | cons first rest =>
      by_cases digit : first.isDigit = true
      · have taken : digits ≠ [] := by
          rintro rfl
          simp [digitsPart, digit] at whole
        simp [digit, taken]
      · have none : digitsPart (first :: rest) = ([], first :: rest) := by
          simp [digitsPart, digit]
        rw [none] at whole
        cases whole
        rw [fractionPart] at point
        by_cases pointed : first = '.' ∧ digitFirst rest = true
        · rw [if_pos pointed] at point
          cases point
          simp [pointed]
        · rw [if_neg pointed] at point
          cases point
          simpa [digit] using pointed

/-- Whether a number without a sign starts at the front of a text. -/
def unsignedStarts : List Char → Bool
  | [] => false
  | first :: rest => first.isDigit || (first == '.' && digitFirst rest)

theorem numberStarts_eq (text : List Char) :
    numberStarts text = unsignedStarts (signPart text).2 := by
  unfold numberStarts unsignedStarts
  rfl

variable (quiet : Quiet tail')

include quiet

theorem Quiet.digitFirst_eq_false : digitFirst tail' = false :=
  quiet.head_any fun _ => isQuiet_not_digit

/-- A digit at the front does not come from a quiet text. -/
theorem digitFirst_tail (digit : digitFirst (text ++ tail') = true) :
    text ≠ [] ∧ digitFirst (text ++ tail) = true := by
  cases text with
  | nil =>
      rw [List.nil_append, quiet.digitFirst_eq_false] at digit
      contradiction
  | cons first text => exact ⟨List.cons_ne_nil _ _, digit⟩

theorem signPart_tail (stays : (signPart (text ++ tail)).2 = rest ++ tail) :
    signPart (text ++ tail') = ((signPart (text ++ tail)).1, rest ++ tail') :=
  takeRun_tail stays fun _ _ => quiet.head_any fun _ => isQuiet_not_sign

theorem digitsPart_tail (stays : (digitsPart (text ++ tail)).2 = rest ++ tail) :
    digitsPart (text ++ tail') = ((digitsPart (text ++ tail)).1, rest ++ tail') := by
  obtain ⟨taken, left⟩ :=
    dropWhile_tail stays fun _ => quiet.head_any fun _ => isQuiet_not_digit
  exact Prod.ext taken left

theorem fractionPart_tail (stays : (fractionPart (text ++ tail)).2 = rest ++ tail) :
    fractionPart (text ++ tail') = ((fractionPart (text ++ tail)).1, rest ++ tail') := by
  have whole := fractionPart_append (text ++ tail)
  rw [stays] at whole
  cases text with
  | nil =>
      obtain ⟨none, rfl⟩ := eq_nil_of_append_right whole
      rw [none, List.nil_append]
      cases tail' with
      | nil => rfl
      | cons first tail' =>
          have noPoint : first ≠ '.' := isQuiet_ne (quiet first rfl) (by decide)
          rw [fractionPart, if_neg fun point => noPoint point.1]
  | cons first text =>
      rw [List.cons_append, fractionPart] at stays ⊢
      rw [List.cons_append, fractionPart]
      by_cases point : first = '.' ∧ digitFirst (text ++ tail) = true
      · rw [if_pos point] at stays ⊢
        have digits := digitsPart_tail quiet stays
        rw [if_pos ⟨point.1, digitFirst_of_stays stays point.2 tail'⟩, digits]
      · have noPoint : ¬ (first = '.' ∧ digitFirst (text ++ tail') = true) :=
          fun pointed => point ⟨pointed.1, (digitFirst_tail quiet pointed.2).2⟩
        rw [if_neg point] at stays ⊢
        have same : first :: text = rest := List.append_cancel_right stays
        rw [if_neg noPoint, ← same, List.cons_append]

/-- A digit behind an optional sign does not come from a quiet text. -/
theorem digitFirst_signPart_tail (digit : digitFirst (signPart (text ++ tail')).2 = true) :
    digitFirst (signPart (text ++ tail)).2 = true := by
  cases text with
  | nil =>
      rw [List.nil_append, signPart,
        takeRun_of_head 1 (quiet.head_any fun _ => isQuiet_not_sign),
        quiet.digitFirst_eq_false] at digit
      contradiction
  | cons first text =>
      rw [List.cons_append, signPart] at digit ⊢
      by_cases sign : isSign first = true
      · rw [takeRun_cons 0 sign, takeRun_zero] at digit ⊢
        exact (digitFirst_tail quiet digit).2
      · have noSign (behind : List Char) : (first :: behind).head?.any isSign = false :=
          Bool.eq_false_iff.mpr sign
        rw [takeRun_of_head 1 (noSign _)] at digit ⊢
        exact digit

theorem exponentPart_tail (stays : (exponentPart (text ++ tail)).2 = rest ++ tail) :
    exponentPart (text ++ tail') = ((exponentPart (text ++ tail)).1, rest ++ tail') := by
  have whole := exponentPart_append (text ++ tail)
  rw [stays] at whole
  cases text with
  | nil =>
      obtain ⟨none, rfl⟩ := eq_nil_of_append_right whole
      rw [none, List.nil_append]
      cases tail' with
      | nil => rfl
      | cons first tail' =>
          have noLetter : ¬ (first = 'e' ∨ first = 'E') :=
            not_or.mpr ⟨isQuiet_ne (quiet first rfl) (by decide),
              isQuiet_ne (quiet first rfl) (by decide)⟩
          exact if_neg fun letter => noLetter letter.1
  | cons first text =>
      simp only [List.cons_append, exponentPart] at stays ⊢
      by_cases letter : (first = 'e' ∨ first = 'E') ∧
          digitFirst (signPart (text ++ tail)).2 = true
      · rw [if_pos letter] at stays ⊢
        have covers := digitsPart_append (signPart (text ++ tail)).2
        rw [stays, ← List.append_assoc] at covers
        have sign := signPart_tail quiet covers.symm
        rw [← covers] at stays letter
        have digits := digitsPart_tail quiet stays
        rw [sign, digits, covers, if_pos ⟨letter.1, digitFirst_of_stays stays letter.2 tail'⟩]
      · have noLetter : ¬ ((first = 'e' ∨ first = 'E') ∧
            digitFirst (signPart (text ++ tail')).2 = true) :=
          fun lettered => letter ⟨lettered.1, digitFirst_signPart_tail quiet lettered.2⟩
        rw [if_neg letter] at stays ⊢
        have same : first :: text = rest := List.append_cancel_right stays
        rw [if_neg noLetter, ← same, List.cons_append]

/-- A number literal is what it was, and starts a number where it did. -/
theorem numberLiteral_tail (stays : (numberLiteral (text ++ tail)).rest = rest ++ tail) :
    numberLiteral (text ++ tail') =
        (numberLiteral (text ++ tail)).leaving (rest ++ tail') ∧
      (numberStarts (text ++ tail') = true ↔ numberStarts (text ++ tail) = true) := by
  cases sign : signPart (text ++ tail) with | mk signs behindSign =>
  cases whole : digitsPart behindSign with | mk digits behindDigits =>
  cases point : fractionPart behindDigits with | mk fraction behindFraction =>
  cases power : exponentPart behindFraction with | mk exponent behind =>
  rw [numberLiteral_eq sign whole point power] at stays
  have covers := exponentPart_append behindFraction
  rw [power] at covers
  have leftByFraction := eq_append_of_part covers stays
  have covers := fractionPart_append behindDigits
  rw [point] at covers
  have leftByDigits := eq_append_of_part covers leftByFraction
  have covers := digitsPart_append behindSign
  rw [whole] at covers
  have leftBySign := eq_append_of_part covers leftByDigits
  subst leftByFraction leftByDigits leftBySign
  have sign' := signPart_tail quiet (congrArg Prod.snd sign)
  have whole' := digitsPart_tail quiet (congrArg Prod.snd whole)
  have point' := fractionPart_tail quiet (congrArg Prod.snd point)
  have power' := exponentPart_tail quiet ((congrArg Prod.snd power).trans stays)
  rw [sign] at sign'
  rw [whole] at whole'
  rw [point] at point'
  rw [power] at power'
  constructor
  · rw [numberLiteral_eq sign whole point power]
    exact numberLiteral_eq sign' whole' point' power'
  · exact (numberStarts_iff sign' whole' point').trans (numberStarts_iff sign whole point).symm

theorem unsignedStarts_tail (starts : unsignedStarts (text ++ tail') = true) :
    unsignedStarts (text ++ tail) = true := by
  cases text with
  | nil =>
      cases tail' with
      | nil => contradiction
      | cons first tail' =>
          have noDigit := isQuiet_not_digit (quiet first rfl)
          have noPoint : first ≠ '.' := isQuiet_ne (quiet first rfl) (by decide)
          simp [unsignedStarts, noDigit, noPoint] at starts
  | cons first text =>
      simp only [List.cons_append, unsignedStarts, Bool.or_eq_true, Bool.and_eq_true,
        beq_iff_eq] at starts ⊢
      rcases starts with digit | ⟨point, digit⟩
      · exact Or.inl digit
      · exact Or.inr ⟨point, (digitFirst_tail quiet digit).2⟩

/-- A number does not start in a quiet text. -/
theorem numberStarts_tail (starts : numberStarts (text ++ tail') = true) :
    numberStarts (text ++ tail) = true := by
  rw [numberStarts_eq] at starts ⊢
  cases text with
  | nil =>
      rw [List.nil_append, signPart,
        takeRun_of_head 1 (quiet.head_any fun _ => isQuiet_not_sign)] at starts
      exact absurd (@unsignedStarts_tail [] [] tail' quiet starts) (by decide)
  | cons first text =>
      rw [List.cons_append, signPart] at starts ⊢
      by_cases sign : isSign first = true
      · rw [takeRun_cons 0 sign, takeRun_zero] at starts ⊢
        exact unsignedStarts_tail quiet starts
      · have noSign (behind : List Char) : (first :: behind).head?.any isSign = false :=
          Bool.eq_false_iff.mpr sign
        rw [takeRun_of_head 1 (noSign _)] at starts ⊢
        exact @unsignedStarts_tail (first :: text) tail tail' quiet starts

end Numbers

/-! ## Escapes and names -/

/-- A text in front of which a name ends. -/
def EndsName (tail : List Char) : Prop :=
  ∀ first ∈ tail.head?, continuesName first = false ∧ first ≠ '\\'

theorem endsName_nil : EndsName [] :=
  fun _ head => absurd head (Option.not_mem_none _)

theorem endsName_cons {first : Char} (outside : continuesName first = false)
    (noBackslash : first ≠ '\\') (rest : List Char) : EndsName (first :: rest) := by
  intro other head
  cases head
  exact ⟨outside, noBackslash⟩

theorem Quiet.endsName (quiet : Quiet tail') : EndsName tail' := fun first head =>
  ⟨isQuiet_not_continuesName (quiet first head), isQuiet_ne (quiet first head) (by decide)⟩

theorem Quiet.escapes_eq (quiet : Quiet tail') : escapes tail' = true :=
  bne_iff_ne.mpr (quiet.head_ne (by decide))

/-- Where a name ends, no hexadecimal number goes on. -/
theorem EndsName.head_any_isHexDigit (ends : EndsName tail') :
    tail'.head?.any isHexDigit = false := by
  cases tail' with
  | nil => rfl
  | cons first tail' =>
      refine Bool.eq_false_iff.mpr fun hex => ?_
      have outside := (ends first rfl).1
      rw [continuesName_of_isHexDigit hex] at outside
      contradiction

/-- Whether a text ends in a hexadecimal escape that takes a blank behind it. -/
def endsOpen : List Char → Bool
  | [] => false
  | first :: rest =>
    (first == '\\' && !rest.isEmpty && rest.all isHexDigit && decide (rest.length ≤ 6)) ||
      endsOpen rest

theorem endsOpen_of_append {front taken : List Char} (closed : endsOpen (front ++ taken) = false) :
    endsOpen taken = false := by
  induction front with
  | nil => exact closed
  | cons first front ih =>
      rw [List.cons_append, endsOpen, Bool.or_eq_false_iff] at closed
      exact ih closed.2

theorem endsOpen_of_noBackslash (noBackslash : '\\' ∉ text) : endsOpen text = false := by
  induction text with
  | nil => rfl
  | cons first rest ih =>
      rw [List.mem_cons, not_or] at noBackslash
      rw [endsOpen, beq_eq_false_iff_ne.mpr (Ne.symm noBackslash.1), ih noBackslash.2]
      rfl

/-- Nothing of a text is part of the escape that these characters behind a backslash are. -/
def EndsEscape (source tail : List Char) : Prop :=
  tail.head?.any isHexDigit = false ∧
    (tail.head?.any isBlank = true → endsOpen ('\\' :: source) = false)

/-- Digits alone behind a backslash take a blank. -/
theorem endsOpen_of_digits (hex : text.head?.any isHexDigit = true) :
    endsOpen ('\\' :: (takeRun 6 isHexDigit text).1) = true := by
  cases text with
  | nil => contradiction
  | cons first text =>
      have few : (takeRun 5 isHexDigit text).1.length ≤ 5 :=
        Nat.le_trans (List.takeWhile_prefix _).length_le (List.length_take_le ..)
      have digits := @all_takeRun isHexDigit 5 text
      have hex : isHexDigit first = true := hex
      rw [takeRun_cons 5 hex, endsOpen, List.all_cons, hex, digits, List.length_cons,
        decide_eq_true (Nat.succ_le_succ few)]
      rfl

/-- An escape within the front of a text is what it was. -/
theorem escape_tail (stays : (escape (text ++ tail)).rest = rest ++ tail) (nonempty : text ≠ [])
    (ends : rest = [] → EndsEscape (escape (text ++ tail)).source tail') :
    escape (text ++ tail') = (escape (text ++ tail)).leaving (rest ++ tail') := by
  cases text with
  | nil => contradiction
  | cons first text =>
      simp only [List.cons_append, escape] at stays ends ⊢
      by_cases hex : isHexDigit first = true
      · rw [if_pos hex] at stays ends ⊢
        rw [if_pos hex]
        have isOpen := @endsOpen_of_digits (first :: (text ++ tail)) hex
        cases digits : takeRun 6 isHexDigit (first :: (text ++ tail)) with | mk taken behind =>
        cases blank : takeRun 1 isBlank behind with | mk ending left =>
        rw [digits] at stays ends isOpen
        dsimp only at stays ends isOpen ⊢
        rw [blank] at stays ends
        have covers := takeRun_append 1 isBlank behind
        rw [blank] at covers
        have leftByDigits := eq_append_of_part covers stays
        subst leftByDigits
        have digits' := @takeRun_tail (first :: text) (ending ++ rest) tail tail' isHexDigit 6
          (congrArg Prod.snd digits) fun empty _ => (ends (List.append_eq_nil_iff.mp empty).2).1
        have blank' := takeRun_tail ((congrArg Prod.snd blank).trans stays) fun empty none => by
          -- Without a blank of its own, the escape would take one of the other text.
          rw [blank] at none
          have noBlank : ending = [] := List.eq_nil_of_length_eq_zero (Nat.lt_one_iff.mp none)
          refine Bool.eq_false_iff.mpr fun isBlank => ?_
          have closed := (ends empty).2 isBlank
          rw [noBlank, List.append_nil, isOpen] at closed
          contradiction
        rw [List.cons_append, List.cons_append, digits] at digits'
        rw [blank] at blank'
        rw [digits', blank']
        rfl
      · rw [if_neg hex] at stays ⊢
        rw [if_neg hex]
        have same : text = rest := List.append_cancel_right stays
        rw [same]
        rfl

theorem escape_source_ne_nil (nonempty : text ≠ []) : (escape text).source ≠ [] := by
  cases text with
  | nil => contradiction
  | cons first text =>
      rw [escape]
      split
      · rename_i hex
        simp [takeRun_cons 5 hex]
      · exact List.cons_ne_nil _ _

/-- An escape within the front of a text takes something of it, unless all ends there. -/
theorem nonempty_of_escape_stays (stays : (escape (text ++ tail)).rest = rest ++ tail)
    (goesOn : tail ≠ []) : text ≠ [] := by
  rintro rfl
  have covers := escape_covers ([] ++ tail)
  unfold Covers at covers
  rw [stays] at covers
  exact escape_source_ne_nil goesOn (eq_nil_of_append_right covers).1

theorem length_lt_of_escape_stays (stays : (escape (text ++ tail)).rest = rest ++ tail)
    (first : Char) : rest.length < (first :: text).length := by
  have covers := (escape_covers (text ++ tail)).length_rest_le
  rw [stays, List.length_append, List.length_append] at covers
  rw [List.length_cons]
  omega

theorem getLast?_append_ne {front taken : List Char} {character : Char}
    (differs : (front ++ taken).getLast? ≠ some character) : taken.getLast? ≠ some character := by
  intro same
  rw [List.getLast?_append, same, Option.some_or] at differs
  contradiction

/-- The conditions under which a scan of names and escapes that leaves a rest in front
of a text does so in front of another text. -/
structure NameEnds (taken rest tail tail' : List Char) : Prop where
  /-- The other text does not go on with a name. -/
  stops : EndsName tail'
  /-- A backslash in front of the other text escapes something. -/
  visible : escapes tail' = true
  /-- A blank of the other text is not taken for the end of an escape. -/
  blank : rest = [] → tail'.head?.any isBlank = true → endsOpen taken = false
  /-- A backslash at the end escapes something. -/
  escaped : tail = [] → rest = [] → taken.getLast? ≠ some '\\'
  /-- A backslash in the rest escapes something, too, as it does in front of the other
  text. -/
  escaping : rest = ['\\'] ∨ rest = ['-', '\\'] → escapes tail = true

theorem NameEnds.behind (front : List Char) {taken : List Char}
    (ends : NameEnds (front ++ taken) rest tail tail') : NameEnds taken rest tail tail' where
  stops := ends.stops
  visible := ends.visible
  blank atEnd isBlank := endsOpen_of_append (ends.blank atEnd isBlank)
  escaped empty atEnd := getLast?_append_ne (ends.escaped empty atEnd)
  escaping := ends.escaping

/-- Where no name goes on, none is read. -/
theorem name_of_stops {first : Char} (outside : continuesName first = false)
    (noEscape : ¬ (first = '\\' ∧ escapes text = true)) :
    name (first :: text) = ⟨[], [], first :: text⟩ := by
  rw [name, if_neg (Bool.eq_false_iff.mp outside), if_neg noEscape]

theorem EndsName.name_eq (ends : EndsName tail') : name tail' = ⟨[], [], tail'⟩ := by
  cases tail' with
  | nil => rw [name]
  | cons first tail' =>
      obtain ⟨outside, noBackslash⟩ := ends first rfl
      exact name_of_stops outside fun escape => noBackslash escape.1

/-- Whether a backslash escapes is seen by what stands behind it. -/
theorem escapes_tail (nonempty : text ≠ []) (behind : List Char) :
    escapes (text ++ behind) = escapes text := by
  cases text with
  | nil => contradiction
  | cons first text => rfl

theorem name_of_continues {first : Char} (continues : continuesName first = true) :
    name (first :: text) = ((name text).map (first :: ·)).after [first] := by
  rw [name, if_pos continues]

theorem name_of_escape {first : Char} (outside : ¬ continuesName first = true)
    (escape : first = '\\' ∧ escapes text = true) :
    name (first :: text) =
      ((name (Scan.escape text).rest).map ((Scan.escape text).value :: ·)).after
        (first :: (Scan.escape text).source) := by
  rw [name, if_neg outside, if_pos escape]

/-- A name of no characters is empty. -/
theorem name_value_of_source (none : (name text).source = []) : (name text).value = [] := by
  cases text with
  | nil => rw [name]
  | cons first text =>
      by_cases continues : continuesName first = true
      · rw [name_of_continues continues] at none
        contradiction
      · by_cases escape : first = '\\' ∧ escapes text = true
        · rw [name_of_escape continues escape] at none
          contradiction
        · rw [name_of_stops (Bool.eq_false_iff.mpr continues) escape]

/-- A name within the front of a text is what it was. -/
theorem name_tail (stays : (name (text ++ tail)).rest = rest ++ tail)
    (ends : NameEnds (name (text ++ tail)).source rest tail tail') :
    name (text ++ tail') = (name (text ++ tail)).leaving (rest ++ tail') := by
  -- An escape takes several characters, so that the length is what gets smaller.
  induction length : text.length using Nat.strongRecOn generalizing text with
  | ind size ih =>
      subst length
      cases text with
      | nil =>
          have covers := name_covers ([] ++ tail)
          unfold Covers at covers
          rw [stays] at covers
          obtain ⟨none, rfl⟩ := eq_nil_of_append_right covers
          rw [leaving, none, name_value_of_source none]
          exact ends.stops.name_eq
      | cons first text =>
          rw [List.cons_append] at stays ends ⊢
          rw [List.cons_append]
          by_cases continues : continuesName first = true
          · rw [name_of_continues continues] at stays ends ⊢
            rw [name_of_continues continues,
              ih text.length (Nat.lt_succ_self _) stays (ends.behind [first]) rfl]
            rfl
          · by_cases escaping : first = '\\' ∧ escapes (text ++ tail) = true
            · obtain ⟨rfl, isEscape⟩ := escaping
              rw [name_of_escape continues ⟨rfl, isEscape⟩] at stays ends ⊢
              have behind := eq_append_of_part (name_covers (escape (text ++ tail)).rest) stays
              generalize split : (name (escape (text ++ tail)).rest).source ++ rest = left
                at behind
              have nonempty : text ≠ [] := by
                intro empty
                subst empty
                by_cases atEnd : tail = []
                · subst atEnd
                  have none : left = [] := by simpa [escape] using behind.symm
                  have noRest := (List.append_eq_nil_iff.mp (split.trans none)).2
                  exact ends.escaped rfl noRest (by simp [escape, name, Scan.map, after])
                · exact nonempty_of_escape_stays behind atEnd rfl
              have escaped := @escape_tail text left tail tail' behind nonempty fun atEnd => by
                rw [atEnd] at split
                obtain ⟨none, noRest⟩ := List.append_eq_nil_iff.mp split
                refine ⟨ends.stops.head_any_isHexDigit, fun isBlank => ?_⟩
                have closed := ends.blank noRest isBlank
                have source : (Scan.map (List.cons (escape (text ++ tail)).value)
                  (name (escape (text ++ tail)).rest)).source = [] := none
                rwa [after, source, List.append_nil] at closed
              have shorter := length_lt_of_escape_stays behind '\\'
              have isEscape' : escapes (text ++ tail') = true := by
                rwa [escapes_tail nonempty] at isEscape ⊢
              rw [behind] at stays ends
              rw [name_of_escape continues ⟨rfl, isEscape'⟩, escaped, leaving,
                ih _ shorter stays (ends.behind (_ :: _)) rfl, ← behind]
              rfl
            · rw [name_of_stops (Bool.eq_false_iff.mpr continues) escaping] at stays ⊢
              have same : first :: text = rest := List.append_cancel_right stays
              rw [← same, List.cons_append]
              refine name_of_stops (Bool.eq_false_iff.mpr continues) ?_
              rintro ⟨rfl, escapes'⟩
              cases text with
              | cons second text => exact escaping ⟨rfl, escapes'⟩
              | nil =>
                  exact escaping ⟨rfl, ends.escaping (Or.inl same.symm)⟩

/-! ## Starts of names -/

theorem escapes_congr (escapes' : escapes tail' = true)
    (visible : text = [] → escapes tail = true) :
    escapes (text ++ tail') = escapes (text ++ tail) := by
  cases text with
  | nil => exact escapes'.trans (visible rfl).symm
  | cons first text => rfl

theorem EndsName.continuesHyphen_eq (ends : EndsName tail') : continuesHyphen tail' = false := by
  cases tail' with
  | nil => rfl
  | cons first tail' =>
      obtain ⟨outside, noBackslash⟩ := ends first rfl
      rw [continuesName, Bool.or_eq_false_iff, Bool.or_eq_false_iff] at outside
      rw [continuesHyphen, outside.1.1, outside.2, beq_eq_false_iff_ne.mpr noBackslash]
      rfl

theorem EndsName.nameStarts_eq (ends : EndsName tail') : nameStarts tail' = false := by
  cases tail' with
  | nil => rfl
  | cons first tail' =>
      obtain ⟨outside, noBackslash⟩ := ends first rfl
      rw [continuesName, Bool.or_eq_false_iff, Bool.or_eq_false_iff] at outside
      rw [nameStarts, if_neg (beq_eq_false_iff_ne.mp outside.2), outside.1.1,
        beq_eq_false_iff_ne.mpr noBackslash]
      rfl

/-- Where a name starts, it has a character. -/
theorem name_source_ne_nil_of_starts (starts : nameStarts text = true) :
    (name text).source ≠ [] := by
  cases text with
  | nil => contradiction
  | cons first text =>
      apply name_source_ne_nil
      rw [nameStarts] at starts
      split at starts
      · rename_i hyphen
        subst hyphen
        exact Or.inl (by decide)
      · simp only [Bool.or_eq_true, Bool.and_eq_true, beq_iff_eq] at starts
        exact starts.imp_left continuesName_of_startsName

theorem name_source_ne_nil_of_continuesHyphen (continues : continuesHyphen text = true) :
    (name text).source ≠ [] := by
  cases text with
  | nil => contradiction
  | cons first text =>
      apply name_source_ne_nil
      simp only [continuesHyphen, Bool.or_eq_true, Bool.and_eq_true, beq_iff_eq] at continues
      rcases continues with (starts | rfl) | escape
      · exact Or.inl (continuesName_of_startsName starts)
      · exact Or.inl (by decide)
      · exact Or.inr escape

/-- A name goes on into what starts one. -/
theorem name_source_of_continuesHyphen {first : Char} {text : List Char}
    (continues : continuesHyphen text = true) :
    (name (first :: text)).source = [] ∨ 2 ≤ (name (first :: text)).source.length := by
  by_cases belongs : continuesName first = true
  · right
    have more := List.length_pos_iff.mpr (name_source_ne_nil_of_continuesHyphen continues)
    rw [name_of_continues belongs]
    simp only [Scan.after, Scan.map, List.cons_append, List.nil_append, List.length_cons]
    omega
  · by_cases escape : first = '\\' ∧ escapes text = true
    · right
      have nonempty : text ≠ [] := by
        rintro rfl
        contradiction
      have more := List.length_pos_iff.mpr (escape_source_ne_nil nonempty)
      rw [name_of_escape belongs escape]
      simp only [Scan.after, Scan.map, List.cons_append, List.length_cons, List.length_append]
      omega
    · left
      rw [name_of_stops (Bool.eq_false_iff.mpr belongs) escape]

/-- What stands behind a hyphen at the start of a name within the front of a text shows
it there. -/
theorem continuesHyphen_congr (ends : EndsName tail') (escapes' : escapes tail' = true)
    (escaping : text = ['\\'] → escapes tail = true)
    (inside : text = [] → continuesHyphen tail = false) :
    continuesHyphen (text ++ tail') = continuesHyphen (text ++ tail) := by
  cases text with
  | nil => exact ends.continuesHyphen_eq.trans (inside rfl).symm
  | cons first text =>
      simp only [List.cons_append, continuesHyphen]
      by_cases backslash : first = '\\'
      · subst backslash
        rw [escapes_congr escapes' fun empty => escaping (by rw [empty])]
      · simp only [beq_eq_false_iff_ne.mpr backslash, Bool.false_and]

/-- A name starts where one started. -/
theorem nameStarts_congr (ends : EndsName tail') (escapes' : escapes tail' = true)
    (escaping : text = ['\\'] ∨ text = ['-', '\\'] → escapes tail = true)
    (stays : nameStarts (text ++ tail) = true →
      ∃ rest, (name (text ++ tail)).rest = rest ++ tail) :
    nameStarts (text ++ tail') = nameStarts (text ++ tail) := by
  cases text with
  | nil =>
      rw [List.nil_append, ends.nameStarts_eq]
      cases starts : nameStarts ([] ++ tail) with
      | false => rfl
      | true =>
          obtain ⟨rest, left⟩ := stays starts
          have covers := name_covers ([] ++ tail)
          unfold Covers at covers
          rw [left] at covers
          exact absurd (eq_nil_of_append_right covers).1 (name_source_ne_nil_of_starts starts)
  | cons first text =>
      simp only [List.cons_append, nameStarts] at stays ⊢
      by_cases hyphen : first = '-'
      · subst hyphen
        simp only [↓reduceIte] at stays ⊢
        refine continuesHyphen_congr ends escapes'
          (fun empty => escaping (Or.inr (by rw [empty]))) ?_
        rintro rfl
        cases continues : continuesHyphen tail with
        | false => rfl
        | true =>
            -- The name would go on into the text behind the front.
            obtain ⟨rest, left⟩ := stays continues
            have hyphen : continuesName '-' = true := by decide
            rw [List.nil_append, name_of_continues hyphen] at left
            have covers := name_covers tail
            unfold Covers at covers
            rw [show (name tail).rest = rest ++ tail from left] at covers
            exact absurd (eq_nil_of_append_right covers).1
              (name_source_ne_nil_of_continuesHyphen continues)
      · simp only [hyphen, ↓reduceIte]
        by_cases backslash : first = '\\'
        · subst backslash
          rw [escapes_congr escapes' fun empty => escaping (Or.inl (by rw [empty]))]
        · simp only [beq_eq_false_iff_ne.mpr backslash, Bool.false_and]

/-- A backslash that a name starts with escapes something. -/
theorem escapes_of_nameStarts (starts : nameStarts (text ++ tail) = true)
    (backslash : text = ['\\'] ∨ text = ['-', '\\']) : escapes tail = true := by
  rcases backslash with rfl | rfl
  · exact starts
  · exact starts

/-! ## Strings -/

theorem quotedString_of_quote {quote : Char} :
    quotedString quote (quote :: text) = ⟨.ended .closed, [quote], text⟩ := by
  rw [quotedString, if_pos rfl]

theorem quotedString_of_break {quote : Char} (different : '\n' ≠ quote) :
    quotedString quote ('\n' :: text) = ⟨.ended .broken, [], '\n' :: text⟩ := by
  rw [quotedString, if_neg different, if_pos rfl]

theorem quotedString_of_escape {quote : Char} (different : '\\' ≠ quote)
    (nonempty : text ≠ []) (isEscape : escapes text = true) :
    quotedString quote ('\\' :: text) =
      ((quotedString quote (escape text).rest).map (·.cons (escape text).value)).after
        ('\\' :: (escape text).source) := by
  rw [quotedString, if_neg different, if_neg (by decide), if_pos rfl, if_neg nonempty,
    if_pos isEscape]

theorem quotedString_of_joined {quote : Char} (different : '\\' ≠ quote)
    (noEscape : escapes text = false) :
    quotedString quote ('\\' :: text) =
      (quotedString quote (text.drop 1)).after ('\\' :: text.take 1) := by
  have nonempty : text ≠ [] := by
    rintro rfl
    contradiction
  rw [quotedString, if_neg different, if_neg (by decide), if_pos rfl, if_neg nonempty,
    if_neg (Bool.eq_false_iff.mp noEscape)]

theorem quotedString_of_character {quote first : Char} (different : first ≠ quote)
    (noBreak : first ≠ '\n') (noBackslash : first ≠ '\\') :
    quotedString quote (first :: text) =
      ((quotedString quote text).map (·.cons first)).after [first] := by
  rw [quotedString, if_neg different, if_neg noBreak, if_neg noBackslash]

/-- A string that takes nothing is not closed. -/
theorem quotedString_ending_of_source {quote : Char}
    (none : (quotedString quote text).source = []) :
    (quotedString quote text).value.ending = .cutOff ∨
      (quotedString quote text).value.ending = .broken := by
  cases text with
  | nil =>
      rw [quotedString]
      exact Or.inl rfl
  | cons first text =>
      rw [quotedString] at none ⊢
      split at none
      · contradiction
      · rename_i different
        rw [if_neg different]
        split at none
        · rename_i isBreak
          rw [if_pos isBreak]
          exact Or.inr rfl
        · repeat' split at none
          all_goals contradiction

/-- A string that is not cut off takes something, or is broken in front of something. -/
theorem quotedString_taken_ne_nil {quote : Char}
    (whole : (quotedString quote text).value.ending ≠ .cutOff)
    (unbroken : rest = [] → (quotedString quote text).value.ending ≠ .broken) :
    (quotedString quote text).source ++ rest ≠ [] := by
  intro empty
  obtain ⟨none, atEnd⟩ := List.append_eq_nil_iff.mp empty
  rcases quotedString_ending_of_source none with cutOff | broken
  · exact whole cutOff
  · exact unbroken atEnd broken

/-- A string closed within the front of a text, or broken there, is what it was. -/
theorem quotedString_tail {quote : Char}
    (stays : (quotedString quote (text ++ tail)).rest = rest ++ tail)
    (whole : (quotedString quote (text ++ tail)).value.ending ≠ .cutOff)
    (unbroken : rest = [] → (quotedString quote (text ++ tail)).value.ending ≠ .broken) :
    quotedString quote (text ++ tail') =
      (quotedString quote (text ++ tail)).leaving (rest ++ tail') := by
  induction length : text.length using Nat.strongRecOn generalizing text with
  | ind size ih =>
      subst length
      cases text with
      | nil =>
          have covers := quotedString_covers quote ([] ++ tail)
          unfold Covers at covers
          rw [stays] at covers
          obtain ⟨none, atEnd⟩ := eq_nil_of_append_right covers
          exact absurd (by rw [none, atEnd]; rfl) (quotedString_taken_ne_nil whole unbroken)
      | cons first text =>
          rw [List.cons_append] at stays whole unbroken ⊢
          rw [List.cons_append]
          by_cases isQuote : first = quote
          · subst isQuote
            rw [quotedString_of_quote] at stays ⊢
            have same : text = rest := List.append_cancel_right stays
            rw [quotedString_of_quote, same]
            rfl
          by_cases isBreak : first = '\n'
          · subst isBreak
            rw [quotedString_of_break isQuote] at stays ⊢
            have same : '\n' :: text = rest := List.append_cancel_right stays
            rw [quotedString_of_break isQuote, ← same]
            rfl
          by_cases isBackslash : first = '\\'
          · subst isBackslash
            have goesOn : text ++ tail ≠ [] := by
              intro nothing
              rw [nothing, quotedString, if_neg isQuote, if_neg isBreak, if_pos rfl,
                if_pos rfl] at whole
              contradiction
            by_cases isEscape : escapes (text ++ tail) = true
            · rw [quotedString_of_escape isQuote goesOn isEscape] at stays whole unbroken ⊢
              have behind := eq_append_of_part
                (quotedString_covers quote (escape (text ++ tail)).rest) stays
              have inside :
                  (quotedString quote (escape (text ++ tail)).rest).source ++ rest ≠ [] :=
                quotedString_taken_ne_nil whole unbroken
              generalize (quotedString quote (escape (text ++ tail)).rest).source ++ rest = left
                at behind inside
              have nonempty : text ≠ [] := by
                intro empty
                subst empty
                exact nonempty_of_escape_stays behind goesOn rfl
              have escaped := @escape_tail text left tail tail' behind nonempty
                fun empty => absurd empty inside
              have shorter := length_lt_of_escape_stays behind '\\'
              have isEscape' : escapes (text ++ tail') = true := by
                rwa [escapes_tail nonempty] at isEscape ⊢
              rw [behind] at stays whole unbroken
              rw [quotedString_of_escape isQuote (List.append_ne_nil_of_left_ne_nil nonempty _)
                isEscape', escaped, leaving, ih _ shorter stays whole unbroken rfl, ← behind]
              rfl
            · rw [Bool.not_eq_true] at isEscape
              rw [quotedString_of_joined isQuote isEscape] at stays whole unbroken ⊢
              cases text with
              | nil =>
                  have longer := (quotedString_covers quote (tail.drop 1)).length_rest_le
                  have stays : (quotedString quote (tail.drop 1)).rest = rest ++ tail := stays
                  rw [stays, List.length_append, List.length_drop] at longer
                  have positive : 0 < tail.length := List.length_pos_iff.mpr goesOn
                  omega
              | cons second text =>
                  have isEscape' : escapes (second :: text ++ tail') = false := isEscape
                  have shorter : text.length < ('\\' :: second :: text).length := by
                    simp only [List.length_cons]
                    omega
                  rw [quotedString_of_joined isQuote isEscape']
                  have same := ih text.length shorter stays whole unbroken rfl
                  exact congrArg (after ['\\', second]) same
          · rw [quotedString_of_character isQuote isBreak isBackslash] at stays whole unbroken ⊢
            rw [quotedString_of_character isQuote isBreak isBackslash,
              ih text.length (Nat.lt_succ_self _) stays whole unbroken rfl]
            rfl

end SelectorLang.Scan
