import SelectorLang.Proofs.Number.ReadBack
import SelectorLang.Proofs.Scan.TokenLookahead
import SelectorLang.Tree.Text

/-! # The spelling of numbers

The text of a finite number is a sign, digits and, behind a point, more digits. Such a
text is one number token to its end (`SelectorLang.Spelling.token_text`). The digits are
those of a decimal that reads back, so that the token has the value of the number
(`SelectorLang.Binary64.exists_spelling`).
-/

namespace SelectorLang

open Scan CodePoint

/-- A sign, digits, and the digits behind the point. -/
structure Spelling where
  /-- Whether a minus sign stands in front. -/
  negative : Bool
  /-- The digits in front of the point. -/
  whole : List Char
  /-- The digits behind the point; none where there is no point. -/
  fraction : List Char
  /-- There are digits in front of the point. -/
  nonempty : whole ≠ []
  /-- They are digits. -/
  wholeDigits : ∀ character ∈ whole, character.isDigit = true
  /-- So are those behind the point. -/
  fractionDigits : ∀ character ∈ fraction, character.isDigit = true

namespace Spelling

/-- Digits behind a point, if there are any. -/
def pointed : List Char → List Char
  | [] => []
  | first :: rest => '.' :: first :: rest

/-- The sign in front. -/
def sign (negative : Bool) : List Char :=
  if negative then ['-'] else []

/-- The characters of a spelling. -/
def text (spelling : Spelling) : List Char :=
  sign spelling.negative ++ (spelling.whole ++ pointed spelling.fraction)

/-- The literal that is spelled. -/
def literal (spelling : Spelling) : DecimalLiteral where
  negative := spelling.negative
  digits := DecimalLiteral.ofDigits (spelling.whole ++ spelling.fraction)
  exponent := -spelling.fraction.length

theorem digitsPart_of_digits {digits behind : List Char}
    (areDigits : ∀ character ∈ digits, character.isDigit = true)
    (stops : behind.head?.any Char.isDigit = false) :
    digitsPart (digits ++ behind) = (digits, behind) := by
  have none : behind.takeWhile Char.isDigit = [] ∧ behind.dropWhile Char.isDigit = behind := by
    cases behind with
    | nil => exact ⟨rfl, rfl⟩
    | cons first behind =>
        have outside : first.isDigit = false := stops
        simp [outside]
  rw [digitsPart, List.takeWhile_append_of_pos areDigits, List.dropWhile_append_of_pos areDigits,
    none.1, none.2, List.append_nil]

theorem pointed_stops (digits : List Char) : (pointed digits).head?.any Char.isDigit = false := by
  cases digits <;> rfl

variable (spelling : Spelling)

theorem digitsPart_whole :
    digitsPart (spelling.whole ++ pointed spelling.fraction) =
      (spelling.whole, pointed spelling.fraction) :=
  digitsPart_of_digits spelling.wholeDigits (pointed_stops _)

theorem digitsPart_fraction : digitsPart spelling.fraction = (spelling.fraction, []) := by
  have digits := @digitsPart_of_digits _ [] spelling.fractionDigits rfl
  rwa [List.append_nil] at digits

theorem exists_first_digit :
    ∃ first rest, spelling.whole = first :: rest ∧ first.isDigit = true := by
  obtain ⟨first, rest, isCons⟩ := List.exists_cons_of_ne_nil spelling.nonempty
  exact ⟨first, rest, isCons, spelling.wholeDigits first (isCons ▸ List.mem_cons_self)⟩

/-! ## Reading the literal -/

theorem splitSign_text :
    DecimalLiteral.splitSign spelling.text =
      (spelling.negative, spelling.whole ++ pointed spelling.fraction) := by
  obtain ⟨first, rest, isCons, digit⟩ := spelling.exists_first_digit
  rw [text, isCons]
  cases spelling.negative with
  | true => rfl
  | false =>
      unfold DecimalLiteral.splitSign
      split
      · rename_i behind minus
        cases minus
        contradiction
      · rename_i behind plus
        cases plus
        contradiction
      · rfl

theorem splitFraction_pointed :
    DecimalLiteral.splitFraction (pointed spelling.fraction) = (spelling.fraction, []) := by
  have digits := spelling.digitsPart_fraction
  generalize spelling.fraction = fraction at digits ⊢
  cases fraction with
  | nil => rfl
  | cons first rest => exact digits

theorem ofChars?_text : DecimalLiteral.ofChars? spelling.text = some spelling.literal := by
  have whole := spelling.digitsPart_whole
  simp only [digitsPart, Prod.mk.injEq] at whole
  have notEmpty : ¬ (spelling.whole = [] ∧ spelling.fraction = []) :=
    fun empty => spelling.nonempty empty.1
  unfold DecimalLiteral.ofChars?
  simp only [splitSign_text, whole.1, whole.2, splitFraction_pointed, if_neg notEmpty]
  simp only [DecimalLiteral.exponent?, Option.map_some, literal]
  rw [Int.zero_sub]

/-! ## Cutting the text -/

theorem signPart_text :
    signPart spelling.text =
      (sign spelling.negative, spelling.whole ++ pointed spelling.fraction) := by
  obtain ⟨first, rest, isCons, digit⟩ := spelling.exists_first_digit
  have outside : isSign first = false := by
    rw [isSign, Bool.or_eq_false_iff, beq_eq_false_iff_ne, beq_eq_false_iff_ne]
    constructor
    · rintro rfl
      contradiction
    · rintro rfl
      contradiction
  rw [text, isCons, signPart]
  cases spelling.negative with
  | true => exact takeRun_cons 0 rfl
  | false => exact takeRun_of_head 1 outside

theorem fractionPart_pointed :
    fractionPart (pointed spelling.fraction) = (pointed spelling.fraction, []) := by
  have digits := spelling.digitsPart_fraction
  have areDigits := spelling.fractionDigits
  generalize spelling.fraction = fraction at *
  cases fraction with
  | nil => rfl
  | cons first rest =>
      have digit : digitFirst (first :: rest) = true := areDigits first List.mem_cons_self
      simp only [pointed, fractionPart, digit, digits, and_self, ↓reduceIte]

/-- The whole text is one number literal. -/
theorem numberLiteral_text :
    ∃ kind, numberLiteral spelling.text = ⟨kind, spelling.text, []⟩ := by
  have literal := numberLiteral_eq spelling.signPart_text spelling.digitsPart_whole
    spelling.fractionPart_pointed rfl
  rw [List.append_nil, List.append_assoc] at literal
  exact ⟨_, literal⟩

theorem numberStarts_text : numberStarts spelling.text = true :=
  (numberStarts_iff spelling.signPart_text spelling.digitsPart_whole
    spelling.fractionPart_pointed).mpr (Or.inl spelling.nonempty)

/-- A spelling starts with a digit or a hyphen. -/
theorem exists_text_eq_cons :
    ∃ first rest, spelling.text = first :: rest ∧ continuesName first = true := by
  obtain ⟨first, rest, isCons, digit⟩ := spelling.exists_first_digit
  rw [text, isCons]
  cases spelling.negative with
  | true => exact ⟨'-', _, rfl, rfl⟩
  | false => exact ⟨first, _, rfl, by rw [continuesName, digit, Bool.or_true, Bool.true_or]⟩

/-- **A spelled number is one number token to its end.** -/
theorem token_text :
    ∃ kind, token spelling.text =
      some ⟨⟨.number spelling.literal.value kind, none⟩, spelling.text, []⟩ := by
  obtain ⟨kind, read⟩ := spelling.numberLiteral_text
  have starts := spelling.numberStarts_text
  have value : Binary64.ofLiteral? spelling.text = some spelling.literal.value := by
    rw [Binary64.ofLiteral?, ofChars?_text, Option.map_some]
  have numeric := numericToken_of_number read rfl nofun
  obtain ⟨first, rest, isCons, continues⟩ := spelling.exists_text_eq_cons
  rw [value] at numeric
  rw [isCons] at numeric starts ⊢
  have announced := opening_of_number (Bool.eq_false_iff.mp (isBlank_of_continuesName continues))
    (Bool.eq_false_iff.mp (isQuote_of_continuesName continues)) starts
  refine ⟨kind, ?_⟩
  rw [token, announced, tokenOf, numeric]
  rfl

end Spelling

/-! ## The texts of numbers -/

open Spelling

theorem isDigit_of_mem_zeros {count : Nat} {character : Char}
    (member : character ∈ List.replicate count '0') : character.isDigit = true := by
  rw [(List.mem_replicate.mp member).2]
  rfl

theorem isDigit_of_mem_append {front digits : List Char} {character : Char}
    (inFront : ∀ character ∈ front, character.isDigit = true)
    (inDigits : ∀ character ∈ digits, character.isDigit = true)
    (member : character ∈ front ++ digits) : character.isDigit = true :=
  (List.mem_append.mp member).elim (inFront character) (inDigits character)

theorem pointed_of_ne_nil {digits : List Char} (nonempty : digits ≠ []) :
    pointed digits = '.' :: digits := by
  obtain ⟨first, rest, rfl⟩ := List.exists_cons_of_ne_nil nonempty
  rfl

/-- Zeros behind the digits count as units like the power of ten. -/
theorem Decimal.units_of_zeros {number : Nat} {exponent : Int} (isWhole : (-exponent).toNat = 0) :
    (⟨Nat.pow 10 exponent.toNat * number, 0⟩ : Decimal).units =
      (⟨number, exponent⟩ : Decimal).units := by
  unfold Decimal.units
  dsimp only
  rw [isWhole, Nat.mul_comm number]
  exact congrArg (Binary64.unitsOfRatio · _) (Nat.mul_one _)

/-- A spelling with the plain text of a decimal, and as many units. -/
def Spelling.Spells (spelling : Spelling) (digits : List Char) (decimal : Decimal) : Prop :=
  spelling.whole ++ pointed spelling.fraction = digits ∧
    (⟨spelling.literal.digits, spelling.literal.exponent⟩ : Decimal).units = decimal.units

section Digits

variable {number : Nat} {exponent : Int} {digits : List Char}
  (areDigits : ∀ character ∈ digits, character.isDigit = true)
  (value : Nat.ofDigitChars 10 digits 0 = number) (negative : Bool)

include areDigits value

/-- Zeros behind the digits. -/
theorem exists_spells_of_zeros_behind (nonempty : digits ≠ [])
    (isWhole : (-exponent).toNat = 0) :
    ∃ spelling : Spelling, spelling.negative = negative ∧
      spelling.Spells (digits ++ List.replicate exponent.toNat '0') ⟨number, exponent⟩ := by
  refine ⟨⟨negative, digits ++ List.replicate exponent.toNat '0', [],
    List.append_ne_nil_of_left_ne_nil nonempty _,
    fun _ => isDigit_of_mem_append areDigits fun _ => isDigit_of_mem_zeros, nofun⟩, rfl,
    List.append_nil _, ?_⟩
  rw [← Decimal.units_of_zeros isWhole, literal, DecimalLiteral.ofDigits, List.append_nil,
    Nat.ofDigitChars_append, value, Nat.ofDigitChars_replicate_zero]
  rfl

/-- The point among the digits. -/
theorem exists_spells_of_point_among (below : exponent < 0)
    (among : (-exponent).toNat < digits.length) :
    ∃ spelling : Spelling, spelling.negative = negative ∧
      spelling.Spells (digits.take (digits.length - (-exponent).toNat) ++
        '.' :: digits.drop (digits.length - (-exponent).toNat)) ⟨number, exponent⟩ := by
  have places : -((-exponent).toNat : Int) = exponent := by omega
  generalize split : digits.length - (-exponent).toNat = before
  have count : (digits.drop before).length = (-exponent).toNat := by
    rw [List.length_drop]
    omega
  have behind : digits.drop before ≠ [] := by
    rw [← List.length_pos_iff, count]
    omega
  have inFront : digits.take before ≠ [] := by
    rw [← List.length_pos_iff, List.length_take]
    omega
  refine ⟨⟨negative, digits.take before, digits.drop before, inFront,
    fun _ member => areDigits _ (List.mem_of_mem_take member),
    fun _ member => areDigits _ (List.mem_of_mem_drop member)⟩, rfl,
    congrArg (_ ++ ·) (pointed_of_ne_nil behind), ?_⟩
  rw [literal, DecimalLiteral.ofDigits]
  dsimp only
  rw [List.take_append_drop, value, count, places]

/-- Zeros in front of the digits. -/
theorem exists_spells_of_zeros_in_front (nonempty : digits ≠ []) (below : exponent < 0)
    (inFront : digits.length ≤ (-exponent).toNat) :
    ∃ spelling : Spelling, spelling.negative = negative ∧
      spelling.Spells ('0' :: '.' :: List.replicate ((-exponent).toNat - digits.length) '0' ++
        digits) ⟨number, exponent⟩ := by
  have places : -((-exponent).toNat : Int) = exponent := by omega
  generalize split : (-exponent).toNat - digits.length = missing
  have behind : List.replicate missing '0' ++ digits ≠ [] :=
    List.append_ne_nil_of_right_ne_nil _ nonempty
  have count : (List.replicate missing '0' ++ digits).length = (-exponent).toNat := by
    rw [List.length_append, List.length_replicate]
    omega
  refine ⟨⟨negative, ['0'], List.replicate missing '0' ++ digits, List.cons_ne_nil _ _,
    fun _ => @isDigit_of_mem_zeros 1 _,
    fun _ => isDigit_of_mem_append (fun _ => isDigit_of_mem_zeros) areDigits⟩, rfl,
    congrArg ('0' :: ·) (pointed_of_ne_nil behind), ?_⟩
  rw [literal, DecimalLiteral.ofDigits]
  dsimp only
  rw [count, places, Nat.ofDigitChars_append, Nat.ofDigitChars_append,
    Nat.ofDigitChars_replicate_zero]
  exact congrArg (fun read => (⟨read, exponent⟩ : Decimal).units) value

end Digits

/-- The plain text of a decimal spells as many units. -/
theorem Layout.exists_spells (negative : Bool) (decimal : Decimal) :
    ∃ spelling : Spelling, spelling.negative = negative ∧
      spelling.Spells (Layout.plain.positional decimal) decimal := by
  obtain ⟨number, exponent⟩ := decimal
  have areDigits : ∀ character ∈ Nat.toDigits 10 number, character.isDigit = true :=
    fun _ => Nat.isDigit_of_mem_toDigits (by decide) (by decide)
  have nonempty : Nat.toDigits 10 number ≠ [] := Nat.toDigits_ne_nil
  have value : Nat.ofDigitChars 10 (Nat.toDigits 10 number) 0 = number :=
    Nat.ofDigitChars_ten_toDigits
  unfold Layout.positional
  dsimp only
  by_cases isWhole : (-exponent).toNat = 0
  · rw [if_pos isWhole, List.append_assoc]
    have spells := exists_spells_of_zeros_behind areDigits value negative nonempty isWhole
    rwa [← List.append_nil (List.replicate exponent.toNat '0')] at spells
  have below : exponent < 0 := by omega
  rw [if_neg isWhole]
  by_cases among : (-exponent).toNat < (Nat.toDigits 10 number).length
  · rw [if_pos among]
    exact exists_spells_of_point_among areDigits value negative below among
  · rw [if_neg among]
    exact exists_spells_of_zeros_in_front areDigits value negative nonempty below
      (Nat.le_of_not_lt among)

/-- The spelling of zero. -/
def Spelling.zero : Spelling where
  negative := false
  whole := ['0']
  fraction := []
  nonempty := List.cons_ne_nil _ _
  wholeDigits _ := @isDigit_of_mem_zeros 1 _
  fractionDigits := nofun

theorem Spelling.zero_value : zero.literal.value = Binary64.zero false := by
  have none : zero.literal.digits = 0 := rfl
  rw [DecimalLiteral.value, if_pos none]
  rfl

/-- The plain text of a magnitude that is not zero. -/
theorem Layout.plain_magnitude {magnitude : Magnitude} (nonzero : magnitude.units ≠ 0) :
    Layout.plain.magnitude magnitude = Layout.plain.positional (magnitude.shortest .up) := by
  rw [Layout.magnitude, if_neg nonzero]
  exact if_pos rfl

/-- **A finite number is spelled by its text**, up to the sign of zero. -/
theorem Binary64.exists_spelling {number : Binary64} (isFinite : number.isFinite = true) :
    ∃ spelling : Spelling, number.argumentText.toList = spelling.text ∧
      spelling.literal.value.numericEq number = true := by
  cases number with
  | nan => contradiction
  | infinite => contradiction
  | finite negative magnitude =>
      by_cases none : magnitude.units = 0
      · refine ⟨Spelling.zero, ?_, ?_⟩
        · rw [argumentText, if_pos none]
          rfl
        · have same : Magnitude.zero = magnitude := Magnitude.ext none.symm
          rw [Spelling.zero_value, Binary64.zero, same, numericEq, none]
          simp only [BEq.rfl, Bool.or_true, Bool.and_self]
      · obtain ⟨spelling, isNegative, isText, units⟩ :=
          Layout.exists_spells negative (magnitude.shortest .up)
        refine ⟨spelling, ?_, ?_⟩
        · rw [argumentText, if_neg none, plainText, Layout.finite, String.toList_ofList,
            Layout.plain_magnitude none, text, isNegative, isText]
          rfl
        · have readsBack := units.trans (magnitude.shortest_readsBack .up)
          have value := DecimalLiteral.value_of_readsBack readsBack none
            (by simp only [literal]; omega)
          have same : spelling.literal.negative = negative := isNegative
          rw [value, same]
          exact numericEq_self_of_isFinite isFinite

end SelectorLang
