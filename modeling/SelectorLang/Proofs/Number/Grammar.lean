import SelectorLang.Proofs.Number.Spelling
import SelectorLang.Proofs.Scan.PlainName

/-! # The grammar of number literals

A number literal is an optional sign, digits, an optional point with digits behind it and an
optional exponent, with at least one digit in front of the exponent
(`SelectorLang.DecimalLiteral.Spells`). Every text of this form is read as the literal that it
spells (`SelectorLang.Binary64.ofText?_of_spells`). At the front of any text the scan of a number
takes such a literal (`SelectorLang.Scan.exists_spells_numberLiteral`), and the longest one
(`SelectorLang.Scan.length_le_numberLiteral`).
-/

namespace SelectorLang

open Scan

namespace DecimalLiteral

/-- Digits and nothing else. -/
def AreDigits (text : List Char) : Prop :=
  ∀ character ∈ text, character.isDigit = true

/-- No sign or one, and whether it is a minus. -/
inductive SpellsSign : List Char → Bool → Prop
  | none : SpellsSign [] false
  | plus : SpellsSign ['+'] false
  | minus : SpellsSign ['-'] true

/-- No point, or a point and at least one digit behind it, and those digits. -/
inductive SpellsFraction : List Char → List Char → Prop
  | none : SpellsFraction [] []
  | point {digits : List Char} (areDigits : AreDigits digits) (nonempty : digits ≠ []) :
      SpellsFraction ('.' :: digits) digits

/-- No exponent, or the letter `e` of either case, an optional sign and at least one digit, and
the power of ten. -/
inductive SpellsExponent : List Char → Int → Prop
  | none : SpellsExponent [] 0
  | power {letter : Char} {sign digits : List Char} {negative : Bool}
      (isLetter : letter = 'e' ∨ letter = 'E') (spellsSign : SpellsSign sign negative)
      (areDigits : AreDigits digits) (nonempty : digits ≠ []) :
      SpellsExponent (letter :: (sign ++ digits))
        (if negative then -(ofDigits digits : Int) else (ofDigits digits : Int))

/-- The text of a number literal, and the literal. -/
inductive Spells : List Char → DecimalLiteral → Prop
  | parts {sign whole fraction places exponent : List Char} {negative : Bool} {power : Int}
      (spellsSign : SpellsSign sign negative) (areDigits : AreDigits whole)
      (spellsFraction : SpellsFraction fraction places)
      (spellsExponent : SpellsExponent exponent power) (someDigit : whole ≠ [] ∨ places ≠ []) :
      Spells (sign ++ (whole ++ (fraction ++ exponent)))
        ⟨negative, ofDigits (whole ++ places), power - places.length⟩

/-- The text of a number without a point and without an exponent. -/
def IsWhole (text : List Char) : Prop :=
  '.' ∉ text ∧ 'e' ∉ text ∧ 'E' ∉ text

/-! ## What the parts start with -/

theorem AreDigits.head_isDigit {digits : List Char} (areDigits : AreDigits digits)
    (nonempty : digits ≠ []) :
    ∃ first rest, digits = first :: rest ∧ first.isDigit = true := by
  obtain ⟨first, rest, rfl⟩ := List.exists_cons_of_ne_nil nonempty
  exact ⟨first, rest, rfl, areDigits first List.mem_cons_self⟩

theorem ne_of_isDigit {character other : Char} (digit : character.isDigit = true)
    (noDigit : other.isDigit = false) : character ≠ other := by
  rintro rfl
  rw [noDigit] at digit
  contradiction

theorem isSign_of_isDigit {character : Char} (digit : character.isDigit = true) :
    isSign character = false := by
  rw [isSign, Bool.or_eq_false_iff, beq_eq_false_iff_ne, beq_eq_false_iff_ne]
  exact ⟨ne_of_isDigit digit rfl, ne_of_isDigit digit rfl⟩

theorem AreDigits.head_noSign {digits : List Char} (areDigits : AreDigits digits)
    (nonempty : digits ≠ []) (behind : List Char) :
    (digits ++ behind).head?.any isSign = false := by
  obtain ⟨first, rest, rfl, digit⟩ := areDigits.head_isDigit nonempty
  exact isSign_of_isDigit digit

/-- A letter of an exponent is no digit and no point. -/
theorem exponentLetter_ne {letter : Char} (isLetter : letter = 'e' ∨ letter = 'E') :
    letter.isDigit = false ∧ letter ≠ '.' := by
  rcases isLetter with rfl | rfl <;> decide

variable {exponent : List Char} {power : Int}

theorem SpellsExponent.head_noDigit (spells : SpellsExponent exponent power)
    (behind : List Char) (stops : exponent = [] → behind.head?.any Char.isDigit = false) :
    (exponent ++ behind).head?.any Char.isDigit = false := by
  cases spells with
  | none => exact stops rfl
  | power isLetter => exact (exponentLetter_ne isLetter).1

theorem SpellsExponent.head_noPoint (spells : SpellsExponent exponent power)
    (nonempty : exponent ≠ []) (behind : List Char) :
    (exponent ++ behind).head? ≠ some '.' := by
  cases spells with
  | none => exact absurd rfl nonempty
  | power isLetter =>
      intro point
      exact (exponentLetter_ne isLetter).2 (Option.some.inj point)

variable {fraction places : List Char}

theorem SpellsFraction.head_noDigit (spells : SpellsFraction fraction places)
    (behind : List Char) (stops : fraction = [] → behind.head?.any Char.isDigit = false) :
    (fraction ++ behind).head?.any Char.isDigit = false := by
  cases spells with
  | none => exact stops rfl
  | point => rfl

theorem SpellsFraction.eq_nil_of_places (spells : SpellsFraction fraction []) :
    fraction = [] := by
  cases spells with
  | none => rfl
  | point _ nonempty => exact absurd rfl nonempty

/-- Behind its sign, a literal starts with a digit or with the point. -/
theorem head_noSign_of_someDigit {whole : List Char} (areDigits : AreDigits whole)
    (spellsFraction : SpellsFraction fraction places) (someDigit : whole ≠ [] ∨ places ≠ [])
    (behind : List Char) : (whole ++ (fraction ++ behind)).head?.any isSign = false := by
  by_cases none : whole = []
  · subst none
    cases spellsFraction with
    | none => exact absurd rfl (someDigit.resolve_left (absurd rfl))
    | point => rfl
  · exact areDigits.head_noSign none _

theorem SpellsSign.not_mem {sign : List Char} {negative : Bool} (spells : SpellsSign sign negative)
    {character : Char} (noSign : isSign character = false) : character ∉ sign := by
  rw [isSign, Bool.or_eq_false_iff, beq_eq_false_iff_ne, beq_eq_false_iff_ne] at noSign
  cases spells with
  | none => exact List.not_mem_nil
  | plus => exact fun member => noSign.1 (List.mem_singleton.mp member)
  | minus => exact fun member => noSign.2 (List.mem_singleton.mp member)

/-- A point belongs to a fraction, and the letter `e` to an exponent. -/
theorem isWhole_iff {sign whole : List Char} {negative : Bool}
    (spellsSign : SpellsSign sign negative) (areDigits : AreDigits whole)
    (spellsFraction : SpellsFraction fraction places)
    (spellsExponent : SpellsExponent exponent power) :
    IsWhole (sign ++ whole ++ fraction ++ exponent) ↔ fraction = [] ∧ exponent = [] := by
  constructor
  · intro isWhole
    obtain ⟨noPoint, noSmall, noCapital⟩ := isWhole
    constructor
    · cases spellsFraction with
      | none => rfl
      | point =>
          refine absurd ?_ noPoint
          exact List.mem_append_left _ (List.mem_append_right _ List.mem_cons_self)
    · cases spellsExponent with
      | none => rfl
      | power isLetter =>
          have member {letter : Char} {rest : List Char} :
              letter ∈ sign ++ whole ++ fraction ++ letter :: rest :=
            List.mem_append_right _ List.mem_cons_self
          rcases isLetter with rfl | rfl
          · exact absurd member noSmall
          · exact absurd member noCapital
  · rintro ⟨rfl, rfl⟩
    have outside {character : Char} (noSign : isSign character = false)
        (noDigit : character.isDigit = false) : character ∉ sign ++ whole ++ [] ++ [] := by
      rw [List.append_nil, List.append_nil, List.mem_append, not_or]
      exact ⟨spellsSign.not_mem noSign,
        fun member => ne_of_isDigit (areDigits _ member) noDigit rfl⟩
    exact ⟨outside rfl rfl, outside rfl rfl, outside rfl rfl⟩

/-! ## Reading a literal -/

variable {sign : List Char} {negative : Bool}

theorem splitSign_of_spells (spells : SpellsSign sign negative) {body : List Char}
    (noSign : body.head?.any isSign = false) : splitSign (sign ++ body) = (negative, body) := by
  cases spells with
  | plus => rfl
  | minus => rfl
  | none =>
      rw [List.nil_append]
      unfold splitSign
      split
      · contradiction
      · contradiction
      · rfl

theorem splitFraction_of_spells (spells : SpellsFraction fraction places)
    (spellsExponent : SpellsExponent exponent power) :
    splitFraction (fraction ++ exponent) = (places, exponent) := by
  cases spells with
  | none =>
      cases spellsExponent with
      | none => rfl
      | power isLetter =>
          rw [List.nil_append]
          unfold splitFraction
          split
          · rename_i point
            exact absurd (List.cons.inj point).1 (exponentLetter_ne isLetter).2
          · rfl
  | point areDigits =>
      exact Spelling.digitsPart_of_digits areDigits (by
        simpa only [List.append_nil] using spellsExponent.head_noDigit [] fun _ => rfl)

theorem exponent?_of_spells (spells : SpellsExponent exponent power) :
    exponent? exponent = some power := by
  cases spells with
  | none => rfl
  | power isLetter spellsSign areDigits nonempty =>
      have noSign := areDigits.head_noSign nonempty []
      rw [List.append_nil] at noSign
      have allDigits := List.all_eq_true.mpr areDigits
      rw [exponent?, splitSign_of_spells spellsSign noSign]
      exact if_pos ⟨isLetter, nonempty, allDigits⟩

variable {text : List Char} {literal : DecimalLiteral}

/-- **Every text of the grammar is read**, as the literal that it spells. -/
theorem ofChars?_of_spells (spells : Spells text literal) : ofChars? text = some literal := by
  obtain @⟨sign, whole, fraction, places, exponent, negative, power, spellsSign, areDigits,
    spellsFraction, spellsExponent, someDigit⟩ := spells
  have noSign := head_noSign_of_someDigit areDigits spellsFraction someDigit exponent
  have noDigit := spellsFraction.head_noDigit exponent fun _ => by
    simpa only [List.append_nil] using spellsExponent.head_noDigit [] fun _ => rfl
  have digits := Spelling.digitsPart_of_digits areDigits noDigit
  simp only [digitsPart, Prod.mk.injEq] at digits
  have notEmpty : ¬ (whole = [] ∧ places = []) := fun empty =>
    someDigit.elim (absurd empty.1) (absurd empty.2)
  unfold ofChars?
  simp only [splitSign_of_spells spellsSign noSign, digits.1, digits.2,
    splitFraction_of_spells spellsFraction spellsExponent, if_neg notEmpty,
    exponent?_of_spells spellsExponent, Option.map_some]

/-- Behind its sign, a literal has a digit or the point, and no letter, in front. -/
theorem Spells.exists_body (spells : Spells text literal) :
    ∃ negative first rest, splitSign text = (negative, first :: rest) ∧
      (first.isDigit = true ∨ first = '.') := by
  obtain @⟨sign, whole, fraction, places, exponent, negative, power, spellsSign, areDigits,
    spellsFraction, spellsExponent, someDigit⟩ := spells
  have body := splitSign_of_spells spellsSign
    (head_noSign_of_someDigit areDigits spellsFraction someDigit exponent)
  by_cases none : whole = []
  · subst none
    cases spellsFraction with
    | none => exact absurd rfl (someDigit.resolve_left (absurd rfl))
    | point => exact ⟨_, _, _, body, Or.inr rfl⟩
  · obtain ⟨first, rest, rfl, digit⟩ := areDigits.head_isDigit none
    exact ⟨_, _, _, body, Or.inl digit⟩

end DecimalLiteral

open DecimalLiteral

/-- **Every text of the grammar is a number**: the value of the literal that it spells. -/
theorem Binary64.ofText?_of_spells {text : List Char} {literal : DecimalLiteral}
    (spells : Spells text literal) :
    Binary64.ofText? (String.ofList text) = some literal.value := by
  obtain ⟨negative, first, rest, body, starts⟩ := spells.exists_body
  have lowered : first.toLower = first := by
    apply toLower_of_not_isUpper
    rcases starts with digit | rfl
    · exact isUpper_of_isDigit digit
    · rfl
  have noWord {letter : Char} {behind : List Char} (noDigit : letter.isDigit = false)
      (noPoint : letter ≠ '.') : (first :: rest).map Char.toLower ≠ letter :: behind := by
    intro word
    have same : first = letter := lowered.symm.trans (List.cons.inj word).1
    rcases starts with digit | rfl
    · exact ne_of_isDigit digit noDigit same
    · exact noPoint same.symm
  have read : Binary64.ofLiteral? text = some literal.value := by
    rw [Binary64.ofLiteral?, ofChars?_of_spells spells, Option.map_some]
  have noNan : (first :: rest).map Char.toLower ≠ "nan".toList := noWord rfl (by decide)
  have noInf : (first :: rest).map Char.toLower ≠ "inf".toList := noWord rfl (by decide)
  have noInfinity : (first :: rest).map Char.toLower ≠ "infinity".toList :=
    noWord rfl (by decide)
  unfold Binary64.ofText?
  rw [String.toList_ofList, body]
  dsimp only
  rw [if_neg noNan, if_neg fun word => word.elim noInf noInfinity, read]

/-! ## Scanning a literal -/

namespace Scan

variable {sign fraction places exponent : List Char} {negative : Bool} {power : Int}

theorem signPart_of_spells (spells : SpellsSign sign negative) {body : List Char}
    (noSign : body.head?.any isSign = false) : signPart (sign ++ body) = (sign, body) := by
  cases spells with
  | none => exact takeRun_of_head 1 noSign
  | plus => exact takeRun_cons 0 rfl
  | minus => exact takeRun_cons 0 rfl

theorem digitFirst_of_areDigits {digits : List Char} (areDigits : AreDigits digits)
    (nonempty : digits ≠ []) (behind : List Char) : digitFirst (digits ++ behind) = true := by
  obtain ⟨first, rest, rfl, digit⟩ := areDigits.head_isDigit nonempty
  exact digit

/-- Digits at the front of a text are taken, with those behind them. -/
theorem digitsPart_of_areDigits {digits : List Char} (areDigits : AreDigits digits)
    (behind : List Char) : (digitsPart (digits ++ behind)).1 = digits ++ (digitsPart behind).1 :=
  List.takeWhile_append_of_pos areDigits

theorem length_le_digitsPart {digits : List Char} (areDigits : AreDigits digits)
    (behind : List Char) : digits.length ≤ (digitsPart (digits ++ behind)).1.length := by
  rw [digitsPart_of_areDigits areDigits, List.length_append]
  exact Nat.le_add_right _ _

/-- A fraction is taken, with the digits behind it. -/
theorem length_le_fractionPart (spells : SpellsFraction fraction places) (behind : List Char) :
    fraction.length ≤ (fractionPart (fraction ++ behind)).1.length := by
  cases spells with
  | none => exact Nat.zero_le _
  | point areDigits nonempty =>
      rw [List.cons_append, fractionPart,
        if_pos ⟨rfl, digitFirst_of_areDigits areDigits nonempty behind⟩]
      exact Nat.succ_le_succ (length_le_digitsPart areDigits behind)

/-- In front of what is neither a digit nor a point, a fraction is all that is taken. -/
theorem fractionPart_of_spells (spells : SpellsFraction fraction places) {behind : List Char}
    (noDigit : behind.head?.any Char.isDigit = false) (noPoint : behind.head? ≠ some '.') :
    fractionPart (fraction ++ behind) = (fraction, behind) := by
  cases spells with
  | none =>
      cases behind with
      | nil => rfl
      | cons first behind =>
          exact if_neg fun point => noPoint (congrArg some point.1)
  | point areDigits nonempty =>
      rw [List.cons_append, fractionPart,
        if_pos ⟨rfl, digitFirst_of_areDigits areDigits nonempty behind⟩,
        Spelling.digitsPart_of_digits areDigits noDigit]

/-- An exponent is taken, with the digits behind it. -/
theorem length_le_exponentPart (spells : SpellsExponent exponent power) (behind : List Char) :
    exponent.length ≤ (exponentPart (exponent ++ behind)).1.length := by
  cases spells with
  | none => exact Nat.zero_le _
  | @power letter sign digits negative isLetter spellsSign areDigits nonempty =>
      have signs := signPart_of_spells spellsSign (areDigits.head_noSign nonempty behind)
      have taken := length_le_digitsPart areDigits behind
      rw [List.cons_append, List.append_assoc, exponentPart, signs,
        if_pos ⟨isLetter, digitFirst_of_areDigits areDigits nonempty behind⟩]
      simp only [List.length_cons, List.length_append]
      omega

theorem numberLiteral_source (text : List Char) :
    (numberLiteral text).source = (signPart text).1 ++ (digitsPart (signPart text).2).1 ++
      (fractionPart (digitsPart (signPart text).2).2).1 ++
        (exponentPart (fractionPart (digitsPart (signPart text).2).2).2).1 :=
  rfl

theorem numberLiteral_value (text : List Char) :
    (numberLiteral text).value =
      if (fractionPart (digitsPart (signPart text).2).2).1 = [] ∧
        (exponentPart (fractionPart (digitsPart (signPart text).2).2).2).1 = [] then .integer
      else .general :=
  rfl

/-- **The scan of a number takes the longest literal**: whatever literal stands at the front of
a text, no less is taken. -/
theorem length_le_numberLiteral {front : List Char} {literal : DecimalLiteral}
    (spells : Spells front literal) (behind : List Char) :
    front.length ≤ (numberLiteral (front ++ behind)).source.length := by
  obtain @⟨sign, whole, fraction, places, exponent, negative, power, spellsSign, areDigits,
    spellsFraction, spellsExponent, someDigit⟩ := spells
  have noSign := head_noSign_of_someDigit areDigits spellsFraction someDigit (exponent ++ behind)
  have signs := signPart_of_spells spellsSign noSign
  rw [show sign ++ (whole ++ (fraction ++ exponent)) ++ behind =
    sign ++ (whole ++ (fraction ++ (exponent ++ behind))) by simp only [List.append_assoc]]
  -- A part is taken as it stands when another one is behind it; the last one may go on.
  by_cases noExponent : exponent = []
  · subst noExponent
    by_cases noFraction : fraction = []
    · subst noFraction
      have taken := length_le_digitsPart areDigits behind
      simp only [List.nil_append] at signs
      simp only [numberLiteral_source, signs, List.nil_append, List.length_append, List.length_nil]
      omega
    · have taken := length_le_fractionPart spellsFraction behind
      have digits := Spelling.digitsPart_of_digits areDigits
        (spellsFraction.head_noDigit behind fun none => absurd none noFraction)
      simp only [List.nil_append] at signs
      simp only [numberLiteral_source, signs, digits, List.nil_append, List.length_append,
        List.length_nil]
      omega
  · have taken := length_le_exponentPart spellsExponent behind
    have noDigit := spellsExponent.head_noDigit behind fun none => absurd none noExponent
    have digits := Spelling.digitsPart_of_digits areDigits
      (spellsFraction.head_noDigit (exponent ++ behind) fun _ => noDigit)
    have point := fractionPart_of_spells spellsFraction noDigit
      (spellsExponent.head_noPoint noExponent behind)
    simp only [numberLiteral_source, signs, digits, point, List.length_append]
    omega

theorem exists_spells_signPart (text : List Char) :
    ∃ negative, SpellsSign (signPart text).1 negative := by
  cases text with
  | nil => exact ⟨false, .none⟩
  | cons first rest =>
      cases signed : isSign first with
      | false =>
          have noSign : (first :: rest).head?.any isSign = false := signed
          rw [signPart, takeRun_of_head 1 noSign]
          exact ⟨false, .none⟩
      | true =>
          rw [signPart, takeRun_cons 0 signed]
          rw [isSign, Bool.or_eq_true, beq_iff_eq, beq_iff_eq] at signed
          rcases signed with rfl | rfl
          · exact ⟨false, .plus⟩
          · exact ⟨true, .minus⟩

theorem areDigits_digitsPart (text : List Char) : AreDigits (digitsPart text).1 :=
  List.all_eq_true.mp List.all_takeWhile

theorem digitsPart_ne_nil {text : List Char} (digit : digitFirst text = true) :
    (digitsPart text).1 ≠ [] := by
  cases text with
  | nil => contradiction
  | cons first rest =>
      have digit : first.isDigit = true := digit
      simp only [digitsPart, List.takeWhile_cons_of_pos digit, ne_eq, reduceCtorEq,
        not_false_eq_true]

theorem exists_spells_fractionPart (text : List Char) :
    ∃ places, SpellsFraction (fractionPart text).1 places := by
  unfold fractionPart
  split
  · exact ⟨[], .none⟩
  · split
    · rename_i pointed
      rw [pointed.1]
      exact ⟨_, .point (areDigits_digitsPart _) (digitsPart_ne_nil pointed.2)⟩
    · exact ⟨[], .none⟩

theorem exists_spells_exponentPart (text : List Char) :
    ∃ power, SpellsExponent (exponentPart text).1 power := by
  unfold exponentPart
  split
  · exact ⟨0, .none⟩
  · dsimp only
    split
    · rename_i first rest raised
      obtain ⟨negative, spellsSign⟩ := exists_spells_signPart rest
      exact ⟨_, .power raised.1 spellsSign (areDigits_digitsPart _) (digitsPart_ne_nil raised.2)⟩
    · exact ⟨0, .none⟩

/-- The parts that the scan of a number takes are the parts of a literal, except that there may
be no digit in front of the exponent. -/
theorem exists_spells_parts (text : List Char) : ∃ negative places power,
    SpellsSign (signPart text).1 negative ∧
    AreDigits (digitsPart (signPart text).2).1 ∧
    SpellsFraction (fractionPart (digitsPart (signPart text).2).2).1 places ∧
    SpellsExponent (exponentPart (fractionPart (digitsPart (signPart text).2).2).2).1 power := by
  obtain ⟨negative, spellsSign⟩ := exists_spells_signPart text
  obtain ⟨places, spellsFraction⟩ :=
    exists_spells_fractionPart (digitsPart (signPart text).2).2
  obtain ⟨power, spellsExponent⟩ :=
    exists_spells_exponentPart (fractionPart (digitsPart (signPart text).2).2).2
  exact ⟨negative, places, power, spellsSign, areDigits_digitsPart _, spellsFraction,
    spellsExponent⟩

/-- Where a number starts, the scan of it takes a literal. -/
theorem exists_spells_numberLiteral {text : List Char} (starts : numberStarts text = true) :
    ∃ literal, Spells (numberLiteral text).source literal := by
  obtain ⟨negative, places, power, spellsSign, areDigits, spellsFraction, spellsExponent⟩ :=
    exists_spells_parts text
  have someDigit := (numberStarts_iff rfl rfl rfl).mp starts
  have spells := Spells.parts spellsSign areDigits spellsFraction spellsExponent
    (someDigit.imp_right fun pointed none => pointed (none ▸ spellsFraction).eq_nil_of_places)
  rw [numberLiteral_source]
  simp only [List.append_assoc]
  exact ⟨_, spells⟩

/-- The scan calls a number whole when its literal has neither a point nor an exponent. -/
theorem numberLiteral_value_eq_integer_iff (text : List Char) :
    (numberLiteral text).value = .integer ↔ IsWhole (numberLiteral text).source := by
  obtain ⟨negative, places, power, spellsSign, areDigits, spellsFraction, spellsExponent⟩ :=
    exists_spells_parts text
  rw [numberLiteral_source, isWhole_iff spellsSign areDigits spellsFraction spellsExponent,
    numberLiteral_value]
  split
  · rename_i none
    exact iff_of_true rfl none
  · rename_i some
    exact iff_of_false NumberKind.noConfusion some

end Scan

end SelectorLang
