import SelectorLang.Number.Layout

/-! # Numbers read back

The digits that are written for a magnitude are those of a decimal that reads back as it
(`SelectorLang.Magnitude.shortest_readsBack`), and a literal with these digits has its
value (`SelectorLang.DecimalLiteral.value_of_readsBack`). So the text of a finite number
spells the number (`SelectorLang.Binary64.exists_spelling`).
-/

namespace SelectorLang

open Number

/-! ## Quotients in other terms -/

namespace Number

theorem roundHalfEven_scale {factor : Nat} (positive : 0 < factor) (numerator denominator : Nat) :
    roundHalfEven (factor * numerator) (factor * denominator) =
      roundHalfEven numerator denominator := by
  have doubled : 2 * (factor * (numerator % denominator)) =
      factor * (2 * (numerator % denominator)) := Nat.mul_left_comm _ _ _
  simp only [roundHalfEven, Nat.mul_div_mul_left _ _ positive, Nat.mul_mod_mul_left, doubled,
    Nat.mul_lt_mul_left positive]

/-- Rounding sees only the quotient. -/
theorem roundBits_scale {factor : Nat} (positive : 0 < factor) (numerator denominator : Nat) :
    roundBits (factor * numerator) (factor * denominator) = roundBits numerator denominator := by
  simp only [roundBits, Nat.mul_div_mul_left _ _ positive, Nat.mul_assoc,
    roundHalfEven_scale positive]

end Number

namespace Binary64

theorem unitsOfRatio_scale {factor : Nat} (positive : 0 < factor) (numerator denominator : Nat) :
    unitsOfRatio (factor * numerator) (factor * denominator) =
      unitsOfRatio numerator denominator := by
  rw [unitsOfRatio, Nat.mul_assoc, roundBits_scale positive]
  rfl

theorem unitsOfRatio_zero (denominator : Nat) : unitsOfRatio 0 denominator = 0 := by
  simp [unitsOfRatio, roundBits, roundHalfEven]

/-- A quotient below half a unit has no units. -/
theorem unitsOfRatio_eq_zero {numerator denominator : Nat}
    (below : 2 * (numerator * unitsPerOne) < denominator) :
    unitsOfRatio numerator denominator = 0 := by
  unfold unitsOfRatio
  generalize numerator * unitsPerOne = units at below ⊢
  have quotient : units / denominator = 0 := Nat.div_eq_of_lt (by omega)
  have remainder : units % denominator = units := Nat.mod_eq_of_lt (by omega)
  have one : Nat.pow 2 (spareBits 0) = 1 := rfl
  rw [roundBits, quotient, one, Nat.mul_one, Nat.mul_one, roundHalfEven, quotient, remainder]
  exact if_pos below

end Binary64

namespace Decimal

open Binary64

/-- A decimal with a zero at the end of its digits has as many units without it. -/
theorem units_div_ten {decimal : Decimal} (zero : decimal.digits % 10 = 0) :
    (⟨decimal.digits / 10, decimal.exponent + 1⟩ : Decimal).units = decimal.units := by
  obtain ⟨digits, exponent⟩ := decimal
  have tenfold : digits = 10 * (digits / 10) := by
    dsimp only at zero
    omega
  unfold units
  dsimp only
  generalize digits / 10 = shorter at *
  subst tenfold
  simp only [Nat.pow_eq]
  cases exponent with
  | ofNat whole =>
      have above : (Int.ofNat whole + 1).toNat = whole + 1 := rfl
      have below : (-(Int.ofNat whole + 1)).toNat = (-Int.ofNat whole).toNat := by
        simp only [Int.ofNat_eq_natCast]
        omega
      have same : (Int.ofNat whole).toNat = whole := rfl
      rw [above, below, same, Nat.pow_succ, Nat.mul_comm 10, Nat.mul_assoc, Nat.mul_comm 10]
  | negSucc fraction =>
      have above : (Int.negSucc fraction + 1).toNat = (Int.negSucc fraction).toNat := by
        omega
      have below : (-Int.negSucc fraction).toNat = fraction + 1 := rfl
      have nearer : (-(Int.negSucc fraction + 1)).toNat = fraction := by
        omega
      rw [above, below, nearer, Nat.pow_succ, Nat.mul_comm (10 ^ fraction), Nat.mul_assoc,
        unitsOfRatio_scale (by decide)]

theorem units_trimmed (decimal : Decimal) : decimal.trimmed.units = decimal.units := by
  fun_induction trimmed decimal with
  | case1 decimal zero ih => rw [ih, units_div_ten zero.2]
  | case2 => rfl

theorem digits_ne_zero_of_units {decimal : Decimal} (nonzero : decimal.units ≠ 0) :
    decimal.digits ≠ 0 := by
  intro zero
  apply nonzero
  rw [units, zero, Nat.zero_mul, unitsOfRatio_zero]

end Decimal

namespace Magnitude

/-- Units that are powers of two are powers of ten once there are as many fives. -/
theorem roundBits_fives {units : Nat} (aligned : Nat.pow 2 (spareBits units) ∣ units)
    (places : Nat) :
    roundBits (units * Nat.pow 5 places * Nat.pow 10 0 * Nat.pow 2 places) (Nat.pow 10 places) =
      units := by
  have tens : Nat.pow 10 places = Nat.pow 5 places * Nat.pow 2 places := by
    simp only [Nat.pow_eq]
    exact Nat.mul_pow 5 2 places
  have one : Nat.pow 10 0 = 1 := rfl
  rw [one, Nat.mul_one, Nat.mul_assoc, ← tens]
  exact roundBits_of_aligned (Nat.pow_pos (by decide)) aligned

/-- The exact decimal reads back. -/
theorem exactDecimal_readsBack (magnitude : Magnitude) :
    magnitude.exactDecimal.ReadsBack magnitude := by
  have reads (places : Nat) (exponent : Int) (above : exponent.toNat = 0)
      (below : (-exponent).toNat = places) :
      roundBits (magnitude.units * Nat.pow 5 places * Nat.pow 10 exponent.toNat *
        Nat.pow 2 places) (Nat.pow 10 (-exponent).toNat) = magnitude.units := by
    rw [above, below]
    exact roundBits_fives magnitude.aligned places
  exact reads 1074 (-1074) rfl rfl

theorem neighbour?_readsBack {tie : Tie} {magnitude : Magnitude} {exponent : Int}
    {decimal : Decimal} (found : magnitude.neighbour? tie exponent = some decimal) :
    decimal.ReadsBack magnitude := by
  unfold neighbour? at found
  dsimp only at found
  split at found
  · split at found
    · rename_i upper
      cases found
      exact upper.1
    · rename_i lower _
      cases found
      exact lower
  · split at found
    · rename_i upper
      cases found
      exact upper
    · contradiction

/-- **The shortest digits read back.** -/
theorem shortest_readsBack (tie : Tie) (magnitude : Magnitude) :
    (magnitude.shortest tie).ReadsBack magnitude := by
  unfold shortest Decimal.ReadsBack
  dsimp only
  rw [Decimal.units_trimmed]
  cases found : (List.range 17).findSome? fun (count : Nat) =>
      magnitude.neighbour? tie (magnitude.leadingExponent - count - 1) with
  | none => exact magnitude.exactDecimal_readsBack
  | some decimal =>
      obtain ⟨count, -, reads⟩ := List.exists_of_findSome?_eq_some found
      exact neighbour?_readsBack reads

end Magnitude

/-! ## Literals with these digits -/

namespace DecimalLiteral

open Binary64

/-- Digits that are a power of ten above half a unit away are below it. -/
theorem double_units_lt {digits guard places : Nat} (guarded : 4 * unitsPerOne ≤ Nat.pow 10 guard)
    (far : guard + digits.log2 ≤ places) : 2 * (digits * unitsPerOne) < Nat.pow 10 places := by
  have bits : digits < 2 ^ digits.log2 * 2 := Nat.lt_log2_self
  have tens : 2 ^ digits.log2 ≤ 10 ^ digits.log2 := Nat.pow_le_pow_left (by decide) _
  have positive : 0 < unitsPerOne := twoPow_pos _
  calc 2 * (digits * unitsPerOne)
      < 2 * (2 ^ digits.log2 * 2 * unitsPerOne) :=
        Nat.mul_lt_mul_of_pos_left (Nat.mul_lt_mul_of_pos_right bits positive) (by decide)
    _ = 4 * unitsPerOne * 2 ^ digits.log2 := by
        generalize 2 ^ digits.log2 = power
        generalize unitsPerOne = units
        rw [show 4 = 2 * 2 from rfl]
        ac_rfl
    _ ≤ 10 ^ guard * 10 ^ digits.log2 := Nat.mul_le_mul guarded tens
    _ = 10 ^ (guard + digits.log2) := (Nat.pow_add _ _ _).symm
    _ ≤ 10 ^ places := Nat.pow_le_pow_right (by decide) far

theorem guard_units : 4 * unitsPerOne ≤ Nat.pow 10 401 := by
  decide +kernel

/-- A literal far below half a unit has no units. -/
theorem units_eq_zero_of_far {digits : Nat} {exponent : Int}
    (far : exponent + 400 + digits.log2 < 0) : (⟨digits, exponent⟩ : Decimal).units = 0 := by
  have noTens : exponent.toNat = 0 := by omega
  have one : Nat.pow 10 0 = 1 := rfl
  have places : 401 + digits.log2 ≤ (-exponent).toNat := by omega
  rw [Decimal.units]
  dsimp only
  rw [noTens, one, Nat.mul_one]
  exact unitsOfRatio_eq_zero (double_units_lt guard_units places)

/-- A literal whose digits read back as a magnitude has that value. -/
theorem value_of_readsBack {literal : DecimalLiteral} {magnitude : Magnitude}
    (readsBack : (⟨literal.digits, literal.exponent⟩ : Decimal).ReadsBack magnitude)
    (nonzero : magnitude.units ≠ 0) (small : literal.exponent ≤ 0) :
    literal.value = .finite literal.negative magnitude := by
  have someDigits : literal.digits ≠ 0 :=
    @Decimal.digits_ne_zero_of_units ⟨literal.digits, literal.exponent⟩ (by rwa [readsBack])
  have near : ¬ literal.exponent + 400 + literal.digits.log2 < 0 := by
    intro far
    rw [Decimal.ReadsBack, units_eq_zero_of_far far] at readsBack
    exact nonzero readsBack.symm
  rw [value, if_neg someDigits, if_neg (by omega), if_neg near]
  unfold Decimal.ReadsBack Decimal.units at readsBack
  have bounded := magnitude.bounded
  rw [← readsBack] at bounded
  rw [Binary64.ofRatio, dif_pos bounded]
  exact congrArg (Binary64.finite literal.negative) (Magnitude.ext readsBack)

end DecimalLiteral

/-! ## Literals far out of range -/

namespace Number

theorem le_roundHalfEven (numerator denominator : Nat) :
    numerator / denominator ≤ roundHalfEven numerator denominator := by
  unfold roundHalfEven
  dsimp only
  split
  · exact Nat.le_refl _
  · split <;> exact Nat.le_add_right _ _

/-- Rounding keeps the leading bit. -/
theorem twoPow_log2_le_roundBits {numerator denominator : Nat}
    (nonzero : numerator / denominator ≠ 0) :
    Nat.pow 2 (numerator / denominator).log2 ≤ roundBits numerator denominator := by
  have leading : 2 ^ (numerator / denominator).log2 ≤ numerator / denominator :=
    Nat.log2_self_le nonzero
  unfold roundBits
  simp only [Nat.pow_eq]
  have rounded := le_roundHalfEven numerator
    (denominator * 2 ^ spareBits (numerator / denominator))
  rw [← Nat.div_div_eq_div_mul] at rounded
  generalize numerator / denominator = quotient at leading rounded ⊢
  have spare : spareBits quotient ≤ quotient.log2 := Nat.sub_le _ _
  have split : 2 ^ quotient.log2 =
      2 ^ (quotient.log2 - spareBits quotient) * 2 ^ spareBits quotient := by
    rw [← Nat.pow_add, Nat.sub_add_cancel spare]
  rw [split] at leading ⊢
  refine Nat.mul_le_mul_right _ (Nat.le_trans ?_ rounded)
  exact (Nat.le_div_iff_mul_le (Nat.two_pow_pos _)).mpr leading

end Number

namespace Binary64

theorem ofRatio_of_units_eq_zero {numerator denominator : Nat} (negative : Bool)
    (none : unitsOfRatio numerator denominator = 0) :
    ofRatio negative numerator denominator = zero negative := by
  have bounded : unitsOfRatio numerator denominator < unitsBound := none ▸ unitsBound_pos
  rw [ofRatio, dif_pos bounded]
  exact congrArg (finite negative) (Magnitude.ext none)

/-- A power of ten above 309 is out of bounds. -/
theorem unitsBound_le_units {digits places : Nat} (some : digits ≠ 0) (far : 310 ≤ places) :
    unitsBound ≤ unitsOfRatio (digits * Nat.pow 10 places) (Nat.pow 10 0) := by
  have large : Nat.pow 2 2098 ≤ digits * Nat.pow 10 places * unitsPerOne :=
    calc Nat.pow 2 2098 ≤ Nat.pow 10 310 * unitsPerOne := by decide +kernel
      _ ≤ Nat.pow 10 places * unitsPerOne :=
        Nat.mul_le_mul_right _ (Nat.pow_le_pow_right (by decide) far)
      _ ≤ digits * Nat.pow 10 places * unitsPerOne :=
        Nat.mul_le_mul_right _ (Nat.le_mul_of_pos_left _ (Nat.pos_of_ne_zero some))
  have one : digits * Nat.pow 10 places * unitsPerOne / Nat.pow 10 0 =
      digits * Nat.pow 10 places * unitsPerOne := Nat.div_one _
  have nonzero : digits * Nat.pow 10 places * unitsPerOne / Nat.pow 10 0 ≠ 0 := by
    rw [one]
    exact Nat.ne_of_gt (Nat.lt_of_lt_of_le (twoPow_pos _) large)
  refine Nat.le_trans ?_ (twoPow_log2_le_roundBits nonzero)
  rw [one]
  exact Nat.pow_le_pow_right (by decide)
    ((Nat.le_log2 (Nat.ne_of_gt (Nat.lt_of_lt_of_le (twoPow_pos _) large))).mpr large)

end Binary64

/-- **The value of a literal is the nearest number** to its digits times its power of ten,
however far the power is. -/
theorem DecimalLiteral.value_eq_ofRatio (literal : DecimalLiteral) :
    literal.value = Binary64.ofRatio literal.negative
      (literal.digits * Nat.pow 10 literal.exponent.toNat)
      (Nat.pow 10 (-literal.exponent).toNat) := by
  unfold value
  split
  · rename_i noDigits
    rw [noDigits, Nat.zero_mul, Binary64.ofRatio_of_units_eq_zero _ (Binary64.unitsOfRatio_zero _)]
  · rename_i someDigits
    split
    · rename_i far
      have whole : (-literal.exponent).toNat = 0 := by omega
      have beyond := Binary64.unitsBound_le_units someDigits
        (show 310 ≤ literal.exponent.toNat by omega)
      rw [whole, Binary64.ofRatio, dif_neg (Nat.not_lt.mpr beyond)]
    · split
      · rename_i far
        exact (Binary64.ofRatio_of_units_eq_zero _ (units_eq_zero_of_far far)).symm
      · rfl

end SelectorLang
