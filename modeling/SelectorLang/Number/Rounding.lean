/-! # Rounding to 53 significant bits

A quotient of natural numbers is rounded to the nearest whole number, a half going
to the even one, and then to the nearest multiple of the power of two that leaves
53 significant bits. The result always has at most 53 significant bits
(`pow_dvd_roundBits`), and a number that already has no more is left alone
(`roundBits_of_aligned`). Powers are written with `Nat.pow`, so that no statement
depends on which instance of `^` is in scope.
-/

namespace SelectorLang.Number

/-- The nearest whole number to a quotient, a half going to the even one. -/
def roundHalfEven (numerator denominator : Nat) : Nat :=
  let quotient := numerator / denominator
  let doubled := 2 * (numerator % denominator)
  if doubled < denominator then quotient
  else if denominator < doubled then quotient + 1
  else quotient + quotient % 2

/-- How many low bits of a number are beyond its 53 leading ones. -/
def spareBits (number : Nat) : Nat :=
  number.log2 - 52

/-- The nearest number to a quotient among those with at most 53 significant bits
where the quotient has more, and among the whole numbers where it has fewer. -/
def roundBits (numerator denominator : Nat) : Nat :=
  let spare := spareBits (numerator / denominator)
  roundHalfEven numerator (denominator * Nat.pow 2 spare) * Nat.pow 2 spare

/-- Rounding goes up by at most one. -/
theorem roundHalfEven_le (numerator denominator : Nat) :
    roundHalfEven numerator denominator ≤ numerator / denominator + 1 := by
  unfold roundHalfEven
  dsimp only
  split
  · omega
  · split <;> omega

/-- A number without remainder is its own rounding. -/
theorem roundHalfEven_mul (number : Nat) {denominator : Nat} (positive : 0 < denominator) :
    roundHalfEven (number * denominator) denominator = number := by
  simp [roundHalfEven, Nat.mul_mod_left, Nat.mul_div_cancel _ positive, positive]

/-- A power of two is not zero. -/
theorem twoPow_pos (exponent : Nat) : 0 < Nat.pow 2 exponent :=
  Nat.two_pow_pos exponent

/-- Cut down by its spare bits, a number is below `2 ^ 53`. -/
theorem div_spareBits_lt (number : Nat) :
    number / Nat.pow 2 (spareBits number) < Nat.pow 2 53 := by
  simp only [Nat.pow_eq]
  rw [Nat.div_lt_iff_lt_mul (Nat.two_pow_pos _), ← Nat.pow_add]
  refine Nat.lt_of_lt_of_le Nat.lt_log2_self (Nat.pow_le_pow_right (by decide) ?_)
  unfold spareBits
  omega

/-- A multiple of `2 ^ spare` that is at most `2 ^ 53` times it has at most 53
significant bits. -/
theorem pow_spareBits_dvd_mul {factor spare : Nat} (small : factor ≤ Nat.pow 2 53) :
    Nat.pow 2 (spareBits (factor * Nat.pow 2 spare)) ∣ factor * Nat.pow 2 spare := by
  simp only [Nat.pow_eq] at small ⊢
  by_cases full : factor = 2 ^ 53
  · rw [full, ← Nat.pow_add]
    apply Nat.pow_dvd_pow
    simp only [spareBits, Nat.log2_two_pow]
    omega
  by_cases empty : factor = 0
  · simp [empty]
  refine Nat.dvd_trans (Nat.pow_dvd_pow 2 ?_) (Nat.dvd_mul_left (2 ^ spare) factor)
  have below : factor * 2 ^ spare < 2 ^ (53 + spare) := by
    rw [Nat.pow_add]
    exact Nat.mul_lt_mul_of_pos_right (by omega) (Nat.two_pow_pos _)
  have nonzero : factor * 2 ^ spare ≠ 0 :=
    Nat.mul_ne_zero empty (Nat.ne_of_gt (Nat.two_pow_pos _))
  have bits := (Nat.log2_lt nonzero).mpr below
  unfold spareBits
  omega

/-- A rounded quotient has at most 53 significant bits. -/
theorem pow_dvd_roundBits (numerator denominator : Nat) :
    Nat.pow 2 (spareBits (roundBits numerator denominator)) ∣
      roundBits numerator denominator := by
  apply pow_spareBits_dvd_mul
  have cut := div_spareBits_lt (numerator / denominator)
  rw [Nat.div_div_eq_div_mul] at cut
  have rounded := roundHalfEven_le numerator
    (denominator * Nat.pow 2 (spareBits (numerator / denominator)))
  omega

/-- A number with at most 53 significant bits is its own rounding. -/
theorem roundBits_of_aligned {number denominator : Nat} (positive : 0 < denominator)
    (aligned : Nat.pow 2 (spareBits number) ∣ number) :
    roundBits (number * denominator) denominator = number := by
  obtain ⟨factor, same⟩ := aligned
  unfold roundBits
  simp only [Nat.mul_div_cancel _ positive]
  have regrouped :
      number * denominator = factor * (denominator * Nat.pow 2 (spareBits number)) := by
    conv => lhs; rw [same]
    ac_rfl
  rw [regrouped, roundHalfEven_mul factor (Nat.mul_pos positive (twoPow_pos _)), Nat.mul_comm,
    ← same]

end SelectorLang.Number
