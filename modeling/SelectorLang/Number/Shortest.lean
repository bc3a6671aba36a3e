import SelectorLang.Number.Literal

/-! # Shortest decimal digits

The fewest digits that read back as a given magnitude, and of those the nearest
ones. For each count of digits from one to seventeen the two neighbours of the
magnitude on that decimal grid are tried; the first grid with a neighbour that
reads back wins. Whatever is chosen reads back (`Decimal.ReadsBack`), for where no
grid had a neighbour the exact digits are taken, which are finitely many.
-/

namespace SelectorLang

/-- A decimal number: digits and the power of ten they are multiplied by. -/
structure Decimal where
  /-- The digits as a whole number. -/
  digits : Nat
  /-- The power of ten. -/
  exponent : Int
deriving DecidableEq, Repr

/-- Which of two equally near decimals is chosen. -/
inductive Tie where
  /-- The greater one. -/
  | up
  /-- The one whose last digit is even. -/
  | even
deriving DecidableEq, Repr

namespace Decimal

/-- The units of the binary64 number nearest to a decimal. -/
def units (decimal : Decimal) : Nat :=
  Binary64.unitsOfRatio (decimal.digits * Nat.pow 10 decimal.exponent.toNat)
    (Nat.pow 10 (-decimal.exponent).toNat)

/-- A decimal reads back as a magnitude when that is the nearest one to it. -/
def ReadsBack (decimal : Decimal) (magnitude : Magnitude) : Prop :=
  decimal.units = magnitude.units

instance (decimal : Decimal) (magnitude : Magnitude) : Decidable (decimal.ReadsBack magnitude) :=
  inferInstanceAs (Decidable (_ = _))

/-- The same decimal without zeros at the end of its digits. -/
def trimmed (decimal : Decimal) : Decimal :=
  if decimal.digits ≠ 0 ∧ decimal.digits % 10 = 0 then
    trimmed ⟨decimal.digits / 10, decimal.exponent + 1⟩
  else
    decimal
termination_by decimal.digits
decreasing_by omega

end Decimal

namespace Magnitude

/-- The exact decimal value: a unit is `5 ^ 1074` times the 1074th part of ten's
powers. -/
def exactDecimal (magnitude : Magnitude) : Decimal :=
  ⟨magnitude.units * Nat.pow 5 1074, -1074⟩

/-- The power of ten just above a magnitude that is not zero, seen 400 places
further down, where every such magnitude has digits before the point. -/
def leadingExponent (magnitude : Magnitude) : Int :=
  (Nat.toDigits 10 (magnitude.units * Nat.pow 10 400 / unitsPerOne)).length - 400

/-- The neighbour of a magnitude on the grid of a power of ten that reads back as
the magnitude; of two the nearer one. -/
def neighbour? (tie : Tie) (magnitude : Magnitude) (exponent : Int) : Option Decimal :=
  let numerator := magnitude.units * Nat.pow 10 (-exponent).toNat
  let denominator := unitsPerOne * Nat.pow 10 exponent.toNat
  let lower : Decimal := ⟨numerator / denominator, exponent⟩
  let upper : Decimal := ⟨numerator / denominator + 1, exponent⟩
  let doubled := 2 * (numerator % denominator)
  let upperIsNearer :=
    denominator < doubled ∨ denominator = doubled ∧ (tie = .up ∨ lower.digits % 2 = 1)
  if lower.ReadsBack magnitude then
    if upper.ReadsBack magnitude ∧ upperIsNearer then some upper else some lower
  else if upper.ReadsBack magnitude then some upper
  else none

/-- The fewest digits that read back, the nearest ones of those. -/
def shortest (tie : Tie) (magnitude : Magnitude) : Decimal :=
  let leading := magnitude.leadingExponent
  let found := (List.range 17).findSome? fun (count : Nat) =>
    magnitude.neighbour? tie (leading - count - 1)
  (found.getD magnitude.exactDecimal).trimmed

end Magnitude

end SelectorLang
