import SelectorLang.Number.Rounding

/-! # Binary64 numbers

The numbers of the IEEE 754 binary64 format as exact values: a finite magnitude is
a whole number of units of `2 ^ -1074` with at most 53 significant bits below
`2 ^ 1024`. Quotients are rounded to the nearest such number
(`Binary64.ofRatio`); comparison is numeric, so that the two zeros agree and no
number agrees with itself when it is not a number.
-/

namespace SelectorLang

open Number

/-- How many units of `2 ^ -1074` there are in one. -/
def unitsPerOne : Nat := Nat.pow 2 1074

/-- Finite magnitudes stay below this many units, which is `2 ^ 1024`. -/
def unitsBound : Nat := Nat.pow 2 2098

/-- Zero is in bounds. -/
theorem unitsBound_pos : 0 < unitsBound := by
  decide +kernel

/-- A finite magnitude, counted in units of `2 ^ -1074`. -/
structure Magnitude where
  /-- The magnitude in units. -/
  units : Nat
  /-- It is below `2 ^ 1024`. -/
  bounded : units < unitsBound
  /-- It has at most 53 significant bits. -/
  aligned : Nat.pow 2 (spareBits units) ∣ units
deriving DecidableEq

/-- A binary64 number; all that is not a number is one value. -/
inductive Binary64 where
  /-- Not a number. -/
  | nan
  /-- An infinity of either sign. -/
  | infinite (negative : Bool)
  /-- A finite number of either sign, zero included. -/
  | finite (negative : Bool) (magnitude : Magnitude)
deriving DecidableEq

namespace Magnitude

/-- No units at all. -/
def zero : Magnitude where
  units := 0
  bounded := unitsBound_pos
  aligned := Nat.dvd_zero _

instance : Inhabited Magnitude := ⟨zero⟩

/-- Two magnitudes of as many units are the same. -/
@[ext]
theorem ext {first second : Magnitude} (units : first.units = second.units) : first = second := by
  cases first
  cases second
  simp only at units
  subst units
  rfl

end Magnitude

namespace Binary64

/-- Zero of either sign. -/
def zero (negative : Bool) : Binary64 := finite negative Magnitude.zero

instance : Inhabited Binary64 := ⟨zero false⟩

/-- The units of the number nearest to a quotient, before the bound is looked at. -/
def unitsOfRatio (numerator denominator : Nat) : Nat :=
  roundBits (numerator * unitsPerOne) denominator

/-- The number nearest to a quotient, a half going to the even neighbour; an
infinity when the nearest one is out of bounds. -/
def ofRatio (negative : Bool) (numerator denominator : Nat) : Binary64 :=
  if bounded : unitsOfRatio numerator denominator < unitsBound then
    finite negative ⟨unitsOfRatio numerator denominator, bounded, pow_dvd_roundBits _ _⟩
  else
    infinite negative

/-- Numeric equality: the zeros of both signs are equal, and what is not a number
equals nothing. -/
def numericEq : Binary64 → Binary64 → Bool
  | finite negative magnitude, finite negative' magnitude' =>
    magnitude.units == magnitude'.units && (negative == negative' || magnitude.units == 0)
  | infinite negative, infinite negative' => negative == negative'
  | _, _ => false

/-- Finite numbers are those that are neither infinite nor not a number. -/
def isFinite : Binary64 → Bool
  | finite _ _ => true
  | _ => false

/-- A finite number is numerically equal to itself. -/
theorem numericEq_self_of_isFinite {number : Binary64} (isFinite : number.isFinite = true) :
    number.numericEq number = true := by
  cases number with
  | finite negative magnitude => simp [numericEq]
  | infinite negative => simp [numericEq]
  | nan => simp [Binary64.isFinite] at isFinite

end Binary64

end SelectorLang
