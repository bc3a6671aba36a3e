import SelectorLang.Number.Shortest

/-! # Writing numbers

How the shortest digits of a number are laid out in a text: positionally or with an
exponent, with or without a fraction for whole numbers. `Layout.plain` is always
positional and bare.
-/

namespace SelectorLang

/-- The decisions of a number format. -/
structure Layout where
  /-- Which of two equally near decimals is written. -/
  tie : Tie
  /-- Whether the leading digit's power of ten is written positionally. -/
  isPositional : Int → Bool
  /-- What follows the digits of a whole number in positional form. -/
  wholeEnd : String

namespace Layout

/-- Positional throughout, and nothing after a whole number; the greater of two
equally near decimals. -/
def plain : Layout where
  tie := .up
  isPositional _ := true
  wholeEnd := ""

/-- The digits with the point where the power of ten puts it. -/
def positional (layout : Layout) (decimal : Decimal) : List Char :=
  let digits := Nat.toDigits 10 decimal.digits
  let places := (-decimal.exponent).toNat
  if places = 0 then
    digits ++ List.replicate decimal.exponent.toNat '0' ++ layout.wholeEnd.toList
  else if places < digits.length then
    digits.take (digits.length - places) ++ '.' :: digits.drop (digits.length - places)
  else
    '0' :: '.' :: List.replicate (places - digits.length) '0' ++ digits

/-- One digit before the point and the power of ten, with its sign, after the
letter `e`. -/
def exponential (decimal : Decimal) : List Char :=
  let digits := Nat.toDigits 10 decimal.digits
  let leading := decimal.exponent + digits.length - 1
  digits.take 1 ++ (if digits.length = 1 then [] else '.' :: digits.drop 1) ++
    'e' :: (if leading < 0 then '-' else '+') :: Nat.toDigits 10 leading.natAbs

/-- A finite magnitude in a layout; zero has the one digit `0`. -/
def magnitude (layout : Layout) (magnitude : Magnitude) : List Char :=
  if magnitude.units = 0 then layout.positional ⟨0, 0⟩
  else
    let decimal := magnitude.shortest layout.tie
    let leading := decimal.exponent + (Nat.toDigits 10 decimal.digits).length - 1
    if layout.isPositional leading then layout.positional decimal else exponential decimal

/-- A finite number in a layout: a minus sign for the negative ones, zero included,
then the magnitude. -/
def finite (layout : Layout) (negative : Bool) (magnitude : Magnitude) : String :=
  String.ofList ((if negative then ['-'] else []) ++ layout.magnitude magnitude)

end Layout

namespace Binary64

/-- The plain text of a number: shortest digits, never an exponent, the words `inf`
and `NaN` for what is not finite. -/
def plainText : Binary64 → String
  | nan => "NaN"
  | infinite true => "-inf"
  | infinite false => "inf"
  | finite negative magnitude => Layout.plain.finite negative magnitude

end Binary64

end SelectorLang
