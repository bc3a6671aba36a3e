import SelectorLang.Number.Binary64

/-! # Reading decimal numbers

A decimal literal is a sign, digits with at most one point among or beside them,
and an exponent; at least one digit stands before the exponent. Its value is the
nearest binary64 number. A text may also spell an infinity or a value that is not a
number, in either case of letters.
-/

namespace SelectorLang

/-- A decimal literal: its digits without the point, and the power of ten they are
multiplied by. -/
structure DecimalLiteral where
  /-- Whether a minus sign stands in front. -/
  negative : Bool
  /-- The digits read as a whole number. -/
  digits : Nat
  /-- The power of ten. -/
  exponent : Int
deriving DecidableEq, Repr

namespace DecimalLiteral

/-- An optional sign in front of a text: whether it is a minus, and what follows. -/
def splitSign : List Char → Bool × List Char
  | '-' :: rest => (true, rest)
  | '+' :: rest => (false, rest)
  | text => (false, text)

/-- The number that digits spell. -/
def ofDigits (digits : List Char) : Nat :=
  Nat.ofDigitChars 10 digits 0

/-- The digits after an optional point, and what follows them. -/
def splitFraction : List Char → List Char × List Char
  | '.' :: rest => (rest.takeWhile Char.isDigit, rest.dropWhile Char.isDigit)
  | text => ([], text)

/-- The exponent that a whole text spells: zero for no text, otherwise the letter
`e` of either case, an optional sign and at least one digit. -/
def exponent? : List Char → Option Int
  | [] => some 0
  | letter :: rest =>
    let (negative, digits) := splitSign rest
    if (letter = 'e' ∨ letter = 'E') ∧ digits ≠ [] ∧ digits.all Char.isDigit then
      some (if negative then -(ofDigits digits : Int) else (ofDigits digits : Int))
    else
      none

/-- The literal that a whole text spells. -/
def ofChars? (text : List Char) : Option DecimalLiteral :=
  let (negative, body) := splitSign text
  let whole := body.takeWhile Char.isDigit
  let (fraction, tail) := splitFraction (body.dropWhile Char.isDigit)
  if whole = [] ∧ fraction = [] then none
  else
    (exponent? tail).map fun exponent =>
      ⟨negative, ofDigits (whole ++ fraction), exponent - fraction.length⟩

/-- The nearest binary64 number. No digits at all, or a power of ten so low that
the literal is below half a unit, give zero, and a power of ten above 309 gives an
infinity; these are set apart so that a far exponent costs nothing. -/
def value (literal : DecimalLiteral) : Binary64 :=
  if literal.digits = 0 then Binary64.zero literal.negative
  else if 309 < literal.exponent then .infinite literal.negative
  else if literal.exponent + 400 + literal.digits.log2 < 0 then Binary64.zero literal.negative
  else
    Binary64.ofRatio literal.negative (literal.digits * Nat.pow 10 literal.exponent.toNat)
      (Nat.pow 10 (-literal.exponent).toNat)

end DecimalLiteral

namespace Binary64

/-- The number that a decimal literal spells. -/
def ofLiteral? (text : List Char) : Option Binary64 :=
  (DecimalLiteral.ofChars? text).map DecimalLiteral.value

/-- The number that a text spells: a decimal literal, or an optional sign and one of
the words `inf`, `infinity` and `nan`. -/
def ofText? (text : String) : Option Binary64 :=
  let (negative, word) := DecimalLiteral.splitSign text.toList
  let lowered := word.map Char.toLower
  if lowered = "nan".toList then some nan
  else if lowered = "inf".toList ∨ lowered = "infinity".toList then some (infinite negative)
  else ofLiteral? text.toList

end Binary64

end SelectorLang
