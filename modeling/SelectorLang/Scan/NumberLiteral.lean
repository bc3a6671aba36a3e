import SelectorLang.Scan.Basic
import SelectorLang.Token

/-! # Number literals in a text

A number is an optional sign, digits, an optional point with digits behind it and
an optional exponent with digits in it; a point or an exponent letter without digits
belongs to what follows. The scan covers the text it reads
(`numberLiteral_covers`).
-/

namespace SelectorLang.Scan

/-- The signs of numbers. -/
def isSign (character : Char) : Bool :=
  character == '+' || character == '-'

/-- Whether the first character is a digit. -/
def digitFirst (text : List Char) : Bool :=
  text.head?.any Char.isDigit

/-- An optional sign, and what follows it. -/
def signPart (text : List Char) : List Char × List Char :=
  takeRun 1 isSign text

/-- A run of digits, and what follows it. -/
def digitsPart (text : List Char) : List Char × List Char :=
  (text.takeWhile Char.isDigit, text.dropWhile Char.isDigit)

/-- A point with its digits if at least one digit stands behind it, and what
follows. -/
def fractionPart : List Char → List Char × List Char
  | [] => ([], [])
  | first :: rest =>
    if first = '.' ∧ digitFirst rest then (first :: (digitsPart rest).1, (digitsPart rest).2)
    else ([], first :: rest)

/-- An exponent letter, a sign and digits if there is at least one digit, and what
follows. -/
def exponentPart : List Char → List Char × List Char
  | [] => ([], [])
  | first :: rest =>
    let sign := signPart rest
    let digits := digitsPart sign.2
    if (first = 'e' ∨ first = 'E') ∧ digitFirst sign.2 then
      (first :: (sign.1 ++ digits.1), digits.2)
    else
      ([], first :: rest)

theorem digitsPart_append (text : List Char) : (digitsPart text).1 ++ (digitsPart text).2 = text :=
  List.takeWhile_append_dropWhile

theorem fractionPart_append (text : List Char) :
    (fractionPart text).1 ++ (fractionPart text).2 = text := by
  unfold fractionPart
  split
  · rfl
  · split
    · rw [List.cons_append, digitsPart_append]
    · rfl

theorem exponentPart_append (text : List Char) :
    (exponentPart text).1 ++ (exponentPart text).2 = text := by
  unfold exponentPart
  split
  · rfl
  · dsimp only
    split
    · rw [List.cons_append, List.append_assoc, digitsPart_append, signPart, takeRun_append]
    · rfl

/-- The number literal at the front of a text. -/
def numberLiteral (text : List Char) : Scan NumberKind :=
  let sign := signPart text
  let whole := digitsPart sign.2
  let fraction := fractionPart whole.2
  let exponent := exponentPart fraction.2
  ⟨if fraction.1 = [] ∧ exponent.1 = [] then .integer else .general,
    sign.1 ++ whole.1 ++ fraction.1 ++ exponent.1, exponent.2⟩

theorem numberLiteral_covers (text : List Char) : (numberLiteral text).Covers text := by
  simp only [Covers, numberLiteral, List.append_assoc, exponentPart_append, fractionPart_append,
    digitsPart_append]
  exact takeRun_append 1 isSign text

/-- Whether a number starts at the front of a text: after an optional sign stands a
digit, or a point and a digit. -/
def numberStarts (text : List Char) : Bool :=
  match (signPart text).2 with
  | [] => false
  | first :: rest => first.isDigit || (first == '.' && digitFirst rest)

end SelectorLang.Scan
