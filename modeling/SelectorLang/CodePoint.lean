/-! # Classes of code points

The character classes that names, escapes and blanks are made of; digits and
letters are the ASCII ones. Only ASCII characters are told apart: every other
character may stand anywhere in a name, its first place included
(`startsName_of_beyond_ascii`).
-/

namespace SelectorLang.CodePoint

/-- A blank is a line feed, tab, space, carriage return or form feed. -/
def isBlank (character : Char) : Bool :=
  character == '\n' || character == '\t' || character == ' ' || character == '\r' ||
    character == '\x0c'

/-- A name may start with a letter, a low line or any character beyond ASCII. -/
def startsName (character : Char) : Bool :=
  character.isAlpha || character == '_' || 0x80 ≤ character.toNat

/-- A name goes on with whatever may start one, with a digit or with a hyphen. -/
def continuesName (character : Char) : Bool :=
  startsName character || character.isDigit || character == '-'

/-- The value of a hexadecimal digit of either case. -/
def hexValue? (character : Char) : Option Nat :=
  if character.isDigit then some (character.toNat - '0'.toNat)
  else if 'a' ≤ character && character ≤ 'f' then some (character.toNat - 'a'.toNat + 10)
  else if 'A' ≤ character && character ≤ 'F' then some (character.toNat - 'A'.toNat + 10)
  else none

/-- The hexadecimal digits of either case. -/
def isHexDigit (character : Char) : Bool :=
  (hexValue? character).isSome

/-- What stands in for a code point that cannot be written. -/
def replacement : Char := '\ufffd'

/-- The character with a given number, unless the number is zero or belongs to no
character; then the replacement character. -/
def ofNumber (number : Nat) : Char :=
  if number ≠ 0 ∧ number.isValidChar then Char.ofNat number else replacement

/-- A character that starts a name also continues one. -/
theorem continuesName_of_startsName {character : Char} (starts : startsName character = true) :
    continuesName character = true := by
  simp [continuesName, starts]

/-- Beyond ASCII every character starts a name. -/
theorem startsName_of_beyond_ascii {character : Char} (beyond : 0x80 ≤ character.toNat) :
    startsName character = true := by
  simp [startsName, beyond]

end SelectorLang.CodePoint
