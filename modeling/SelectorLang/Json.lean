import SelectorLang.Number.Layout

/-! # JSON values

The JSON values that trees are shown as, and their text: two blanks of indentation for
each level, one element or field a line, and brackets alone for what is empty. A number
always has a fraction or an exponent.
-/

namespace SelectorLang

mutual

/-- A JSON value. -/
inductive Json where
  /-- The null value. -/
  | null
  /-- A number. -/
  | number (value : Binary64)
  /-- A string. -/
  | string (value : String)
  /-- An array. -/
  | array (elements : List Json)
  /-- An object with its fields in order. -/
  | object (fields : List JsonField)

/-- A field of a JSON object. -/
structure JsonField where
  /-- The name. -/
  name : String
  /-- The value. -/
  value : Json

end

namespace Json

/-- Numbers are written positionally when the power of ten of the leading digit is from
-5 to 15, with a fraction even when it is zero; of two equally near decimals the one
with an even last digit is written. -/
def numberLayout : Layout where
  tie := .even
  isPositional leading := decide (-5 ≤ leading ∧ leading ≤ 15)
  wholeEnd := ".0"

/-- The text of a number; what is not finite has none in JSON and is null. -/
def numberText : Binary64 → String
  | .finite negative magnitude => numberLayout.finite negative magnitude
  | _ => "null"

/-- A character as it stands in a JSON string. -/
def stringCharacter (character : Char) : List Char :=
  if character = '"' then ['\\', '"']
  else if character = '\\' then ['\\', '\\']
  else if character = '\x08' then ['\\', 'b']
  else if character = '\x0c' then ['\\', 'f']
  else if character = '\n' then ['\\', 'n']
  else if character = '\r' then ['\\', 'r']
  else if character = '\t' then ['\\', 't']
  else if character.toNat < 0x20 then
    ['\\', 'u', '0', '0', Nat.digitChar (character.toNat / 16),
      Nat.digitChar (character.toNat % 16)]
  else [character]

/-- The text of a string. -/
def stringText (value : String) : String :=
  String.ofList ('"' :: value.toList.flatMap stringCharacter ++ ['"'])

/-- A line break and the indentation of a level. -/
def newLine (level : Nat) : String :=
  String.ofList ('\n' :: List.replicate (2 * level) ' ')

/-- The items of a level, one a line, between brackets. -/
def bracketed (level : Nat) (opening closing : String) (items : List String) : String :=
  if items.isEmpty then opening ++ closing
  else
    opening ++ newLine (level + 1) ++ ("," ++ newLine (level + 1)).intercalate items ++
      newLine level ++ closing

mutual

/-- The text of a value that stands at a level. -/
def textAt (level : Nat) : Json → String
  | null => "null"
  | number value => numberText value
  | string value => stringText value
  | array elements => bracketed level "[" "]" (textsAt (level + 1) elements)
  | object fields => bracketed level "\x7b" "\x7d" (fieldTextsAt (level + 1) fields)

/-- The texts of elements at a level. -/
def textsAt (level : Nat) : List Json → List String
  | [] => []
  | element :: rest => textAt level element :: textsAt level rest

/-- The text of a field at a level. -/
def fieldTextAt (level : Nat) : JsonField → String
  | ⟨name, value⟩ => stringText name ++ ": " ++ textAt level value

/-- The texts of fields at a level. -/
def fieldTextsAt (level : Nat) : List JsonField → List String
  | [] => []
  | field :: rest => fieldTextAt level field :: fieldTextsAt level rest

end

/-- The text of a value. -/
def text (json : Json) : String :=
  json.textAt 0

end Json

end SelectorLang
