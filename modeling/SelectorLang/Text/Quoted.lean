import SelectorLang.Text.Printing

/-! # Quoted text

A text on one line, between double quotes: the quote and the backslash are
escaped, and so is every control character, so that the quoted form holds no line
break and no terminal escape. Other characters that cannot be shown stand by their
numbers as well; all else stands as it is.
-/

namespace SelectorLang.Text

/-- Control characters are those below the space and those from U+007F to U+009F. -/
def isControl (character : Char) : Bool :=
  character.toNat < 0x20 || (0x7f ≤ character.toNat && character.toNat ≤ 0x9f)

/-- A character as it stands between the quotes. -/
def quotedCharacter (character : Char) : List Char :=
  if character = '"' then ['\\', '"']
  else if character = '\\' then ['\\', '\\']
  else if character = '\x00' then ['\\', '0']
  else if character = '\t' then ['\\', 't']
  else if character = '\r' then ['\\', 'r']
  else if character = '\n' then ['\\', 'n']
  else if isControl character || isUnprinted character then
    ['\\', 'u', '\x7b'] ++ Nat.toDigits 16 character.toNat ++ ['\x7d']
  else [character]

/-- The text between double quotes, escaped. -/
def quoted (text : String) : String :=
  String.ofList ('"' :: text.toList.flatMap quotedCharacter ++ ['"'])

/-- A byte order mark and an accent are not shown, a letter with an accent is. -/
example : quoted "\ufeffé e\u0301" = "\"\\u\x7bfeff\x7dé e\\u\x7b301\x7d\"" := by
  decide +kernel

end SelectorLang.Text
