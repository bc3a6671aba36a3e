import SelectorLang.Token
import SelectorLang.Tree.Basic

/-! # The alphabet of the grammar

What the selector grammar sees of a lexeme: a letter, which says what part the token
may play, and the text it was read from. Offsets, units, the case of names and how a
number or hash is written are not seen, so that reading cannot depend on them.
-/

namespace SelectorLang

/-- The part a token may play in a selector. -/
inductive Letter where
  /-- Blanks. -/
  | blank
  /-- The comma between arguments. -/
  | comma
  /-- The colon in front of a function or native pseudo-class. -/
  | colon
  /-- The dot in front of a class name. -/
  | dot
  /-- The bracket that opens an attribute condition. -/
  | openBracket
  /-- The bracket that closes one. -/
  | closeBracket
  /-- A parenthesis that no name stands in front of. -/
  | openParen
  /-- A closing parenthesis. -/
  | closeParen
  /-- The sign of a combinator. -/
  | combinator (combinator : Combinator)
  /-- A name, in lower case. -/
  | name (lowered : String)
  /-- A name that opens a parenthesis, in lower case. -/
  | call (lowered : String)
  /-- A hash or an asterisk. -/
  | fragment
  /-- A number. -/
  | number (value : Binary64)
  /-- A string. -/
  | string (value : String)
  /-- A token that may only stand inside brackets and native arguments. -/
  | other
deriving DecidableEq

/-- A letter with the text it was read from. -/
structure Symbol where
  /-- The letter. -/
  letter : Letter
  /-- The text. -/
  source : String
deriving DecidableEq

/-- The part that a character alone may play. -/
def Letter.ofChar (character : Char) : Letter :=
  if character = '.' then dot
  else if character = '*' then fragment
  else match Combinator.ofChar? character with
    | some sign => combinator sign
    | none => other

/-- The part that a token may play. -/
def Token.letter : Token → Letter
  | .whitespace => .blank
  | .comma => .comma
  | .colon => .colon
  | .openBracket => .openBracket
  | .closeBracket => .closeBracket
  | .openParen => .openParen
  | .closeParen => .closeParen
  | .delim character => Letter.ofChar character
  | .ident name => .name name.toLower
  | .function name => .call name.toLower
  | .hash _ _ => .fragment
  | .number value _ => .number value
  | .string value => .string value
  | _ => .other

/-- What the grammar sees of a lexeme. -/
def Lexeme.symbol (lexeme : Lexeme) : Symbol :=
  ⟨lexeme.token.letter, lexeme.source⟩

end SelectorLang
