import SelectorLang.Number.Binary64

/-! # Tokens

The kinds of token a selector text is made of, with the values they carry once
escapes are resolved, and lexemes, which are tokens with the text they were read
from. Selectors use only some of the kinds (`Token.isSupported`).
-/

namespace SelectorLang

/-- Whether the name of a hash could stand as a name on its own. -/
inductive HashKind where
  /-- It could. -/
  | id
  /-- It only continues one, as digits do. -/
  | unrestricted
deriving DecidableEq, Repr

/-- Whether a number is written with digits alone. -/
inductive NumberKind where
  /-- A sign and digits. -/
  | integer
  /-- A fraction or an exponent as well. -/
  | general
deriving DecidableEq, Repr

/-- The comparisons of attribute values that are written with two characters. -/
inductive MatchOperator where
  /-- One of the words. -/
  | includes
  /-- The whole value or what comes before a dash. -/
  | dash
  /-- The start of the value. -/
  | starts
  /-- The end of the value. -/
  | ends
  /-- A part of the value. -/
  | substring
deriving DecidableEq, Repr

/-- A token of a selector text. -/
inductive Token where
  /-- A name. -/
  | ident (name : String)
  /-- A name and the parenthesis it opens. -/
  | function (name : String)
  /-- A name behind a commercial at. -/
  | atKeyword (name : String)
  /-- A name, or the continuation of one, behind a number sign. -/
  | hash (name : String) (kind : HashKind)
  /-- A quoted string without its quotes. -/
  | string (value : String)
  /-- A quoted string broken by a line feed. -/
  | badString
  /-- The address in an unquoted `url(…)`. -/
  | url (value : String)
  /-- An unquoted `url(…)` with a character no address has. -/
  | badUrl
  /-- A character that is a token of no other kind. -/
  | delim (character : Char)
  /-- A number. -/
  | number (value : Binary64) (kind : NumberKind)
  /-- A number and a percent sign. -/
  | percentage (value : Binary64)
  /-- A number and a name behind it. -/
  | dimension (value : Binary64) (unit : String)
  /-- A run of blanks. -/
  | whitespace
  /-- The four characters that open a markup comment. -/
  | commentOpen
  /-- The three characters that close a markup comment. -/
  | commentClose
  | colon
  | semicolon
  | comma
  | openBracket
  | closeBracket
  | openParen
  | closeParen
  | openBrace
  | closeBrace
  /-- Two vertical lines. -/
  | column
  /-- A comparison of attribute values. -/
  | matchOperator (operator : MatchOperator)
  /-- The end of the text. -/
  | endOfText
deriving DecidableEq

namespace Token

/-- The name of a token's kind in listings. -/
def kindName : Token → String
  | ident _ => "ident"
  | function _ => "function"
  | atKeyword _ => "at-keyword"
  | hash _ .id => "hash(id)"
  | hash _ .unrestricted => "hash"
  | string _ => "string"
  | badString => "bad-string"
  | url _ => "url"
  | badUrl => "bad-url"
  | delim _ => "delim"
  | number _ .integer => "number(integer)"
  | number _ .general => "number"
  | percentage _ => "percentage"
  | dimension _ _ => "dimension"
  | whitespace => "whitespace"
  | commentOpen => "CDO"
  | commentClose => "CDC"
  | colon => "colon"
  | semicolon => "semicolon"
  | comma => "comma"
  | openBracket => "["
  | closeBracket => "]"
  | openParen => "("
  | closeParen => ")"
  | openBrace => "\x7b"
  | closeBrace => "\x7d"
  | column => "column"
  | matchOperator .includes => "include-match"
  | matchOperator .dash => "dash-match"
  | matchOperator .starts => "prefix-match"
  | matchOperator .ends => "suffix-match"
  | matchOperator .substring => "substring-match"
  | endOfText => "EOF"

/-- The kinds of token that selectors are written with; braces, semicolons,
addresses, percentages and the like belong to style sheets around them. -/
def isSupported : Token → Bool
  | ident _ | function _ | hash _ _ | string _ | delim _ | number _ _ | dimension _ _
  | whitespace | colon | comma | openBracket | closeBracket | openParen | closeParen
  | endOfText => true
  | atKeyword _ | badString | url _ | badUrl | percentage _ | commentOpen | commentClose
  | semicolon | openBrace | closeBrace | column | matchOperator _ => false

/-- Whether a token marks the end of the text. -/
def isEnd : Token → Bool
  | endOfText => true
  | _ => false

/-- The end of the text is a supported token. -/
theorem isSupported_of_isEnd {token : Token} (isEnd : token.isEnd = true) :
    token.isSupported = true := by
  cases token <;> simp_all [Token.isEnd, isSupported]

end Token

/-- A token with the text it was read from. -/
structure Lexeme where
  /-- The token. -/
  token : Token
  /-- The characters it was read from; none for the end of the text. -/
  source : String
  /-- How many characters of the text precede it. -/
  offset : Nat
deriving DecidableEq

/-- The end of the text at an offset. -/
def Lexeme.endAt (offset : Nat) : Lexeme :=
  ⟨.endOfText, "", offset⟩

end SelectorLang
