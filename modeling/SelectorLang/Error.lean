/-! # Failures

Why a text is no selector: it cannot be cut into tokens, it has a token that
selectors are not written with, or its tokens do not follow the grammar. Every
failure keeps the whole text for its message.
-/

namespace SelectorLang

/-- Why a text cannot be cut into tokens, and where. -/
inductive LexicalError where
  /-- A comment without an end; the offset is that of its start. -/
  | unterminatedComment (offset : Nat)
  /-- A backslash in front of a line feed, outside a string; the offset is that of
  the backslash. -/
  | invalidEscape (offset : Nat)
deriving DecidableEq, Repr

namespace LexicalError

/-- The offset of an error. -/
def offset : LexicalError → Nat
  | unterminatedComment offset | invalidEscape offset => offset

/-- The wording of an error. -/
def message : LexicalError → String
  | unterminatedComment offset => "Unterminated comment at offset " ++ toString offset
  | invalidEscape offset => "Invalid escape at offset " ++ toString offset

end LexicalError

/-- Why a text is no selector. -/
inductive Cause where
  /-- It cannot be cut into tokens. -/
  | lexical (error : LexicalError)
  /-- A token is of a kind that selectors are not written with. -/
  | unsupportedToken (source : String)
  /-- A token stands where the grammar has no place for it. -/
  | unexpectedToken (source : String)
  /-- The text ends where the grammar needs more. -/
  | unexpectedEnd
  /-- One of the arguments at the top is a number or a string. -/
  | notASelector
deriving DecidableEq, Repr

/-- The wording of a cause. -/
def Cause.message : Cause → String
  | lexical error => error.message
  | unsupportedToken source => "Unsupported token \"" ++ source ++ "\""
  | unexpectedToken source => "Unexpected token \"" ++ source ++ "\""
  | unexpectedEnd => "Unexpected end of input"
  | notASelector => "Error"

/-- A text that is no selector, and why. -/
structure Failure where
  /-- Why. -/
  cause : Cause
  /-- The whole text. -/
  selector : String
deriving DecidableEq, Repr

/-- The wording of a failure, with the text as it stands. -/
def Failure.message (failure : Failure) : String :=
  failure.cause.message ++ " while parsing css selector \"" ++ failure.selector ++
    "\". Did you mean to CSS.escape it?"

end SelectorLang
