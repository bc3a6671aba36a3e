import SelectorLang.Tree.Text

/-! # Writing a tree

A tree is written from left to right. A string that cannot be quoted is reported when it is
come to, in front of everything behind it, and what is printed of it depends on what was
reported before.
-/

namespace SelectorLang

/-- A text that is being written. -/
structure Writing where
  /-- The text so far. -/
  text : String
  /-- What was printed so far. -/
  printed : String
  /-- What was reported so far. -/
  registry : Registry

namespace Writing

/-- Goes on with some characters. -/
def put (writing : Writing) (characters : String) : Writing :=
  { writing with text := writing.text ++ characters }

/-- Reports a warning. -/
def warn (writing : Writing) (warning : Warning) : Writing :=
  let (line, registry) := writing.registry.report warning
  ⟨writing.text, writing.printed ++ line, registry⟩

/-- Goes on with a string between quotes, which is warned of if it cannot be quoted. -/
def putString (writing : Writing) (value : String) : Writing :=
  let warned := if isQuotable value then writing else writing.warn (quotingWarning value)
  warned.put ("\"" ++ value ++ "\"")

end Writing

mutual

/-- Writes an argument. -/
def Argument.write (writing : Writing) : Argument → Writing
  | .selector selector => selector.write writing
  | .number value => writing.put value.argumentText
  | .string value => writing.putString value

/-- Writes some arguments, a comma and a blank between them. -/
def Argument.writeAll (writing : Writing) : List Argument → Writing
  | [] => writing
  | [argument] => argument.write writing
  | argument :: second :: rest =>
    Argument.writeAll ((argument.write writing).put ", ") (second :: rest)

/-- Writes a function, with parentheses even where it has no arguments. -/
def EngineFunction.write (writing : Writing) : EngineFunction → Writing
  | ⟨name, arguments⟩ =>
    (Argument.writeAll (((writing.put ":").put name).put "(") arguments).put ")"

/-- Writes some functions. -/
def EngineFunction.writeAll (writing : Writing) : List EngineFunction → Writing
  | [] => writing
  | function :: rest => EngineFunction.writeAll (function.write writing) rest

/-- Writes a simple selector: its native text and the functions behind it. -/
def SimpleSelector.write (writing : Writing) : SimpleSelector → Writing
  | ⟨rawText, functions⟩ => EngineFunction.writeAll (writing.put (rawText.getD "")) functions

/-- Writes a part, with the sign of its combinator. -/
def Part.write (writing : Writing) : Part → Writing
  | ⟨selector, .descendant⟩ => selector.write writing
  | ⟨selector, combinator⟩ => ((selector.write writing).put " ").put combinator.sign

/-- Writes some parts, a blank between them. -/
def Part.writeAll (writing : Writing) : List Part → Writing
  | [] => writing
  | [part] => part.write writing
  | part :: second :: rest => Part.writeAll ((part.write writing).put " ") (second :: rest)

/-- Writes a complex selector. -/
def ComplexSelector.write (writing : Writing) : ComplexSelector → Writing
  | ⟨parts⟩ => Part.writeAll writing parts

end

/-- Writes an argument list, after what was reported before. -/
def serialize (registry : Registry) (arguments : List Argument) : Writing :=
  Argument.writeAll ⟨"", "", registry⟩ arguments

end SelectorLang
