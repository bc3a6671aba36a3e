import SelectorLang.Parsing
import SelectorLang.Tree.Json
import SelectorLang.Tree.Names
import SelectorLang.Tree.Text

/-! # Documents of either kind

A text is taken for a selector list or for a bare argument list; what is read from it
can be written, shown as JSON, searched for functions and compared in the same way.
A text that is read, written and read again is a round trip (`RoundTrip.ofText`).
-/

namespace SelectorLang

/-- What a text is taken for. -/
inductive Kind where
  /-- A selector list. -/
  | selectorList
  /-- A bare argument list. -/
  | argumentList
deriving DecidableEq, Repr

/-- What was read from a text. -/
inductive Document where
  /-- A selector list. -/
  | selectors (list : SelectorList)
  /-- A bare argument list. -/
  | arguments (arguments : List Argument)

namespace Document

/-- Parses a text as what it is taken for. -/
def parse (kind : Kind) (text : String) : Except Failure Document :=
  match kind with
  | .selectorList => (parseSelector text).map selectors
  | .argumentList => (parseArguments text).map arguments

/-- Reads lexemes as what they are taken for. -/
def read (kind : Kind) (selector : String) (lexemes : List Lexeme) : Except Failure Document :=
  match kind with
  | .selectorList => (readSelectorList selector lexemes).map selectors
  | .argumentList => (readArguments selector lexemes).map arguments

/-- The canonical text. -/
def text : Document → String
  | selectors list => list.text
  | arguments list => argumentsText list

/-- What writing the canonical text warns of. -/
def warnings : Document → List Warning
  | selectors list => list.warnings
  | arguments list => Argument.warningsAll list

/-- The JSON value. -/
def json : Document → Json
  | selectors list => list.json
  | arguments list => argumentsJson list

/-- The engine functions in use; of an argument list those in its selectors. -/
def functionNames : Document → List String
  | selectors list => list.functionNames
  | arguments list => (SelectorList.mk (list.filterMap Argument.selector?)).functionNames

/-- Equality of documents of one kind; documents of different kinds differ. -/
def equal : Document → Document → Bool
  | selectors list, selectors list' => list.equal list'
  | arguments list, arguments list' => Argument.equalList list list'
  | _, _ => false

end Document

/-- A document that was written and read again. -/
structure RoundTrip where
  /-- The first document. -/
  first : Document
  /-- What was read from its text. -/
  second : Except Failure Document

namespace RoundTrip

/-- Parses a text, and the text of what was read once more. -/
def ofText (kind : Kind) (text : String) : Except Failure RoundTrip :=
  (Document.parse kind text).map fun first => ⟨first, Document.parse kind first.text⟩

/-- What the whole round trip of a text warns of: cutting it, writing what was read,
cutting that, and writing what was read from it. -/
def warnings (kind : Kind) (text : String) : List Warning :=
  tokenizeWarnings text ++
    match ofText kind text with
    | .error _ => []
    | .ok trip =>
      trip.first.warnings ++ tokenizeWarnings trip.first.text ++
        match trip.second with
        | .error _ => []
        | .ok second => second.warnings

end RoundTrip

end SelectorLang
