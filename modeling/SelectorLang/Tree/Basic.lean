import SelectorLang.Number.Binary64

/-! # Selector trees

A selector list holds complex selectors, a complex selector parts, each with the
combinator that joins it to the next; a part is a simple selector, whose native
conditions are one text and whose engine functions are listed with their arguments.
Arguments are complex selectors again, numbers or strings, so that trees nest
through functions only.
-/

namespace SelectorLang

/-- How an element is related to the one that the next part selects. -/
inductive Combinator where
  /-- It is an ancestor; written as a blank. -/
  | descendant
  /-- It is the parent. -/
  | child
  /-- It comes right before. -/
  | nextSibling
  /-- It comes before. -/
  | subsequentSibling
deriving DecidableEq, Repr, Inhabited

namespace Combinator

/-- The sign of a combinator; the descendant combinator has none. -/
def sign : Combinator → String
  | descendant => ""
  | child => ">"
  | nextSibling => "+"
  | subsequentSibling => "~"

/-- The combinator that a character is the sign of. -/
def ofChar? : Char → Option Combinator
  | '>' => some child
  | '+' => some nextSibling
  | '~' => some subsequentSibling
  | _ => none

/-- A character is the sign of the combinator it is read as, and of no other one. -/
theorem ofChar?_eq_some_iff {character : Char} {combinator : Combinator} :
    ofChar? character = some combinator ↔ combinator.sign = String.singleton character := by
  constructor
  · intro read
    unfold ofChar? at read
    split at read <;> cases read <;> rfl
  · intro sign
    have characters := congrArg String.toList sign
    rw [String.toList_singleton] at characters
    cases combinator <;> simp [Combinator.sign] at characters <;> subst characters <;> rfl

end Combinator

mutual

/-- An argument of an engine function. -/
inductive Argument where
  /-- A selector. -/
  | selector (selector : ComplexSelector)
  /-- A number. -/
  | number (value : Binary64)
  /-- A string, escapes resolved. -/
  | string (value : String)

/-- A function outside the native ones: its name and its arguments, none when it was
written without parentheses. -/
structure EngineFunction where
  /-- The name, without the colon. -/
  name : String
  /-- The arguments. -/
  arguments : List Argument

/-- The conditions on one element. -/
structure SimpleSelector where
  /-- The native conditions as they are written, if there are any. -/
  rawText : Option String
  /-- The engine functions. -/
  functions : List EngineFunction

/-- A simple selector and its relation to the next one. -/
structure Part where
  /-- The conditions. -/
  selector : SimpleSelector
  /-- The relation of this element to the one that the next part selects. -/
  combinator : Combinator

/-- A chain of parts in the order they are written. -/
structure ComplexSelector where
  /-- The parts. -/
  parts : List Part

end

/-- The alternatives of a selector. -/
structure SelectorList where
  /-- The alternatives in the order they are written. -/
  selectors : List ComplexSelector

namespace Argument

/-- The selector that an argument is, if it is one. -/
def selector? : Argument → Option ComplexSelector
  | .selector complex => some complex
  | .number _ | .string _ => none

end Argument

/-! ## Equality

Trees are equal when they are built alike, with numbers compared numerically: the two
zeros are equal, and a tree with a value that is not a number does not equal itself.
-/

mutual

/-- Equality of arguments. -/
def Argument.equal : Argument → Argument → Bool
  | .selector selector, .selector selector' => selector.equal selector'
  | .number value, .number value' => value.numericEq value'
  | .string value, .string value' => value == value'
  | _, _ => false

/-- Equality of argument lists. -/
def Argument.equalList : List Argument → List Argument → Bool
  | [], [] => true
  | argument :: rest, argument' :: rest' =>
    argument.equal argument' && Argument.equalList rest rest'
  | _, _ => false

/-- Equality of functions. -/
def EngineFunction.equal : EngineFunction → EngineFunction → Bool
  | ⟨name, arguments⟩, ⟨name', arguments'⟩ =>
    name == name' && Argument.equalList arguments arguments'

/-- Equality of function lists. -/
def EngineFunction.equalList : List EngineFunction → List EngineFunction → Bool
  | [], [] => true
  | function :: rest, function' :: rest' =>
    function.equal function' && EngineFunction.equalList rest rest'
  | _, _ => false

/-- Equality of simple selectors; no native text differs from an empty one. -/
def SimpleSelector.equal : SimpleSelector → SimpleSelector → Bool
  | ⟨rawText, functions⟩, ⟨rawText', functions'⟩ =>
    rawText == rawText' && EngineFunction.equalList functions functions'

/-- Equality of parts. -/
def Part.equal : Part → Part → Bool
  | ⟨selector, combinator⟩, ⟨selector', combinator'⟩ =>
    selector.equal selector' && combinator == combinator'

/-- Equality of part lists. -/
def Part.equalList : List Part → List Part → Bool
  | [], [] => true
  | part :: rest, part' :: rest' => part.equal part' && Part.equalList rest rest'
  | _, _ => false

/-- Equality of complex selectors. -/
def ComplexSelector.equal : ComplexSelector → ComplexSelector → Bool
  | ⟨parts⟩, ⟨parts'⟩ => Part.equalList parts parts'

end

/-- Equality of selector lists. -/
def SelectorList.equal (list list' : SelectorList) : Bool :=
  Argument.equalList (list.selectors.map .selector) (list'.selectors.map .selector)

end SelectorLang
