import SelectorLang.Json
import SelectorLang.Tree.Basic

/-! # Trees as JSON

Lists are arrays, complex selectors, parts, simple selectors and functions are objects,
and arguments are whatever they hold: an object, a number or a string. The native text of
a simple selector is left out when there is none, and a number that is not finite is
null.
-/

namespace SelectorLang

/-- A number as JSON. -/
def Binary64.json (value : Binary64) : Json :=
  if value.isFinite then .number value else .null

mutual

/-- An argument as JSON. -/
def Argument.json : Argument → Json
  | .selector selector => selector.json
  | .number value => value.json
  | .string value => .string value

/-- Arguments as JSON. -/
def Argument.jsonAll : List Argument → List Json
  | [] => []
  | argument :: rest => argument.json :: Argument.jsonAll rest

/-- A function as JSON. -/
def EngineFunction.json : EngineFunction → Json
  | ⟨name, arguments⟩ =>
    .object [⟨"name", .string name⟩, ⟨"args", .array (Argument.jsonAll arguments)⟩]

/-- Functions as JSON. -/
def EngineFunction.jsonAll : List EngineFunction → List Json
  | [] => []
  | function :: rest => function.json :: EngineFunction.jsonAll rest

/-- A simple selector as JSON. -/
def SimpleSelector.json : SimpleSelector → Json
  | ⟨none, functions⟩ => .object [⟨"functions", .array (EngineFunction.jsonAll functions)⟩]
  | ⟨some rawText, functions⟩ =>
    .object [⟨"rawText", .string rawText⟩,
      ⟨"functions", .array (EngineFunction.jsonAll functions)⟩]

/-- A part as JSON. -/
def Part.json : Part → Json
  | ⟨selector, combinator⟩ =>
    .object [⟨"selector", selector.json⟩, ⟨"combinator", .string combinator.sign⟩]

/-- Parts as JSON. -/
def Part.jsonAll : List Part → List Json
  | [] => []
  | part :: rest => part.json :: Part.jsonAll rest

/-- A complex selector as JSON. -/
def ComplexSelector.json : ComplexSelector → Json
  | ⟨parts⟩ => .object [⟨"parts", .array (Part.jsonAll parts)⟩]

end

theorem Argument.jsonAll_eq_map (arguments : List Argument) :
    Argument.jsonAll arguments = arguments.map Argument.json := by
  induction arguments with
  | nil => rfl
  | cons argument rest ih => exact congrArg (argument.json :: ·) ih

theorem EngineFunction.jsonAll_eq_map (functions : List EngineFunction) :
    EngineFunction.jsonAll functions = functions.map EngineFunction.json := by
  induction functions with
  | nil => rfl
  | cons function rest ih => exact congrArg (function.json :: ·) ih

theorem Part.jsonAll_eq_map (parts : List Part) : Part.jsonAll parts = parts.map Part.json := by
  induction parts with
  | nil => rfl
  | cons part rest ih => exact congrArg (part.json :: ·) ih

/-- An argument list as JSON. -/
def argumentsJson (arguments : List Argument) : Json :=
  .array (Argument.jsonAll arguments)

/-- A selector list as JSON. -/
def SelectorList.json (list : SelectorList) : Json :=
  .array (list.selectors.map ComplexSelector.json)

/-- A selector list is shown as its selectors are when they are arguments. -/
theorem SelectorList.json_eq_argumentsJson (list : SelectorList) :
    list.json = argumentsJson (list.selectors.map .selector) := by
  rw [SelectorList.json, argumentsJson, Argument.jsonAll_eq_map, List.map_map]
  rfl

end SelectorLang
