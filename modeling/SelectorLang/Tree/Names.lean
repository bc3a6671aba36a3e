import SelectorLang.Tree.Basic

/-! # The functions in use

The names of all engine functions of a tree, each once, in the order of first use: a
function comes before the functions in its arguments. Names that were seen before are
passed over, their arguments are not.
-/

namespace SelectorLang

/-- A name joins the names seen so far unless it is among them. -/
def noteName (seen : List String) (name : String) : List String :=
  if seen.contains name then seen else seen ++ [name]

mutual

/-- The names seen after an argument; only selectors have functions in them. -/
def Argument.noteNames (seen : List String) : Argument → List String
  | .selector selector => selector.noteNames seen
  | .number _ | .string _ => seen

/-- The names seen after some arguments. -/
def Argument.noteNamesAll (seen : List String) : List Argument → List String
  | [] => seen
  | argument :: rest => Argument.noteNamesAll (argument.noteNames seen) rest

/-- The names seen after a function: its own first. -/
def EngineFunction.noteNames (seen : List String) : EngineFunction → List String
  | ⟨name, arguments⟩ => Argument.noteNamesAll (noteName seen name) arguments

/-- The names seen after some functions. -/
def EngineFunction.noteNamesAll (seen : List String) : List EngineFunction → List String
  | [] => seen
  | function :: rest => EngineFunction.noteNamesAll (function.noteNames seen) rest

/-- The names seen after a simple selector. -/
def SimpleSelector.noteNames (seen : List String) : SimpleSelector → List String
  | ⟨_, functions⟩ => EngineFunction.noteNamesAll seen functions

/-- The names seen after a part. -/
def Part.noteNames (seen : List String) : Part → List String
  | ⟨selector, _⟩ => selector.noteNames seen

/-- The names seen after some parts. -/
def Part.noteNamesAll (seen : List String) : List Part → List String
  | [] => seen
  | part :: rest => Part.noteNamesAll (part.noteNames seen) rest

/-- The names seen after a complex selector. -/
def ComplexSelector.noteNames (seen : List String) : ComplexSelector → List String
  | ⟨parts⟩ => Part.noteNamesAll seen parts

end

theorem Argument.noteNamesAll_eq_foldl (seen : List String) (arguments : List Argument) :
    Argument.noteNamesAll seen arguments = arguments.foldl Argument.noteNames seen := by
  induction arguments generalizing seen with
  | nil => rfl
  | cons argument rest ih => exact ih (argument.noteNames seen)

theorem EngineFunction.noteNamesAll_eq_foldl (seen : List String)
    (functions : List EngineFunction) :
    EngineFunction.noteNamesAll seen functions =
      functions.foldl EngineFunction.noteNames seen := by
  induction functions generalizing seen with
  | nil => rfl
  | cons function rest ih => exact ih (function.noteNames seen)

theorem Part.noteNamesAll_eq_foldl (seen : List String) (parts : List Part) :
    Part.noteNamesAll seen parts = parts.foldl Part.noteNames seen := by
  induction parts generalizing seen with
  | nil => rfl
  | cons part rest ih => exact ih (part.noteNames seen)

/-- The names of the engine functions in a selector list, each once. -/
def SelectorList.functionNames (list : SelectorList) : List String :=
  list.selectors.foldl ComplexSelector.noteNames []

end SelectorLang
