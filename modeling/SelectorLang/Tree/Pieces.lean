import SelectorLang.Tree.Text

/-! # The texts of the pieces of a tree

The text of every complex selector of a list, of the simple selectors it is made of, of
their functions and of the arguments of those. Functions nested in arguments are part of
the argument's text only.
-/

namespace SelectorLang

/-- The texts of a function and of its arguments. -/
structure FunctionPieces where
  /-- The text of the function. -/
  text : String
  /-- The texts of its arguments. -/
  arguments : List String

/-- The texts of a part. -/
structure PartPieces where
  /-- The text of its simple selector. -/
  text : String
  /-- The sign of its combinator. -/
  combinator : String
  /-- The texts of its functions. -/
  functions : List FunctionPieces

/-- The texts of a complex selector. -/
structure SelectorPieces where
  /-- The text of the selector. -/
  text : String
  /-- The texts of its parts. -/
  parts : List PartPieces

/-- The pieces of a function. -/
def EngineFunction.pieces (function : EngineFunction) : FunctionPieces :=
  ⟨function.text, function.arguments.map Argument.text⟩

/-- The pieces of a part. -/
def Part.pieces (part : Part) : PartPieces :=
  ⟨part.selector.text, part.combinator.sign, part.selector.functions.map EngineFunction.pieces⟩

/-- The pieces of a complex selector. -/
def ComplexSelector.pieces (selector : ComplexSelector) : SelectorPieces :=
  ⟨selector.text, selector.parts.map Part.pieces⟩

/-- The pieces of a selector list. -/
def SelectorList.pieces (list : SelectorList) : List SelectorPieces :=
  list.selectors.map ComplexSelector.pieces

end SelectorLang
