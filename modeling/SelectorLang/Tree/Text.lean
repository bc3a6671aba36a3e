import SelectorLang.Number.Layout
import SelectorLang.Text.Quoted
import SelectorLang.Tree.Basic
import SelectorLang.Warning

/-! # The canonical text of a tree

Native fragments are written as they stand. Parts are joined by one blank, with the
sign of the combinator behind the part it belongs to; arguments and alternatives are
joined by a comma and a blank. A string stands between double quotes and is not
escaped, so that one with a quote or backslash in it does not read back; writing it
is warned of.
-/

namespace SelectorLang

/-- The text of a number argument: both zeros are `0`, all else has its plain text. -/
def Binary64.argumentText : Binary64 → String
  | .finite negative magnitude =>
    if magnitude.units = 0 then "0" else (Binary64.finite negative magnitude).plainText
  | number => number.plainText

mutual

/-- The text of an argument. -/
def Argument.text : Argument → String
  | .selector selector => selector.text
  | .number value => value.argumentText
  | .string value => "\"" ++ value ++ "\""

/-- The texts of some arguments. -/
def Argument.texts : List Argument → List String
  | [] => []
  | argument :: rest => argument.text :: Argument.texts rest

/-- The text of a function, parentheses included even without arguments. -/
def EngineFunction.text : EngineFunction → String
  | ⟨name, arguments⟩ => ":" ++ name ++ "(" ++ ", ".intercalate (Argument.texts arguments) ++ ")"

/-- The texts of some functions. -/
def EngineFunction.texts : List EngineFunction → List String
  | [] => []
  | function :: rest => function.text :: EngineFunction.texts rest

/-- The text of a simple selector: the native text and the functions behind it. -/
def SimpleSelector.text : SimpleSelector → String
  | ⟨rawText, functions⟩ => rawText.getD "" ++ String.join (EngineFunction.texts functions)

/-- The text of a part, with the sign of its combinator. -/
def Part.text : Part → String
  | ⟨selector, .descendant⟩ => selector.text
  | ⟨selector, combinator⟩ => selector.text ++ " " ++ combinator.sign

/-- The texts of some parts. -/
def Part.texts : List Part → List String
  | [] => []
  | part :: rest => part.text :: Part.texts rest

/-- The text of a complex selector. -/
def ComplexSelector.text : ComplexSelector → String
  | ⟨parts⟩ => " ".intercalate (Part.texts parts)

end

theorem Argument.texts_eq_map (arguments : List Argument) :
    Argument.texts arguments = arguments.map Argument.text := by
  induction arguments with
  | nil => rfl
  | cons argument rest ih => exact congrArg (argument.text :: ·) ih

theorem EngineFunction.texts_eq_map (functions : List EngineFunction) :
    EngineFunction.texts functions = functions.map EngineFunction.text := by
  induction functions with
  | nil => rfl
  | cons function rest ih => exact congrArg (function.text :: ·) ih

theorem Part.texts_eq_map (parts : List Part) : Part.texts parts = parts.map Part.text := by
  induction parts with
  | nil => rfl
  | cons part rest ih => exact congrArg (part.text :: ·) ih

/-- The text of an argument list. -/
def argumentsText (arguments : List Argument) : String :=
  ", ".intercalate (Argument.texts arguments)

/-- The text of a selector list. -/
def SelectorList.text (list : SelectorList) : String :=
  ", ".intercalate (list.selectors.map ComplexSelector.text)

/-! ## Strings that do not read back -/

/-- A string can be quoted when it has neither a double quote nor a backslash. -/
def isQuotable (value : String) : Bool :=
  !(value.toList.contains '"' || value.toList.contains '\\')

/-- The warning that a string was quoted all the same. -/
def quotingWarning (value : String) : Warning :=
  ⟨"Serializer", "string argument " ++ Text.quoted value ++ " cannot be quoted without escaping"⟩

/-- What writing a string warns of. -/
def stringWarnings (value : String) : List Warning :=
  if isQuotable value then [] else [quotingWarning value]

mutual

/-- What writing an argument warns of, in the order it is written. -/
def Argument.warnings : Argument → List Warning
  | .selector selector => selector.warnings
  | .number _ => []
  | .string value => stringWarnings value

/-- What writing some arguments warns of. -/
def Argument.warningsAll : List Argument → List Warning
  | [] => []
  | argument :: rest => argument.warnings ++ Argument.warningsAll rest

/-- What writing a function warns of. -/
def EngineFunction.warnings : EngineFunction → List Warning
  | ⟨_, arguments⟩ => Argument.warningsAll arguments

/-- What writing some functions warns of. -/
def EngineFunction.warningsAll : List EngineFunction → List Warning
  | [] => []
  | function :: rest => function.warnings ++ EngineFunction.warningsAll rest

/-- What writing a simple selector warns of. -/
def SimpleSelector.warnings : SimpleSelector → List Warning
  | ⟨_, functions⟩ => EngineFunction.warningsAll functions

/-- What writing a part warns of. -/
def Part.warnings : Part → List Warning
  | ⟨selector, _⟩ => selector.warnings

/-- What writing some parts warns of. -/
def Part.warningsAll : List Part → List Warning
  | [] => []
  | part :: rest => part.warnings ++ Part.warningsAll rest

/-- What writing a complex selector warns of. -/
def ComplexSelector.warnings : ComplexSelector → List Warning
  | ⟨parts⟩ => Part.warningsAll parts

end

theorem Argument.warningsAll_eq_flatMap (arguments : List Argument) :
    Argument.warningsAll arguments = arguments.flatMap Argument.warnings := by
  induction arguments with
  | nil => rfl
  | cons argument rest ih => exact congrArg (argument.warnings ++ ·) ih

theorem EngineFunction.warningsAll_eq_flatMap (functions : List EngineFunction) :
    EngineFunction.warningsAll functions = functions.flatMap EngineFunction.warnings := by
  induction functions with
  | nil => rfl
  | cons function rest ih => exact congrArg (function.warnings ++ ·) ih

theorem Part.warningsAll_eq_flatMap (parts : List Part) :
    Part.warningsAll parts = parts.flatMap Part.warnings := by
  induction parts with
  | nil => rfl
  | cons part rest ih => exact congrArg (part.warnings ++ ·) ih

/-- What writing a selector list warns of. -/
def SelectorList.warnings (list : SelectorList) : List Warning :=
  list.selectors.flatMap ComplexSelector.warnings

end SelectorLang
