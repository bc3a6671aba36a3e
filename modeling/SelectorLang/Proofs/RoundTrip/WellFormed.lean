import SelectorLang.Parsing
import SelectorLang.Tree.Text

/-! # Trees whose texts can be read back

Well-formed trees are those whose pieces can be told apart in their text: native texts
are parsed as themselves, names of functions are in lower case and are not read as native
ones or as addresses, and strings need no escapes. A function without arguments is
written with empty parentheses all the same; such functions are told apart
(`SelectorLang.Argument.hasBare`), for empty parentheses are not read.
-/

namespace SelectorLang

/-- A native text without escapes that is parsed as one part, with itself for the
conditions on the element. -/
def IsFragment (text : String) : Prop :=
  '\\' ∉ text.toList ∧
    ∃ combinator, parseSelector text = .ok ⟨[⟨[⟨⟨some text, []⟩, combinator⟩]⟩]⟩

/-- The characters that a name in lower case starts with. -/
def startsLowered (character : Char) : Bool :=
  character.isLower || character == '_' || 0x80 ≤ character.toNat

/-- The name of an engine function as it is kept in a tree. -/
def IsFunctionName (name : String) : Prop :=
  (∃ first rest, name.toList = first :: rest ∧ startsLowered first = true ∧
    ∀ character ∈ rest,
      (startsLowered character || character.isDigit || character == '-') = true) ∧
    isNativeFunction name = false ∧ name ≠ "url"

theorem isFunctionName_x : IsFunctionName "x" :=
  ⟨⟨'x', [], rfl, rfl, fun _ member => absurd member List.not_mem_nil⟩, by decide +kernel,
    by decide⟩

/-- A string that stands between double quotes as it is. -/
def IsPlainString (value : String) : Prop :=
  ∀ character ∈ value.toList, character ≠ '"' ∧ character ≠ '\\' ∧ character ≠ '\n'

mutual

/-- Whether an argument can be read back. -/
def Argument.WellFormed : Argument → Prop
  | .selector selector => selector.WellFormed
  | .number value => value.isFinite = true
  | .string value => IsPlainString value

/-- Whether all of some arguments can be read back. -/
def Argument.AllWellFormed : List Argument → Prop
  | [] => True
  | argument :: rest => argument.WellFormed ∧ Argument.AllWellFormed rest

/-- Whether a function can be read back. -/
def EngineFunction.WellFormed : EngineFunction → Prop
  | ⟨name, arguments⟩ => IsFunctionName name ∧ Argument.AllWellFormed arguments

/-- Whether all of some functions can be read back. -/
def EngineFunction.AllWellFormed : List EngineFunction → Prop
  | [] => True
  | function :: rest => function.WellFormed ∧ EngineFunction.AllWellFormed rest

/-- Whether a simple selector can be read back; it needs some condition. -/
def SimpleSelector.WellFormed : SimpleSelector → Prop
  | ⟨rawText, functions⟩ =>
    (rawText.isSome = true ∨ functions ≠ []) ∧ (∀ text ∈ rawText, IsFragment text) ∧
      EngineFunction.AllWellFormed functions

/-- Whether the selector of a part can be read back. -/
def Part.WellFormed : Part → Prop
  | ⟨selector, _⟩ => selector.WellFormed

/-- Whether the selectors of all of some parts can be read back. -/
def Part.AllWellFormed : List Part → Prop
  | [] => True
  | part :: rest => part.WellFormed ∧ Part.AllWellFormed rest

/-- Whether a complex selector can be read back; it needs a part, and nothing is related
to the last one. -/
def ComplexSelector.WellFormed : ComplexSelector → Prop
  | ⟨parts⟩ =>
    parts ≠ [] ∧ (∀ last ∈ parts.getLast?, last.combinator = .descendant) ∧
      Part.AllWellFormed parts

end

mutual

/-- Whether a function in an argument has no arguments. -/
def Argument.hasBare : Argument → Bool
  | .selector selector => selector.hasBare
  | .number _ | .string _ => false

/-- Whether a function in some arguments has no arguments. -/
def Argument.anyBare : List Argument → Bool
  | [] => false
  | argument :: rest => argument.hasBare || Argument.anyBare rest

/-- Whether a function, or a function in its arguments, has no arguments. -/
def EngineFunction.hasBare : EngineFunction → Bool
  | ⟨_, arguments⟩ => arguments.isEmpty || Argument.anyBare arguments

/-- Whether one of some functions, or a function in their arguments, has no arguments. -/
def EngineFunction.anyBare : List EngineFunction → Bool
  | [] => false
  | function :: rest => function.hasBare || EngineFunction.anyBare rest

/-- Whether a function in a simple selector has no arguments. -/
def SimpleSelector.hasBare : SimpleSelector → Bool
  | ⟨_, functions⟩ => EngineFunction.anyBare functions

/-- Whether a function in a part has no arguments. -/
def Part.hasBare : Part → Bool
  | ⟨selector, _⟩ => selector.hasBare

/-- Whether a function in some parts has no arguments. -/
def Part.anyBare : List Part → Bool
  | [] => false
  | part :: rest => part.hasBare || Part.anyBare rest

/-- Whether a function in a complex selector has no arguments. -/
def ComplexSelector.hasBare : ComplexSelector → Bool
  | ⟨parts⟩ => Part.anyBare parts

end

end SelectorLang
