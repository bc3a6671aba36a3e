import SelectorLang.Text.Quoted

/-! # The rules that a reading enters

Three rules of the grammar are traced: argument lists, the complex selectors in them
and the simple selectors in those. A rule is entered at the first lexeme that is looked
at for it, be it the one where reading fails or the end of the text; it is written with
two blanks for each rule that is open around it.
-/

namespace SelectorLang

/-- The rules that are traced. -/
inductive Rule where
  /-- An argument list. -/
  | arguments
  /-- A complex selector. -/
  | complexSelector
  /-- A simple selector. -/
  | simpleSelector
deriving DecidableEq, Repr

/-- The name of a rule in a trace. -/
def Rule.label : Rule → String
  | arguments => "arguments"
  | complexSelector => "complex selector"
  | simpleSelector => "simple selector"

/-- A rule that was entered: how many rules were open around it, and the lexeme that
was looked at. -/
structure TraceLine where
  /-- The rule. -/
  rule : Rule
  /-- How many rules were open. -/
  depth : Nat
  /-- The offset of the lexeme. -/
  offset : Nat
  /-- The text of the lexeme. -/
  source : String
deriving DecidableEq, Repr

/-- The text of a trace line. -/
def TraceLine.text (line : TraceLine) : String :=
  String.ofList (List.replicate (2 * line.depth) ' ') ++ line.rule.label ++ " @" ++
    toString line.offset ++ " " ++ Text.quoted line.source

end SelectorLang
