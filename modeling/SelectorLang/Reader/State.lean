import SelectorLang.Native
import SelectorLang.Reader.Symbol

/-! # Reading an argument list, symbol by symbol

The grammar needs no look-ahead and no second thoughts: after any front of a text
there is one state, which says what has been read and what may come next. A state
holds the argument list in progress, the lists around it with the function open in
each, and the place in the grammar, its focus. Each symbol leads to the next state or
has no place there (`State.step`); at the end of the text a state gives its arguments
or needs more (`State.finish`).
-/

namespace SelectorLang

/-- An argument list in progress: the arguments before the open one, the parts of the
open complex selector before the open one, and what the open part holds so far. -/
structure Level where
  /-- The finished arguments. -/
  arguments : List Argument
  /-- The finished parts of the open complex selector. -/
  parts : List Part
  /-- The native text of the open part. -/
  rawText : String
  /-- The functions of the open part. -/
  functions : List EngineFunction

namespace Level

/-- No arguments yet, and nothing of the first. -/
def empty : Level := ⟨[], [], "", []⟩

/-- More native text in the open part. -/
def addText (level : Level) (text : String) : Level :=
  { level with rawText := level.rawText ++ text }

/-- One more function in the open part. -/
def addFunction (level : Level) (function : EngineFunction) : Level :=
  { level with functions := level.functions ++ [function] }

/-- One more finished argument. -/
def addArgument (level : Level) (argument : Argument) : Level :=
  { level with arguments := level.arguments ++ [argument] }

/-- The open part as a simple selector, unless nothing is in it. -/
def simple? (level : Level) : Option SimpleSelector :=
  if level.rawText = "" then
    if level.functions.isEmpty then none else some ⟨none, level.functions⟩
  else
    some ⟨some level.rawText, level.functions⟩

/-- The open part is finished, with its relation to the next one. -/
def endPart? (level : Level) (combinator : Combinator) : Option Level :=
  level.simple?.map fun simple =>
    ⟨level.arguments, level.parts ++ [⟨simple, combinator⟩], "", []⟩

/-- The open part is finished, and the open complex selector with it. -/
def endArgument? (level : Level) : Option Level :=
  (level.endPart? .descendant).map fun ended =>
    ⟨ended.arguments ++ [.selector ⟨ended.parts⟩], [], "", []⟩

end Level

/-- A list around the one in progress, and the function open in it. -/
structure Enclosing where
  /-- The list. -/
  level : Level
  /-- The name of the function. -/
  name : String

/-- The places in the grammar. -/
inductive Focus where
  /-- At the start of an argument list. -/
  | listStart
  /-- At the start of an argument behind a comma, or behind blanks. -/
  | argumentStart
  /-- At the start of a part, behind the sign of a combinator. -/
  | partStart
  /-- In a part, behind one of its items. -/
  | item
  /-- Behind a part and blanks. -/
  | partEnd
  /-- Behind an argument that is a number or a string. -/
  | literalEnd
  /-- Behind the dot of a class name. -/
  | dot
  /-- Behind a colon. -/
  | colon
  /-- Inside the brackets of an attribute condition. -/
  | attribute
  /-- Inside native arguments, with a number of parentheses open in them. -/
  | native (depth : Nat)
deriving DecidableEq, Repr

/-- What has been read of an argument list and what may come next. -/
structure State where
  /-- The lists around the one in progress, the innermost first. -/
  outer : List Enclosing
  /-- The list in progress. -/
  level : Level
  /-- The place in the grammar. -/
  focus : Focus

namespace State

/-- Nothing read yet. -/
def start : State := ⟨[], Level.empty, .listStart⟩

/-- Another list in progress at another place. -/
def goOn (state : State) (level : Level) (focus : Focus) : State :=
  ⟨state.outer, level, focus⟩

/-- More native text, and another place. -/
def addText (state : State) (text : String) (focus : Focus) : State :=
  state.goOn (state.level.addText text) focus

/-- A closing parenthesis behind an argument list ends the function that is open in the
list around it. -/
def closeFunction (state : State) : Option State :=
  match state.outer with
  | [] => none
  | enclosing :: outer =>
    some ⟨outer, enclosing.level.addFunction ⟨enclosing.name, state.level.arguments⟩, .item⟩

/-- An item of a part, from its first symbol. -/
def item (state : State) (symbol : Symbol) : Option State :=
  match symbol.letter with
  | .name _ | .fragment => some (state.addText symbol.source .item)
  | .dot => some (state.goOn state.level .dot)
  | .colon => some (state.goOn state.level .colon)
  | .openBracket => some (state.addText symbol.source .attribute)
  | _ => none

/-- What ends a part: the sign of a combinator, a comma or a closing parenthesis. -/
def boundary (state : State) (letter : Letter) : Option State :=
  match letter with
  | .combinator combinator => (state.level.endPart? combinator).map (state.goOn · .partStart)
  | .comma => state.level.endArgument?.map (state.goOn · .argumentStart)
  | .closeParen => state.level.endArgument?.bind fun ended =>
      (state.goOn ended .item).closeFunction
  | _ => none

/-- What stands behind a colon: a native pseudo-class, an engine function, or the start
of the arguments of either kind. -/
def pseudo (state : State) (symbol : Symbol) : Option State :=
  match symbol.letter with
  | .name lowered =>
    if isNativeClass lowered then some (state.addText (":" ++ symbol.source) .item)
    else some (state.goOn (state.level.addFunction ⟨lowered, []⟩) .item)
  | .call lowered =>
    if isNativeFunction lowered then some (state.addText (":" ++ lowered ++ "(") (.native 0))
    else some ⟨⟨state.level, lowered⟩ :: state.outer, Level.empty, .listStart⟩
  | _ => none

/-- The start of an argument: blanks, a number, a string, or the first item of a complex
selector. -/
def argument (state : State) (symbol : Symbol) : Option State :=
  match symbol.letter with
  | .blank => some (state.goOn state.level .argumentStart)
  | .number value => some (state.goOn (state.level.addArgument (.number value)) .literalEnd)
  | .string value => some (state.goOn (state.level.addArgument (.string value)) .literalEnd)
  | _ => state.item symbol

/-- What stands behind an item: blanks, what ends the part, or another item. -/
def behindItem (state : State) (symbol : Symbol) : Option State :=
  match symbol.letter with
  | .blank => state.level.simple?.map fun _ => state.goOn state.level .partEnd
  | .combinator _ | .comma | .closeParen => state.boundary symbol.letter
  | _ => state.item symbol

/-- What stands behind a part and blanks: what ends the part, or the first item of the
next part, a descendant. -/
def behindPart (state : State) (symbol : Symbol) : Option State :=
  match symbol.letter with
  | .blank => some state
  | .combinator _ | .comma | .closeParen => state.boundary symbol.letter
  | _ => (state.level.endPart? .descendant).bind fun ended =>
      (state.goOn ended .item).item symbol

/-- A symbol inside native arguments is copied; the closing parenthesis that is not
opened in them ends them. -/
def native (state : State) (depth : Nat) (symbol : Symbol) : State :=
  match symbol.letter, depth with
  | .closeParen, 0 => state.addText ")" .item
  | .closeParen, depth + 1 => state.addText symbol.source (.native depth)
  | .openParen, _ | .call _, _ => state.addText symbol.source (.native (depth + 1))
  | _, _ => state.addText symbol.source (.native depth)

/-- The state behind one more symbol; none when the symbol has no place here. -/
def step (state : State) (symbol : Symbol) : Option State :=
  match state.focus with
  | .listStart | .argumentStart => state.argument symbol
  | .partStart =>
    match symbol.letter with
    | .blank => some state
    | _ => state.item symbol
  | .item => state.behindItem symbol
  | .partEnd => state.behindPart symbol
  | .literalEnd =>
    match symbol.letter with
    | .blank => some state
    | .comma => some (state.goOn state.level .argumentStart)
    | .closeParen => state.closeFunction
    | _ => none
  | .dot =>
    match symbol.letter with
    | .name _ => some (state.addText ("." ++ symbol.source) .item)
    | _ => none
  | .colon => state.pseudo symbol
  | .attribute =>
    match symbol.letter with
    | .closeBracket => some (state.addText symbol.source .item)
    | _ => some (state.addText symbol.source .attribute)
  | .native depth => some (state.native depth symbol)

/-- The arguments read by the end of the text; none when something is still open or
missing. -/
def finish (state : State) : Option (List Argument) :=
  match state.outer, state.focus with
  | [], .item | [], .partEnd => state.level.endArgument?.map (·.arguments)
  | [], .literalEnd => some state.level.arguments
  | _, _ => none

/-- Reads symbols to the end. A failure is the first symbol without a place, or the end
of the text. -/
def read (state : State) : List Symbol → Except (Option Symbol) (List Argument)
  | [] =>
    match state.finish with
    | some arguments => .ok arguments
    | none => .error none
  | symbol :: rest =>
    match state.step symbol with
    | some next => next.read rest
    | none => .error (some symbol)

end State

end SelectorLang
