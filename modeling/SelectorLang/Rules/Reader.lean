import SelectorLang.Document
import SelectorLang.Rules.Trace

/-! # Reading by the rules of the grammar

The grammar read from the top down: each rule is a function that looks at the lexeme under a
cursor, moves the cursor over lexemes and calls the rules of its parts, which may call it
again. A rule that finds a lexeme it has no use for fails there, and the cursor stays where it
was. Nothing in the rules counts calls or lexemes: they are written as they call each other,
and a rule that does not come back, or looks where there is no lexeme, has no outcome
(`SelectorLang.RuleReading`).

The rules see tokens and places. A reader over a stream holds the cursor back at the last
lexeme (`SelectorLang.RuleReader.clamped`); whether it ever needs to is for the proofs.

Some rules are traced. Such a rule writes a line when it is entered, with as many blanks as
rules are open, and counts as open until it is left, whether it gives a value or fails
(`SelectorLang.RuleReader.traced`).

Calls of the rules that are being defined are written with `|>.`, which keeps their places in
this file out of the definitions.
-/

namespace SelectorLang

/-- The combinator that a token is the sign of. -/
def Token.combinator? : Token → Option Combinator
  | delim character => Combinator.ofChar? character
  | _ => none

/-- The tokens behind which nothing more belongs to a simple selector. -/
def Token.endsClause : Token → Bool
  | comma | closeParen | endOfText | whitespace => true
  | token => token.combinator?.isSome

/-- What the conditions read so far add to a simple selector. -/
structure Draft where
  /-- The native text. -/
  rawText : String
  /-- The functions. -/
  functions : List EngineFunction

namespace Draft

/-- No conditions yet. -/
def empty : Draft := ⟨"", []⟩

/-- More native text. -/
def addText (draft : Draft) (text : String) : Draft :=
  { draft with rawText := draft.rawText ++ text }

/-- One more function. -/
def addFunction (draft : Draft) (function : EngineFunction) : Draft :=
  { draft with functions := draft.functions ++ [function] }

/-- The simple selector, unless there are no conditions. -/
def simple? (draft : Draft) : Option SimpleSelector :=
  if draft.rawText = "" then
    if draft.functions.isEmpty then none else some ⟨none, draft.functions⟩
  else
    some ⟨some draft.rawText, draft.functions⟩

end Draft

/-- How far a reading is. -/
structure Course where
  /-- The place of the cursor. -/
  place : Nat
  /-- How many traced rules are open. -/
  depth : Nat
  /-- The lines of the traced rules that were entered so far. -/
  lines : List TraceLine

/-- At the first lexeme, with no rule open and none entered. -/
def Course.start : Course := ⟨0, 0, []⟩

/-- What a rule may do on its course: give a value or fail, in either case with the cursor
somewhere, or have no outcome. -/
abbrev RuleReading (α : Type) := ExceptT Failure (StateT Course Option) α

/-- A rule without an outcome. -/
def RuleReading.noOutcome {α : Type} : RuleReading α :=
  ExceptT.mk fun _ => none

/-- The outcome of a rule on a course, and how far the reading is then. -/
def RuleReading.outcome {α : Type} (rule : RuleReading α) (course : Course) :
    Option (Except Failure α × Course) :=
  rule.run.run course

/-- What the rules read: the text, for failures, and the lexemes by their places. -/
structure RuleReader where
  /-- The text. -/
  selector : String
  /-- The lexeme at a place, if there is one. -/
  lexemeAt : Nat → Option Lexeme

namespace RuleReader

/-- Lexemes by their places, the last of them at all the places behind it too. -/
def clamped (selector : String) (lexemes : List Lexeme) : RuleReader :=
  ⟨selector, fun place => lexemes[min place (lexemes.length - 1)]?⟩

/-! ## The cursor -/

/-- The lexeme under the cursor. -/
def current (reader : RuleReader) : RuleReading Lexeme :=
  ExceptT.mk fun course => (reader.lexemeAt course.place).map fun lexeme => (.ok lexeme, course)

/-- The token under the cursor. -/
def peek (reader : RuleReader) : RuleReading Token := do
  return (← reader.current).token

/-- Moves the cursor to the next lexeme, but never from the end of the text. -/
def bump (reader : RuleReader) : RuleReading Unit := do
  unless (← reader.peek).isEnd do
    modify fun course => { course with place := course.place + 1 }

/-- Moves the cursor like `bump` and gives the text it moved over. -/
def bumpSource (reader : RuleReader) : RuleReading String := do
  let source := (← reader.current).source
  reader.bump
  return source

/-- Fails at the lexeme under the cursor. -/
def unexpected {α : Type} (reader : RuleReader) : RuleReading α := do
  let lexeme ← reader.current
  if lexeme.token.isEnd then
    throw ⟨.unexpectedEnd, reader.selector⟩
  else
    throw ⟨.unexpectedToken lexeme.source, reader.selector⟩

/-- Moves the cursor over blanks. -/
def skipBlanks (reader : RuleReader) : RuleReading Unit := do
  if (← reader.peek) = .whitespace then
    reader.bump
    reader |>.skipBlanks
partial_fixpoint

/-! ## Traced rules -/

/-- Enters a rule: its line is written with as many rules open as there are, and then one more
is open. -/
def enter (reader : RuleReader) (rule : Rule) : StateT Course Option Unit := fun course =>
  (reader.lexemeAt course.place).map fun lexeme =>
    ((), ⟨course.place, course.depth + 1,
      course.lines ++ [⟨rule, course.depth, lexeme.offset, lexeme.source⟩]⟩)

/-- Leaves a rule, unless none is open. -/
def leave : StateT Course Option Unit :=
  modify fun course => { course with depth := course.depth - 1 }

/-- A traced rule is entered, and left with whatever it comes to. -/
abbrev traced {α : Type} (reader : RuleReader) (rule : Rule) (inside : RuleReading α) :
    RuleReading α := (do
  reader.enter rule
  let outcome ← inside.run
  leave
  return outcome : StateT Course Option (Except Failure α))

/-! ## Conditions copied as they stand -/

/-- The text of native arguments, up to the parenthesis that closes them or the end of the
text, behind the text read so far and inside as many parentheses as `depth` says. The
parenthesis of the name is counted, so that there is no closing one outside of all. -/
def nativeArguments (reader : RuleReader) (raw : String) (depth : Nat) : RuleReading String := do
  match ← reader.peek with
  | .endOfText => return raw
  | .openParen | .function _ =>
    reader |>.nativeArguments (raw ++ (← reader.bumpSource)) (depth + 1)
  | .closeParen =>
    match depth with
    | 0 => .noOutcome
    | 1 => return raw
    | depth + 1 => reader |>.nativeArguments (raw ++ (← reader.bumpSource)) depth
  | _ => reader |>.nativeArguments (raw ++ (← reader.bumpSource)) depth
partial_fixpoint

/-- The rest of an attribute condition, up to its closing bracket. -/
def attributeRest (reader : RuleReader) (draft : Draft) : RuleReading Draft := do
  match ← reader.peek with
  | .endOfText => reader.unexpected
  | .closeBracket => return draft.addText (← reader.bumpSource)
  | _ => reader |>.attributeRest (draft.addText (← reader.bumpSource))
partial_fixpoint

/-- An attribute condition, from its opening bracket. -/
def «attribute» (reader : RuleReader) (draft : Draft) : RuleReading Draft := do
  reader.attributeRest (draft.addText (← reader.bumpSource))

/-- A class name behind its dot. -/
def className (reader : RuleReader) (draft : Draft) : RuleReading Draft := do
  reader.bump
  match ← reader.peek with
  | .ident _ => return draft.addText ("." ++ (← reader.bumpSource))
  | _ => reader.unexpected

/-- A condition that no colon starts: all of it is native text. -/
def plainCondition (reader : RuleReader) (draft : Draft) : RuleReading Draft := do
  match ← reader.peek with
  | .ident _ | .hash _ _ => return draft.addText (← reader.bumpSource)
  | .delim character =>
    if character = '*' then return draft.addText (← reader.bumpSource)
    else if character = '.' then reader.className draft
    else reader.unexpected
  | .openBracket => reader.attribute draft
  | _ => reader.unexpected

/-- The parenthesis that closes the arguments of a pseudo-class. -/
def closing (reader : RuleReader) (draft : Draft) : RuleReading Draft := do
  reader.skipBlanks
  if (← reader.peek) = .closeParen then
    reader.bump
    return draft
  else
    reader.unexpected

/-- A native pseudo-class with arguments, behind its name and parenthesis. -/
def nativeCall (reader : RuleReader) (draft : Draft) (name : String) : RuleReading Draft := do
  let raw ← reader.nativeArguments "" 1
  reader.closing (draft.addText (":" ++ name ++ "(" ++ raw ++ ")"))

/-! ## The rules that call each other -/

mutual

/-- `arguments := argument (',' argument)*` -/
def arguments (reader : RuleReader) : RuleReading (List Argument) :=
  reader.traced .arguments do
    reader |>.moreArguments [← reader |>.argument]
partial_fixpoint

/-- The arguments behind those read so far. -/
def moreArguments (reader : RuleReader) (read : List Argument) : RuleReading (List Argument) := do
  reader.skipBlanks
  if (← reader.peek) = .comma then
    reader.bump
    reader |>.moreArguments (read ++ [← reader |>.argument])
  else
    return read
partial_fixpoint

/-- `argument := number | string | complex` -/
def argument (reader : RuleReader) : RuleReading Argument := do
  reader.skipBlanks
  match ← reader.peek with
  | .number value _ =>
    reader.bump
    return .number value
  | .string value =>
    reader.bump
    return .string value
  | _ => return .selector (← reader |>.complexSelector)
partial_fixpoint

/-- `complex := simple (combinator? simple)*` -/
def complexSelector (reader : RuleReader) : RuleReading ComplexSelector :=
  reader.traced .complexSelector do
    reader |>.moreParts [] (← reader |>.simpleSelector)
partial_fixpoint

/-- The parts behind those read so far, the last of which still has no combinator. -/
def moreParts (reader : RuleReader) (parts : List Part) (last : SimpleSelector) :
    RuleReading ComplexSelector := do
  reader.skipBlanks
  match (← reader.peek).combinator? with
  | some combinator =>
    reader.bump
    reader.skipBlanks
    reader |>.moreParts (parts ++ [⟨last, combinator⟩]) (← reader |>.simpleSelector)
  | none =>
    if (← reader.peek).endsClause then
      return ⟨parts ++ [⟨last, .descendant⟩]⟩
    else
      reader |>.moreParts (parts ++ [⟨last, .descendant⟩]) (← reader |>.simpleSelector)
partial_fixpoint

/-- `simple := (ident | '*' | hash | '.' ident | ':' pseudo | '[' … ']')+` -/
def simpleSelector (reader : RuleReader) : RuleReading SimpleSelector :=
  reader.traced .simpleSelector do
    match (← reader |>.conditions .empty).simple? with
    | some simple => return simple
    | none => reader.unexpected
partial_fixpoint

/-- Conditions behind those read so far, up to what ends them. -/
def conditions (reader : RuleReader) (draft : Draft) : RuleReading Draft := do
  if (← reader.peek).endsClause then
    return draft
  else
    reader |>.conditions (← reader |>.condition draft)
partial_fixpoint

/-- One more condition. -/
def condition (reader : RuleReader) (draft : Draft) : RuleReading Draft := do
  if (← reader.peek) = .colon then
    reader.bump
    reader |>.pseudo draft
  else
    reader.plainCondition draft
partial_fixpoint

/-- What stands behind a colon: a native pseudo-class is added to the text, anything else to
the functions. -/
def pseudo (reader : RuleReader) (draft : Draft) : RuleReading Draft := do
  match ← reader.peek with
  | .ident name =>
    let source ← reader.bumpSource
    if isNativeClass name.toLower then
      return draft.addText (":" ++ source)
    else
      return draft.addFunction ⟨name.toLower, []⟩
  | .function name =>
    reader.bump
    if isNativeFunction name.toLower then
      reader.nativeCall draft name.toLower
    else
      reader |>.engineCall draft name.toLower
  | _ => reader.unexpected
partial_fixpoint

/-- An engine function with arguments, behind its name and parenthesis. -/
def engineCall (reader : RuleReader) (draft : Draft) (name : String) : RuleReading Draft := do
  let arguments ← reader |>.arguments
  reader.closing (draft.addFunction ⟨name, arguments⟩)
partial_fixpoint

end

/-! ## Whole streams -/

/-- An argument list up to the end of the text. -/
def argumentsToEnd (reader : RuleReader) : RuleReading (List Argument) := do
  let arguments ← reader.arguments
  if (← reader.peek).isEnd then
    return arguments
  else
    reader.unexpected

/-- A document of either kind. -/
def document (reader : RuleReader) (kind : Kind) : RuleReading Document := do
  let arguments ← reader.argumentsToEnd
  match kind with
  | .argumentList => return .arguments arguments
  | .selectorList =>
    match SelectorList.ofArguments? arguments with
    | some list => return .selectors list
    | none => throw ⟨.notASelector, reader.selector⟩

/-- Lexemes with the end of the text behind them, unless they end with it. -/
def ended (selector : String) (lexemes : List Lexeme) : List Lexeme :=
  if lexemes.getLast?.any (·.token.isEnd) then lexemes
  else lexemes ++ [Lexeme.endAt selector.length]

/-- Reads lexemes by the rules, once all of them are known to be supported. -/
def read (kind : Kind) (selector : String) (lexemes : List Lexeme) :
    Option (Except Failure Document) :=
  match checkSupported selector (ended selector lexemes) with
  | .error failure => some (.error failure)
  | .ok () =>
    (((clamped selector (ended selector lexemes)).document kind).outcome .start).map Prod.fst

/-- The lines that the rules write when lexemes are read; none of lexemes that are refused. -/
def trace (kind : Kind) (selector : String) (lexemes : List Lexeme) : Option (List TraceLine) :=
  match checkSupported selector (ended selector lexemes) with
  | .error _ => some []
  | .ok () =>
    (((clamped selector (ended selector lexemes)).document kind).outcome .start).map (·.2.lines)

end RuleReader

/-- The lines of the rules that parsing a text enters; none when it fails before it is read. -/
def traceOf (kind : Kind) (text : String) : List TraceLine :=
  match lexemesOf text with
  | .error _ => []
  | .ok lexemes => (RuleReader.trace kind text lexemes).getD []

end SelectorLang
