import SelectorLang.Document

/-! # Command line options

The arguments of the program are read from left to right. Options stand before or behind
the one selector, short ones may share a hyphen, and a double hyphen ends them. The first
thing that decides the outcome wins: a request for help or the version, or a mistake.
-/

namespace SelectorLang.CommandLine

/-- What to print of a document. -/
inductive Format where
  /-- Its JSON value. -/
  | json
  /-- Its canonical text. -/
  | text
  /-- The lexemes it was read from. -/
  | tokens
deriving DecidableEq, Repr

/-- The format with a name. -/
def Format.ofName? (name : String) : Option Format :=
  if name = "json" then some .json
  else if name = "text" then some .text
  else if name = "tokens" then some .tokens
  else none

/-- What the program is asked to do. -/
structure Invocation where
  /-- The selector. -/
  selector : String
  /-- What to print. -/
  format : Format
  /-- What the selector is taken for. -/
  kind : Kind
  /-- Whether to print only the names of the functions in use. -/
  namesOnly : Bool
deriving DecidableEq, Repr

/-- What the arguments of the program ask for. -/
inductive Request where
  /-- How the program is called. -/
  | help
  /-- The version of the program. -/
  | version
  /-- Nothing that can be done. -/
  | mistaken
  /-- To work on a selector. -/
  | work (invocation : Invocation)
deriving DecidableEq, Repr

/-- The options and the selector seen so far. -/
structure Draft where
  /-- The selector. -/
  selector : Option String
  /-- The format. -/
  format : Option Format
  /-- Whether arguments were asked for. -/
  argumentList : Bool
  /-- Whether names were asked for. -/
  namesOnly : Bool
deriving DecidableEq, Repr

namespace Draft

/-- Nothing seen yet. -/
def empty : Draft := ⟨none, none, false, false⟩

/-- A selector is seen; there is only one. -/
def withSelector? (draft : Draft) (selector : String) : Option Draft :=
  if draft.selector.isSome then none else some { draft with selector := some selector }

/-- The name of a format is seen; there is only one. -/
def withFormat? (draft : Draft) (name : String) : Option Draft :=
  if draft.format.isSome then none
  else (Format.ofName? name).map fun format => { draft with format := some format }

/-- The option for argument lists is seen; it is given once. -/
def withArgumentList? (draft : Draft) : Option Draft :=
  if draft.argumentList then none else some { draft with argumentList := true }

/-- The option for names is seen; it is given once. -/
def withNamesOnly? (draft : Draft) : Option Draft :=
  if draft.namesOnly then none else some { draft with namesOnly := true }

/-- What is asked for when nothing more follows: JSON unless a format was given. -/
def request (draft : Draft) : Request :=
  match draft.selector with
  | none => .mistaken
  | some selector =>
    .work ⟨selector, draft.format.getD .json,
      if draft.argumentList then .argumentList else .selectorList, draft.namesOnly⟩

end Draft

/-- What one argument with options in it comes to. -/
inductive OptionReading where
  /-- The options seen so far. -/
  | seen (draft : Draft)
  /-- The options seen so far, and the next argument is the name of a format. -/
  | formatFollows (draft : Draft)
  /-- Help is asked for. -/
  | help
  /-- The version is asked for. -/
  | version
  /-- A mistake. -/
  | mistaken
deriving DecidableEq, Repr

/-- A draft if there is one, and a mistake otherwise. -/
def OptionReading.ofDraft? : Option Draft → OptionReading
  | some draft => seen draft
  | none => mistaken

/-- The short options behind one hyphen. The format takes what is left as its name,
behind an optional equals sign, or else the next argument. -/
def readShort (draft : Draft) : List Char → OptionReading
  | [] => .seen draft
  | letter :: rest =>
    if letter = 'f' then
      match rest with
      | [] => .formatFollows draft
      | '=' :: name => .ofDraft? (draft.withFormat? (String.ofList name))
      | name => .ofDraft? (draft.withFormat? (String.ofList name))
    else if letter = 'h' then .help
    else if letter = 'V' then .version
    else
      let next := if letter = 'a' then draft.withArgumentList?
        else if letter = 'n' then draft.withNamesOnly?
        else none
      match next with
      | some next => readShort next rest
      | none => .mistaken

/-- The long option behind two hyphens. Only the format takes a name. -/
def readLong (draft : Draft) (text : List Char) : OptionReading :=
  let name := String.ofList (text.takeWhile (· ≠ '='))
  match text.dropWhile (· ≠ '=') with
  | [] =>
    if name = "format" then .formatFollows draft
    else if name = "arguments" then .ofDraft? draft.withArgumentList?
    else if name = "names" then .ofDraft? draft.withNamesOnly?
    else if name = "help" then .help
    else if name = "version" then .version
    else .mistaken
  | _ :: value =>
    if name = "format" then .ofDraft? (draft.withFormat? (String.ofList value)) else .mistaken

/-- An argument holds options when more than a hyphen follows its first hyphen. -/
def isOption (argument : String) : Bool :=
  match argument.toList with
  | '-' :: _ :: _ => true
  | _ => false

/-- The options of one argument that holds options. -/
def readOption (draft : Draft) (argument : String) : OptionReading :=
  match argument.toList with
  | '-' :: '-' :: text => readLong draft text
  | _ :: text => readShort draft text
  | [] => .mistaken

/-- What follows a double hyphen is the selector. -/
def readSelectors (draft : Draft) : List String → Request
  | [] => draft.request
  | argument :: rest =>
    match draft.withSelector? argument with
    | some next => readSelectors next rest
    | none => .mistaken

mutual

/-- Reads arguments from left to right. -/
def readArguments (draft : Draft) : List String → Request
  | [] => draft.request
  | argument :: rest =>
    if argument = "--" then readSelectors draft rest
    else if isOption argument then
      match readOption draft argument with
      | .seen next => readArguments next rest
      | .formatFollows next => readFormat next rest
      | .help => .help
      | .version => .version
      | .mistaken => .mistaken
    else
      match draft.withSelector? argument with
      | some next => readArguments next rest
      | none => .mistaken

/-- Reads the name of a format, which holds no options, and the arguments behind it. -/
def readFormat (draft : Draft) : List String → Request
  | [] => .mistaken
  | name :: rest =>
    if isOption name then .mistaken
    else match draft.withFormat? name with
      | some next => readArguments next rest
      | none => .mistaken

end

/-- What the arguments of the program ask for. -/
def Request.ofArguments (arguments : List String) : Request :=
  readArguments .empty arguments

end SelectorLang.CommandLine
