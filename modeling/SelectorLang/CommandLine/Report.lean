import SelectorLang.CommandLine.Options

/-! # What the program prints

A run of the program comes to an exit code and what goes to its two outputs. A selector
that cannot be read gives code 1 and one line on the error output, behind the warnings; a
mistake in the arguments gives code 2. The listing of lexemes does not read the selector
and shows the lexemes that reading would refuse in yellow.
-/

namespace SelectorLang.CommandLine

/-- The outcome of a run of the program. -/
structure Report where
  /-- The exit code. -/
  code : Nat
  /-- What goes to the standard output. -/
  output : String
  /-- What goes to the error output. -/
  errors : String
deriving DecidableEq, Repr

/-- A text with blanks in front, so that it is at least four characters wide. -/
def rightAligned (text : String) : String :=
  String.ofList (List.replicate (4 - text.length) ' ') ++ text

/-- The line of a lexeme in a listing, without its end. -/
def lexemeText (lexeme : Lexeme) : String :=
  rightAligned (toString lexeme.offset) ++ " " ++ lexeme.token.kindName ++ " " ++
    Text.quoted lexeme.source

/-- The line of a lexeme in a listing; those of unsupported kinds are yellow. -/
def lexemeLine (lexeme : Lexeme) : String :=
  if lexeme.token.isSupported then lexemeText lexeme ++ "\n"
  else "\x1b[33m" ++ lexemeText lexeme ++ "\x1b[39m\n"

/-- The listing of lexemes, one a line. -/
def listing (lexemes : List Lexeme) : String :=
  String.join (lexemes.map lexemeLine)

/-- The line for an error, its first word in bold red. -/
def errorLine (message : String) : String :=
  "\x1b[1m\x1b[31merror:\x1b[39m\x1b[0m " ++ message ++ "\n"

/-- The message of a failure, with that of the lexical error behind it if there is one. -/
def failureMessage (failure : Failure) : String :=
  match failure.cause with
  | .lexical error => failure.message ++ ": " ++ error.message
  | _ => failure.message

/-- The report of a failure, behind what was warned of. -/
def failed (warnings : List Warning) (message : String) : Report :=
  ⟨1, "", (Registry.empty.reportAll warnings).1 ++ errorLine message⟩

/-- The report of a success, with what was warned of. -/
def succeeded (warnings : List Warning) (output : String) : Report :=
  ⟨0, output, (Registry.empty.reportAll warnings).1⟩

/-- What is printed of a document, and what printing it warns of: only its canonical
text has strings in it that may not read back. -/
def documentOutput (invocation : Invocation) (document : Document) : String × List Warning :=
  if invocation.namesOnly then (String.join (document.functionNames.map (· ++ "\n")), [])
  else match invocation.format with
    | .text => (document.text ++ "\n", document.warnings)
    | _ => (document.json.text ++ "\n", [])

/-- Lists the lexemes of a selector. -/
def listLexemes (selector : String) : Report :=
  let warnings := tokenizeWarnings selector
  match tokenize selector with
  | .error error => failed warnings error.message
  | .ok lexemes => succeeded warnings (listing lexemes)

/-- Reads a selector and prints what is asked for. -/
def printDocument (invocation : Invocation) : Report :=
  let warnings := tokenizeWarnings invocation.selector
  match Document.parse invocation.kind invocation.selector with
  | .error failure => failed warnings (failureMessage failure)
  | .ok document =>
    let (output, more) := documentOutput invocation document
    succeeded (warnings ++ more) output

/-- Works on a selector: the listing of lexemes comes before all other wishes. -/
def Invocation.report (invocation : Invocation) : Report :=
  match invocation.format with
  | .tokens => listLexemes invocation.selector
  | _ => printDocument invocation

/-- How the program is called. -/
def usage : String :=
  "usage: sift [-f json|text|tokens] [-a] [-n] <SELECTOR>\n"

/-- Does what is asked for. -/
def Request.report : Request → Report
  | help => ⟨0, usage, ""⟩
  | version => ⟨0, "sift 0.1.0\n", ""⟩
  | mistaken => ⟨2, "", usage⟩
  | work invocation => invocation.report

/-- The report of the program on its arguments. -/
def report (arguments : List String) : Report :=
  (Request.ofArguments arguments).report

end SelectorLang.CommandLine
