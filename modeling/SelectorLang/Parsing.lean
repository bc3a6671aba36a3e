import SelectorLang.Error
import SelectorLang.Reader.State
import SelectorLang.Tokenizer

/-! # From text to tree

A text is cut into lexemes, the lexemes are checked for kinds that selectors are not
written with, and those in front of the end of the text are read as an argument list.
A selector list is an argument list with nothing but selectors in it. Each stage is only
reached when the one before it succeeds.
-/

namespace SelectorLang

/-- Refuses lexemes of unsupported kinds, the first of them by name. -/
def checkSupported (selector : String) (lexemes : List Lexeme) : Except Failure Unit :=
  match lexemes.find? fun lexeme => !lexeme.token.isSupported with
  | some lexeme => .error ⟨.unsupportedToken lexeme.source, selector⟩
  | none => .ok ()

/-- The lexemes in front of the first end of the text. -/
def beforeEnd (lexemes : List Lexeme) : List Lexeme :=
  lexemes.takeWhile fun lexeme => !lexeme.token.isEnd

/-- Why a reading failed: at a symbol, or at the end of the text. -/
def Cause.ofUnexpected : Option Symbol → Cause
  | some symbol => .unexpectedToken symbol.source
  | none => .unexpectedEnd

/-- Reads lexemes as an argument list. -/
def readArguments (selector : String) (lexemes : List Lexeme) :
    Except Failure (List Argument) :=
  match checkSupported selector lexemes with
  | .error failure => .error failure
  | .ok () =>
    match State.start.read ((beforeEnd lexemes).map Lexeme.symbol) with
    | .error unexpected => .error ⟨.ofUnexpected unexpected, selector⟩
    | .ok arguments => .ok arguments

/-- The argument list as a selector list, if it has nothing but selectors. -/
def SelectorList.ofArguments? (arguments : List Argument) : Option SelectorList :=
  (arguments.mapM Argument.selector?).map SelectorList.mk

/-- Reads lexemes as a selector list. -/
def readSelectorList (selector : String) (lexemes : List Lexeme) : Except Failure SelectorList :=
  match readArguments selector lexemes with
  | .error failure => .error failure
  | .ok arguments =>
    match SelectorList.ofArguments? arguments with
    | some list => .ok list
    | none => .error ⟨.notASelector, selector⟩

/-- The lexemes of a text, or the failure to cut it. -/
def lexemesOf (text : String) : Except Failure (List Lexeme) :=
  match tokenize text with
  | .error error => .error ⟨.lexical error, text⟩
  | .ok lexemes => .ok lexemes

/-- Parses a text as an argument list. -/
def parseArguments (text : String) : Except Failure (List Argument) :=
  match lexemesOf text with
  | .error failure => .error failure
  | .ok lexemes => readArguments text lexemes

/-- Parses a text as a selector list. -/
def parseSelector (text : String) : Except Failure SelectorList :=
  match lexemesOf text with
  | .error failure => .error failure
  | .ok lexemes => readSelectorList text lexemes

end SelectorLang
