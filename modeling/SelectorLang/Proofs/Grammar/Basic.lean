import SelectorLang.Native
import SelectorLang.Token
import SelectorLang.Tree.Basic

/-! # The grammar of argument lists

Which lexemes make up which tree, said without a reader: a relation between the
lexemes in front of the end of a text and the phrases they derive
(`SelectorLang.Grammar.Derives`). Whether two phrases next to each other could be cut
in another place is left open here; that the grammar is unambiguous follows once it is
known to be read by a function.
-/

namespace SelectorLang

/-- The tokens that open a parenthesis: the parenthesis alone, or behind a name. -/
def Token.opensParen : Token → Bool
  | openParen | function _ => true
  | _ => false

namespace Grammar

/-- Nothing but blanks. -/
def Blanks (lexemes : List Lexeme) : Prop :=
  ∀ lexeme ∈ lexemes, lexeme.token = .whitespace

/-- The texts of lexemes, one after the other. -/
def sources (lexemes : List Lexeme) : String :=
  String.join (lexemes.map Lexeme.source)

/-- Every parenthesis that is opened is closed, and no other one. -/
inductive Balanced : List Lexeme → Prop
  | nil : Balanced []
  | plain {lexeme : Lexeme} {rest : List Lexeme}
      (opensNone : lexeme.token.opensParen = false) (closesNone : lexeme.token ≠ .closeParen)
      (balanced : Balanced rest) : Balanced (lexeme :: rest)
  | nested {opening closing : Lexeme} {inner rest : List Lexeme}
      (opens : opening.token.opensParen = true) (balancedInner : Balanced inner)
      (closes : closing.token = .closeParen) (balanced : Balanced rest) :
      Balanced (opening :: inner ++ closing :: rest)

/-- What stands between two parts: the sign of a combinator, with blanks around it or
not, or blanks alone for a descendant. -/
inductive Separator : List Lexeme → Combinator → Prop
  | sign {before after : List Lexeme} {lexeme : Lexeme} {character : Char}
      {combinator : Combinator} (blanksBefore : Blanks before)
      (token : lexeme.token = .delim character)
      (spelled : combinator.sign = String.singleton character) (blanksAfter : Blanks after) :
      Separator (before ++ lexeme :: after) combinator
  | blanks {lexemes : List Lexeme} (blanks : Blanks lexemes) (nonempty : lexemes ≠ []) :
      Separator lexemes .descendant

/-- The phrases of the grammar with what they stand for. -/
inductive Phrase where
  /-- A condition: the native text and the functions it adds to its part. -/
  | item (text : String) (functions : List EngineFunction)
  /-- Conditions in a row: the text and the functions that they add together. -/
  | items (text : String) (functions : List EngineFunction)
  /-- The conditions on one element. -/
  | simple (selector : SimpleSelector)
  /-- Parts with what separates each from the next. -/
  | joined (parts : List Part)
  | complex (selector : ComplexSelector)
  | argument (argument : Argument)
  | arguments (arguments : List Argument)

/-- The phrases that lexemes derive. -/
inductive Derives : List Lexeme → Phrase → Prop
  | name {lexeme : Lexeme} {name : String} (token : lexeme.token = .ident name) :
      Derives [lexeme] (.item lexeme.source [])
  | hash {lexeme : Lexeme} {name : String} {kind : HashKind}
      (token : lexeme.token = .hash name kind) : Derives [lexeme] (.item lexeme.source [])
  | asterisk {lexeme : Lexeme} (token : lexeme.token = .delim '*') :
      Derives [lexeme] (.item lexeme.source [])
  | className {dot lexeme : Lexeme} {name : String} (dotToken : dot.token = .delim '.')
      (token : lexeme.token = .ident name) :
      Derives [dot, lexeme] (.item ("." ++ lexeme.source) [])
  | nativeClass {colon lexeme : Lexeme} {name : String} (colonToken : colon.token = .colon)
      (token : lexeme.token = .ident name) (native : name.toLower ∈ nativeClasses) :
      Derives [colon, lexeme] (.item (":" ++ lexeme.source) [])
  | bareFunction {colon lexeme : Lexeme} {name : String} (colonToken : colon.token = .colon)
      (token : lexeme.token = .ident name) (engine : name.toLower ∉ nativeClasses) :
      Derives [colon, lexeme] (.item "" [⟨name.toLower, []⟩])
  | nativeFunction {colon call closing : Lexeme} {name : String} {inner : List Lexeme}
      (colonToken : colon.token = .colon) (token : call.token = .function name)
      (native : name.toLower ∈ nativeFunctions) (balanced : Balanced inner)
      (closes : closing.token = .closeParen) :
      Derives (colon :: call :: inner ++ [closing])
        (.item (":" ++ name.toLower ++ "(" ++ sources inner ++ ")") [])
  | function {colon call closing : Lexeme} {name : String} {inner : List Lexeme}
      {arguments : List Argument} (colonToken : colon.token = .colon)
      (token : call.token = .function name) (engine : name.toLower ∉ nativeFunctions)
      (derived : Derives inner (.arguments arguments)) (closes : closing.token = .closeParen) :
      Derives (colon :: call :: inner ++ [closing]) (.item "" [⟨name.toLower, arguments⟩])
  | condition {opening closing : Lexeme} {inner : List Lexeme}
      (opens : opening.token = .openBracket)
      (inside : ∀ lexeme ∈ inner, lexeme.token ≠ .closeBracket)
      (closes : closing.token = .closeBracket) :
      Derives (opening :: inner ++ [closing]) (.item (sources (opening :: inner ++ [closing])) [])
  | oneItem {lexemes : List Lexeme} {text : String} {functions : List EngineFunction}
      (derived : Derives lexemes (.item text functions)) : Derives lexemes (.items text functions)
  | moreItems {front lexemes : List Lexeme} {text added : String}
      {functions addedFunctions : List EngineFunction}
      (before : Derives front (.items text functions))
      (derived : Derives lexemes (.item added addedFunctions)) :
      Derives (front ++ lexemes) (.items (text ++ added) (functions ++ addedFunctions))
  | native {lexemes : List Lexeme} {text : String} {functions : List EngineFunction}
      (derived : Derives lexemes (.items text functions)) (nonempty : text ≠ "") :
      Derives lexemes (.simple ⟨some text, functions⟩)
  | engine {lexemes : List Lexeme} {functions : List EngineFunction}
      (derived : Derives lexemes (.items "" functions)) (nonempty : functions ≠ []) :
      Derives lexemes (.simple ⟨none, functions⟩)
  | noParts : Derives [] (.joined [])
  | moreParts {front lexemes separator : List Lexeme} {parts : List Part}
      {selector : SimpleSelector} {combinator : Combinator}
      (before : Derives front (.joined parts)) (derived : Derives lexemes (.simple selector))
      (separated : Separator separator combinator) :
      Derives (front ++ lexemes ++ separator) (.joined (parts ++ [⟨selector, combinator⟩]))
  | complex {front lexemes : List Lexeme} {parts : List Part} {selector : SimpleSelector}
      (before : Derives front (.joined parts)) (derived : Derives lexemes (.simple selector)) :
      Derives (front ++ lexemes) (.complex ⟨parts ++ [⟨selector, .descendant⟩]⟩)
  | number {before after : List Lexeme} {lexeme : Lexeme} {value : Binary64} {kind : NumberKind}
      (blanksBefore : Blanks before) (token : lexeme.token = .number value kind)
      (blanksAfter : Blanks after) :
      Derives (before ++ lexeme :: after) (.argument (.number value))
  | string {before after : List Lexeme} {lexeme : Lexeme} {value : String}
      (blanksBefore : Blanks before) (token : lexeme.token = .string value)
      (blanksAfter : Blanks after) :
      Derives (before ++ lexeme :: after) (.argument (.string value))
  | selector {before lexemes after : List Lexeme} {selector : ComplexSelector}
      (blanksBefore : Blanks before) (derived : Derives lexemes (.complex selector))
      (blanksAfter : Blanks after) :
      Derives (before ++ lexemes ++ after) (.argument (.selector selector))
  | oneArgument {lexemes : List Lexeme} {argument : Argument}
      (derived : Derives lexemes (.argument argument)) : Derives lexemes (.arguments [argument])
  | moreArguments {front lexemes : List Lexeme} {comma : Lexeme} {arguments : List Argument}
      {argument : Argument} (before : Derives front (.arguments arguments))
      (separates : comma.token = .comma) (derived : Derives lexemes (.argument argument)) :
      Derives (front ++ comma :: lexemes) (.arguments (arguments ++ [argument]))

end Grammar

end SelectorLang
