import SelectorLang.Proofs.RoundTrip.Conditions
import SelectorLang.Proofs.RoundTrip.ParseText
import SelectorLang.Tree.Identity

/-! # Writing what was parsed

What is parsed from a text need not be parsed from what is written for it: an escape takes
the blank in front of a combinator (`SelectorLang.escapedChild_differs`). It is when no native
text ends in such an escape and the lexemes of the text can be written behind each other: no
name is a hyphen alone, a name behind native conditions stands behind a mark that lets it, and
no comment stands in brackets or among native arguments (`SelectorLang.parse_text_of_separate`).
-/

namespace SelectorLang

mutual

/-- Whether the strings in an argument need no escapes and its numbers are finite. -/
def Argument.hasPlainLiterals : Argument → Bool
  | .selector selector => selector.hasPlainLiterals
  | .number value => value.isFinite
  | .string value => value.toList.all fun character =>
      character != '"' && character != '\\' && character != '\n'

/-- Whether the literals in some arguments are plain. -/
def Argument.allHavePlainLiterals : List Argument → Bool
  | [] => true
  | argument :: rest => argument.hasPlainLiterals && Argument.allHavePlainLiterals rest

/-- Whether the literals in the arguments of a function are plain. -/
def EngineFunction.hasPlainLiterals : EngineFunction → Bool
  | ⟨_, arguments⟩ => Argument.allHavePlainLiterals arguments

/-- Whether the literals in the arguments of some functions are plain. -/
def EngineFunction.allHavePlainLiterals : List EngineFunction → Bool
  | [] => true
  | function :: rest => function.hasPlainLiterals && EngineFunction.allHavePlainLiterals rest

/-- Whether the literals in a simple selector are plain. -/
def SimpleSelector.hasPlainLiterals : SimpleSelector → Bool
  | ⟨_, functions⟩ => EngineFunction.allHavePlainLiterals functions

/-- Whether the literals in a part are plain. -/
def Part.hasPlainLiterals : Part → Bool
  | ⟨selector, _⟩ => selector.hasPlainLiterals

/-- Whether the literals in some parts are plain. -/
def Part.allHavePlainLiterals : List Part → Bool
  | [] => true
  | part :: rest => part.hasPlainLiterals && Part.allHavePlainLiterals rest

/-- Whether the literals in a complex selector are plain. -/
def ComplexSelector.hasPlainLiterals : ComplexSelector → Bool
  | ⟨parts⟩ => Part.allHavePlainLiterals parts

end

mutual

/-- Whether the texts of an argument stay what they are when a blank or a mark is written behind
them: no native text ends in an escape that takes a blank, and what a function is called needs
no escapes. -/
def Argument.hasSteadyTexts : Argument → Bool
  | .selector selector => selector.hasSteadyTexts
  | .number _ => true
  | .string _ => true

/-- Whether the texts of some arguments are steady. -/
def Argument.allHaveSteadyTexts : List Argument → Bool
  | [] => true
  | argument :: rest => argument.hasSteadyTexts && Argument.allHaveSteadyTexts rest

/-- Whether the texts of a function are steady. -/
def EngineFunction.hasSteadyTexts : EngineFunction → Bool
  | ⟨name, arguments⟩ => decide (IsCallName name) && Argument.allHaveSteadyTexts arguments

/-- Whether the texts of some functions are steady. -/
def EngineFunction.allHaveSteadyTexts : List EngineFunction → Bool
  | [] => true
  | function :: rest => function.hasSteadyTexts && EngineFunction.allHaveSteadyTexts rest

/-- Whether the texts of a simple selector are steady. -/
def SimpleSelector.hasSteadyTexts : SimpleSelector → Bool
  | ⟨rawText, functions⟩ =>
    !(rawText.any fun text => Scan.endsOpen text.toList) &&
      EngineFunction.allHaveSteadyTexts functions

/-- Whether the texts of a part are steady. -/
def Part.hasSteadyTexts : Part → Bool
  | ⟨selector, _⟩ => selector.hasSteadyTexts

/-- Whether the texts of some parts are steady. -/
def Part.allHaveSteadyTexts : List Part → Bool
  | [] => true
  | part :: rest => part.hasSteadyTexts && Part.allHaveSteadyTexts rest

/-- Whether the texts of a complex selector are steady. -/
def ComplexSelector.hasSteadyTexts : ComplexSelector → Bool
  | ⟨parts⟩ => Part.allHaveSteadyTexts parts

end

theorem Argument.allHavePlainLiterals_eq (arguments : List Argument) :
    Argument.allHavePlainLiterals arguments = arguments.all Argument.hasPlainLiterals := by
  induction arguments with
  | nil => rw [Argument.allHavePlainLiterals, List.all_nil]
  | cons argument rest ih => rw [Argument.allHavePlainLiterals, ih, List.all_cons]

theorem EngineFunction.allHavePlainLiterals_eq (functions : List EngineFunction) :
    EngineFunction.allHavePlainLiterals functions =
      functions.all EngineFunction.hasPlainLiterals := by
  induction functions with
  | nil => rw [EngineFunction.allHavePlainLiterals, List.all_nil]
  | cons function rest ih => rw [EngineFunction.allHavePlainLiterals, ih, List.all_cons]

theorem Part.allHavePlainLiterals_eq (parts : List Part) :
    Part.allHavePlainLiterals parts = parts.all Part.hasPlainLiterals := by
  induction parts with
  | nil => rw [Part.allHavePlainLiterals, List.all_nil]
  | cons part rest ih => rw [Part.allHavePlainLiterals, ih, List.all_cons]

theorem Argument.allHaveSteadyTexts_eq (arguments : List Argument) :
    Argument.allHaveSteadyTexts arguments = arguments.all Argument.hasSteadyTexts := by
  induction arguments with
  | nil => rw [Argument.allHaveSteadyTexts, List.all_nil]
  | cons argument rest ih => rw [Argument.allHaveSteadyTexts, ih, List.all_cons]

theorem EngineFunction.allHaveSteadyTexts_eq (functions : List EngineFunction) :
    EngineFunction.allHaveSteadyTexts functions =
      functions.all EngineFunction.hasSteadyTexts := by
  induction functions with
  | nil => rw [EngineFunction.allHaveSteadyTexts, List.all_nil]
  | cons function rest ih => rw [EngineFunction.allHaveSteadyTexts, ih, List.all_cons]

theorem Part.allHaveSteadyTexts_eq (parts : List Part) :
    Part.allHaveSteadyTexts parts = parts.all Part.hasSteadyTexts := by
  induction parts with
  | nil => rw [Part.allHaveSteadyTexts, List.all_nil]
  | cons part rest ih => rw [Part.allHaveSteadyTexts, ih, List.all_cons]

theorem Argument.anyBare_eq (arguments : List Argument) :
    Argument.anyBare arguments = arguments.any Argument.hasBare := by
  induction arguments with
  | nil => rw [Argument.anyBare, List.any_nil]
  | cons argument rest ih => rw [Argument.anyBare, ih, List.any_cons]

theorem EngineFunction.anyBare_eq (functions : List EngineFunction) :
    EngineFunction.anyBare functions = functions.any EngineFunction.hasBare := by
  induction functions with
  | nil => rw [EngineFunction.anyBare, List.any_nil]
  | cons function rest ih => rw [EngineFunction.anyBare, ih, List.any_cons]

theorem Part.anyBare_eq (parts : List Part) :
    Part.anyBare parts = parts.any Part.hasBare := by
  induction parts with
  | nil => rw [Part.anyBare, List.any_nil]
  | cons part rest ih => rw [Part.anyBare, ih, List.any_cons]

/-! ## Lexemes that can be written behind each other -/

open Grammar

/-- Lexemes from a bracket, or from the name of a native function, to what closes it. -/
inductive IsEnclosed : List Lexeme → Prop
  | condition {opening closing : Lexeme} {inner : List Lexeme}
      (opens : opening.token = .openBracket)
      (inside : ∀ lexeme ∈ inner, lexeme.token ≠ .closeBracket)
      (closes : closing.token = .closeBracket) : IsEnclosed (opening :: (inner ++ [closing]))
  | arguments {call closing : Lexeme} {name : String} {inner : List Lexeme}
      (token : call.token = .function name) (native : name.toLower ∈ nativeFunctions)
      (balanced : Balanced inner) (closes : closing.token = .closeParen) :
      IsEnclosed (call :: (inner ++ [closing]))

/-- Lexemes that stay what they are when those of a part are written behind each other
without the functions and the comments between them. -/
structure Separate (lexemes : List Lexeme) : Prop where
  /-- No name is a hyphen alone. -/
  steady : ∀ lexeme ∈ lexemes, lexeme.isSteady = true
  /-- A name stands behind native conditions only when the mark at their end lets it. -/
  namesApart : ∀ front lexeme text functions name, front ++ [lexeme] <:+: lexemes →
    Derives front (.items text functions) → text ≠ "" → lexeme.token = .ident name →
      Scan.takesName text.toList = true
  /-- No comment stands in brackets or among the arguments of a native function. -/
  gapless : ∀ enclosed, enclosed <:+: lexemes → IsEnclosed enclosed → Gapless enclosed

theorem Separate.within {lexemes part : List Lexeme} (separate : Separate lexemes)
    (inside : part <:+: lexemes) : Separate part where
  steady lexeme member := separate.steady lexeme (inside.subset member)
  namesApart front lexeme text functions name among :=
    separate.namesApart front lexeme text functions name (among.trans inside)
  gapless enclosed among := separate.gapless enclosed (among.trans inside)

/-- Separate lexemes of some text that selectors are written with. -/
structure Rewritable (lexemes : List Lexeme) : Prop where
  cut : AreCut lexemes
  supported : ∀ lexeme ∈ lexemes, lexeme.token.isSupported = true
  separate : Separate lexemes

namespace Rewritable

variable {lexemes : List Lexeme} (rewritable : Rewritable lexemes)

include rewritable

theorem within {part : List Lexeme} (inside : part <:+: lexemes) : Rewritable part where
  cut := rewritable.cut.within inside
  supported lexeme member := rewritable.supported lexeme (inside.subset member)
  separate := rewritable.separate.within inside

theorem isWord_of_ident {lexeme : Lexeme} {name : String} (member : lexeme ∈ lexemes)
    (isIdent : lexeme.token = .ident name) : IsWord lexeme.source.toList lexeme.token := by
  rw [isIdent]
  exact (rewritable.cut.isFirst member).isWord_of_ident isIdent
    (rewritable.separate.steady lexeme member)

theorem isWord_of_hash {lexeme : Lexeme} {value : String} {kind : HashKind}
    (member : lexeme ∈ lexemes) (isHash : lexeme.token = .hash value kind) :
    IsWord lexeme.source.toList lexeme.token ∧ EndsCondition lexeme.source.toList := by
  rw [isHash]
  exact (rewritable.cut.isFirst member).isWord_of_hash isHash

theorem source_of_mark (mark : Char) {lexeme : Lexeme} {token : Token}
    (member : lexeme ∈ lexemes) (isToken : lexeme.token = token)
    (isMark : Scan.punctuation? mark = some token) : lexeme.source = String.ofList [mark] := by
  rw [← (rewritable.cut.isFirst member).mark isToken isMark, String.ofList_toList]

theorem source_of_delim {lexeme : Lexeme} {character : Char} (member : lexeme ∈ lexemes)
    (isDelim : lexeme.token = .delim character) : lexeme.source = String.ofList [character] := by
  rw [← (rewritable.cut.isFirst member).delim isDelim, String.ofList_toList]

end Rewritable

/-! ## What is written for a phrase -/

/-- What is written for a phrase can be read as the phrase again, when its literals are plain,
its texts are steady and its functions have arguments. -/
def Grammar.Phrase.IsWritable (lexemes : List Lexeme) : Phrase → Prop
  | .item text functions =>
      (text ≠ "" → (∃ pieces, NativePieces text pieces) ∧
        (EndsCondition text.toList ∨
          ∃ lexeme name, lexemes = [lexeme] ∧ lexeme.token = .ident name)) ∧
      ∀ function ∈ functions, function.hasPlainLiterals = true →
        function.hasSteadyTexts = true → function.hasBare = false →
          Legible function.text function.IsRead
  | .items text functions =>
      (text ≠ "" → ∃ pieces, NativePieces text pieces) ∧
      ∀ function ∈ functions, function.hasPlainLiterals = true →
        function.hasSteadyTexts = true → function.hasBare = false →
          Legible function.text function.IsRead
  | .simple selector =>
      selector.hasPlainLiterals = true → selector.hasSteadyTexts = true →
        selector.hasBare = false → Legible selector.text selector.IsRead
  | .joined parts =>
      ∀ part ∈ parts, part.hasPlainLiterals = true → part.hasSteadyTexts = true →
        part.hasBare = false → Legible part.selector.text part.selector.IsRead
  | .complex selector =>
      selector.hasPlainLiterals = true → selector.hasSteadyTexts = true →
        selector.hasBare = false →
          Legible (Argument.text (.selector selector)) (Argument.IsRead (.selector selector))
  | .argument one =>
      one.hasPlainLiterals = true → one.hasSteadyTexts = true → one.hasBare = false →
        Legible one.text one.IsRead
  | .arguments all =>
      ∀ argument ∈ all, argument.hasPlainLiterals = true → argument.hasSteadyTexts = true →
        argument.hasBare = false → Legible argument.text argument.IsRead

/-- Writable functions with plain literals, steady texts and arguments are legible. -/
theorem EngineFunction.legible_of_writable {functions : List EngineFunction}
    (writable : ∀ function ∈ functions, function.hasPlainLiterals = true →
      function.hasSteadyTexts = true → function.hasBare = false →
        Legible function.text function.IsRead)
    (plain : EngineFunction.allHavePlainLiterals functions = true)
    (steady : EngineFunction.allHaveSteadyTexts functions = true)
    (noBare : EngineFunction.anyBare functions = false) :
    ∀ function ∈ functions, Legible function.text function.IsRead := by
  rw [EngineFunction.allHavePlainLiterals_eq, List.all_eq_true] at plain
  rw [EngineFunction.allHaveSteadyTexts_eq, List.all_eq_true] at steady
  rw [EngineFunction.anyBare_eq, List.any_eq_false] at noBare
  exact fun function member => writable function member (plain function member)
    (steady function member) (Bool.eq_false_iff.mpr (noBare function member))

namespace Grammar

/-- A native condition that starts with a mark. -/
theorem Phrase.isWritable_of_native {lexemes : List Lexeme} {text : String} {pieces : List Piece}
    (native : NativePieces text pieces) (ends : EndsCondition text.toList) :
    (item text []).IsWritable lexemes :=
  ⟨fun _ => ⟨⟨pieces, native⟩, Or.inl ends⟩, List.forall_mem_nil _⟩

/-- What is enclosed is inside the mark that closes it. -/
theorem isInside_of_enclosed {opening closing : Lexeme} {inner : List Lexeme} {mark : Char}
    {token : Token} (rewritable : Rewritable (opening :: (inner ++ [closing])))
    (enclosed : IsEnclosed (opening :: (inner ++ [closing])))
    (closes : closing.token = token) (isToken : Scan.punctuation? mark = some token)
    (isMark : mark = ')' ∨ mark = ']') : IsInside inner mark := by
  have gapless := rewritable.separate.gapless _ (List.infix_refl _) enclosed
  obtain ⟨rest, stands⟩ := rewritable.cut.exists_stands gapless
  have isSource := rewritable.source_of_mark mark
    (.tail _ (List.mem_append_right _ List.mem_cons_self)) closes isToken
  have inside := stands.front
  rw [sources_single, isSource, String.toList_ofList] at inside
  have part : Rewritable inner := rewritable.within ⟨[opening], [closing], rfl⟩
  exact Stands.isInside inside isMark part.supported part.separate.steady

/-- A native function whose arguments have no comments in them. -/
theorem Phrase.isWritable_of_nativeFunction {colon call closing : Lexeme} {name : String}
    {inner : List Lexeme} (rewritable : Rewritable (colon :: call :: inner ++ [closing]))
    (token : call.token = .function name)
    (native : name.toLower ∈ nativeFunctions) (balanced : Balanced inner)
    (closes : closing.token = .closeParen) :
    (item (":" ++ name.toLower ++ "(" ++ sources inner ++ ")") []).IsWritable
      (colon :: call :: inner ++ [closing]) := by
  have isCallName : ∀ name ∈ nativeFunctions, IsCallName name := by decide +kernel
  have isText : (":" ++ name.toLower ++ "(" ++ sources inner ++ ")").toList =
      ':' :: (name.toLower ++ "(" ++ sources inner ++ ")").toList := by
    simp only [String.toList_append, List.append_assoc]
    rfl
  have called : Rewritable (call :: (inner ++ [closing])) :=
    rewritable.within ⟨[colon], [], List.append_nil _⟩
  refine Phrase.isWritable_of_native (nativePieces_nativeFunction (isCallName _ native) native
    balanced ?_ ?_) ?_
  · exact isInside_of_enclosed called (.arguments token native balanced closes) closes rfl
      (Or.inl rfl)
  · exact (called.within ⟨[call], [closing], rfl⟩).supported
  · rw [isText]
    exact endsCondition_cons (by decide) _

/-- A condition in brackets that has no comments in it. -/
theorem Phrase.isWritable_of_condition {opening closing : Lexeme} {inner : List Lexeme}
    (rewritable : Rewritable (opening :: inner ++ [closing]))
    (opens : opening.token = .openBracket)
    (inside : ∀ lexeme ∈ inner, lexeme.token ≠ .closeBracket)
    (closes : closing.token = .closeBracket) :
    (item (sources (opening :: inner ++ [closing])) []).IsWritable
      (opening :: inner ++ [closing]) := by
  have isText : sources (opening :: inner ++ [closing]) = "[" ++ sources inner ++ "]" := by
    rw [sources_append, sources_cons, sources_single,
      rewritable.source_of_mark '[' List.mem_cons_self opens rfl,
      rewritable.source_of_mark ']' (List.mem_append_right _ List.mem_cons_self) closes rfl]
  have starts : ("[" ++ sources inner ++ "]").toList =
      '[' :: (sources inner ++ "]").toList := by
    simp only [String.toList_append, List.append_assoc]
    rfl
  rw [isText]
  refine Phrase.isWritable_of_native (nativePieces_condition inside ?_ ?_) ?_
  · exact isInside_of_enclosed rewritable (.condition opens inside closes) closes rfl (Or.inr rfl)
  · exact (rewritable.within ⟨[opening], [closing], rfl⟩).supported
  · rw [starts]
    exact endsCondition_cons (by decide) _

/-- A function that is not native is legible when its arguments are. -/
theorem Phrase.isWritable_of_function {lexemes inner : List Lexeme} {name : String}
    {arguments : List Argument} (engine : isNativeFunction name = false)
    (inside : (Phrase.arguments arguments).IsWritable inner) :
    (item "" [⟨name, arguments⟩]).IsWritable lexemes := by
  refine ⟨fun nonempty => absurd rfl nonempty, List.forall_mem_singleton.mpr ?_⟩
  intro plain steady noBare
  rw [EngineFunction.hasPlainLiterals, Argument.allHavePlainLiterals_eq, List.all_eq_true] at plain
  rw [EngineFunction.hasSteadyTexts, Bool.and_eq_true, Argument.allHaveSteadyTexts_eq,
    List.all_eq_true] at steady
  rw [EngineFunction.hasBare, Bool.or_eq_false_iff, Argument.anyBare_eq, List.any_eq_false]
    at noBare
  refine EngineFunction.legible (of_decide_eq_true steady.1) engine fun nonempty =>
    Argument.legible nonempty ?_
  exact fun argument member => inside argument member (plain argument member)
    (steady.2 argument member) (Bool.eq_false_iff.mpr (noBare.2 argument member))

/-- Conditions in a row are native texts in a row. -/
theorem Phrase.isWritable_of_items {front lexemes : List Lexeme} {text added : String}
    {functions addedFunctions : List EngineFunction}
    (derived : Derives front (.items text functions)) (rewritable : Rewritable (front ++ lexemes))
    (before : (items text functions).IsWritable front)
    (behind : (item added addedFunctions).IsWritable lexemes) :
    (items (text ++ added) (functions ++ addedFunctions)).IsWritable (front ++ lexemes) := by
  refine ⟨fun nonempty => ?_, List.forall_mem_append.mpr ⟨before.2, behind.2⟩⟩
  by_cases noText : text = ""
  · rw [noText, String.empty_append] at nonempty ⊢
    exact (behind.1 nonempty).1
  by_cases noneAdded : added = ""
  · rw [noneAdded, String.append_empty]
    exact before.1 noText
  obtain ⟨pieces, native⟩ := before.1 noText
  obtain ⟨⟨others, nativeBehind⟩, joins⟩ := behind.1 noneAdded
  refine ⟨_, native.append nativeBehind (joins.imp_right ?_)⟩
  rintro ⟨lexeme, name, rfl, isIdent⟩
  exact rewritable.separate.namesApart front lexeme text functions name (List.infix_refl _)
    derived noText isIdent

/-- Parts are a selector together. -/
theorem Phrase.isWritable_of_parts {lexemes : List Lexeme} {parts : List Part}
    {selector : SimpleSelector}
    (writable : (joined (parts ++ [⟨selector, .descendant⟩])).IsWritable lexemes) :
    (complex ⟨parts ++ [⟨selector, .descendant⟩]⟩).IsWritable lexemes := by
  intro plain steady noBare
  rw [ComplexSelector.hasPlainLiterals, Part.allHavePlainLiterals_eq, List.all_eq_true] at plain
  rw [ComplexSelector.hasSteadyTexts, Part.allHaveSteadyTexts_eq, List.all_eq_true] at steady
  rw [ComplexSelector.hasBare, Part.anyBare_eq, List.any_eq_false] at noBare
  have nonempty := List.append_ne_nil_of_right_ne_nil parts
    (List.cons_ne_nil (Part.mk selector .descendant) [])
  refine Argument.legible_selector (Part.legible nonempty ?_ fun part member =>
    writable part member (plain part member) (steady part member)
      (Bool.eq_false_iff.mpr (noBare part member)))
  rw [List.getLast?_concat]
  intro last isLast
  cases isLast
  rfl

/-- What is derived from rewritable lexemes can be read again. -/
theorem Derives.isWritable {lexemes : List Lexeme} {phrase : Phrase}
    (derived : Derives lexemes phrase) (rewritable : Rewritable lexemes) :
    phrase.IsWritable lexemes := by
  induction derived with
  | @name lexeme name token =>
      have word := rewritable.isWord_of_ident List.mem_cons_self token
      have native := nativePieces_word word (rewritable.supported _ List.mem_cons_self)
        (.name token)
      exact ⟨fun _ => ⟨⟨_, native⟩, Or.inr ⟨lexeme, name, rfl, token⟩⟩, List.forall_mem_nil _⟩
  | @hash lexeme value kind token =>
      obtain ⟨word, ends⟩ := rewritable.isWord_of_hash List.mem_cons_self token
      exact Phrase.isWritable_of_native (nativePieces_word word
        (rewritable.supported _ List.mem_cons_self) (.hash token)) ends
  | @asterisk lexeme token =>
      have isSource := rewritable.source_of_delim List.mem_cons_self token
      have word : IsWord lexeme.source.toList lexeme.token := by
        rw [isSource, token]
        exact isWord_asterisk
      refine Phrase.isWritable_of_native (nativePieces_word word
        (rewritable.supported _ List.mem_cons_self) (.asterisk token)) ?_
      rw [isSource]
      exact endsCondition_cons (by decide) _
  | @className dot lexeme name dotToken token =>
      have word := rewritable.isWord_of_ident (.tail _ List.mem_cons_self) token
      have isDot : dot.symbol = (signPiece '.').symbol := by
        rw [Lexeme.symbol, dotToken, rewritable.source_of_delim List.mem_cons_self dotToken]
        rfl
      refine Phrase.isWritable_of_native (nativePieces_className word
        (rewritable.supported _ (.tail _ List.mem_cons_self)) (.className dotToken token) isDot) ?_
      rw [String.toList_append]
      exact endsCondition_cons (by decide) _
  | @nativeClass colon lexeme name colonToken token native =>
      have word := rewritable.isWord_of_ident (.tail _ List.mem_cons_self) token
      have isColon : colon.symbol = colonPiece.symbol := by
        rw [Lexeme.symbol, colonToken,
          rewritable.source_of_mark ':' List.mem_cons_self colonToken rfl]
        rfl
      refine Phrase.isWritable_of_native (nativePieces_nativeClass word
        (rewritable.supported _ (.tail _ List.mem_cons_self))
        (.nativeClass colonToken token native) isColon) ?_
      rw [String.toList_append]
      exact endsCondition_cons (by decide) _
  | @bareFunction colon lexeme name colonToken token engine =>
      refine ⟨fun nonempty => absurd rfl nonempty, List.forall_mem_singleton.mpr ?_⟩
      intro _ _ noBare
      rw [EngineFunction.hasBare, List.isEmpty_nil, Bool.true_or] at noBare
      contradiction
  | nativeFunction _ token native balanced closes =>
      exact Phrase.isWritable_of_nativeFunction rewritable token native balanced closes
  | @function colon call closing name inner arguments colonToken token engine _ closes ih =>
      refine Phrase.isWritable_of_function ?_ (ih (rewritable.within ?_))
      · rw [isNativeFunction_toLower, decide_eq_false engine]
      · exact ⟨[colon, call], [closing], rfl⟩
  | condition opens inside closes =>
      exact Phrase.isWritable_of_condition rewritable opens inside closes
  | oneItem _ ih =>
      obtain ⟨native, functions⟩ := ih rewritable
      exact ⟨fun nonempty => (native nonempty).1, functions⟩
  | moreItems before _ ihBefore ih =>
      exact Phrase.isWritable_of_items before rewritable
        (ihBefore (rewritable.within List.infix_append_left))
        (ih (rewritable.within List.infix_append_right))
  | @native lexemes text functions _ nonempty ih =>
      intro plain steady noBare
      obtain ⟨native, isWritable⟩ := ih rewritable
      obtain ⟨pieces, native⟩ := native nonempty
      rw [SimpleSelector.hasSteadyTexts, Bool.and_eq_true, Bool.not_eq_true'] at steady
      exact SimpleSelector.legible_of_native (native.fragment steady.1)
        (EngineFunction.legible_of_writable isWritable plain steady.2 noBare)
  | @engine lexemes functions _ nonempty ih =>
      intro plain steady noBare
      exact SimpleSelector.legible_of_functions nonempty
        (EngineFunction.legible_of_writable (ih rewritable).2 plain steady noBare)
  | noParts => exact fun _ member => absurd member List.not_mem_nil
  | @moreParts front lexemes separator parts selector combinator _ _ _ ihBefore ih =>
      have before := ihBefore (rewritable.within ⟨[], lexemes ++ separator,
        by rw [List.nil_append, List.append_assoc]⟩)
      have behind := ih (rewritable.within ⟨front, separator, rfl⟩)
      exact List.forall_mem_append.mpr ⟨before, List.forall_mem_singleton.mpr behind⟩
  | @complex front lexemes parts selector _ _ ihBefore ih =>
      have before := ihBefore (rewritable.within ⟨[], lexemes, rfl⟩)
      have behind := ih (rewritable.within ⟨front, [], List.append_nil _⟩)
      exact Phrase.isWritable_of_parts
        (List.forall_mem_append.mpr ⟨before, List.forall_mem_singleton.mpr behind⟩)
  | @number before after lexeme value kind _ token _ =>
      intro isFinite _ _
      exact Argument.legible_number isFinite
  | @string before after lexeme value _ token _ =>
      intro plain _ _
      refine Argument.legible_string fun character member => ?_
      rw [Argument.hasPlainLiterals, List.all_eq_true] at plain
      have outside := plain character member
      simpa only [Bool.and_eq_true, bne_iff_ne, and_assoc] using outside
  | @selector before lexemes after selector _ _ _ ih =>
      exact ih (rewritable.within ⟨before, after, rfl⟩)
  | oneArgument _ ih => exact List.forall_mem_singleton.mpr (ih rewritable)
  | @moreArguments front lexemes comma arguments argument _ _ _ ihBefore ih =>
      have before := ihBefore (rewritable.within ⟨[], comma :: lexemes, rfl⟩)
      have behind := ih (rewritable.within ⟨front ++ [comma], [],
        by rw [List.append_nil, List.append_assoc]; rfl⟩)
      exact List.forall_mem_append.mpr ⟨before, List.forall_mem_singleton.mpr behind⟩

end Grammar

/-! ## The round trip -/

/-- The text of legible selectors is parsed as equal ones, where each function has
arguments. -/
theorem parseSelector_text_of_legible {list : SelectorList}
    (legible : Legible (argumentsText (list.selectors.map .selector))
      (Argument.AreRead (list.selectors.map .selector)))
    (noBare : list.selectors.any ComplexSelector.hasBare = false) :
    ∃ parsed, parseSelector list.text = .ok parsed ∧ parsed.equal list = true := by
  obtain ⟨lexemes, cut, reads, -⟩ := readArguments_of_legible legible
  obtain ⟨parsed, isRead, equal⟩ := reads ((SelectorList.anyBare_map _).trans noBare)
  obtain ⟨found, isList, same⟩ := SelectorList.ofArguments?_of_equalList equal
  refine ⟨found, ?_, by rw [SelectorList.equal, same, equal]⟩
  rw [list.text_eq_argumentsText, parseSelector, cut]
  dsimp only
  rw [readSelectorList, isRead]
  simp only [isList]

/-- **What is parsed is parsed again from what is written for it**, when its literals need no
escapes and its functions have arguments, its lexemes are separate and its texts steady. -/
theorem parse_text_of_separate {text : String} {lexemes : List Lexeme} {list : SelectorList}
    (cut : tokenize text = .ok lexemes) (separate : Separate lexemes)
    (escaped : text.toList.getLast? ≠ some '\\') (parses : parseSelector text = .ok list)
    (noBare : list.selectors.any ComplexSelector.hasBare = false)
    (plain : list.selectors.all ComplexSelector.hasPlainLiterals = true)
    (steady : list.selectors.all ComplexSelector.hasSteadyTexts = true) :
    ∃ parsed, parseSelector list.text = .ok parsed ∧ parsed.equal list = true := by
  obtain ⟨pieces, trail, cuts, isCut, supported, derived⟩ := exists_cuts_of_parseSelector parses
  cases cut.symm.trans isCut
  have rewritable : Rewritable (place 0 pieces) :=
    ⟨⟨_, pieces, trail, 0, cuts, rfl, escaped⟩, supported, separate.within ⟨[], _, rfl⟩⟩
  have isWritable := derived.isWritable rewritable
  refine parseSelector_text_of_legible (Argument.legible derived.arguments_ne_nil ?_) noBare
  intro argument member
  obtain ⟨selector, among, rfl⟩ := List.mem_map.mp member
  rw [List.any_eq_false] at noBare
  exact isWritable _ member (List.all_eq_true.mp plain selector among)
    (List.all_eq_true.mp steady selector among) (Bool.eq_false_iff.mpr (noBare selector among))

/-- The lexemes of `*\62/**/.d:f("c")>e`. -/
def commentedClass : List Lexeme :=
  [⟨.delim '*', "*", 0⟩, ⟨.ident "b", "\\62", 1⟩, ⟨.delim '.', ".", 8⟩, ⟨.ident "d", "d", 9⟩,
    ⟨.colon, ":", 10⟩, ⟨.function "f", "f(", 11⟩, ⟨.string "c", "\"c\"", 13⟩,
    ⟨.closeParen, ")", 16⟩, ⟨.delim '>', ">", 17⟩, ⟨.ident "e", "e", 18⟩, Lexeme.endAt 19]

/-- The selectors of these lexemes. -/
def commentedClassList : SelectorList :=
  ⟨[⟨[⟨⟨some "*\\62.d", [⟨"f", [.string "c"]⟩]⟩, .child⟩, ⟨⟨some "e", []⟩, .descendant⟩]⟩]⟩

theorem mem_zip_of_adjacent {left right : Lexeme} {lexemes : List Lexeme}
    (inside : [left, right] <:+: lexemes) : (left, right) ∈ lexemes.zip lexemes.tail := by
  obtain ⟨front, behind, rfl⟩ := inside
  induction front with
  | nil => exact List.mem_cons_self
  | cons first front ih =>
      cases front with
      | nil => exact .tail _ List.mem_cons_self
      | cons second front => exact .tail _ ih

/-- A condition of one lexeme is written as it is. -/
theorem Grammar.Derives.text_of_single {lexeme : Lexeme} {text : String}
    {functions : List EngineFunction} (derived : Derives [lexeme] (.items text functions)) :
    text = lexeme.source := by
  generalize single : [lexeme] = lexemes at derived
  cases derived with
  | oneItem item =>
      cases item with
      | name | hash | asterisk =>
          cases single
          rfl
      | className | nativeClass | bareFunction => cases single
      | nativeFunction | function | condition =>
          have lengths := congrArg List.length single
          simp only [List.length_append, List.length_cons, List.length_nil] at lengths
          omega
  | moreItems before item =>
      obtain ⟨⟨_, _, rfl, -⟩, -⟩ := before.spans
      obtain ⟨⟨_, _, rfl, -⟩, -⟩ := item.spans
      have lengths := congrArg List.length single
      simp only [List.length_append, List.length_cons, List.length_nil] at lengths
      omega

theorem separate_commentedClass : Separate commentedClass where
  steady := by decide +kernel
  namesApart front lexeme text functions name inside derived _ isName := by
    have pairs : ∀ pair ∈ commentedClass.zip commentedClass.tail,
        pair.1.token.closesItem = true → pair.2.token.family = .named →
          pair.1 = ⟨.delim '*', "*", 0⟩ := by decide +kernel
    have onlyFirst : ⟨.delim '*', "*", 0⟩ ∉ commentedClass.tail := by decide +kernel
    obtain ⟨-, ⟨inner, last, rfl, closes⟩, -⟩ := derived.spans
    obtain ⟨before, behind, whole⟩ := inside
    replace whole : (before ++ inner) ++ last :: lexeme :: behind = commentedClass := by
      rw [← whole]
      simp only [List.append_assoc, List.cons_append, List.nil_append]
    have adjacent : [last, lexeme] <:+: commentedClass :=
      ⟨before ++ inner, behind, by rw [← whole, List.append_assoc]; rfl⟩
    have isAsterisk : last = ⟨.delim '*', "*", 0⟩ :=
      pairs _ (mem_zip_of_adjacent adjacent) closes (by rw [isName]; rfl)
    have alone : inner = [] := by
      cases front : before ++ inner with
      | nil => exact (List.append_eq_nil_iff.mp front).2
      | cons first others =>
          rw [front] at whole
          refine absurd ?_ onlyFirst
          rw [← whole, ← isAsterisk]
          exact List.mem_append_right others List.mem_cons_self
    subst alone
    rw [derived.text_of_single, isAsterisk]
    decide
  gapless enclosed inside isEnclosed := by
    have noBracket : ∀ lexeme ∈ commentedClass, lexeme.token ≠ .openBracket := by
      decide +kernel
    have calls : ∀ lexeme ∈ commentedClass, lexeme.token.opensParen = true →
        lexeme.token = .function "f" := by decide +kernel
    cases isEnclosed with
    | condition opens => exact absurd opens (noBracket _ (inside.subset List.mem_cons_self))
    | arguments token native =>
        have isCall := calls _ (inside.subset List.mem_cons_self) (by rw [token]; rfl)
        cases token.symm.trans isCall
        exact absurd native (by decide +kernel)

/-- A name behind an asterisk, an escape in it, a comment in front of a class and a combinator
without blanks change nothing. -/
theorem commentedClass_parsed :
    ∃ parsed, parseSelector commentedClassList.text = .ok parsed ∧
      parsed.equal commentedClassList = true :=
  @parse_text_of_separate "*\\62/**/.d:f(\"c\")>e" _ _ (by decide +kernel)
    separate_commentedClass (by decide +kernel) (by decide +kernel) (by decide +kernel)
    (by decide +kernel) (by decide +kernel)

/-- The selectors of `\61>b`. -/
def escapedChild : SelectorList :=
  ⟨[⟨[⟨⟨some "\\61", []⟩, .child⟩, ⟨⟨some "b", []⟩, .descendant⟩]⟩]⟩

/-- An escape takes the blank that is written in front of a combinator. -/
theorem escapedChild_differs :
    parseSelector "\\61>b" = .ok escapedChild ∧
      escapedChild.selectors.any ComplexSelector.hasBare = false ∧
      escapedChild.selectors.all ComplexSelector.hasPlainLiterals = true ∧
      ¬ ∃ parsed, parseSelector escapedChild.text = .ok parsed ∧
        parsed.equal escapedChild = true := by
  refine ⟨by decide +kernel, rfl, rfl, ?_⟩
  rintro ⟨parsed, parses, equal⟩
  have differs : parseSelector escapedChild.text =
      .ok ⟨[⟨[⟨⟨some "\\61 ", []⟩, .child⟩, ⟨⟨some "b", []⟩, .descendant⟩]⟩]⟩ := by
    decide +kernel
  rw [differs] at parses
  cases parses
  exact absurd equal (by decide +kernel)

end SelectorLang
