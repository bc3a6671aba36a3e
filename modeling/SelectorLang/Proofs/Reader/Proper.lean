import SelectorLang.Proofs.Parsing.SelectorLists
import SelectorLang.Proofs.Reader.Moves
import SelectorLang.Tree.Identity

/-! # What every tree that is read keeps

Trees that are read have no empty places: a list of arguments, the parts of a complex
selector and the conditions on an element are never empty, and nothing stands behind the
last part for its combinator to relate it to. Names of engine functions are in lower case and
are none that is native where it stands, with arguments or without. All of this is said of
whole trees (`SelectorLang.Argument.Proper`) and holds whatever lexemes are read, also where
the text of a lexeme does not belong to its token (`SelectorLang.Document.proper_of_read`).
-/

namespace SelectorLang

/-- None of the letters of a name is a capital one; only ASCII has capitals. -/
def HasNoCapitals (name : String) : Prop :=
  ∀ character ∈ name.toList, character.isUpper = false

/-! ## Proper trees -/

mutual

/-- Whether an argument is one that could be read. -/
def Argument.Proper : Argument → Prop
  | .selector selector => selector.Proper
  | .number _ | .string _ => True

/-- Whether all of some arguments could be read. -/
def Argument.AllProper : List Argument → Prop
  | [] => True
  | argument :: rest => argument.Proper ∧ Argument.AllProper rest

/-- Whether a function could be read: its name is in lower case, and no native class where
the function has no arguments, no native function where it has some. -/
def EngineFunction.Proper : EngineFunction → Prop
  | ⟨name, arguments⟩ =>
    HasNoCapitals name ∧ (arguments = [] → isNativeClass name = false) ∧
      (arguments ≠ [] → isNativeFunction name = false) ∧ Argument.AllProper arguments

/-- Whether all of some functions could be read. -/
def EngineFunction.AllProper : List EngineFunction → Prop
  | [] => True
  | function :: rest => function.Proper ∧ EngineFunction.AllProper rest

/-- Whether a simple selector could be read: there is some condition, and no empty native
text. -/
def SimpleSelector.Proper : SimpleSelector → Prop
  | ⟨rawText, functions⟩ =>
    (rawText.isSome = true ∨ functions ≠ []) ∧ rawText ≠ some "" ∧
      EngineFunction.AllProper functions

/-- Whether the selector of a part could be read. -/
def Part.Proper : Part → Prop
  | ⟨selector, _⟩ => selector.Proper

/-- Whether the selectors of all of some parts could be read. -/
def Part.AllProper : List Part → Prop
  | [] => True
  | part :: rest => part.Proper ∧ Part.AllProper rest

/-- Whether a complex selector could be read: it has a part, and nothing is related to the
last one. -/
def ComplexSelector.Proper : ComplexSelector → Prop
  | ⟨parts⟩ =>
    parts ≠ [] ∧ (∀ last ∈ parts.getLast?, last.combinator = .descendant) ∧ Part.AllProper parts

end

/-- Whether a document could be read: it is not empty, and all in it could be read. -/
def Document.Proper : Document → Prop
  | selectors list => list.selectors ≠ [] ∧ ∀ selector ∈ list.selectors, selector.Proper
  | arguments list => list ≠ [] ∧ ∀ argument ∈ list, argument.Proper

theorem Argument.allProper_iff {arguments : List Argument} :
    Argument.AllProper arguments ↔ ∀ argument ∈ arguments, argument.Proper := by
  induction arguments with
  | nil => simp [AllProper]
  | cons argument rest ih => rw [AllProper, ih, List.forall_mem_cons]

theorem EngineFunction.allProper_iff {functions : List EngineFunction} :
    EngineFunction.AllProper functions ↔ ∀ function ∈ functions, function.Proper := by
  induction functions with
  | nil => simp [AllProper]
  | cons function rest ih => rw [AllProper, ih, List.forall_mem_cons]

theorem Part.allProper_iff {parts : List Part} :
    Part.AllProper parts ↔ ∀ part ∈ parts, part.Proper := by
  induction parts with
  | nil => simp [AllProper]
  | cons part rest ih => rw [AllProper, ih, List.forall_mem_cons]

theorem ComplexSelector.proper_of_parts {parts : List Part} {selector : SimpleSelector}
    (others : ∀ part ∈ parts, part.Proper) (last : selector.Proper) :
    (ComplexSelector.mk (parts ++ [⟨selector, .descendant⟩])).Proper := by
  refine ⟨List.append_ne_nil_of_right_ne_nil _ (List.cons_ne_nil _ _), ?_, ?_⟩
  · intro part isLast
    rw [List.getLast?_concat, Option.mem_some_iff] at isLast
    rw [← isLast]
  · rw [Part.allProper_iff, List.forall_mem_append]
    exact ⟨others, List.forall_mem_singleton.mpr last⟩

/-! ## Names in lower case -/

theorem isUpper_toLower (character : Char) : character.toLower.isUpper = false := by
  cases upper : character.isUpper with
  | false =>
      delta Char.toLower
      rwa [dif_neg (of_decide_eq_false upper)]
  | true =>
      have between := of_decide_eq_true upper
      have folded : character.toLower.val = character.val + ('a'.val - 'A'.val) := by
        delta Char.toLower
        rw [dif_pos between]
      have low := UInt32.le_iff_toNat_le.mp between.1
      have high := UInt32.le_iff_toNat_le.mp between.2
      refine decide_eq_false ?_
      rw [folded]
      simp only [Char.reduceVal, UInt32.le_iff_toNat_le, UInt32.toNat_add, UInt32.reduceToNat,
        UInt32.reduceSub] at low high ⊢
      omega

theorem hasNoCapitals_toLower (name : String) : HasNoCapitals name.toLower := by
  intro character member
  rw [toLower_eq_map, String.toList_map] at member
  obtain ⟨original, -, rfl⟩ := List.mem_map.mp member
  exact isUpper_toLower original

/-- The name in a letter has no capitals. -/
def Letter.IsLowered : Letter → Prop
  | name lowered | call lowered => HasNoCapitals lowered
  | _ => True

/-- Whatever a token is called, its letter is in lower case. -/
theorem Token.letter_isLowered (token : Token) : token.letter.IsLowered := by
  cases token with
  | ident name => exact hasNoCapitals_toLower name
  | function name => exact hasNoCapitals_toLower name
  | delim character =>
      rcases Letter.ofChar_eq character with same | same | same | ⟨_, same⟩ <;>
        rw [letter, same] <;> trivial
  | _ => trivial

/-! ## What a reading keeps -/

/-- All that a list in progress holds could be read. -/
structure Level.Proper (level : Level) : Prop where
  arguments : ∀ argument ∈ level.arguments, argument.Proper
  parts : ∀ part ∈ level.parts, part.Proper
  functions : ∀ function ∈ level.functions, function.Proper

namespace Level

variable {level ended : Level}

theorem Proper.empty : empty.Proper := by
  constructor <;> exact fun _ member => absurd member List.not_mem_nil

theorem Proper.addFunction (proper : level.Proper) {function : EngineFunction}
    (added : function.Proper) : (level.addFunction function).Proper where
  arguments := proper.arguments
  parts := proper.parts
  functions := List.forall_mem_append.mpr
    ⟨proper.functions, List.forall_mem_singleton.mpr added⟩

theorem Proper.addArgument (proper : level.Proper) {argument : Argument}
    (added : argument.Proper) : (level.addArgument argument).Proper where
  arguments := List.forall_mem_append.mpr
    ⟨proper.arguments, List.forall_mem_singleton.mpr added⟩
  parts := proper.parts
  functions := proper.functions

/-- A simple selector has no empty native text, and no part is made of nothing. -/
theorem Proper.simple (proper : level.Proper) {selector : SimpleSelector}
    (whole : level.simple? = some selector) : selector.Proper := by
  have functions := EngineFunction.allProper_iff.mpr proper.functions
  unfold simple? at whole
  split at whole
  · split at whole <;> cases whole
    rename_i someFunction
    refine ⟨Or.inr fun empty => someFunction (List.isEmpty_iff.mpr empty), ?_, functions⟩
    intro emptyText
    cases emptyText
  · rename_i someText
    cases whole
    exact ⟨Or.inl rfl, fun empty => someText (Option.some.inj empty), functions⟩

theorem Proper.endPart (proper : level.Proper) {combinator : Combinator}
    (ends : level.endPart? combinator = some ended) : ended.Proper := by
  obtain ⟨selector, whole, -, rfl⟩ := eq_of_endPart? ends
  exact ⟨proper.arguments,
    List.forall_mem_append.mpr
      ⟨proper.parts, List.forall_mem_singleton.mpr (proper.simple whole)⟩,
    fun _ member => absurd member List.not_mem_nil⟩

theorem Proper.endArgument (proper : level.Proper)
    (ends : level.endArgument? = some ended) : ended.Proper := by
  obtain ⟨selector, whole, -, rfl⟩ := eq_of_endArgument? ends
  have last : (ComplexSelector.mk (level.parts ++ [⟨selector, .descendant⟩])).Proper :=
    ComplexSelector.proper_of_parts proper.parts (proper.simple whole)
  exact ⟨List.forall_mem_append.mpr ⟨proper.arguments, List.forall_mem_singleton.mpr last⟩,
    fun _ member => absurd member List.not_mem_nil,
    fun _ member => absurd member List.not_mem_nil⟩

end Level

namespace State

/-- All that a state holds could be read, and the functions that are open are engine
functions. -/
structure Proper (state : State) : Prop where
  level : state.level.Proper
  outer : ∀ enclosing ∈ state.outer, enclosing.level.Proper ∧ HasNoCapitals enclosing.name ∧
    isNativeFunction enclosing.name = false

theorem Proper.start : start.Proper :=
  ⟨.empty, fun _ member => absurd member List.not_mem_nil⟩

variable {state next : State}

theorem Proper.itemLevel {level : Level} (proper : state.Proper)
    (place : state.itemLevel? = some level) : level.Proper := by
  obtain ⟨outer, open_, focus⟩ := state
  cases focus <;> simp only [itemLevel?, Option.some.injEq, reduceCtorEq] at place
  case partEnd => exact proper.level.endPart place
  all_goals exact place ▸ proper.level

theorem Proper.argumentEnd {ended : Level} (proper : state.Proper)
    (ends : state.argumentEnd? = some ended) : ended.Proper := by
  obtain ⟨outer, open_, focus⟩ := state
  cases focus <;> simp only [argumentEnd?, Option.some.injEq, reduceCtorEq] at ends
  case item => exact proper.level.endArgument ends
  case partEnd => exact proper.level.endArgument ends
  case literalEnd => exact ends ▸ proper.level

/-- **One step of a reading.** -/
theorem Proper.step {symbol : Symbol} (proper : state.Proper) (settled : state.Settled)
    (lowered : symbol.letter.IsLowered) (moves : Moves state symbol next) : next.Proper := by
  cases moves with
  | blank => exact ⟨proper.level, proper.outer⟩
  | literal letter =>
      refine ⟨proper.level.addArgument ?_, proper.outer⟩
      unfold Letter.literal? at letter
      split at letter <;> cases letter <;> trivial
  | item letter place =>
      have opened := proper.itemLevel place
      exact ⟨⟨opened.arguments, opened.parts, opened.functions⟩, proper.outer⟩
  | text =>
      exact ⟨⟨proper.level.arguments, proper.level.parts, proper.level.functions⟩, proper.outer⟩
  | bareFunction letter engine =>
      rw [letter] at lowered
      have bare : (EngineFunction.mk _ []).Proper :=
        ⟨lowered, fun _ => engine, fun nonempty => absurd rfl nonempty, trivial⟩
      exact ⟨proper.level.addFunction bare, proper.outer⟩
  | opensFunction letter engine =>
      rw [letter] at lowered
      exact ⟨.empty, List.forall_mem_cons.mpr ⟨⟨proper.level, lowered, engine⟩, proper.outer⟩⟩
  | endsPart letter place ends => exact ⟨proper.level.endPart ends, proper.outer⟩
  | endsArgument letter ends => exact ⟨proper.argumentEnd ends, proper.outer⟩
  | endsFunction letter ends =>
      obtain ⟨⟨enclosing, lowered, engine⟩, outer⟩ := List.forall_mem_cons.mp proper.outer
      -- The arguments are not empty, so that the name may be that of a native class.
      have nonempty := (settled.argumentEnd ends).2
      have arguments := Argument.allProper_iff.mpr (proper.argumentEnd ends).arguments
      exact ⟨enclosing.addFunction
        ⟨lowered, fun empty => absurd empty nonempty, fun _ => engine, arguments⟩, outer⟩

/-- **A whole run.** -/
theorem Proper.run {last : State} {lexemes : List Lexeme} (proper : state.Proper)
    (settled : state.Settled) (runs : state.run lexemes = some last) :
    last.Proper ∧ last.Settled := by
  refine holds_of_run (motive := fun state => state.Proper ∧ state.Settled) ?_
    ⟨proper, settled⟩ runs
  rintro before behind lexeme ⟨proper, settled⟩ moves
  exact ⟨proper.step settled lexeme.token.letter_isLowered moves, settled.step moves⟩

/-- What a reading holds at the end is not empty, and proper. -/
theorem arguments_proper {lexemes : List Lexeme} {arguments : List Argument}
    (reads : start.read (lexemes.map Lexeme.symbol) = .ok arguments) :
    arguments ≠ [] ∧ ∀ argument ∈ arguments, argument.Proper := by
  obtain ⟨last, runs, finishes⟩ := read_eq_ok_iff.mp reads
  obtain ⟨proper, settled⟩ := Proper.start.run .start runs
  obtain ⟨-, ended, ends, rfl⟩ := argumentEnd_of_finish finishes
  exact ⟨(settled.argumentEnd ends).2, (proper.argumentEnd ends).arguments⟩

end State

/-! ## What is read -/

theorem proper_of_readArguments {selector : String} {lexemes : List Lexeme}
    {arguments : List Argument} (reads : readArguments selector lexemes = .ok arguments) :
    arguments ≠ [] ∧ ∀ argument ∈ arguments, argument.Proper := by
  unfold readArguments at reads
  split at reads
  · contradiction
  · split at reads <;> cases reads
    rename_i readsAll
    exact State.arguments_proper readsAll

namespace Document

/-- **Whatever lexemes are read, the tree is proper.** -/
theorem proper_of_read {kind : Kind} {selector : String} {lexemes : List Lexeme}
    {document : Document} (reads : Document.read kind selector lexemes = .ok document) :
    document.Proper := by
  obtain ⟨nonempty, proper⟩ := proper_of_readArguments (readArguments_of_read reads)
  cases document with
  | selectors list =>
      refine ⟨fun empty => nonempty (List.map_eq_nil_iff.mpr empty), fun selector member => ?_⟩
      exact proper _ (List.mem_map_of_mem member)
  | arguments list => exact ⟨nonempty, proper⟩

end Document

/-- Lexemes whose texts are not those of their tokens: a name without a text, and an engine
function with arguments that has the name of a native class. An end of the text stands in
front of the last lexeme. -/
def strayLexemes : List Lexeme := [
  ⟨.ident "a", "", 9⟩, ⟨.colon, "", 0⟩, ⟨.function "HOVER", "x", 0⟩, ⟨.whitespace, "+", 1⟩,
  ⟨.hash "b" .id, "b", 0⟩, ⟨.delim '>', ")", 0⟩, ⟨.colon, "::", 0⟩, ⟨.ident "Lang", ",", 0⟩,
  ⟨.closeParen, "", 3⟩, ⟨.whitespace, "", 0⟩, ⟨.endOfText, "c", 0⟩, ⟨.comma, ",", 0⟩]

/-- What is read from those lexemes. -/
def strayTree : List ComplexSelector :=
  [⟨[⟨⟨none, [⟨"hover", [.selector ⟨[⟨⟨some "b", []⟩, .child⟩,
    ⟨⟨none, [⟨"lang", []⟩]⟩, .descendant⟩]⟩]⟩]⟩, .descendant⟩]⟩]

theorem strayLexemes_proper :
    (Document.read .selectorList "" strayLexemes = .ok (.selectors ⟨strayTree⟩) ∧
        (Document.selectors ⟨strayTree⟩).Proper) ∧
      Document.read .argumentList "" strayLexemes = .ok (.arguments (strayTree.map .selector)) ∧
        (Document.arguments (strayTree.map .selector)).Proper := by
  have list : readSelectorList "" strayLexemes = .ok ⟨strayTree⟩ := by decide +kernel
  have arguments := readSelectorList_eq_ok_iff.mp list
  have readsList : Document.read .selectorList "" strayLexemes = .ok (.selectors ⟨strayTree⟩) :=
    map_eq_ok_iff.mpr ⟨_, list, rfl⟩
  have readsArguments : Document.read .argumentList "" strayLexemes =
      .ok (.arguments (strayTree.map .selector)) :=
    map_eq_ok_iff.mpr ⟨_, arguments, rfl⟩
  exact ⟨⟨readsList, Document.proper_of_read readsList⟩,
    readsArguments, Document.proper_of_read readsArguments⟩

end SelectorLang
