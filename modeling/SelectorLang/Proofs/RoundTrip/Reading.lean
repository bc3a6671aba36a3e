import SelectorLang.Proofs.RoundTrip.Fragment

/-! # Reading what is written

Reading the pieces of a tree comes to one of two things: it holds an equal tree, or, where
a function stands with empty parentheses, it fails at a closing parenthesis
(`SelectorLang.Reads`). Each kind of node is read so when the nodes in it are.
-/

namespace SelectorLang

open Scan CodePoint

/-! ## Two outcomes -/

/-- Among the pieces is a closing parenthesis without a place. -/
def FailsAtClosing (state : State) (pieces : List Piece) : Prop :=
  ∃ front rest last, pieces = front ++ closingPiece :: rest ∧
    (∀ offset, state.run (place offset front) = some last) ∧
      last.step closingPiece.symbol = none

/-- Reading some pieces with an empty pair of parentheses among them fails; without one it
leads to a state as it should be. -/
def Reads (state : State) (pieces : List Piece) (Good : State → Prop) : (bare : Bool) → Prop
  | true => FailsAtClosing state pieces
  | false => ∃ next, (∀ offset, state.run (place offset pieces) = some next) ∧ Good next

namespace Reads

variable {state : State} {pieces others : List Piece} {Good Better : State → Prop}
  {bare bareBehind : Bool}

theorem mono (reads : Reads state pieces Good bare) (better : ∀ next, Good next → Better next) :
    Reads state pieces Better bare := by
  cases bare with
  | true => exact reads
  | false =>
      obtain ⟨next, runs, good⟩ := reads
      exact ⟨next, runs, better next good⟩

theorem append (reads : Reads state pieces Good bare)
    (behind : ∀ next, Good next → Reads next others Better bareBehind) :
    Reads state (pieces ++ others) Better (bare || bareBehind) := by
  cases bare with
  | true =>
      obtain ⟨front, rest, last, rfl, runs, stuck⟩ := reads
      exact ⟨front, rest ++ others, last, by simp only [List.append_assoc, List.cons_append],
        runs, stuck⟩
  | false =>
      obtain ⟨middle, runs, good⟩ := reads
      have goesOn (more : List Piece) (offset : Nat) :
          state.run (place offset (pieces ++ more)) =
            middle.run (place (offset + extent pieces) more) := by
        rw [place_append, State.run_append_of_run (runs offset)]
      have others := behind middle good
      cases bareBehind with
      | true =>
          obtain ⟨front, rest, last, rfl, runsFront, stuck⟩ := others
          refine ⟨pieces ++ front, rest, last, by rw [List.append_assoc], fun offset => ?_, stuck⟩
          rw [goesOn, runsFront]
      | false =>
          obtain ⟨next, runsOthers, better⟩ := others
          exact ⟨next, fun offset => by rw [goesOn, runsOthers], better⟩

theorem cons {piece : Piece} {next : State} (steps : state.step piece.symbol = some next)
    (reads : Reads next pieces Good bare) : Reads state (piece :: pieces) Good bare := by
  have one : Reads state [piece] (· = next) false :=
    ⟨next, fun offset => by rw [place, State.run_cons steps]; rfl, rfl⟩
  have whole := one.append (fun _ isNext => isNext ▸ reads)
  rwa [Bool.false_or] at whole

theorem nil (good : Good state) : Reads state [] Good false :=
  ⟨state, fun _ => rfl, good⟩

/-- Behind what reads well, a closing parenthesis may have no place. -/
theorem closing_of_stuck (stuck : state.step closingPiece.symbol = none) :
    Reads state [closingPiece] Good true :=
  ⟨[], [], state, rfl, fun _ => rfl, stuck⟩

end Reads

/-- A text that is written from pieces which are read as they should be. -/
def Legible (text : String) (AreRead : List Piece → Prop) : Prop :=
  ∃ pieces, Written text.toList pieces ∧ StartsVisibly text.toList ∧ AreRead pieces

/-! ## What is read of a node -/

/-- Behind the pieces of a function, where an item may start, stands an equal one. -/
def EngineFunction.IsRead (function : EngineFunction) (pieces : List Piece) : Prop :=
  ∀ (state : State) (level : Level), state.itemLevel? = some level →
    Reads state pieces (fun next => ∃ read : EngineFunction, read.equal function = true ∧
      next = ⟨state.outer, level.add "" [read], .item⟩) function.hasBare

/-- Behind the pieces of functions, behind an item, stand equal ones. -/
def EngineFunction.AreRead (functions : List EngineFunction) (pieces : List Piece) : Prop :=
  ∀ (outer : List Enclosing) (level : Level),
    Reads ⟨outer, level, .item⟩ pieces (fun next => ∃ read,
      EngineFunction.equalList read functions = true ∧
        next = ⟨outer, level.add "" read, .item⟩) (EngineFunction.anyBare functions)

/-- Behind the pieces of a simple selector, where a part may start, stands an equal one. -/
def SimpleSelector.IsRead (selector : SimpleSelector) (pieces : List Piece) : Prop :=
  ∀ (state : State) (arguments : List Argument) (parts : List Part),
    state.itemLevel? = some (.fresh arguments parts) →
      Reads state pieces (fun next => ∃ (read : SimpleSelector) (level : Level),
        read.equal selector = true ∧ next = ⟨state.outer, level, .item⟩ ∧
          ∀ combinator, level.endPart? combinator =
            some (.fresh arguments (parts ++ [⟨read, combinator⟩]))) selector.hasBare

/-- Behind the pieces of the last parts of a selector, it is equal to one with these. -/
def Part.AreRead (parts : List Part) (pieces : List Piece) : Prop :=
  ∀ (state : State) (arguments : List Argument) (before : List Part),
    state.itemLevel? = some (.fresh arguments before) →
      Reads state pieces (fun next => ∃ (read : List Part) (level : Level),
        Part.equalList read parts = true ∧ next = ⟨state.outer, level, .item⟩ ∧
          level.endArgument? =
            some (.fresh (arguments ++ [.selector ⟨before ++ read⟩]) [])) (Part.anyBare parts)

/-- Behind the pieces of an argument, where one may start, an equal one may end. -/
def Argument.IsRead (argument : Argument) (pieces : List Piece) : Prop :=
  ∀ (state : State) (arguments : List Argument),
    state.focus = .listStart ∨ state.focus = .argumentStart →
    state.level = .fresh arguments [] →
      Reads state pieces (fun next => next.outer = state.outer ∧ ∃ read : Argument,
        read.equal argument = true ∧
          next.argumentEnd? = some (.fresh (arguments ++ [read]) [])) argument.hasBare

/-- Behind the pieces of arguments, where one may start, equal ones may end. -/
def Argument.AreRead (more : List Argument) (pieces : List Piece) : Prop :=
  ∀ (state : State) (arguments : List Argument),
    state.focus = .listStart ∨ state.focus = .argumentStart →
    state.level = .fresh arguments [] →
      Reads state pieces (fun next => next.outer = state.outer ∧ ∃ read,
        Argument.equalList read more = true ∧
          next.argumentEnd? = some (.fresh (arguments ++ read) [])) (Argument.anyBare more)

/-! ## Functions -/

theorem boundary_of_append {text : List Char} (boundary : Boundary text) {tail : List Char}
    (tailBoundary : Boundary tail) : Boundary (text ++ tail) := by
  cases text with
  | nil => exact tailBoundary
  | cons first rest => exact boundary_cons (boundary first rfl) _

namespace EngineFunction

theorem toList_text (name : String) (arguments : List Argument) :
    (EngineFunction.text ⟨name, arguments⟩).toList =
      ':' :: (name.toList ++ '(' :: ((argumentsText arguments).toList ++ [')'])) := by
  rw [EngineFunction.text, ← argumentsText]
  simp only [String.toList_append, List.append_assoc]
  rfl

theorem isRead_of_inner {name : String} {arguments : List Argument} {inner : List Piece}
    (isName : IsCallName name) (engine : isNativeFunction name = false)
    (reads : ∀ (outer : List Enclosing) (level : Level),
      Reads ⟨⟨level, name⟩ :: outer, Level.empty, .listStart⟩ inner
        (fun next => ∃ read : EngineFunction, read.equal ⟨name, arguments⟩ = true ∧
          next = ⟨outer, level.add "" [read], .item⟩) (EngineFunction.hasBare ⟨name, arguments⟩)) :
    EngineFunction.IsRead ⟨name, arguments⟩ (colonPiece :: callPiece name :: inner) := by
  intro state level isPlace
  have colon : state.step colonPiece.symbol = some ⟨state.outer, level, .colon⟩ :=
    State.step_of_opensItem rfl isPlace
  have call : (State.mk state.outer level .colon).step (callPiece name).symbol =
      some ⟨⟨level, name⟩ :: state.outer, Level.empty, .listStart⟩ := by
    simp only [State.step, State.pseudo, Piece.symbol, callPiece, Token.letter, isName.lowered,
      engine, Bool.false_eq_true, ↓reduceIte]
  exact .cons colon (.cons call (reads state.outer level))

/-- A function is legible when its arguments are, or when there are none. -/
theorem legible {name : String} {arguments : List Argument} (isName : IsCallName name)
    (engine : isNativeFunction name = false)
    (inside : arguments ≠ [] →
      Legible (argumentsText arguments) (Argument.AreRead arguments)) :
    Legible (EngineFunction.text ⟨name, arguments⟩) (EngineFunction.IsRead ⟨name, arguments⟩) := by
  unfold Legible
  rw [toList_text]
  by_cases empty : arguments = []
  · subst empty
    refine ⟨_, (Written.behindCall isName .closing).behindColon, ⟨':', _, rfl, rfl⟩, ?_⟩
    exact isRead_of_inner isName engine fun outer level => .closing_of_stuck rfl
  · obtain ⟨pieces, written, -, reads⟩ := inside empty
    refine ⟨_, (Written.behindCall isName (written.append .closing fun tail isBoundary =>
      boundary_cons (by decide) _)).behindColon, ⟨':', _, rfl, rfl⟩, ?_⟩
    refine isRead_of_inner isName engine fun outer level => ?_
    have inner := reads ⟨⟨level, name⟩ :: outer, Level.empty, .listStart⟩ [] (Or.inl rfl) rfl
    have bare : EngineFunction.hasBare ⟨name, arguments⟩ =
        (Argument.anyBare arguments || false) := by
      rw [hasBare, List.isEmpty_eq_false_iff.mpr empty, Bool.false_or, Bool.or_false]
    rw [bare]
    refine inner.append fun next ⟨isOuter, read, equal, ends⟩ => ?_
    have closes : next.step closingPiece.symbol =
        some ⟨outer, level.add "" [⟨name, read⟩], .item⟩ := by
      rw [State.step_closeParen_of_argumentEnd rfl ends, isOuter]
      simp only [State.closeFunction, Level.addFunction_eq_add, Level.fresh, List.nil_append]
    refine .cons closes (.nil ⟨⟨name, read⟩, ?_, rfl⟩)
    rw [EngineFunction.equal, equal, Bool.and_true, beq_self_eq_true]

/-- Functions in a row are legible together, with nothing in front of them. -/
theorem exists_areRead {functions : List EngineFunction}
    (legible : ∀ function ∈ functions,
      Legible function.text (EngineFunction.IsRead function)) :
    ∃ pieces, Written (String.join (EngineFunction.texts functions)).toList pieces ∧
      Boundary (String.join (EngineFunction.texts functions)).toList ∧
      EngineFunction.AreRead functions pieces := by
  induction functions with
  | nil =>
      refine ⟨[], .nil, boundary_nil, fun outer level => .nil ⟨[], by rw [equalList], ?_⟩⟩
      simp only [Level.add, String.append_empty, List.append_nil]
  | cons function rest ih =>
      obtain ⟨isLegible, others⟩ := List.forall_mem_cons.mp legible
      obtain ⟨pieces, written, -, reads⟩ := isLegible
      obtain ⟨more, writtenMore, boundary, readsMore⟩ := ih others
      rw [EngineFunction.texts, String.join_cons, String.toList_append]
      refine ⟨pieces ++ more,
        written.append writtenMore fun tail isBoundary => boundary_of_append boundary isBoundary,
        ?_, fun outer level => ?_⟩
      · obtain ⟨name, arguments⟩ := function
        rw [toList_text]
        exact boundary_cons (by decide) _
      · have first := reads ⟨outer, level, .item⟩ level rfl
        refine first.append fun next ⟨read, equal, isNext⟩ => ?_
        subst isNext
        refine (readsMore outer _).mono fun last ⟨readRest, equalRest, isLast⟩ =>
          ⟨read :: readRest, ?_, ?_⟩
        · rw [equalList, equal, equalRest, Bool.and_self]
        · rw [isLast, Level.add_add]
          rfl

end EngineFunction

/-! ## Simple selectors -/

theorem Reads.of_run {state next : State} {pieces : List Piece} {Good : State → Prop}
    (runs : state.run (place 0 pieces) = some next) (good : Good next) :
    Reads state pieces Good false :=
  ⟨next, fun offset => by rw [State.run_place_congr pieces state offset 0, runs], good⟩

namespace SimpleSelector

theorem toList_text (rawText : Option String) (functions : List EngineFunction) :
    (SimpleSelector.text ⟨rawText, functions⟩).toList =
      (rawText.getD "").toList ++ (String.join (EngineFunction.texts functions)).toList := by
  rw [SimpleSelector.text, String.toList_append]

theorem legible_of_native {raw : String} {functions : List EngineFunction} {pieces : List Piece}
    (native : FragmentPieces raw pieces)
    (legible : ∀ function ∈ functions,
      Legible function.text (EngineFunction.IsRead function)) :
    Legible (SimpleSelector.text ⟨some raw, functions⟩)
      (SimpleSelector.IsRead ⟨some raw, functions⟩) := by
  obtain ⟨more, written, boundary, reads⟩ := EngineFunction.exists_areRead legible
  unfold Legible
  rw [toList_text]
  refine ⟨pieces ++ more,
    native.written.append written fun tail isBoundary => boundary_of_append boundary isBoundary,
    native.starts.append _, fun state arguments parts isPlace => ?_⟩
  have first : Reads state pieces
      (· = ⟨state.outer, (Level.fresh arguments parts).add raw [], .item⟩) false :=
    .of_run (native.reads 0 state _ isPlace) rfl
  have bare : SimpleSelector.hasBare ⟨some raw, functions⟩ =
      (false || EngineFunction.anyBare functions) := by
    rw [hasBare, Bool.false_or]
  rw [bare]
  refine first.append fun next isNext => ?_
  subst isNext
  refine (reads state.outer _).mono fun last ⟨read, equal, isLast⟩ =>
    ⟨⟨some raw, read⟩, _, ?_, isLast, ?_⟩
  · rw [SimpleSelector.equal, equal, Bool.and_true, beq_self_eq_true]
  · rw [Level.add_add, Level.fresh_add, String.append_empty, List.nil_append]
    exact Level.endPart?_of_simple? (if_neg native.nonempty)

theorem legible_of_functions {functions : List EngineFunction} (nonempty : functions ≠ [])
    (legible : ∀ function ∈ functions,
      Legible function.text (EngineFunction.IsRead function)) :
    Legible (SimpleSelector.text ⟨none, functions⟩)
      (SimpleSelector.IsRead ⟨none, functions⟩) := by
  cases functions with
  | nil => contradiction
  | cons function rest =>
      obtain ⟨isLegible, others⟩ := List.forall_mem_cons.mp legible
      obtain ⟨pieces, written, starts, reads⟩ := isLegible
      obtain ⟨more, writtenMore, boundary, readsMore⟩ := EngineFunction.exists_areRead others
      unfold Legible
      rw [toList_text, EngineFunction.texts, String.join_cons, String.toList_append]
      refine ⟨pieces ++ more, written.append writtenMore fun tail isBoundary =>
        boundary_of_append boundary isBoundary, starts.append _,
        fun state arguments parts isPlace => ?_⟩
      refine (reads state _ isPlace).append fun next ⟨read, equal, isNext⟩ => ?_
      subst isNext
      refine (readsMore state.outer _).mono fun last ⟨readRest, equalRest, isLast⟩ =>
        ⟨⟨none, read :: readRest⟩, _, ?_, isLast, ?_⟩
      · rw [SimpleSelector.equal, EngineFunction.equalList, equal, equalRest, beq_self_eq_true]
        rfl
      · rw [Level.add_add, Level.fresh_add]
        exact Level.endPart?_of_simple? rfl

end SimpleSelector

/-! ## Parts -/

namespace Combinator

/-- What stands between a part and the next one. -/
def separator : Combinator → List Char
  | descendant => [' ']
  | combinator => ' ' :: (combinator.sign.toList ++ [' '])

/-- Pieces that what stands between parts is written from; they finish the part in front
of them. -/
structure Separates (combinator : Combinator) (pieces : List Piece) : Prop where
  written : ∀ text more, Written text more → StartsVisibly text →
    Written (combinator.separator ++ text) (pieces ++ more)
  reads : ∀ (outer : List Enclosing) (level ended : Level),
    level.endPart? combinator = some ended →
      Reads ⟨outer, level, .item⟩ pieces
        (fun next => next.outer = outer ∧ next.itemLevel? = some ended) false

theorem reads_of_separator {combinator : Combinator} {pieces : List Piece}
    (separates : Grammar.Separator (place 0 pieces) combinator) (outer : List Enclosing)
    (level ended : Level) (ends : level.endPart? combinator = some ended) :
    Reads ⟨outer, level, .item⟩ pieces
      (fun next => next.outer = outer ∧ next.itemLevel? = some ended) false := by
  obtain ⟨next, runs, good⟩ := Grammar.run_separator separates outer ends
  exact .of_run runs good

theorem blanks_place (offset : Nat) : Grammar.Blanks (place offset [blankPiece]) := by
  intro lexeme member
  rw [List.mem_singleton.mp member]
  rfl

theorem separates_of_sign {combinator : Combinator} {character : Char}
    (visible : isBlank character = false)
    (spelled : combinator.sign = String.singleton character)
    (isSeparator : combinator.separator = [' ', character, ' ']) :
    combinator.Separates [blankPiece, signPiece character, blankPiece] where
  written text more written starts := by
    rw [isSeparator]
    exact ((written.behindBlank starts).behindSign spelled).behindBlank ⟨_, _, rfl, visible⟩
  reads := reads_of_separator (.sign (blanks_place 0) rfl spelled (blanks_place 2))

theorem separates_of_descendant : descendant.Separates [blankPiece] where
  written _ _ written starts := written.behindBlank starts
  reads := reads_of_separator (.blanks (blanks_place 0) (List.cons_ne_nil _ _))

theorem exists_separates (combinator : Combinator) : ∃ pieces, combinator.Separates pieces := by
  cases combinator with
  | descendant => exact ⟨_, separates_of_descendant⟩
  | child => exact ⟨_, @separates_of_sign child '>' rfl rfl rfl⟩
  | nextSibling => exact ⟨_, @separates_of_sign nextSibling '+' rfl rfl rfl⟩
  | subsequentSibling => exact ⟨_, @separates_of_sign subsequentSibling '~' rfl rfl rfl⟩

end Combinator

namespace Part

theorem toList_text_cons (part second : Part) (rest : List Part) :
    (" ".intercalate (Part.texts (part :: second :: rest))).toList =
      part.selector.text.toList ++ (part.combinator.separator ++
        (" ".intercalate (Part.texts (second :: rest))).toList) := by
  obtain ⟨selector, combinator⟩ := part
  rw [Part.texts, Part.texts, String.intercalate_cons_cons, ← Part.texts]
  simp only [String.toList_append, List.append_assoc]
  cases combinator with
  | descendant => rw [Part.text]; rfl
  | child => simp only [Part.text, String.toList_append, List.append_assoc]; rfl
  | nextSibling => simp only [Part.text, String.toList_append, List.append_assoc]; rfl
  | subsequentSibling => simp only [Part.text, String.toList_append, List.append_assoc]; rfl

/-- The last part of a selector. -/
theorem legible_last {selector : SimpleSelector} (legible : Legible selector.text selector.IsRead) :
    Legible (" ".intercalate (Part.texts [⟨selector, .descendant⟩]))
      (Part.AreRead [⟨selector, .descendant⟩]) := by
  obtain ⟨pieces, written, starts, reads⟩ := legible
  rw [Part.texts, Part.texts, String.intercalate_singleton, Part.text]
  refine ⟨pieces, written, starts, fun state arguments before isPlace => ?_⟩
  have bare : Part.anyBare [⟨selector, .descendant⟩] = selector.hasBare := by
    rw [anyBare, anyBare, hasBare, Bool.or_false]
  rw [bare]
  refine (reads state arguments before isPlace).mono
    fun next ⟨read, level, equal, isNext, ends⟩ =>
      ⟨[⟨read, .descendant⟩], level, ?_, isNext, ?_⟩
  · rw [equalList, Part.equal, equal, equalList, beq_self_eq_true]
    rfl
  · rw [Level.endArgument?, ends]
    rfl

/-- A part in front of others. -/
theorem legible_cons {selector : SimpleSelector} {combinator : Combinator} {second : Part}
    {rest : List Part} (legible : Legible selector.text selector.IsRead)
    (others : Legible (" ".intercalate (Part.texts (second :: rest)))
      (Part.AreRead (second :: rest))) :
    Legible (" ".intercalate (Part.texts (⟨selector, combinator⟩ :: second :: rest)))
      (Part.AreRead (⟨selector, combinator⟩ :: second :: rest)) := by
  obtain ⟨pieces, written, starts, reads⟩ := legible
  obtain ⟨more, writtenMore, startsMore, readsMore⟩ := others
  obtain ⟨between, separates⟩ := combinator.exists_separates
  unfold Legible
  rw [toList_text_cons]
  refine ⟨pieces ++ (between ++ more),
    written.append (separates.written _ _ writtenMore startsMore) fun tail isBoundary => ?_,
    starts.append _, fun state arguments before isPlace => ?_⟩
  · cases combinator <;> exact boundary_cons (by decide) _
  have bare : Part.anyBare (⟨selector, combinator⟩ :: second :: rest) =
      (selector.hasBare || (false || Part.anyBare (second :: rest))) := by
    rw [anyBare, hasBare, Bool.false_or]
  rw [bare]
  refine (reads state arguments before isPlace).append
    fun next ⟨read, level, equal, isNext, ends⟩ => ?_
  subst isNext
  -- The part is finished by what separates it from the next one, for any combinator.
  refine (separates.reads state.outer level _ (ends combinator)).append
    fun middle ⟨isOuter, place⟩ => ?_
  refine (readsMore middle arguments _ place).mono
    fun final ⟨readRest, levelRest, equalRest, isFinal, endsRest⟩ =>
      ⟨⟨read, combinator⟩ :: readRest, levelRest, ?_, ?_, ?_⟩
  · rw [equalList, Part.equal, equal, equalRest, beq_self_eq_true]
    rfl
  · rw [isFinal, isOuter]
  · rw [endsRest, List.append_assoc, List.singleton_append]

/-- Parts are legible together when the last one is related to nothing. -/
theorem legible {parts : List Part} (nonempty : parts ≠ [])
    (last : ∀ part ∈ parts.getLast?, part.combinator = .descendant)
    (legible : ∀ part ∈ parts,
      Legible part.selector.text (SimpleSelector.IsRead part.selector)) :
    Legible (" ".intercalate (Part.texts parts)) (Part.AreRead parts) := by
  induction parts with
  | nil => contradiction
  | cons part rest ih =>
      obtain ⟨selector, combinator⟩ := part
      obtain ⟨isLegible, others⟩ := List.forall_mem_cons.mp legible
      cases rest with
      | nil =>
          cases last _ rfl
          exact legible_last isLegible
      | cons second rest =>
          rw [List.getLast?_cons_cons] at last
          exact legible_cons isLegible (ih (List.cons_ne_nil _ _) last others)

end Part

/-! ## Arguments -/

namespace Argument

theorem legible_selector {parts : List Part}
    (legible : Legible (" ".intercalate (Part.texts parts)) (Part.AreRead parts)) :
    Legible (Argument.text (.selector ⟨parts⟩)) (Argument.IsRead (.selector ⟨parts⟩)) := by
  obtain ⟨pieces, written, starts, reads⟩ := legible
  rw [Argument.text, ComplexSelector.text]
  refine ⟨pieces, written, starts, fun state arguments begins isLevel => ?_⟩
  have isPlace : state.itemLevel? = some (.fresh arguments []) := by
    rw [← isLevel]
    rcases begins with begins | begins <;> simp only [State.itemLevel?, begins]
  rw [hasBare, ComplexSelector.hasBare]
  refine (reads state arguments [] isPlace).mono fun next outcome => ?_
  obtain ⟨read, level, equal, rfl, ends⟩ := outcome
  refine ⟨rfl, .selector ⟨read⟩, ?_, ends⟩
  rw [Argument.equal, ComplexSelector.equal, equal]

/-- A piece that is an argument of its own. -/
theorem isRead_of_literal {piece : Piece} {argument read : Argument}
    (reads : ∀ state : State, state.argument piece.symbol =
      some (state.goOn (state.level.addArgument read) .literalEnd))
    (equal : read.equal argument = true) (noBare : argument.hasBare = false) :
    argument.IsRead [piece] := by
  intro state arguments begins isLevel
  have steps : state.step piece.symbol =
      some ⟨state.outer, .fresh (arguments ++ [read]) [], .literalEnd⟩ := by
    have asArgument : state.step piece.symbol = state.argument piece.symbol := by
      rcases begins with begins | begins <;> simp only [State.step, begins]
    rw [asArgument, reads, isLevel]
    rfl
  rw [noBare]
  exact .cons steps (.nil ⟨rfl, read, equal, rfl⟩)

theorem legible_number {value : Binary64} (isFinite : value.isFinite = true) :
    Legible (Argument.text (.number value)) (Argument.IsRead (.number value)) := by
  obtain ⟨spelling, isText, equal⟩ := Binary64.exists_spelling isFinite
  obtain ⟨kind, written⟩ := spelling.written
  obtain ⟨first, rest, isCons, continues⟩ := spelling.exists_text_eq_cons
  unfold Legible
  rw [Argument.text, isText]
  refine ⟨_, written, ⟨first, rest, isCons, isBlank_of_continuesName continues⟩,
    isRead_of_literal (fun _ => rfl) ?_ ?_⟩
  · rw [Argument.equal, equal]
  · rw [hasBare]

theorem legible_string {value : String} (plain : IsPlainString value) :
    Legible (Argument.text (.string value)) (Argument.IsRead (.string value)) := by
  have isText : (Argument.text (.string value)).toList = '"' :: (value.toList ++ ['"']) := by
    rw [Argument.text]
    simp only [String.toList_append, List.append_assoc]
    rfl
  unfold Legible
  rw [isText]
  refine ⟨_, .string plain, ⟨'"', _, rfl, rfl⟩, isRead_of_literal (fun _ => rfl) ?_ ?_⟩
  · rw [Argument.equal, beq_self_eq_true]
  · rw [hasBare]

theorem toList_texts_cons (argument second : Argument) (rest : List Argument) :
    (argumentsText (argument :: second :: rest)).toList =
      argument.text.toList ++ (',' :: ' ' :: (argumentsText (second :: rest)).toList) := by
  rw [argumentsText, Argument.texts, Argument.texts, String.intercalate_cons_cons, ← Argument.texts]
  simp only [String.toList_append, List.append_assoc]
  rfl

/-- The last argument. -/
theorem legible_last {argument : Argument} (legible : Legible argument.text argument.IsRead) :
    Legible (argumentsText [argument]) (Argument.AreRead [argument]) := by
  obtain ⟨pieces, written, starts, reads⟩ := legible
  rw [argumentsText, Argument.texts, Argument.texts, String.intercalate_singleton]
  refine ⟨pieces, written, starts, fun state before begins isLevel => ?_⟩
  have bare : Argument.anyBare [argument] = argument.hasBare := by
    rw [anyBare, anyBare, Bool.or_false]
  rw [bare]
  refine (reads state before begins isLevel).mono fun next outcome => ?_
  obtain ⟨isOuter, read, equal, ends⟩ := outcome
  refine ⟨isOuter, [read], ?_, ends⟩
  rw [equalList, equal, equalList]
  rfl

/-- An argument in front of others. -/
theorem legible_cons {argument second : Argument} {rest : List Argument}
    (legible : Legible argument.text argument.IsRead)
    (others : Legible (argumentsText (second :: rest)) (Argument.AreRead (second :: rest))) :
    Legible (argumentsText (argument :: second :: rest))
      (Argument.AreRead (argument :: second :: rest)) := by
  obtain ⟨pieces, written, starts, reads⟩ := legible
  obtain ⟨more, writtenMore, startsMore, readsMore⟩ := others
  unfold Legible
  rw [toList_texts_cons]
  refine ⟨pieces ++ commaPiece :: blankPiece :: more,
    written.append (writtenMore.behindBlank startsMore).behindComma
      fun tail isBoundary => boundary_cons (by decide) _,
    starts.append _, fun state before begins isLevel => ?_⟩
  rw [anyBare]
  refine (reads state before begins isLevel).append
    fun next ⟨isOuter, read, equal, ends⟩ => ?_
  have comma : next.step commaPiece.symbol = some ⟨next.outer, _, .argumentStart⟩ :=
    State.step_comma_of_argumentEnd rfl ends
  refine .cons comma (.cons rfl ?_)
  refine (readsMore _ (before ++ [read]) (Or.inr rfl) rfl).mono
    fun final ⟨isOuterFinal, readRest, equalRest, endsRest⟩ =>
      ⟨isOuterFinal.trans isOuter, read :: readRest, ?_, ?_⟩
  · rw [equalList, equal, equalRest]
    rfl
  · rw [endsRest, List.append_assoc, List.singleton_append]

/-- Arguments are legible together. -/
theorem legible {arguments : List Argument} (nonempty : arguments ≠ [])
    (legible : ∀ argument ∈ arguments, Legible argument.text argument.IsRead) :
    Legible (argumentsText arguments) (Argument.AreRead arguments) := by
  induction arguments with
  | nil => contradiction
  | cons argument rest ih =>
      obtain ⟨isLegible, others⟩ := List.forall_mem_cons.mp legible
      cases rest with
      | nil => exact legible_last isLegible
      | cons second rest => exact legible_cons isLegible (ih (List.cons_ne_nil _ _) others)

end Argument

end SelectorLang
