import SelectorLang.Proofs.Reader.Run

/-! # What a symbol does to a state

The steps of a reading are of a few kinds, told apart by what they do to the lists in
progress: most add native text to a part or pass over blanks, the others add or open a
function, or finish a part, an argument or the arguments of a function
(`SelectorLang.State.Moves`). Every step is of one of these kinds
(`SelectorLang.State.moves_of_step`), so that what every reading keeps is shown by one case
for each kind. The first thing shown so is what is still empty at the places where a list,
an argument or a part starts (`SelectorLang.State.Settled`).
-/

namespace SelectorLang

/-- The places behind the first item of a part, where the part is not yet ended. -/
def Focus.insidePart : Focus → Bool
  | item | dot | colon | «attribute» | native _ => true
  | listStart | argumentStart | partStart | partEnd | literalEnd => false

/-- The places inside a condition that is not finished. -/
def Focus.insideItem : Focus → Bool
  | dot | colon | «attribute» | native _ => true
  | listStart | argumentStart | partStart | item | partEnd | literalEnd => false

/-- The places where an argument starts. -/
def Focus.startsArgument : Focus → Bool
  | listStart | argumentStart => true
  | partStart | item | partEnd | literalEnd | dot | colon | «attribute» | native _ => false

/-- The places behind a part. -/
def Focus.behindPart : Focus → Bool
  | item | partEnd => true
  | listStart | argumentStart | partStart | literalEnd | dot | colon | «attribute» | native _ =>
    false

/-- The place behind blanks, where blanks may stand. -/
def Focus.behindBlank? : Focus → Option Focus
  | listStart | argumentStart => some argumentStart
  | partStart => some partStart
  | item | partEnd => some partEnd
  | literalEnd => some literalEnd
  | dot | colon | «attribute» | native _ => none

/-- The argument that a letter stands for alone. -/
def Letter.literal? : Letter → Option Argument
  | number value => some (.number value)
  | string value => some (.string value)
  | _ => none

namespace State

/-- What a symbol may do to a state. -/
inductive Moves : State → Symbol → State → Prop
  /-- Blanks lead on and change no list. -/
  | blank {outer : List Enclosing} {level : Level} {focus next : Focus} {symbol : Symbol}
      (letter : symbol.letter = .blank) (place : focus.behindBlank? = some next)
      (whole : next = .partEnd → level.simple?.isSome = true ∨ focus = .partEnd) :
      Moves ⟨outer, level, focus⟩ symbol ⟨outer, level, next⟩
  /-- A number or a string is an argument. -/
  | literal {outer : List Enclosing} {level : Level} {focus : Focus} {symbol : Symbol}
      {argument : Argument} (letter : symbol.letter.literal? = some argument)
      (place : focus.startsArgument = true) :
      Moves ⟨outer, level, focus⟩ symbol ⟨outer, level.addArgument argument, .literalEnd⟩
  /-- The first symbol of an item may add native text to the part that is open or opened. -/
  | item {state : State} {level : Level} {focus : Focus} {symbol : Symbol} {text : String}
      (letter : symbol.letter.opensItem = true) (place : state.itemLevel? = some level)
      (inside : focus.insidePart = true) :
      Moves state symbol ⟨state.outer, level.addText text, focus⟩
  /-- Other symbols of an item add native text to its part. -/
  | text {outer : List Enclosing} {level : Level} {focus next : Focus} {symbol : Symbol}
      {text : String} (place : focus.insideItem = true) (inside : next.insidePart = true) :
      Moves ⟨outer, level, focus⟩ symbol ⟨outer, level.addText text, next⟩
  /-- A name behind a colon that is not native is a function without arguments. -/
  | bareFunction {outer : List Enclosing} {level : Level} {symbol : Symbol} {name : String}
      (letter : symbol.letter = .name name) (engine : isNativeClass name = false) :
      Moves ⟨outer, level, .colon⟩ symbol ⟨outer, level.addFunction ⟨name, []⟩, .item⟩
  /-- A name with a parenthesis behind a colon that is not native opens a function. -/
  | opensFunction {outer : List Enclosing} {level : Level} {symbol : Symbol} {name : String}
      (letter : symbol.letter = .call name) (engine : isNativeFunction name = false) :
      Moves ⟨outer, level, .colon⟩ symbol ⟨⟨level, name⟩ :: outer, Level.empty, .listStart⟩
  /-- The sign of a combinator ends a part. -/
  | endsPart {outer : List Enclosing} {level ended : Level} {focus : Focus} {symbol : Symbol}
      {combinator : Combinator} (letter : symbol.letter = .combinator combinator)
      (place : focus.behindPart = true) (ends : level.endPart? combinator = some ended) :
      Moves ⟨outer, level, focus⟩ symbol ⟨outer, ended, .partStart⟩
  /-- A comma ends an argument. -/
  | endsArgument {state : State} {ended : Level} {symbol : Symbol}
      (letter : symbol.letter = .comma) (ends : state.argumentEnd? = some ended) :
      Moves state symbol ⟨state.outer, ended, .argumentStart⟩
  /-- A closing parenthesis ends an argument, and the function that it is one of. -/
  | endsFunction {level ended : Level} {enclosing : Enclosing} {outer : List Enclosing}
      {focus : Focus} {symbol : Symbol} (letter : symbol.letter = .closeParen)
      (ends : (State.mk (enclosing :: outer) level focus).argumentEnd? = some ended) :
      Moves ⟨enclosing :: outer, level, focus⟩ symbol
        ⟨outer, enclosing.level.addFunction ⟨enclosing.name, ended.arguments⟩, .item⟩

variable {state next : State} {symbol : Symbol}

theorem addText_empty (level : Level) : level.addText "" = level := by
  rw [Level.addText, String.append_empty]

/-- An item starts with native text, or with a sign that adds none. -/
theorem moves_of_item {level : Level} (place : state.itemLevel? = some level)
    (steps : (State.mk state.outer level .item).item symbol = some next) :
    Moves state symbol next := by
  have opens : symbol.letter.opensItem = true := by
    cases letter : symbol.letter <;> simp only [State.item, letter, reduceCtorEq] at steps <;> rfl
  have signOnly (focus : Focus) (inside : focus.insidePart = true) :
      Moves state symbol ⟨state.outer, level, focus⟩ :=
    addText_empty level ▸ Moves.item opens place inside
  cases letter : symbol.letter <;>
    simp only [State.item, letter, Option.some.injEq, reduceCtorEq] at steps <;> subst steps
  case name => exact .item opens place rfl
  case fragment => exact .item opens place rfl
  case openBracket => exact .item opens place rfl
  case dot => exact signOnly .dot rfl
  case colon => exact signOnly .colon rfl

/-- What ends a part may end its argument, and the function around that. -/
theorem moves_of_boundary (place : state.focus.behindPart = true)
    (steps : state.boundary symbol.letter = some next) : Moves state symbol next := by
  obtain ⟨outer, level, focus⟩ := state
  have argument : (State.mk outer level focus).argumentEnd? = level.endArgument? := by
    cases focus <;> first | rfl | exact absurd place Bool.false_ne_true
  cases letter : symbol.letter <;> simp only [State.boundary, letter, reduceCtorEq] at steps
  case combinator =>
    obtain ⟨ended, ends, rfl⟩ := Option.map_eq_some_iff.mp steps
    exact .endsPart letter place ends
  case comma =>
    obtain ⟨ended, ends, rfl⟩ := Option.map_eq_some_iff.mp steps
    exact .endsArgument letter (argument.trans ends)
  case closeParen =>
    obtain ⟨ended, ends, closes⟩ := Option.bind_eq_some_iff.mp steps
    cases outer with
    | nil => cases closes
    | cons enclosing outer =>
        cases closes
        exact .endsFunction letter (argument.trans ends)

/-- What stands behind a colon is native text, a function, or opens one. -/
theorem moves_of_pseudo {outer : List Enclosing} {level : Level}
    (steps : (State.mk outer level .colon).pseudo symbol = some next) :
    Moves ⟨outer, level, .colon⟩ symbol next := by
  cases letter : symbol.letter <;> simp only [State.pseudo, letter, reduceCtorEq] at steps
  case name lowered =>
    split at steps
    · cases steps
      exact .text rfl rfl
    · rename_i engine
      cases steps
      exact .bareFunction letter (Bool.eq_false_iff.mpr engine)
  case call lowered =>
    split at steps
    · cases steps
      exact .text rfl rfl
    · rename_i engine
      cases steps
      exact .opensFunction letter (Bool.eq_false_iff.mpr engine)

/-- An argument starts with blanks, is a literal, or starts with an item. -/
theorem moves_of_argument {outer : List Enclosing} {level : Level} {focus : Focus}
    (place : focus.startsArgument = true)
    (steps : (State.mk outer level focus).argument symbol = some next) :
    Moves ⟨outer, level, focus⟩ symbol next := by
  have blanks : focus.behindBlank? = some .argumentStart := by
    cases focus <;> first | rfl | exact absurd place Bool.false_ne_true
  have items : (State.mk outer level focus).itemLevel? = some level := by
    cases focus <;> first | rfl | exact absurd place Bool.false_ne_true
  unfold State.argument at steps
  split at steps
  case h_1 letter =>
    cases steps
    exact .blank letter blanks Focus.noConfusion
  case h_2 value letter =>
    cases steps
    exact .literal (by rw [letter]; rfl) place
  case h_3 value letter =>
    cases steps
    exact .literal (by rw [letter]; rfl) place
  case h_4 => exact moves_of_item items steps

theorem moves_of_native (outer : List Enclosing) (level : Level) (depth : Nat)
    (symbol : Symbol) :
    Moves ⟨outer, level, .native depth⟩ symbol
      ((State.mk outer level (.native depth)).native depth symbol) := by
  unfold State.native
  split <;> exact .text rfl rfl

/-- **Every step is of one of these kinds.** -/
theorem moves_of_step (steps : state.step symbol = some next) : Moves state symbol next := by
  obtain ⟨outer, level, focus⟩ := state
  cases focus <;> simp only [step] at steps
  case listStart => exact moves_of_argument rfl steps
  case argumentStart => exact moves_of_argument rfl steps
  case partStart =>
    split at steps
    · rename_i letter
      cases steps
      exact .blank letter rfl Focus.noConfusion
    · exact moves_of_item rfl steps
  case item =>
    unfold State.behindItem at steps
    split at steps
    · rename_i letter
      obtain ⟨simple, whole, rfl⟩ := Option.map_eq_some_iff.mp steps
      exact .blank letter rfl fun _ => Or.inl (Option.isSome_of_eq_some whole)
    iterate 3 exact moves_of_boundary rfl steps
    exact moves_of_item rfl steps
  case partEnd =>
    unfold State.behindPart at steps
    split at steps
    · rename_i letter
      cases steps
      exact .blank letter rfl fun _ => Or.inr rfl
    iterate 3 exact moves_of_boundary rfl steps
    obtain ⟨ended, ends, steps⟩ := Option.bind_eq_some_iff.mp steps
    exact moves_of_item ends steps
  case literalEnd =>
    split at steps
    · rename_i letter
      cases steps
      exact .blank letter rfl Focus.noConfusion
    · rename_i letter
      cases steps
      exact .endsArgument letter rfl
    · rename_i letter
      cases outer with
      | nil => cases steps
      | cons enclosing outer =>
          cases steps
          exact .endsFunction letter rfl
    · contradiction
  case dot =>
    split at steps <;> cases steps
    exact .text rfl rfl
  case colon => exact moves_of_pseudo steps
  case «attribute» => split at steps <;> cases steps <;> exact .text rfl rfl
  case native depth =>
    cases steps
    exact moves_of_native outer level depth symbol

/-- **What every move keeps holds behind a whole run.** -/
theorem holds_of_run {motive : State → Prop}
    (keeps : ∀ {before behind : State} (lexeme : Lexeme), motive before →
      Moves before lexeme.symbol behind → motive behind)
    {last : State} {lexemes : List Lexeme} (holds : motive state)
    (runs : state.run lexemes = some last) : motive last := by
  induction lexemes generalizing state with
  | nil =>
      cases runs
      exact holds
  | cons lexeme rest ih =>
      obtain ⟨next, steps, runs⟩ := Option.bind_eq_some_iff.mp runs
      exact ih (keeps lexeme holds (moves_of_step steps)) runs

end State

/-! ## What is still empty -/

/-- What a list in progress does not hold yet at a place: no part behind the last finished
argument, and nothing of the next part where one starts. -/
def Level.SettledAt (level : Level) : Focus → Prop
  | .listStart => level = Level.empty
  | .argumentStart => level = .fresh level.arguments []
  | .literalEnd => level = .fresh level.arguments [] ∧ level.arguments ≠ []
  | .partStart => level = .fresh level.arguments level.parts
  | _ => True

namespace Level

variable {level ended : Level}

theorem eq_of_endPart? {combinator : Combinator} (ends : level.endPart? combinator = some ended) :
    ∃ selector, level.simple? = some selector ∧ selector.functions = level.functions ∧
      ended = fresh level.arguments (level.parts ++ [⟨selector, combinator⟩]) := by
  obtain ⟨selector, whole, rfl⟩ := Option.map_eq_some_iff.mp ends
  refine ⟨selector, whole, ?_, rfl⟩
  unfold simple? at whole
  split at whole
  · split at whole <;> cases whole
    rfl
  · cases whole
    rfl

theorem eq_of_endArgument? (ends : level.endArgument? = some ended) :
    ∃ selector, level.simple? = some selector ∧ selector.functions = level.functions ∧
      ended = fresh (level.arguments ++ [.selector ⟨level.parts ++ [⟨selector, .descendant⟩]⟩])
        [] := by
  obtain ⟨part, partEnds, rfl⟩ := Option.map_eq_some_iff.mp ends
  obtain ⟨selector, whole, functions, rfl⟩ := eq_of_endPart? partEnds
  exact ⟨selector, whole, functions, rfl⟩

theorem SettledAt.argumentStart {focus : Focus} (settled : level.SettledAt focus)
    (place : focus.startsArgument = true) : level = fresh level.arguments [] := by
  cases focus <;> simp only [Focus.startsArgument, Bool.false_eq_true] at place
  case listStart => rw [show level = Level.empty from settled]; rfl
  case argumentStart => exact settled

theorem SettledAt.addArgument {focus : Focus} (settled : level.SettledAt focus)
    (place : focus.startsArgument = true) (argument : Argument) :
    (level.addArgument argument).SettledAt .literalEnd := by
  refine ⟨?_, List.append_ne_nil_of_right_ne_nil _ (List.cons_ne_nil _ _)⟩
  rw [settled.argumentStart place]
  rfl

theorem SettledAt.behindBlank {focus next : Focus} (settled : level.SettledAt focus)
    (blanks : focus.behindBlank? = some next) : level.SettledAt next := by
  cases focus <;> simp only [Focus.behindBlank?, Option.some.injEq, reduceCtorEq] at blanks <;>
    subst blanks
  case listStart => exact settled.argumentStart rfl
  case argumentStart => exact settled
  case partStart => exact settled
  case item => trivial
  case partEnd => trivial
  case literalEnd => exact settled

end Level

namespace State

/-- The list in progress holds nothing yet of what starts at the place of a state. -/
def Settled (state : State) : Prop :=
  state.level.SettledAt state.focus

theorem Settled.start : start.Settled := rfl

variable {state next : State}

theorem settled_of_insidePart (inside : state.focus.insidePart = true) : state.Settled := by
  obtain ⟨outer, level, focus⟩ := state
  cases focus <;> trivial

/-- Where an argument may end, the list holds at least that one, and nothing of the next. -/
theorem Settled.argumentEnd {ended : Level} (settled : state.Settled)
    (ends : state.argumentEnd? = some ended) :
    ended = .fresh ended.arguments [] ∧ ended.arguments ≠ [] := by
  obtain ⟨outer, level, focus⟩ := state
  have selector (last : level.endArgument? = some ended) :
      ended = .fresh ended.arguments [] ∧ ended.arguments ≠ [] := by
    obtain ⟨selector, -, -, rfl⟩ := Level.eq_of_endArgument? last
    exact ⟨rfl, List.append_ne_nil_of_right_ne_nil _ (List.cons_ne_nil _ _)⟩
  cases focus <;> simp only [argumentEnd?, reduceCtorEq, Option.some.injEq] at ends
  case item => exact selector ends
  case partEnd => exact selector ends
  case literalEnd => exact ends ▸ settled

/-- **One step of a reading.** -/
theorem Settled.step {symbol : Symbol} (settled : state.Settled)
    (moves : Moves state symbol next) : next.Settled := by
  cases moves with
  | blank letter place => exact Level.SettledAt.behindBlank settled place
  | literal letter place => exact Level.SettledAt.addArgument settled place _
  | item letter place inside => exact settled_of_insidePart inside
  | text place inside => exact settled_of_insidePart inside
  | bareFunction => exact settled_of_insidePart rfl
  | opensFunction => rfl
  | endsPart letter place ends =>
      obtain ⟨selector, -, -, rfl⟩ := Level.eq_of_endPart? ends
      rfl
  | endsArgument letter ends => exact (settled.argumentEnd ends).1
  | endsFunction => exact settled_of_insidePart rfl

end State

end SelectorLang
