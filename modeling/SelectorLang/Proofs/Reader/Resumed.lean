import SelectorLang.Proofs.Grammar.Soundness

/-! # Reading behind finished arguments

A reading that already holds some arguments at the top goes on as one that holds none: it
takes the same symbols, fails at the same ones, and holds those arguments in front of the
others at the end (`SelectorLang.State.read_behind`). Behind a comma, reading starts over in
this sense (`SelectorLang.State.read_append_comma`).
-/

namespace SelectorLang

namespace Level

variable (before : List Argument) (outer : List Enclosing) (level : Level)

/-- A list in progress behind some more arguments, unless it is inside other lists. -/
def behind (before : List Argument) (outer : List Enclosing) (level : Level) : Level :=
  match outer with
  | [] => { level with arguments := before ++ level.arguments }
  | _ :: _ => level

theorem behind_addText (text : String) :
    (level.behind before outer).addText text = (level.addText text).behind before outer := by
  cases outer <;> rfl

theorem behind_addFunction (function : EngineFunction) :
    (level.behind before outer).addFunction function =
      (level.addFunction function).behind before outer := by
  cases outer <;> rfl

theorem behind_addArgument (argument : Argument) :
    (level.behind before outer).addArgument argument =
      (level.addArgument argument).behind before outer := by
  cases outer with
  | nil => simp only [behind, addArgument, List.append_assoc]
  | cons => rfl

theorem behind_simple? : (level.behind before outer).simple? = level.simple? := by
  cases outer <;> rfl

theorem behind_endPart? (combinator : Combinator) :
    (level.behind before outer).endPart? combinator =
      (level.endPart? combinator).map (behind before outer) := by
  rw [endPart?, endPart?, behind_simple?, Option.map_map]
  cases outer <;> rfl

theorem behind_endArgument? :
    (level.behind before outer).endArgument? = level.endArgument?.map (behind before outer) := by
  rw [endArgument?, endArgument?, behind_endPart?, Option.map_map, Option.map_map]
  cases outer with
  | nil =>
      refine congrArg (Option.map · _) (funext fun ended => ?_)
      simp only [Function.comp_apply, behind, List.append_assoc]
  | cons => rfl

end Level

namespace State

variable (before : List Argument)

/-- Lists around each other, the outermost behind some more arguments. -/
def behindAll (before : List Argument) : List Enclosing → List Enclosing
  | [] => []
  | enclosing :: outer =>
    ⟨enclosing.level.behind before outer, enclosing.name⟩ :: behindAll before outer

/-- A reading that holds some more arguments in front of its own. -/
def behind (before : List Argument) (state : State) : State :=
  ⟨behindAll before state.outer, state.level.behind before state.outer, state.focus⟩

variable (state : State) (symbol : Symbol)

theorem goOn_behind (level : Level) (focus : Focus) :
    (state.behind before).goOn (level.behind before state.outer) focus =
      (state.goOn level focus).behind before :=
  rfl

theorem addText_behind (text : String) (focus : Focus) :
    (state.behind before).addText text focus = (state.addText text focus).behind before := by
  rw [addText, addText, ← goOn_behind, ← Level.behind_addText]
  rfl

theorem item_behind :
    (state.behind before).item symbol = (state.item symbol).map (behind before) := by
  unfold item
  cases symbol.letter <;> simp only [addText_behind, Option.map_some, Option.map_none] <;> rfl

theorem closeFunction_behind :
    (state.behind before).closeFunction = state.closeFunction.map (behind before) := by
  obtain ⟨outer, level, focus⟩ := state
  cases outer with
  | nil => rfl
  | cons enclosing outer =>
      have added := enclosing.level.behind_addFunction before outer
        ⟨enclosing.name, level.arguments⟩
      exact congrArg (fun level => some (State.mk (behindAll before outer) level .item)) added

theorem boundary_behind (letter : Letter) :
    (state.behind before).boundary letter = (state.boundary letter).map (behind before) := by
  have isLevel : (state.behind before).level = state.level.behind before state.outer := rfl
  unfold boundary
  cases letter <;> simp only [isLevel, Level.behind_endPart?, Level.behind_endArgument?,
    Option.map_map, Option.map_none]
  case comma => rfl
  case combinator => rfl
  case closeParen =>
    cases state.level.endArgument? with
    | none => rfl
    | some ended =>
        simp only [Option.map_some, Option.bind_some, goOn_behind, closeFunction_behind]

theorem pseudo_behind :
    (state.behind before).pseudo symbol = (state.pseudo symbol).map (behind before) := by
  unfold pseudo
  cases symbol.letter <;> simp only [Option.map_none, addText_behind]
  case name lowered =>
    split
    · rfl
    · rw [Option.map_some, ← goOn_behind, ← Level.behind_addFunction]
      rfl
  case call lowered =>
    split
    · rfl
    · rfl

theorem argument_behind :
    (state.behind before).argument symbol = (state.argument symbol).map (behind before) := by
  unfold argument
  cases symbol.letter <;> simp only [item_behind, Option.map_some]
  case blank => rfl
  case number value =>
    rw [← goOn_behind, ← Level.behind_addArgument]
    rfl
  case string value =>
    rw [← goOn_behind, ← Level.behind_addArgument]
    rfl

theorem behindItem_behind :
    (state.behind before).behindItem symbol = (state.behindItem symbol).map (behind before) := by
  have isLevel : (state.behind before).level = state.level.behind before state.outer := rfl
  unfold behindItem
  cases symbol.letter <;> simp only [item_behind, boundary_behind]
  case blank =>
    rw [isLevel, Level.behind_simple?, Option.map_map]
    rfl

theorem behindPart_behind :
    (state.behind before).behindPart symbol = (state.behindPart symbol).map (behind before) := by
  have isLevel : (state.behind before).level = state.level.behind before state.outer := rfl
  have nextPart : ((state.behind before).level.endPart? .descendant).bind
        (fun ended => ((state.behind before).goOn ended .item).item symbol) =
      ((state.level.endPart? .descendant).bind
        fun ended => (state.goOn ended .item).item symbol).map (behind before) := by
    rw [isLevel, Level.behind_endPart?]
    cases state.level.endPart? .descendant with
    | none => rfl
    | some ended =>
        simp only [Option.map_some, Option.bind_some, goOn_behind, item_behind]
  unfold behindPart
  cases symbol.letter <;> simp only [boundary_behind, Option.map_some] <;> exact nextPart

theorem native_behind (depth : Nat) :
    (state.behind before).native depth symbol = (state.native depth symbol).behind before := by
  unfold native
  cases symbol.letter <;> cases depth <;> simp only [addText_behind]

/-- **More arguments in front do not change what a symbol does.** -/
theorem step_behind :
    (state.behind before).step symbol = (state.step symbol).map (behind before) := by
  have isFocus : (state.behind before).focus = state.focus := rfl
  unfold step
  rw [isFocus]
  cases state.focus
  case listStart => exact state.argument_behind before symbol
  case argumentStart => exact state.argument_behind before symbol
  case partStart => cases symbol.letter <;> first | rfl | exact state.item_behind before symbol
  case item => exact state.behindItem_behind before symbol
  case partEnd => exact state.behindPart_behind before symbol
  case literalEnd =>
    cases symbol.letter <;> first | rfl | exact state.closeFunction_behind before
  case colon => exact state.pseudo_behind before symbol
  case native depth => exact congrArg some (state.native_behind before symbol depth)
  all_goals cases symbol.letter <;> simp only [addText_behind, Option.map_some, Option.map_none]

/-- At the end the arguments stand in front of the others. -/
theorem finish_behind :
    (state.behind before).finish = state.finish.map (before ++ ·) := by
  obtain ⟨outer, level, focus⟩ := state
  cases outer with
  | cons enclosing outer => rfl
  | nil =>
      have ended := level.behind_endArgument? before []
      cases focus <;> simp only [finish, behind, behindAll, ended, Option.map_map] <;> rfl

/-- **A reading with more arguments in front** fails where it fails without them, and holds
them in front of its own at the end. -/
theorem read_behind (symbols : List Symbol) :
    (state.behind before).read symbols = (state.read symbols).map (before ++ ·) := by
  induction symbols generalizing state with
  | nil =>
      rw [read, read, finish_behind]
      cases state.finish <;> rfl
  | cons symbol rest ih =>
      rw [read, read, step_behind]
      cases state.step symbol with
      | none => rfl
      | some next => exact ih next

end State

/-! ## Behind a comma -/

namespace State

theorem read_append {state next : State} {front : List Lexeme}
    (runs : state.run front = some next) (symbols : List Symbol) :
    state.read (front.map Lexeme.symbol ++ symbols) = next.read symbols := by
  induction front generalizing state with
  | nil =>
      cases runs
      rfl
  | cons lexeme front ih =>
      rw [run] at runs
      obtain ⟨middle, steps, runs⟩ := Option.bind_eq_some_iff.mp runs
      rw [List.map_cons, List.cons_append, read, steps]
      exact ih runs

/-- At the start of an argument, reading goes on as at the start of the list. -/
theorem read_argumentStart (outer : List Enclosing) (level : Level) (symbols : List Symbol) :
    (State.mk outer level .argumentStart).read symbols =
      (State.mk outer level .listStart).read symbols := by
  cases symbols with
  | nil => cases outer <;> rfl
  | cons symbol rest => rfl

/-- **Behind an argument list and a comma, reading starts over** with those arguments. -/
theorem read_append_comma {front : List Lexeme} {arguments : List Argument} {comma : Symbol}
    (reads : start.read (front.map Lexeme.symbol) = .ok arguments) (isComma : comma.letter = .comma)
    (symbols : List Symbol) :
    start.read (front.map Lexeme.symbol ++ comma :: symbols) =
      (start.read symbols).map (arguments ++ ·) := by
  have derived := Grammar.read_eq_ok_iff_derives.mp reads
  obtain ⟨last, runs, top, ends⟩ := derived.isRead start [] (Or.inl rfl) rfl
  have resumed : start.behind arguments = ⟨[], .fresh arguments [], .listStart⟩ := by
    simp only [behind, behindAll, start, Level.behind, Level.empty, Level.fresh, List.append_nil]
  rw [read_append runs, read, step_comma_of_argumentEnd isComma ends, top]
  exact (read_argumentStart _ _ symbols).trans (resumed ▸ start.read_behind arguments symbols)

end State

end SelectorLang
