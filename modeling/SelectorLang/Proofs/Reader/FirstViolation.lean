import SelectorLang.Proofs.Reader.Moves
import SelectorLang.Tree.Identity

/-! # Failures point at the first violation

Behind whatever a reading has taken, some continuation is an argument list
(`SelectorLang.State.Sound.completes`): what is open can be closed, and what is missing
can be supplied. A reading that runs into the end of the text could therefore have gone
on to succeed, and one that fails at a lexeme has taken everything in front of it as the
start of an argument list (`SelectorLang.readArguments_error_at_first_violation`).
-/

namespace SelectorLang

namespace Level

theorem simple?_isSome {level : Level} (nonempty : level.rawText ≠ "" ∨ level.functions ≠ []) :
    level.simple?.isSome = true := by
  rw [simple?]
  split
  · rename_i noText
    have someFunction := nonempty.resolve_left (not_not_intro noText)
    rw [if_neg (by rwa [List.isEmpty_iff]), Option.isSome_some]
  · rw [Option.isSome_some]

theorem simple?_isSome_addText (level : Level) {text : String} (nonempty : text ≠ "") :
    (level.addText text).simple?.isSome = true := by
  refine simple?_isSome (Or.inl ?_)
  intro empty
  exact nonempty (String.append_eq_empty_iff.mp empty).2

theorem simple?_isSome_addFunction (level : Level) (function : EngineFunction) :
    (level.addFunction function).simple?.isSome = true :=
  simple?_isSome (Or.inr (List.append_ne_nil_of_right_ne_nil _ (List.cons_ne_nil _ _)))

theorem endPart?_isSome {level : Level} (whole : level.simple?.isSome = true)
    (combinator : Combinator) : (level.endPart? combinator).isSome = true := by
  rw [endPart?, Option.isSome_map]
  exact whole

theorem endArgument?_isSome {level : Level} (whole : level.simple?.isSome = true) :
    level.endArgument?.isSome = true := by
  rw [endArgument?, Option.isSome_map]
  exact endPart?_isSome whole _

end Level

namespace State

/-! ## What every reading keeps -/

/-- Behind a part and blanks, the part is not empty. -/
def Sound (state : State) : Prop :=
  state.focus = .partEnd → state.level.simple?.isSome = true

theorem Sound.start : start.Sound := nofun

theorem sound_of_focus {state : State} (focus : state.focus ≠ .partEnd) : state.Sound := by
  intro same
  exact absurd same focus

theorem sound_of_insidePart {state : State} (inside : state.focus.insidePart = true) :
    state.Sound := by
  apply sound_of_focus
  intro same
  rw [same] at inside
  contradiction

/-- **One step of a reading.** -/
theorem Sound.step {state next : State} {symbol : Symbol} (sound : state.Sound)
    (moves : Moves state symbol next) : next.Sound := by
  cases moves with
  | blank letter place whole =>
      -- Only blanks lead behind a part, or stay there.
      intro behindPart
      exact (whole behindPart).elim id sound
  | literal => exact sound_of_focus Focus.noConfusion
  | item letter place inside => exact sound_of_insidePart inside
  | text place inside => exact sound_of_insidePart inside
  | bareFunction => exact sound_of_insidePart rfl
  | opensFunction => exact sound_of_focus Focus.noConfusion
  | endsPart => exact sound_of_focus Focus.noConfusion
  | endsArgument => exact sound_of_focus Focus.noConfusion
  | endsFunction => exact sound_of_insidePart rfl

/-- **A whole run.** -/
theorem Sound.run {state last : State} {lexemes : List Lexeme} (sound : state.Sound)
    (runs : state.run lexemes = some last) : last.Sound :=
  holds_of_run (fun _ sound moves => sound.step moves) sound runs

/-! ## Completions -/

/-- Some supported lexemes lead from here to the end of an argument list. -/
def Completes (state : State) : Prop :=
  ∃ more : List Lexeme,
    (∀ lexeme ∈ more, lexeme.token.isSupported = true ∧ lexeme.token ≠ .endOfText) ∧
      ∃ last arguments, state.run more = some last ∧ last.finish = some arguments

theorem Completes.of_step {state next : State} (token : Token) (source : String)
    (supported : token.isSupported = true) (endless : token ≠ .endOfText)
    (steps : state.step ⟨token.letter, source⟩ = some next) (completes : next.Completes) :
    state.Completes := by
  obtain ⟨more, allowed, last, arguments, runs, finishes⟩ := completes
  refine ⟨⟨token, source, 0⟩ :: more, ?_, last, arguments, ?_, finishes⟩
  · exact List.forall_mem_cons.mpr ⟨⟨supported, endless⟩, allowed⟩
  · rw [run_cons steps, runs]

/-- Where an argument may end, the functions around it can be closed. -/
theorem completes_of_argumentEnd {state : State} {level : Level}
    (ends : state.argumentEnd? = some level) : state.Completes := by
  obtain ⟨outer, inner, focus⟩ := state
  induction outer generalizing inner level focus with
  | nil =>
      exact ⟨[], List.forall_mem_nil _, _, _, rfl, finish_of_argumentEnd rfl ends⟩
  | cons enclosing outer ih =>
      have closes : Symbol.letter ⟨Token.closeParen.letter, ")"⟩ = .closeParen := rfl
      have whole := Level.endArgument?_isSome
        (enclosing.level.simple?_isSome_addFunction ⟨enclosing.name, level.arguments⟩)
      obtain ⟨ended, nextEnds⟩ := Option.isSome_iff_exists.mp whole
      exact .of_step .closeParen ")" rfl nofun (step_closeParen_of_argumentEnd closes ends)
        (ih _ .item nextEnds)

theorem completes_of_item (outer : List Enclosing) {level : Level}
    (whole : level.simple?.isSome = true) : (State.mk outer level .item).Completes := by
  obtain ⟨ended, ends⟩ := Option.isSome_iff_exists.mp (Level.endArgument?_isSome whole)
  exact completes_of_argumentEnd ends

/-- Where an item may start, a name can stand. -/
theorem completes_of_itemLevel {state : State} {level : Level}
    (place : state.itemLevel? = some level) : state.Completes := by
  have opens : (Symbol.letter ⟨(Token.ident "a").letter, "a"⟩).opensItem = true := rfl
  exact .of_step (.ident "a") "a" rfl nofun (step_of_opensItem opens place)
    (completes_of_item _ (level.simple?_isSome_addText (by decide)))

/-- Native arguments can be closed. -/
theorem completes_of_native (outer : List Enclosing) (level : Level) (depth : Nat) :
    (State.mk outer level (.native depth)).Completes := by
  induction depth generalizing level with
  | zero =>
      exact .of_step .closeParen ")" rfl nofun rfl
        (completes_of_item _ (level.simple?_isSome_addText (by decide)))
  | succ depth ih => exact .of_step .closeParen ")" rfl nofun rfl (ih _)

/-- Behind a colon, a name can stand, whichever kind it is of. -/
theorem completes_of_colon (outer : List Enclosing) (level : Level) :
    (State.mk outer level .colon).Completes := by
  by_cases native : isNativeClass "a".toLower = true
  · refine .of_step (.ident "a") "a" rfl nofun (if_pos native) (completes_of_item _ ?_)
    exact level.simple?_isSome_addText (by decide)
  · exact .of_step (.ident "a") "a" rfl nofun (if_neg native)
      (completes_of_item _ (level.simple?_isSome_addFunction _))

/-- **Whatever was read can be completed.** -/
theorem Sound.completes {state : State} (sound : state.Sound) : state.Completes := by
  obtain ⟨outer, level, focus⟩ := state
  cases focus
  case listStart => exact completes_of_itemLevel rfl
  case argumentStart => exact completes_of_itemLevel rfl
  case partStart => exact completes_of_itemLevel rfl
  case item => exact completes_of_itemLevel rfl
  case partEnd =>
    obtain ⟨ended, ends⟩ :=
      Option.isSome_iff_exists.mp (Level.endPart?_isSome (sound rfl) .descendant)
    exact completes_of_itemLevel ends
  case literalEnd => exact completes_of_argumentEnd rfl
  case dot =>
    exact .of_step (.ident "a") "a" rfl nofun rfl
      (completes_of_item _ (level.simple?_isSome_addText (by decide)))
  case colon => exact completes_of_colon outer level
  case «attribute» =>
    exact .of_step .closeBracket "]" rfl nofun rfl
      (completes_of_item _ (level.simple?_isSome_addText (by decide)))
  case native depth => exact completes_of_native outer level depth

/-! ## Where a reading fails -/

/-- **A reading fails where it has no next state**: behind all its lexemes, which do not
finish it, or at the lexeme that has no place behind those in front of it. -/
theorem exists_of_read_error {state : State} {lexemes : List Lexeme}
    {unexpected : Option Symbol}
    (fails : state.read (lexemes.map Lexeme.symbol) = .error unexpected) :
    (unexpected = none ∧ ∃ last, state.run lexemes = some last ∧ last.finish = none) ∨
      ∃ front lexeme rest, lexemes = front ++ lexeme :: rest ∧
        unexpected = some lexeme.symbol ∧
          ∃ last, state.run front = some last ∧ last.step lexeme.symbol = none := by
  induction lexemes generalizing state with
  | nil =>
      rw [List.map_nil, read] at fails
      cases finishes : state.finish with
      | none =>
          rw [finishes] at fails
          cases fails
          exact Or.inl ⟨rfl, state, rfl, finishes⟩
      | some arguments =>
          rw [finishes] at fails
          contradiction
  | cons lexeme rest ih =>
      rw [List.map_cons, read] at fails
      cases steps : state.step lexeme.symbol with
      | none =>
          rw [steps] at fails
          cases fails
          exact Or.inr ⟨[], lexeme, rest, rfl, rfl, state, rfl, steps⟩
      | some next =>
          rw [steps] at fails
          rcases ih fails with ⟨none, last, runs, finishes⟩ |
            ⟨front, wrong, rest, rfl, same, last, runs, stuck⟩
          · exact Or.inl ⟨none, last, (run_cons steps _).trans runs, finishes⟩
          · exact Or.inr ⟨lexeme :: front, wrong, rest, rfl, same, last,
              (run_cons steps _).trans runs, stuck⟩

end State

/-! ## Accepted streams -/

/-- The lexemes are those of an argument list. -/
def Accepts (selector : String) (lexemes : List Lexeme) : Prop :=
  ∃ arguments, readArguments selector lexemes = .ok arguments

/-- Only supported lexemes are accepted. -/
theorem supported_of_accepts {selector : String} {lexemes : List Lexeme}
    (accepts : Accepts selector lexemes) :
    ∀ lexeme ∈ lexemes, lexeme.token.isSupported = true := by
  obtain ⟨arguments, reads⟩ := accepts
  intro lexeme member
  rw [readArguments, checkSupported] at reads
  cases found : lexemes.find? (fun lexeme => !lexeme.token.isSupported) with
  | some unsupported =>
      rw [found] at reads
      contradiction
  | none =>
      have supported := List.find?_eq_none.mp found lexeme member
      simpa only [Bool.not_eq_true', Bool.not_eq_false] using supported

/-- What was read without a failure can be continued to an argument list. -/
theorem exists_accepts_append (selector : String) {front : List Lexeme} {last : State}
    (supported : ∀ lexeme ∈ front, lexeme.token.isSupported = true)
    (endless : ∀ lexeme ∈ front, lexeme.token ≠ .endOfText)
    (runs : State.start.run front = some last) :
    ∃ more, Accepts selector (front ++ more) := by
  obtain ⟨more, allowed, final, arguments, completes, finishes⟩ :=
    (State.Sound.start.run runs).completes
  refine ⟨more, arguments, ?_⟩
  have allSupported : ∀ lexeme ∈ front ++ more, lexeme.token.isSupported = true := by
    intro lexeme member
    exact (List.mem_append.mp member).elim (supported lexeme)
      (fun added => (allowed lexeme added).1)
  have allEndless : ∀ lexeme ∈ front ++ more, lexeme.token ≠ .endOfText := by
    intro lexeme member
    exact (List.mem_append.mp member).elim (endless lexeme) (fun added => (allowed lexeme added).2)
  have reads : State.start.read ((front ++ more).map Lexeme.symbol) = .ok arguments :=
    State.read_eq_ok_iff.mpr ⟨final, (State.run_append_of_run runs more).trans completes, finishes⟩
  rw [readArguments_of_supported selector allSupported, beforeEnd_of_endless allEndless, reads]

/-- Behind a lexeme that has no place, nothing makes an argument list. -/
theorem not_accepts_of_step_eq_none (selector : String) {front : List Lexeme} {lexeme : Lexeme}
    {last : State} (endless : ∀ other ∈ front ++ [lexeme], other.token ≠ .endOfText)
    (runs : State.start.run front = some last) (stuck : last.step lexeme.symbol = none)
    (more : List Lexeme) : ¬ Accepts selector (front ++ [lexeme] ++ more) := by
  intro accepts
  obtain ⟨arguments, reads⟩ := accepts
  rw [readArguments_of_supported selector (supported_of_accepts ⟨arguments, reads⟩),
    beforeEnd_append endless] at reads
  split at reads
  · contradiction
  · rename_i arguments' wholeReads
    obtain ⟨final, finalRuns, -⟩ := State.read_eq_ok_iff.mp wholeReads
    rw [List.append_assoc, State.run_append_of_run runs, List.singleton_append, State.run, stuck]
      at finalRuns
    contradiction

/-- **Failures point at the first violation.** On supported lexemes without an end of
the text, a reading that fails at the end could have gone on to succeed. One that fails
at a token names a lexeme such that what stands in front of it could have gone on to
succeed, and with it nothing can. There is no other failure. -/
theorem readArguments_error_at_first_violation {selector : String} {lexemes : List Lexeme}
    {failure : Failure} (supported : ∀ lexeme ∈ lexemes, lexeme.token.isSupported = true)
    (endless : ∀ lexeme ∈ lexemes, lexeme.token ≠ .endOfText)
    (fails : readArguments selector lexemes = .error failure) :
    failure.selector = selector ∧
      ((failure.cause = .unexpectedEnd ∧ ∃ more, Accepts selector (lexemes ++ more)) ∨
        ∃ index, ∃ inside : index < lexemes.length,
          failure.cause = .unexpectedToken lexemes[index].source ∧
            (∃ more, Accepts selector (lexemes.take index ++ more)) ∧
              ∀ more, ¬ Accepts selector (lexemes.take index ++ [lexemes[index]] ++ more)) := by
  rw [readArguments_of_supported selector supported, beforeEnd_of_endless endless] at fails
  cases reads : State.start.read (lexemes.map Lexeme.symbol) with
  | ok arguments =>
      rw [reads] at fails
      contradiction
  | error unexpected =>
      rw [reads] at fails
      cases fails
      refine ⟨rfl, ?_⟩
      rcases State.exists_of_read_error reads with ⟨rfl, last, runs, -⟩ |
        ⟨front, lexeme, rest, rfl, rfl, last, runs, stuck⟩
      · exact Or.inl ⟨rfl, exists_accepts_append selector supported endless runs⟩
      · have inside : front.length < (front ++ lexeme :: rest).length := by
          rw [List.length_append, List.length_cons]
          omega
        have taken : (front ++ lexeme :: rest).take front.length = front := List.take_left' rfl
        have found : (front ++ lexeme :: rest)[front.length] = lexeme := by
          rw [List.getElem_append_right (Nat.le_refl _)]
          simp only [Nat.sub_self, List.getElem_cons_zero]
        refine Or.inr ⟨front.length, inside, ?_, ?_, ?_⟩
        · rw [found]
          rfl
        · rw [taken]
          refine exists_accepts_append selector ?_ ?_ runs
          · intro other member
            exact supported other (List.mem_append_left _ member)
          · intro other member
            exact endless other (List.mem_append_left _ member)
        · intro more
          rw [taken, found]
          refine not_accepts_of_step_eq_none selector ?_ runs stuck more
          intro other member
          apply endless other
          rw [List.append_cons]
          exact List.mem_append_left _ member

/-- The lexemes of `a:is(b > ) c`, in which a combinator has nothing on its right. -/
def danglingCombinator : List Lexeme := [
  ⟨.ident "a", "a", 0⟩, ⟨.colon, ":", 1⟩, ⟨.function "is", "is(", 2⟩, ⟨.ident "b", "b", 5⟩,
  ⟨.whitespace, " ", 6⟩, ⟨.delim '>', ">", 7⟩, ⟨.whitespace, " ", 8⟩, ⟨.closeParen, ")", 9⟩,
  ⟨.whitespace, " ", 10⟩, ⟨.ident "c", "c", 11⟩]

theorem danglingCombinator_fails_at_closing_parenthesis :
    ∃ failure : Failure, readArguments "a:is(b > ) c" danglingCombinator = .error failure ∧
      failure.selector = "a:is(b > ) c" ∧
        ((failure.cause = .unexpectedEnd ∧
            ∃ more, Accepts "a:is(b > ) c" (danglingCombinator ++ more)) ∨
          ∃ index, ∃ inside : index < danglingCombinator.length,
            failure.cause = .unexpectedToken danglingCombinator[index].source ∧
              (∃ more, Accepts "a:is(b > ) c" (danglingCombinator.take index ++ more)) ∧
                ∀ more, ¬ Accepts "a:is(b > ) c"
                  (danglingCombinator.take index ++ [danglingCombinator[index]] ++ more)) := by
  have fails : readArguments "a:is(b > ) c" danglingCombinator =
      .error ⟨.unexpectedToken ")", "a:is(b > ) c"⟩ := by
    decide +kernel
  refine ⟨_, fails, readArguments_error_at_first_violation ?_ ?_ fails⟩
  · intro lexeme member
    revert lexeme
    decide
  · intro lexeme member
    revert lexeme
    decide

end SelectorLang
