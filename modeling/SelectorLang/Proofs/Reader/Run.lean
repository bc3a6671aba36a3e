import SelectorLang.Parsing

/-! # Runs of a reading

What a state comes to behind several lexemes (`SelectorLang.State.run`), the places where
an item may start and where an argument may end, and what the next symbol does there.
Which tokens a letter stands for is said by one lemma for each letter.
-/

namespace SelectorLang

/-! ## The tokens behind letters -/

namespace Letter

/-- The token that a letter stands for, where there is only one. -/
def mark? : Letter → Option Token
  | blank => some .whitespace
  | comma => some .comma
  | colon => some .colon
  | dot => some (.delim '.')
  | openBracket => some .openBracket
  | closeBracket => some .closeBracket
  | openParen => some .openParen
  | closeParen => some .closeParen
  | _ => none

/-- The letters that an item starts with. -/
def opensItem : Letter → Bool
  | name _ | fragment | dot | colon | openBracket => true
  | _ => false

theorem ofChar_eq_dot_iff {character : Char} : ofChar character = .dot ↔ character = '.' := by
  unfold ofChar
  repeat' split
  all_goals simp_all

theorem ofChar_eq_fragment_iff {character : Char} :
    ofChar character = .fragment ↔ character = '*' := by
  unfold ofChar
  repeat' split
  all_goals simp_all

theorem ofChar_eq_combinator_iff {character : Char} {combinator : Combinator} :
    ofChar character = .combinator combinator ↔
      combinator.sign = String.singleton character := by
  rw [← Combinator.ofChar?_eq_some_iff]
  by_cases dot : character = '.'
  · subst dot
    exact iff_of_false nofun nofun
  · by_cases asterisk : character = '*'
    · subst asterisk
      exact iff_of_false nofun nofun
    · unfold ofChar
      rw [if_neg dot, if_neg asterisk]
      cases Combinator.ofChar? character with
      | none => exact iff_of_false nofun nofun
      | some sign => simp only [Letter.combinator.injEq, Option.some.injEq]

/-- A character alone stands for no punctuation, name or literal. -/
theorem ofChar_eq (character : Char) :
    ofChar character = .dot ∨ ofChar character = .fragment ∨ ofChar character = .other ∨
      ∃ combinator, ofChar character = .combinator combinator := by
  unfold ofChar
  repeat' split
  all_goals simp

end Letter

namespace Token

variable {token : Token}

/-- A letter that stands for one token is the letter of no other. -/
theorem letter_eq_iff_of_mark {letter : Letter} {mark : Token}
    (stands : letter.mark? = some mark) : token.letter = letter ↔ token = mark := by
  cases token with
  | delim character =>
      by_cases dot : letter = .dot
      · subst dot
        cases stands
        rw [Token.letter, Letter.ofChar_eq_dot_iff, delim.injEq]
      · rcases Letter.ofChar_eq character with same | same | same | ⟨_, same⟩ <;>
          cases letter <;> simp only [Letter.mark?, Option.some.injEq, reduceCtorEq] at stands <;>
          subst stands <;> simp_all [Token.letter]
  | _ =>
      cases letter <;> simp only [Letter.mark?, Option.some.injEq, reduceCtorEq] at stands <;>
        subst stands <;> simp only [Token.letter, reduceCtorEq]

theorem letter_eq_combinator_iff {combinator : Combinator} :
    token.letter = .combinator combinator ↔
      ∃ character, token = .delim character ∧
        combinator.sign = String.singleton character := by
  cases token <;> simp [letter, Letter.ofChar_eq_combinator_iff]

theorem letter_eq_fragment_iff :
    token.letter = .fragment ↔ (∃ name kind, token = .hash name kind) ∨ token = .delim '*' := by
  cases token <;> simp [letter, Letter.ofChar_eq_fragment_iff]

theorem letter_eq_name_iff {lowered : String} :
    token.letter = .name lowered ↔ ∃ name, token = .ident name ∧ name.toLower = lowered := by
  cases token with
  | delim character =>
      rcases Letter.ofChar_eq character with same | same | same | ⟨_, same⟩ <;>
        simp [letter, same]
  | _ => simp [letter]

theorem letter_eq_call_iff {lowered : String} :
    token.letter = .call lowered ↔ ∃ name, token = .function name ∧ name.toLower = lowered := by
  cases token with
  | delim character =>
      rcases Letter.ofChar_eq character with same | same | same | ⟨_, same⟩ <;>
        simp [letter, same]
  | _ => simp [letter]

theorem letter_eq_number_iff {value : Binary64} :
    token.letter = .number value ↔ ∃ kind, token = .number value kind := by
  cases token with
  | delim character =>
      rcases Letter.ofChar_eq character with same | same | same | ⟨_, same⟩ <;>
        simp [letter, same]
  | _ => simp [letter]

theorem letter_eq_string_iff {value : String} :
    token.letter = .string value ↔ token = .string value := by
  cases token with
  | delim character =>
      rcases Letter.ofChar_eq character with same | same | same | ⟨_, same⟩ <;>
        simp [letter, same]
  | _ => simp [letter]

end Token

/-! ## Levels -/

namespace Level

/-- A list in progress with nothing in its open part. -/
def fresh (arguments : List Argument) (parts : List Part) : Level :=
  ⟨arguments, parts, "", []⟩

/-- More native text and more functions in the open part. -/
def add (level : Level) (text : String) (functions : List EngineFunction) : Level :=
  ⟨level.arguments, level.parts, level.rawText ++ text, level.functions ++ functions⟩

theorem add_add (level : Level) (text added : String)
    (functions addedFunctions : List EngineFunction) :
    (level.add text functions).add added addedFunctions =
      level.add (text ++ added) (functions ++ addedFunctions) := by
  simp only [add, String.append_assoc, List.append_assoc]

theorem addText_eq_add (level : Level) (text : String) :
    level.addText text = level.add text [] := by
  simp only [addText, add, List.append_nil]

theorem add_addText (level : Level) (text added : String) (functions : List EngineFunction) :
    (level.add text functions).addText added = level.add (text ++ added) functions := by
  rw [addText_eq_add, add_add, List.append_nil]

theorem addFunction_eq_add (level : Level) (function : EngineFunction) :
    level.addFunction function = level.add "" [function] := by
  simp only [addFunction, add, String.append_empty]

theorem fresh_add (arguments : List Argument) (parts : List Part) (text : String)
    (functions : List EngineFunction) :
    (fresh arguments parts).add text functions = ⟨arguments, parts, text, functions⟩ := by
  simp only [fresh, add, String.empty_append, List.nil_append]

theorem endPart?_of_simple? {level : Level} {selector : SimpleSelector}
    (whole : level.simple? = some selector) (combinator : Combinator) :
    level.endPart? combinator =
      some (fresh level.arguments (level.parts ++ [⟨selector, combinator⟩])) := by
  rw [endPart?, whole]
  rfl

theorem simple?_isSome_of_endPart? {level ended : Level} {combinator : Combinator}
    (ends : level.endPart? combinator = some ended) : level.simple?.isSome = true := by
  obtain ⟨selector, whole, -⟩ := Option.map_eq_some_iff.mp ends
  rw [whole, Option.isSome_some]

end Level

/-! ## Runs -/

namespace State

/-- The state behind some more lexemes; none when one of them has no place. -/
def run (state : State) : List Lexeme → Option State
  | [] => some state
  | lexeme :: rest => (state.step lexeme.symbol).bind (·.run rest)

theorem run_cons {state next : State} {lexeme : Lexeme}
    (steps : state.step lexeme.symbol = some next) (rest : List Lexeme) :
    state.run (lexeme :: rest) = next.run rest := by
  rw [run, steps, Option.bind_some]

theorem run_append (state : State) (front rest : List Lexeme) :
    state.run (front ++ rest) = (state.run front).bind (·.run rest) := by
  induction front generalizing state with
  | nil => rfl
  | cons lexeme front ih =>
      rw [List.cons_append, run, run]
      cases state.step lexeme.symbol with
      | none => rfl
      | some next =>
          simp only [Option.bind_some]
          exact ih next

theorem run_append_of_run {state next : State} {front : List Lexeme}
    (runs : state.run front = some next) (rest : List Lexeme) :
    state.run (front ++ rest) = next.run rest := by
  rw [run_append, runs, Option.bind_some]

/-- Reading sees of lexemes their symbols. -/
theorem run_congr {lexemes lexemes' : List Lexeme}
    (same : lexemes.map Lexeme.symbol = lexemes'.map Lexeme.symbol) (state : State) :
    state.run lexemes = state.run lexemes' := by
  induction lexemes generalizing state lexemes' with
  | nil => rw [List.map_eq_nil_iff.mp same.symm]
  | cons lexeme lexemes ih =>
      obtain ⟨other, others, rfl, isSymbol, same⟩ := List.map_eq_cons_iff.mp same.symm
      rw [run, run, isSymbol]
      exact congrArg (Option.bind _) (funext fun next => ih same.symm next)

/-- Reading to the end is a run and what the state behind it finishes with. -/
theorem read_eq_ok_iff {state : State} {lexemes : List Lexeme} {arguments : List Argument} :
    state.read (lexemes.map Lexeme.symbol) = .ok arguments ↔
      ∃ last, state.run lexemes = some last ∧ last.finish = some arguments := by
  induction lexemes generalizing state with
  | nil =>
      rw [List.map_nil, read]
      constructor
      · intro reads
        refine ⟨state, rfl, ?_⟩
        split at reads
        · cases reads
          assumption
        · contradiction
      · rintro ⟨last, stays, finishes⟩
        cases stays
        rw [finishes]
  | cons lexeme rest ih =>
      rw [List.map_cons, read, run]
      cases state.step lexeme.symbol with
      | none => simp only [reduceCtorEq, Option.bind_none, false_and, exists_false]
      | some next => exact ih

/-- The level that an item adds to: the open one, or, behind a part and blanks, the one
in which that part is finished. -/
def itemLevel? (state : State) : Option Level :=
  match state.focus with
  | .listStart | .argumentStart | .partStart | .item => some state.level
  | .partEnd => state.level.endPart? .descendant
  | _ => none

/-- The level behind the open argument, where an argument may end. -/
def argumentEnd? (state : State) : Option Level :=
  match state.focus with
  | .item | .partEnd => state.level.endArgument?
  | .literalEnd => some state.level
  | _ => none

/-- Where an item may start, its first symbol is read as such. -/
theorem step_of_opensItem {state : State} {level : Level} {symbol : Symbol}
    (opens : symbol.letter.opensItem = true) (place : state.itemLevel? = some level) :
    state.step symbol = (State.mk state.outer level .item).item symbol := by
  obtain ⟨outer, open_, focus⟩ := state
  obtain ⟨letter, source⟩ := symbol
  cases focus <;> simp only [itemLevel?, Option.some.injEq, reduceCtorEq] at place
  case partEnd =>
    cases letter <;> simp only [Letter.opensItem, Bool.false_eq_true] at opens <;>
      simp only [step, behindPart, place, Option.bind_some, goOn]
  all_goals
    subst place
    cases letter <;> simp only [Letter.opensItem, Bool.false_eq_true] at opens <;> rfl

/-- Where an argument may end, blanks change nothing. -/
theorem step_blank_of_argumentEnd {state : State} {level : Level} {symbol : Symbol}
    (blank : symbol.letter = .blank) (ends : state.argumentEnd? = some level) :
    ∃ next, state.step symbol = some next ∧ next.outer = state.outer ∧
      next.argumentEnd? = some level := by
  obtain ⟨outer, open_, focus⟩ := state
  cases focus <;> simp only [argumentEnd?, reduceCtorEq] at ends
  case item =>
    obtain ⟨ended, partEnds, -⟩ := Option.map_eq_some_iff.mp ends
    obtain ⟨simple, whole⟩ :=
      Option.isSome_iff_exists.mp (Level.simple?_isSome_of_endPart? partEnds)
    refine ⟨⟨outer, open_, .partEnd⟩, ?_, rfl, ends⟩
    simp only [step, behindItem, blank, whole, Option.map_some, goOn]
  case partEnd => exact ⟨_, by simp only [step, behindPart, blank], rfl, ends⟩
  case literalEnd => exact ⟨_, by simp only [step, blank], rfl, ends⟩

/-- Where an argument may end, a comma starts the next one. -/
theorem step_comma_of_argumentEnd {state : State} {level : Level} {symbol : Symbol}
    (comma : symbol.letter = .comma) (ends : state.argumentEnd? = some level) :
    state.step symbol = some ⟨state.outer, level, .argumentStart⟩ := by
  obtain ⟨outer, open_, focus⟩ := state
  cases focus <;> simp only [argumentEnd?, Option.some.injEq, reduceCtorEq] at ends
  case item => simp only [step, behindItem, comma, boundary, ends, Option.map_some, goOn]
  case partEnd => simp only [step, behindPart, comma, boundary, ends, Option.map_some, goOn]
  case literalEnd => simp only [step, comma, goOn, ends]

/-- Where an argument may end, a closing parenthesis ends the function around it. -/
theorem step_closeParen_of_argumentEnd {state : State} {level : Level} {symbol : Symbol}
    (closes : symbol.letter = .closeParen) (ends : state.argumentEnd? = some level) :
    state.step symbol = (State.mk state.outer level .item).closeFunction := by
  obtain ⟨outer, open_, focus⟩ := state
  cases focus <;> simp only [argumentEnd?, Option.some.injEq, reduceCtorEq] at ends
  case item => simp only [step, behindItem, closes, boundary, ends, Option.bind_some, goOn]
  case partEnd => simp only [step, behindPart, closes, boundary, ends, Option.bind_some, goOn]
  case literalEnd => simp only [step, closes, closeFunction, ends]

theorem finish_of_argumentEnd {state : State} {level : Level} (top : state.outer = [])
    (ends : state.argumentEnd? = some level) : state.finish = some level.arguments := by
  obtain ⟨outer, open_, focus⟩ := state
  simp only at top
  subst top
  cases focus <;> simp only [argumentEnd?, Option.some.injEq, reduceCtorEq] at ends
  case item => simp only [finish, ends, Option.map_some]
  case partEnd => simp only [finish, ends, Option.map_some]
  case literalEnd => simp only [finish, ends]

/-- A reading finishes only at the top and where an argument may end. -/
theorem argumentEnd_of_finish {state : State} {arguments : List Argument}
    (finishes : state.finish = some arguments) :
    state.outer = [] ∧ ∃ level, state.argumentEnd? = some level ∧ level.arguments = arguments := by
  obtain ⟨outer, open_, focus⟩ := state
  cases outer with
  | cons enclosing outer => simp only [finish, reduceCtorEq] at finishes
  | nil =>
      refine ⟨rfl, ?_⟩
      cases focus <;> simp only [finish, reduceCtorEq, Option.some.injEq] at finishes
      case item => exact Option.map_eq_some_iff.mp finishes
      case partEnd => exact Option.map_eq_some_iff.mp finishes
      case literalEnd => exact ⟨open_, rfl, finishes⟩

end State

/-! ## The lexemes that are read -/

/-- Supported lexemes are not refused. -/
theorem checkSupported_of_supported (selector : String) {lexemes : List Lexeme}
    (supported : ∀ lexeme ∈ lexemes, lexeme.token.isSupported = true) :
    checkSupported selector lexemes = .ok () := by
  have none : lexemes.find? (fun lexeme => !lexeme.token.isSupported) = none := by
    rw [List.find?_eq_none]
    intro lexeme member
    rw [supported lexeme member]
    exact Bool.false_ne_true
  rw [checkSupported, none]

/-- When all lexemes are supported, those in front of the end of the text are read. -/
theorem readArguments_of_supported (selector : String) {lexemes : List Lexeme}
    (supported : ∀ lexeme ∈ lexemes, lexeme.token.isSupported = true) :
    readArguments selector lexemes =
      match State.start.read ((beforeEnd lexemes).map Lexeme.symbol) with
      | .error unexpected => .error ⟨.ofUnexpected unexpected, selector⟩
      | .ok arguments => .ok arguments := by
  unfold readArguments
  split
  · rename_i refused
    rw [checkSupported_of_supported selector supported] at refused
    contradiction
  · rfl

theorem Token.isEnd_eq_false_iff {token : Token} : token.isEnd = false ↔ token ≠ .endOfText := by
  cases token <;> simp [Token.isEnd]

theorem beforeEnd_append {front : List Lexeme}
    (endless : ∀ lexeme ∈ front, lexeme.token ≠ .endOfText) (rest : List Lexeme) :
    beforeEnd (front ++ rest) = front ++ beforeEnd rest := by
  apply List.takeWhile_append_of_pos
  intro lexeme member
  rw [Token.isEnd_eq_false_iff.mpr (endless lexeme member)]
  rfl

theorem beforeEnd_of_endless {lexemes : List Lexeme}
    (endless : ∀ lexeme ∈ lexemes, lexeme.token ≠ .endOfText) : beforeEnd lexemes = lexemes := by
  have whole := beforeEnd_append endless []
  have nothing : beforeEnd [] = [] := rfl
  rwa [nothing, List.append_nil] at whole

end SelectorLang
