import SelectorLang.Proofs.Grammar.Basic
import SelectorLang.Proofs.Reader.Run

/-! # Reading what the grammar derives

A reading that stands where a phrase may start takes the lexemes of the phrase and holds
what the phrase stands for (`SelectorLang.Grammar.Derives.isRead`). At the end of a
derived argument list it finishes with the derived arguments
(`SelectorLang.Grammar.Derives.finish_run`).
-/

namespace SelectorLang

theorem toLower_toLower (text : String) : text.toLower.toLower = text.toLower := by
  have character (first : Char) : first.toLower.toLower = first.toLower := by
    delta Char.toLower
    split
    · split
      · rename_i upper upperAgain
        simp only [UInt32.le_iff_toNat_le, UInt32.toNat_add, seval] at upper upperAgain
        omega
      · rfl
    · rfl
  rw [toLower_eq_map, toLower_eq_map, String.map_map, Function.comp_def]
  simp only [character]

theorem isNativeClass_toLower (name : String) :
    isNativeClass name.toLower = decide (name.toLower ∈ nativeClasses) := by
  rw [isNativeClass, toLower_toLower, List.contains_eq_mem]

theorem isNativeFunction_toLower (name : String) :
    isNativeFunction name.toLower = decide (name.toLower ∈ nativeFunctions) := by
  rw [isNativeFunction, toLower_toLower, List.contains_eq_mem]

namespace Grammar

theorem sources_nil : sources [] = "" :=
  String.join_nil

theorem sources_cons (lexeme : Lexeme) (rest : List Lexeme) :
    sources (lexeme :: rest) = lexeme.source ++ sources rest := by
  rw [sources, List.map_cons, String.join_cons, sources]

theorem sources_append (front rest : List Lexeme) :
    sources (front ++ rest) = sources front ++ sources rest := by
  rw [sources, List.map_append, String.join_append, sources, sources]

theorem Blanks.tail {lexeme : Lexeme} {rest : List Lexeme} (blanks : Blanks (lexeme :: rest)) :
    lexeme.token = .whitespace ∧ Blanks rest :=
  List.forall_mem_cons.mp blanks

/-! ## Copied text -/

/-- Between brackets everything is copied up to the closing one. -/
theorem run_attribute (outer : List Enclosing) (level : Level) (inner : List Lexeme)
    (inside : ∀ lexeme ∈ inner, lexeme.token ≠ .closeBracket) :
    (State.mk outer level .attribute).run inner =
      some ⟨outer, level.add (sources inner) [], .attribute⟩ := by
  induction inner generalizing level with
  | nil =>
      simp only [State.run, sources_nil, Level.add, String.append_empty, List.append_nil]
  | cons lexeme rest ih =>
      obtain ⟨other, inside⟩ := List.forall_mem_cons.mp inside
      have letter : lexeme.token.letter ≠ .closeBracket := fun same =>
        other ((Token.letter_eq_iff_of_mark rfl).mp same)
      have steps : (State.mk outer level .attribute).step lexeme.symbol =
          some ⟨outer, level.add lexeme.source [], .attribute⟩ := by
        rw [← Level.addText_eq_add]
        simp only [State.step, Lexeme.symbol, State.addText, State.goOn]
      rw [State.run_cons steps, ih _ inside, Level.add_add, sources_cons, List.append_nil]

/-- In native arguments a parenthesis that opens is copied and counted. -/
theorem step_of_opensParen {opening : Lexeme} (opens : opening.token.opensParen = true)
    (outer : List Enclosing) (level : Level) (depth : Nat) :
    (State.mk outer level (.native depth)).step opening.symbol =
      some ⟨outer, level.add opening.source [], .native (depth + 1)⟩ := by
  rw [← Level.addText_eq_add]
  cases token : opening.token <;> rw [token] at opens <;>
    simp only [Token.opensParen, Bool.false_eq_true] at opens
  all_goals
    simp only [State.step, State.native, Lexeme.symbol, token, Token.letter, State.addText,
      State.goOn]

/-- Balanced native arguments are copied and leave as many parentheses open as before. -/
theorem run_balanced {inner : List Lexeme} (balanced : Balanced inner) (outer : List Enclosing)
    (level : Level) (depth : Nat) :
    (State.mk outer level (.native depth)).run inner =
      some ⟨outer, level.add (sources inner) [], .native depth⟩ := by
  induction balanced generalizing level depth with
  | nil =>
      simp only [State.run, sources_nil, Level.add, String.append_empty, List.append_nil]
  | @plain lexeme rest opensNone closesNone _ ih =>
      have steps : (State.mk outer level (.native depth)).step lexeme.symbol =
          some ⟨outer, level.add lexeme.source [], .native depth⟩ := by
        rw [← Level.addText_eq_add]
        simp only [State.step, State.native, Lexeme.symbol]
        split
        · rename_i same
          exact absurd ((Token.letter_eq_iff_of_mark rfl).mp same) closesNone
        · rename_i same
          exact absurd ((Token.letter_eq_iff_of_mark rfl).mp same) closesNone
        · rename_i same
          rw [(Token.letter_eq_iff_of_mark rfl).mp same] at opensNone
          contradiction
        · rename_i same
          obtain ⟨_, same, -⟩ := Token.letter_eq_call_iff.mp same
          rw [same] at opensNone
          contradiction
        · rfl
      rw [State.run_cons steps, ih, Level.add_add, sources_cons, List.append_nil]
  | @nested opening closing inner rest opens _ closes _ ihInner ih =>
      have closed (level : Level) :
          (State.mk outer level (.native (depth + 1))).step closing.symbol =
            some ⟨outer, level.add closing.source [], .native depth⟩ := by
        rw [← Level.addText_eq_add]
        simp only [State.step, State.native, Lexeme.symbol, closes, Token.letter, State.addText,
          State.goOn]
      rw [List.cons_append, State.run_cons (step_of_opensParen opens outer level depth),
        State.run_append_of_run (ihInner _ (depth + 1)), State.run_cons (closed _), ih]
      simp only [Level.add_add, List.append_nil, sources_cons, sources_append, String.append_assoc]

/-! ## Separators -/

/-- Blanks in front of an argument are passed over. -/
theorem run_blanks_of_argumentStart {blanks : List Lexeme} (allBlank : Blanks blanks)
    {state : State} (starts : state.focus = .listStart ∨ state.focus = .argumentStart) :
    ∃ next, state.run blanks = some next ∧ next.outer = state.outer ∧ next.level = state.level ∧
      (next.focus = .listStart ∨ next.focus = .argumentStart) := by
  induction blanks generalizing state with
  | nil => exact ⟨state, rfl, rfl, rfl, starts⟩
  | cons lexeme rest ih =>
      obtain ⟨blank, allBlank⟩ := allBlank.tail
      have steps : state.step lexeme.symbol =
          some ⟨state.outer, state.level, .argumentStart⟩ := by
        rcases starts with starts | starts <;>
          simp only [State.step, starts, State.argument, Lexeme.symbol, blank, Token.letter,
            State.goOn]
      have startsBehind : (State.mk state.outer state.level .argumentStart).focus = .listStart ∨
          (State.mk state.outer state.level .argumentStart).focus = .argumentStart := Or.inr rfl
      obtain ⟨next, runs, outer, level, starts⟩ := ih allBlank startsBehind
      exact ⟨next, by rw [State.run_cons steps, runs], outer, level, starts⟩

/-- Blanks behind an argument are passed over. -/
theorem run_blanks_of_argumentEnd {blanks : List Lexeme} (allBlank : Blanks blanks)
    {state : State} {level : Level} (ends : state.argumentEnd? = some level) :
    ∃ next, state.run blanks = some next ∧ next.outer = state.outer ∧
      next.argumentEnd? = some level := by
  induction blanks generalizing state with
  | nil => exact ⟨state, rfl, rfl, ends⟩
  | cons lexeme rest ih =>
      obtain ⟨blank, allBlank⟩ := allBlank.tail
      have letter : lexeme.symbol.letter = .blank := by
        rw [Lexeme.symbol, blank, Token.letter]
      obtain ⟨middle, steps, outer, ends⟩ := State.step_blank_of_argumentEnd letter ends
      obtain ⟨next, runs, outerNext, ends⟩ := ih allBlank ends
      exact ⟨next, by rw [State.run_cons steps, runs], outerNext.trans outer, ends⟩

/-- Blanks behind the sign of a combinator are passed over. -/
theorem run_blanks_of_partStart {blanks : List Lexeme} (allBlank : Blanks blanks)
    (outer : List Enclosing) (level : Level) :
    (State.mk outer level .partStart).run blanks = some ⟨outer, level, .partStart⟩ := by
  induction blanks with
  | nil => rfl
  | cons lexeme rest ih =>
      obtain ⟨blank, allBlank⟩ := allBlank.tail
      have steps : (State.mk outer level .partStart).step lexeme.symbol =
          some ⟨outer, level, .partStart⟩ := by
        simp only [State.step, Lexeme.symbol, blank, Token.letter]
      rw [State.run_cons steps, ih allBlank]

/-- Blanks behind a part lead, if there are any, to where the next part may start. -/
theorem run_blanks_of_item {blanks : List Lexeme} (allBlank : Blanks blanks)
    (outer : List Enclosing) {level : Level} (whole : level.simple?.isSome = true) :
    (State.mk outer level .item).run blanks =
      some ⟨outer, level, if blanks = [] then .item else .partEnd⟩ := by
  have behind {blanks : List Lexeme} (allBlank : Blanks blanks) :
      (State.mk outer level .partEnd).run blanks = some ⟨outer, level, .partEnd⟩ := by
    induction blanks with
    | nil => rfl
    | cons lexeme rest ih =>
        obtain ⟨blank, allBlank⟩ := allBlank.tail
        have steps : (State.mk outer level .partEnd).step lexeme.symbol =
            some ⟨outer, level, .partEnd⟩ := by
          simp only [State.step, State.behindPart, Lexeme.symbol, blank, Token.letter]
        rw [State.run_cons steps, ih allBlank]
  cases blanks with
  | nil => rfl
  | cons lexeme rest =>
      obtain ⟨blank, allBlank⟩ := allBlank.tail
      obtain ⟨simple, whole⟩ := Option.isSome_iff_exists.mp whole
      have steps : (State.mk outer level .item).step lexeme.symbol =
          some ⟨outer, level, .partEnd⟩ := by
        simp only [State.step, State.behindItem, Lexeme.symbol, blank, Token.letter, whole,
          Option.map_some, State.goOn]
      rw [State.run_cons steps, behind allBlank, if_neg (List.cons_ne_nil _ _)]

/-- A separator finishes the part in front of it with its combinator and leads to where
the next part may start. -/
theorem run_separator {separator : List Lexeme} {combinator : Combinator}
    (separated : Separator separator combinator) (outer : List Enclosing) {level ended : Level}
    (ends : level.endPart? combinator = some ended) :
    ∃ next, (State.mk outer level .item).run separator = some next ∧ next.outer = outer ∧
      next.itemLevel? = some ended := by
  have whole := Level.simple?_isSome_of_endPart? ends
  cases separated with
  | @sign before after lexeme character _ blanksBefore token spelled blanksAfter =>
      have letter : lexeme.symbol.letter = .combinator combinator :=
        Token.letter_eq_combinator_iff.mpr ⟨character, token, spelled⟩
      refine ⟨⟨outer, ended, .partStart⟩, ?_, rfl, rfl⟩
      rw [State.run_append_of_run (run_blanks_of_item blanksBefore outer whole)]
      have steps : (State.mk outer level (if before = [] then .item else .partEnd)).step
          lexeme.symbol = some ⟨outer, ended, .partStart⟩ := by
        split <;> simp only [State.step, State.behindItem, State.behindPart, letter,
          State.boundary, ends, Option.map_some, State.goOn]
      rw [State.run_cons steps, run_blanks_of_partStart blanksAfter]
  | blanks blanks nonempty =>
      refine ⟨⟨outer, level, .partEnd⟩, ?_, rfl, ends⟩
      rw [run_blanks_of_item blanks outer whole, if_neg nonempty]

/-! ## Phrases -/

/-- Wherever a phrase may start, reading takes its lexemes and holds what it stands for. -/
def Phrase.IsRead (lexemes : List Lexeme) : Phrase → Prop
  | item text functions | items text functions =>
      ∀ (state : State) (level : Level), state.itemLevel? = some level →
        state.run lexemes = some ⟨state.outer, level.add text functions, .item⟩
  | simple selector =>
      ∀ (state : State) (arguments : List Argument) (parts : List Part),
        state.itemLevel? = some (.fresh arguments parts) →
        ∃ level, state.run lexemes = some ⟨state.outer, level, .item⟩ ∧
          ∀ combinator, level.endPart? combinator =
            some (.fresh arguments (parts ++ [⟨selector, combinator⟩]))
  | joined more =>
      ∀ (state : State) (arguments : List Argument) (parts : List Part),
        state.itemLevel? = some (.fresh arguments parts) →
        ∃ next, state.run lexemes = some next ∧ next.outer = state.outer ∧
          next.itemLevel? = some (.fresh arguments (parts ++ more))
  | complex selector =>
      ∀ (state : State) (arguments : List Argument),
        state.itemLevel? = some (.fresh arguments []) →
        ∃ level, state.run lexemes = some ⟨state.outer, level, .item⟩ ∧
          level.endArgument? = some (.fresh (arguments ++ [.selector selector]) [])
  | argument one =>
      ∀ (state : State) (arguments : List Argument),
        state.focus = .listStart ∨ state.focus = .argumentStart →
        state.level = .fresh arguments [] →
        ∃ next, state.run lexemes = some next ∧ next.outer = state.outer ∧
          next.argumentEnd? = some (.fresh (arguments ++ [one]) [])
  | arguments more =>
      ∀ (state : State) (arguments : List Argument),
        state.focus = .listStart ∨ state.focus = .argumentStart →
        state.level = .fresh arguments [] →
        ∃ next, state.run lexemes = some next ∧ next.outer = state.outer ∧
          next.argumentEnd? = some (.fresh (arguments ++ more) [])

/-- An item of one lexeme adds the text that its symbol adds. -/
private theorem isRead_single {lexeme : Lexeme}
    (letter : (∃ lowered, lexeme.token.letter = .name lowered) ∨ lexeme.token.letter = .fragment) :
    (Phrase.item lexeme.source []).IsRead [lexeme] := by
  intro state level place
  have opens : lexeme.symbol.letter.opensItem = true := by
    rcases letter with ⟨lowered, letter⟩ | letter <;>
      simp only [Lexeme.symbol, letter, Letter.opensItem]
  rw [State.run, State.step_of_opensItem opens place]
  rcases letter with ⟨lowered, letter⟩ | letter <;>
    simp only [State.item, Lexeme.symbol, letter, State.addText, State.goOn, Option.bind_some,
      State.run, Level.addText_eq_add]

/-- Behind a colon, what follows it decides; the colon itself adds nothing. -/
private theorem run_colon {state : State} {level : Level} {colon : Lexeme}
    (colonToken : colon.token = .colon) (place : state.itemLevel? = some level)
    (rest : List Lexeme) :
    state.run (colon :: rest) = (State.mk state.outer level .colon).run rest := by
  have letter : colon.symbol.letter = .colon := by
    rw [Lexeme.symbol, colonToken, Token.letter]
  apply State.run_cons
  rw [State.step_of_opensItem (by rw [letter]; rfl) place, State.item, letter]
  rfl

/-- A number or a string is an argument of its own. -/
private theorem isRead_literal {before after : List Lexeme} {lexeme : Lexeme} {argument : Argument}
    (reads : ∀ state : State, state.argument lexeme.symbol =
      some (state.goOn (state.level.addArgument argument) .literalEnd))
    (blanksBefore : Blanks before) (blanksAfter : Blanks after) :
    (Phrase.argument argument).IsRead (before ++ lexeme :: after) := by
  intro state arguments starts level
  obtain ⟨start, runsBefore, outer, same, starts⟩ :=
    run_blanks_of_argumentStart blanksBefore starts
  have steps : start.step lexeme.symbol =
      some ⟨start.outer, .fresh (arguments ++ [argument]) [], .literalEnd⟩ := by
    have argumentSteps : start.step lexeme.symbol = start.argument lexeme.symbol := by
      rcases starts with starts | starts <;> simp only [State.step, starts]
    rw [argumentSteps, reads, same, level]
    rfl
  have endsBehind : (State.mk start.outer (.fresh (arguments ++ [argument]) [])
      .literalEnd).argumentEnd? = some (.fresh (arguments ++ [argument]) []) := rfl
  obtain ⟨next, runsAfter, outerNext, ends⟩ := run_blanks_of_argumentEnd blanksAfter endsBehind
  refine ⟨next, ?_, outerNext.trans outer, ends⟩
  rw [State.run_append_of_run runsBefore, State.run_cons steps, runsAfter]

private theorem isRead_nativeFunction {colon call closing : Lexeme} {name : String}
    {inner : List Lexeme} (colonToken : colon.token = .colon) (token : call.token = .function name)
    (native : name.toLower ∈ nativeFunctions) (balanced : Balanced inner)
    (closes : closing.token = .closeParen) :
    (Phrase.item (":" ++ name.toLower ++ "(" ++ sources inner ++ ")") []).IsRead
      (colon :: call :: inner ++ [closing]) := by
  intro state level place
  rw [List.cons_append, run_colon colonToken place, List.cons_append]
  have opened : (State.mk state.outer level .colon).step call.symbol =
      some ⟨state.outer, level.add (":" ++ name.toLower ++ "(") [], .native 0⟩ := by
    simp only [State.step, State.pseudo, Lexeme.symbol, token, Token.letter,
      isNativeFunction_toLower, native, decide_true, ↓reduceIte, State.addText, State.goOn,
      Level.addText_eq_add]
  rw [State.run_cons opened, State.run_append_of_run (run_balanced balanced _ _ 0)]
  simp only [State.run, State.step, State.native, Lexeme.symbol, closes, Token.letter,
    State.addText, State.goOn, Option.bind_some, Level.addText_eq_add, Level.add_add,
    List.append_nil, String.append_assoc]

private theorem isRead_function {colon call closing : Lexeme} {name : String}
    {inner : List Lexeme} {arguments : List Argument} (colonToken : colon.token = .colon)
    (token : call.token = .function name) (engine : name.toLower ∉ nativeFunctions)
    (ih : (Phrase.arguments arguments).IsRead inner) (closes : closing.token = .closeParen) :
    (Phrase.item "" [⟨name.toLower, arguments⟩]).IsRead (colon :: call :: inner ++ [closing]) := by
  intro state level place
  rw [List.cons_append, run_colon colonToken place, List.cons_append]
  have opened : (State.mk state.outer level .colon).step call.symbol =
      some ⟨⟨level, name.toLower⟩ :: state.outer, Level.empty, .listStart⟩ := by
    simp only [State.step, State.pseudo, Lexeme.symbol, token, Token.letter,
      isNativeFunction_toLower, engine, decide_false, Bool.false_eq_true, ↓reduceIte]
  obtain ⟨last, runs, outer, ends⟩ :=
    ih ⟨⟨level, name.toLower⟩ :: state.outer, Level.empty, .listStart⟩ [] (Or.inl rfl) rfl
  have letter : closing.symbol.letter = .closeParen := by
    rw [Lexeme.symbol, closes, Token.letter]
  rw [State.run_cons opened, State.run_append_of_run runs, State.run,
    State.step_closeParen_of_argumentEnd letter ends, outer]
  simp only [State.closeFunction, Level.fresh, List.nil_append, Option.bind_some, State.run,
    Level.addFunction_eq_add]

private theorem isRead_condition {opening closing : Lexeme} {inner : List Lexeme}
    (opens : opening.token = .openBracket)
    (inside : ∀ lexeme ∈ inner, lexeme.token ≠ .closeBracket)
    (closes : closing.token = .closeBracket) :
    (Phrase.item (sources (opening :: inner ++ [closing])) []).IsRead
      (opening :: inner ++ [closing]) := by
  intro state level place
  have letter : opening.symbol.letter = .openBracket := by
    rw [Lexeme.symbol, opens, Token.letter]
  have steps : state.step opening.symbol =
      some ⟨state.outer, level.add opening.source [], .attribute⟩ := by
    rw [State.step_of_opensItem (by rw [letter]; rfl) place, State.item, letter,
      ← Level.addText_eq_add]
    rfl
  rw [List.cons_append, State.run_cons steps,
    State.run_append_of_run (run_attribute _ _ inner inside)]
  simp only [State.run, State.step, Lexeme.symbol, closes, Token.letter, State.addText,
    State.goOn, Option.bind_some, Level.addText_eq_add, Level.add_add, List.append_nil,
    sources_cons, sources_append, sources_nil, String.append_empty,
    String.append_assoc]

private theorem isRead_selector {before lexemes after : List Lexeme} {selector : ComplexSelector}
    (blanksBefore : Blanks before) (ih : (Phrase.complex selector).IsRead lexemes)
    (blanksAfter : Blanks after) :
    (Phrase.argument (.selector selector)).IsRead (before ++ lexemes ++ after) := by
  intro state arguments starts level
  obtain ⟨start, runsBefore, outer, same, starts⟩ :=
    run_blanks_of_argumentStart blanksBefore starts
  have place : start.itemLevel? = some (.fresh arguments []) := by
    rw [← level, ← same]
    rcases starts with starts | starts <;> simp only [State.itemLevel?, starts]
  obtain ⟨last, runs, ends⟩ := ih start arguments place
  have endsBehind : (State.mk start.outer last .item).argumentEnd? = _ := ends
  obtain ⟨next, runsAfter, outerNext, ends⟩ :=
    run_blanks_of_argumentEnd blanksAfter endsBehind
  refine ⟨next, ?_, outerNext.trans outer, ends⟩
  rw [State.run_append_of_run ((State.run_append_of_run runsBefore _).trans runs), runsAfter]

/-- **What the grammar derives is read.** -/
theorem Derives.isRead {lexemes : List Lexeme} {phrase : Phrase}
    (derived : Derives lexemes phrase) : phrase.IsRead lexemes := by
  induction derived with
  | @name lexeme name token =>
      exact isRead_single (Or.inl ⟨_, by rw [token, Token.letter]⟩)
  | hash token => exact isRead_single (Or.inr (by rw [token, Token.letter]))
  | asterisk token =>
      exact isRead_single (Or.inr (Token.letter_eq_fragment_iff.mpr (Or.inr token)))
  | @className dot lexeme name dotToken token =>
      intro state level place
      have letter : dot.symbol.letter = .dot := (Token.letter_eq_iff_of_mark rfl).mpr dotToken
      have steps : state.step dot.symbol = some ⟨state.outer, level, .dot⟩ := by
        rw [State.step_of_opensItem (by rw [letter]; rfl) place, State.item, letter]
        rfl
      rw [State.run_cons steps]
      simp only [State.run, State.step, Lexeme.symbol, token, Token.letter, State.addText,
        State.goOn, Option.bind_some, Level.addText_eq_add]
  | nativeClass colonToken token native =>
      intro state level place
      rw [run_colon colonToken place]
      simp only [State.run, State.step, State.pseudo, Lexeme.symbol, token, Token.letter,
        isNativeClass_toLower, native, decide_true, ↓reduceIte, State.addText, State.goOn,
        Option.bind_some, Level.addText_eq_add]
  | bareFunction colonToken token engine =>
      intro state level place
      rw [run_colon colonToken place]
      simp only [State.run, State.step, State.pseudo, Lexeme.symbol, token, Token.letter,
        isNativeClass_toLower, engine, decide_false, Bool.false_eq_true, ↓reduceIte, State.goOn,
        Option.bind_some, Level.addFunction_eq_add]
  | nativeFunction colonToken token native balanced closes =>
      exact isRead_nativeFunction colonToken token native balanced closes
  | function colonToken token engine _ closes ih =>
      exact isRead_function colonToken token engine ih closes
  | condition opens inside closes => exact isRead_condition opens inside closes
  | oneItem _ ih => exact ih
  | moreItems _ _ ihBefore ih =>
      intro state level place
      rw [State.run_append_of_run (ihBefore state level place), ih _ _ rfl, Level.add_add]
  | native _ nonempty ih =>
      intro state arguments parts place
      refine ⟨_, ih state _ place, fun combinator => ?_⟩
      rw [Level.fresh_add]
      exact Level.endPart?_of_simple? (by rw [Level.simple?, if_neg nonempty]) combinator
  | @engine lexemes functions _ nonempty ih =>
      intro state arguments parts place
      refine ⟨_, ih state _ place, fun combinator => ?_⟩
      rw [Level.fresh_add]
      refine Level.endPart?_of_simple? ?_ combinator
      rw [Level.simple?, if_pos rfl, if_neg]
      rwa [List.isEmpty_iff]
  | noParts =>
      intro state arguments parts place
      exact ⟨state, rfl, rfl, by rw [List.append_nil]; exact place⟩
  | moreParts _ _ separated ihBefore ih =>
      intro state arguments parts place
      obtain ⟨behind, runsBefore, outerBefore, placeBefore⟩ := ihBefore state arguments parts place
      obtain ⟨level, runs, ends⟩ := ih behind arguments _ placeBefore
      obtain ⟨next, runsSeparator, outer, placeNext⟩ :=
        run_separator separated behind.outer (ends _)
      refine ⟨next, ?_, outer.trans outerBefore, ?_⟩
      · rw [State.run_append_of_run ((State.run_append_of_run runsBefore _).trans runs),
          runsSeparator]
      · rw [placeNext, List.append_assoc]
  | complex _ _ ihBefore ih =>
      intro state arguments place
      obtain ⟨behind, runsBefore, outerBefore, placeBefore⟩ := ihBefore state arguments [] place
      obtain ⟨level, runs, ends⟩ := ih behind arguments _ placeBefore
      refine ⟨level, ?_, ?_⟩
      · rw [State.run_append_of_run runsBefore, runs, outerBefore]
      · rw [Level.endArgument?, ends]
        rfl
  | number blanksBefore token blanksAfter =>
      refine isRead_literal (fun state => ?_) blanksBefore blanksAfter
      simp only [State.argument, Lexeme.symbol, token, Token.letter]
  | string blanksBefore token blanksAfter =>
      refine isRead_literal (fun state => ?_) blanksBefore blanksAfter
      simp only [State.argument, Lexeme.symbol, token, Token.letter]
  | selector blanksBefore _ blanksAfter ih => exact isRead_selector blanksBefore ih blanksAfter
  | oneArgument _ ih => exact ih
  | @moreArguments front lexemes comma more argument _ separates _ ihBefore ih =>
      intro state arguments starts level
      obtain ⟨behind, runsBefore, outerBefore, ends⟩ := ihBefore state arguments starts level
      have letter : comma.symbol.letter = .comma := by
        rw [Lexeme.symbol, separates, Token.letter]
      obtain ⟨next, runs, outer, endsNext⟩ :=
        ih ⟨behind.outer, .fresh (arguments ++ more) [], .argumentStart⟩ _ (Or.inr rfl) rfl
      refine ⟨next, ?_, outer.trans outerBefore, by rwa [List.append_assoc] at endsNext⟩
      rw [State.run_append_of_run runsBefore,
        State.run_cons (State.step_comma_of_argumentEnd letter ends), runs]

/-- Behind the lexemes of a derived argument list a reading finishes with its arguments. -/
theorem Derives.finish_run {lexemes : List Lexeme} {arguments : List Argument}
    (derived : Derives lexemes (.arguments arguments)) :
    ∃ last, State.start.run lexemes = some last ∧ last.finish = some arguments := by
  obtain ⟨last, runs, outer, ends⟩ := derived.isRead State.start [] (Or.inl rfl) rfl
  refine ⟨last, runs, ?_⟩
  rw [State.finish_of_argumentEnd outer ends]
  rfl

end Grammar

end SelectorLang
