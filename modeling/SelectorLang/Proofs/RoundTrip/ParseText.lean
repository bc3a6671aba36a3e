import SelectorLang.Proofs.RoundTrip.Reading

/-! # Parsing undoes writing

The text of a well-formed argument list is parsed as an equal list. Where a function in
it has no arguments, its empty parentheses are not read instead: parsing fails at a
closing parenthesis. The same holds of selector lists
(`SelectorLang.parse_text_of_wellFormed`).
-/

namespace SelectorLang

/-! ## Well-formed trees are legible -/

mutual

theorem Argument.isLegible : (argument : Argument) → argument.WellFormed →
    Legible argument.text argument.IsRead
  | .selector selector, wellFormed => by
      rw [Argument.WellFormed] at wellFormed
      exact selector.isLegible wellFormed
  | .number value, wellFormed => by
      rw [Argument.WellFormed] at wellFormed
      exact Argument.legible_number wellFormed
  | .string value, wellFormed => by
      rw [Argument.WellFormed] at wellFormed
      exact Argument.legible_string wellFormed

theorem Argument.allLegible : (arguments : List Argument) → Argument.AllWellFormed arguments →
    ∀ argument ∈ arguments, Legible argument.text argument.IsRead
  | [], _ => fun _ member => absurd member List.not_mem_nil
  | argument :: rest, wellFormed => by
      rw [Argument.AllWellFormed] at wellFormed
      exact List.forall_mem_cons.mpr
        ⟨argument.isLegible wellFormed.1, Argument.allLegible rest wellFormed.2⟩

theorem EngineFunction.isLegible : (function : EngineFunction) → function.WellFormed →
    Legible function.text function.IsRead
  | ⟨name, arguments⟩, wellFormed => by
      rw [EngineFunction.WellFormed] at wellFormed
      exact EngineFunction.legible wellFormed.1.isCallName wellFormed.1.2.1 fun nonempty =>
        Argument.legible nonempty (Argument.allLegible arguments wellFormed.2)

theorem EngineFunction.allLegible : (functions : List EngineFunction) →
    EngineFunction.AllWellFormed functions →
    ∀ function ∈ functions, Legible function.text function.IsRead
  | [], _ => fun _ member => absurd member List.not_mem_nil
  | function :: rest, wellFormed => by
      rw [EngineFunction.AllWellFormed] at wellFormed
      exact List.forall_mem_cons.mpr
        ⟨function.isLegible wellFormed.1, EngineFunction.allLegible rest wellFormed.2⟩

theorem SimpleSelector.isLegible : (selector : SimpleSelector) → selector.WellFormed →
    Legible selector.text selector.IsRead
  | ⟨some raw, functions⟩, wellFormed => by
      rw [SimpleSelector.WellFormed] at wellFormed
      obtain ⟨pieces, native⟩ := (wellFormed.2.1 raw rfl).exists_pieces
      exact SimpleSelector.legible_of_native native
        (EngineFunction.allLegible functions wellFormed.2.2)
  | ⟨none, functions⟩, wellFormed => by
      rw [SimpleSelector.WellFormed] at wellFormed
      exact SimpleSelector.legible_of_functions (wellFormed.1.resolve_left Bool.false_ne_true)
        (EngineFunction.allLegible functions wellFormed.2.2)

theorem Part.allLegible : (parts : List Part) → Part.AllWellFormed parts →
    ∀ part ∈ parts, Legible part.selector.text part.selector.IsRead
  | [], _ => fun _ member => absurd member List.not_mem_nil
  | ⟨selector, _⟩ :: rest, wellFormed => by
      rw [Part.AllWellFormed, Part.WellFormed] at wellFormed
      exact List.forall_mem_cons.mpr
        ⟨selector.isLegible wellFormed.1, Part.allLegible rest wellFormed.2⟩

theorem ComplexSelector.isLegible : (selector : ComplexSelector) → selector.WellFormed →
    Legible (Argument.text (.selector selector)) (Argument.IsRead (.selector selector))
  | ⟨parts⟩, wellFormed => by
      rw [ComplexSelector.WellFormed] at wellFormed
      exact Argument.legible_selector
        (Part.legible wellFormed.1 wellFormed.2.1 (Part.allLegible parts wellFormed.2.2))

end

/-! ## What is legible is parsed -/

/-- Reading fails at a lexeme that has no place behind those in front of it. -/
theorem State.read_error_of_stuck {state last : State} {front : List Lexeme} {lexeme : Lexeme}
    (runs : state.run front = some last) (stuck : last.step lexeme.symbol = none)
    (rest : List Lexeme) :
    state.read ((front ++ lexeme :: rest).map Lexeme.symbol) = .error (some lexeme.symbol) := by
  induction front generalizing state with
  | nil =>
      cases runs
      rw [List.nil_append, List.map_cons, read, stuck]
  | cons first front ih =>
      rw [State.run] at runs
      obtain ⟨next, steps, runs⟩ := Option.bind_eq_some_iff.mp runs
      rw [List.cons_append, List.map_cons, read, steps]
      exact ih runs

/-- A written text is read as an argument list from its pieces. -/
theorem lexemesOf_of_written {text : String} {pieces : List Piece}
    (written : Written text.toList pieces) :
    ∃ lexemes, lexemesOf text = .ok lexemes ∧
      readArguments text lexemes =
        match State.start.read ((place 0 pieces).map Lexeme.symbol) with
        | .error unexpected => .error ⟨.ofUnexpected unexpected, text⟩
        | .ok arguments => .ok arguments := by
  have cuts := written.cuts [] boundary_nil
  rw [List.append_nil] at cuts
  refine ⟨place 0 pieces ++ [Lexeme.endAt text.length], ?_, ?_⟩
  · rw [lexemesOf, tokenize_of_cuts cuts (comments_of_none rfl)]
  · have supported : ∀ lexeme ∈ place 0 pieces ++ [Lexeme.endAt text.length],
        lexeme.token.isSupported = true :=
      List.forall_mem_append.mpr
        ⟨(forall_mem_place (·.isSupported = true) 0).mpr written.supported,
          List.forall_mem_singleton.mpr rfl⟩
    have endless : ∀ lexeme ∈ place 0 pieces, lexeme.token ≠ .endOfText :=
      (forall_mem_place (· ≠ .endOfText) 0).mpr written.endless
    have nothing : beforeEnd [Lexeme.endAt text.length] = [] := rfl
    rewrite [readArguments_of_supported text supported, beforeEnd_append endless, nothing,
      List.append_nil]
    rfl

section Arguments

variable {arguments : List Argument}

/-- The text of legible arguments is parsed as equal ones, or not at all where a function
has no arguments. -/
theorem readArguments_of_legible
    (legible : Legible (argumentsText arguments) (Argument.AreRead arguments)) :
    ∃ lexemes, lexemesOf (argumentsText arguments) = .ok lexemes ∧
      (Argument.anyBare arguments = false →
        ∃ parsed, readArguments (argumentsText arguments) lexemes = .ok parsed ∧
          Argument.equalList parsed arguments = true) ∧
      (Argument.anyBare arguments = true →
        readArguments (argumentsText arguments) lexemes =
          .error ⟨.unexpectedToken ")", argumentsText arguments⟩) := by
  obtain ⟨pieces, written, -, reads⟩ := legible
  obtain ⟨lexemes, cut, isRead⟩ := lexemesOf_of_written written
  have outcome := reads State.start [] (Or.inl rfl) rfl
  refine ⟨lexemes, cut, fun noBare => ?_, fun bare => ?_⟩
  · rw [noBare] at outcome
    obtain ⟨last, runs, isOuter, read, equal, ends⟩ := outcome
    have finishes : last.finish = some ([] ++ read) := State.finish_of_argumentEnd isOuter ends
    have whole := State.read_eq_ok_iff.mpr ⟨last, runs 0, finishes⟩
    rw [whole] at isRead
    exact ⟨read, isRead, equal⟩
  · rw [bare] at outcome
    obtain ⟨front, rest, last, rfl, runs, stuck⟩ := outcome
    rw [place_append, place] at isRead
    have stuck : last.step (Lexeme.symbol ⟨closingPiece.token, String.ofList closingPiece.source,
        0 + extent front + closingPiece.gap.length⟩) = none := stuck
    rw [State.read_error_of_stuck (runs 0) stuck] at isRead
    exact isRead

end Arguments

/-! ## Selector lists -/

theorem SelectorList.allLegible {list : SelectorList}
    (wellFormed : ∀ selector ∈ list.selectors, selector.WellFormed) :
    ∀ argument ∈ list.selectors.map Argument.selector,
      Legible argument.text argument.IsRead := by
  intro argument member
  obtain ⟨selector, among, rfl⟩ := List.mem_map.mp member
  exact selector.isLegible (wellFormed selector among)

theorem SelectorList.anyBare_map (selectors : List ComplexSelector) :
    Argument.anyBare (selectors.map .selector) = selectors.any ComplexSelector.hasBare := by
  induction selectors with
  | nil => rw [List.map_nil, Argument.anyBare, List.any_nil]
  | cons selector rest ih =>
      rw [List.map_cons, Argument.anyBare, ih, List.any_cons, Argument.hasBare]

/-- What equals nothing but selectors is a selector list. -/
theorem SelectorList.ofArguments?_of_equalList {parsed : List Argument}
    {selectors : List ComplexSelector}
    (equal : Argument.equalList parsed (selectors.map .selector) = true) :
    ∃ list, SelectorList.ofArguments? parsed = some list ∧
      list.selectors.map .selector = parsed := by
  induction parsed generalizing selectors with
  | nil => exact ⟨⟨[]⟩, rfl, rfl⟩
  | cons argument rest ih =>
      cases selectors with
      | nil =>
          simp only [List.map_nil, Argument.equalList, Bool.false_eq_true] at equal
      | cons selector selectors =>
          rw [List.map_cons, Argument.equalList, Bool.and_eq_true] at equal
          obtain ⟨⟨others⟩, mapped, same⟩ := ih equal.2
          cases argument with
          | selector complex =>
              refine ⟨⟨complex :: others⟩, ?_, congrArg (List.cons _) same⟩
              obtain ⟨found, mappedRest, isFound⟩ := Option.map_eq_some_iff.mp mapped
              cases isFound
              rw [ofArguments?, List.mapM_cons, mappedRest]
              rfl
          | number value =>
              simp only [Argument.equal, Bool.false_eq_true, false_and] at equal
          | string value =>
              simp only [Argument.equal, Bool.false_eq_true, false_and] at equal

/-! ## The round trip -/

/-- **Parsing undoes writing.** The text of well-formed arguments is parsed as equal
ones, numbers compared numerically, when each function has arguments; otherwise parsing
fails at a closing parenthesis. The same holds of selector lists. -/
theorem parse_text_of_wellFormed :
    (∀ arguments : List Argument, arguments ≠ [] → Argument.AllWellFormed arguments →
      (Argument.anyBare arguments = false →
        ∃ parsed, parseArguments (argumentsText arguments) = .ok parsed ∧
          Argument.equalList parsed arguments = true) ∧
      (Argument.anyBare arguments = true →
        parseArguments (argumentsText arguments) =
          .error ⟨.unexpectedToken ")", argumentsText arguments⟩)) ∧
    (∀ list : SelectorList, list.selectors ≠ [] →
      (∀ selector ∈ list.selectors, selector.WellFormed) →
      (list.selectors.any ComplexSelector.hasBare = false →
        ∃ parsed, parseSelector list.text = .ok parsed ∧ parsed.equal list = true) ∧
      (list.selectors.any ComplexSelector.hasBare = true →
        parseSelector list.text = .error ⟨.unexpectedToken ")", list.text⟩)) := by
  constructor
  · intro arguments nonempty wellFormed
    obtain ⟨lexemes, cut, reads, fails⟩ := readArguments_of_legible
      (Argument.legible nonempty (Argument.allLegible arguments wellFormed))
    unfold parseArguments
    rw [cut]
    exact ⟨reads, fails⟩
  · intro list nonempty wellFormed
    have nonemptyMap : list.selectors.map Argument.selector ≠ [] := by
      rwa [ne_eq, List.map_eq_nil_iff]
    obtain ⟨lexemes, cut, reads, fails⟩ := readArguments_of_legible
      (Argument.legible nonemptyMap (SelectorList.allLegible wellFormed))
    rw [← SelectorList.anyBare_map, list.text_eq_argumentsText]
    unfold parseSelector
    rw [cut]
    dsimp only
    unfold readSelectorList
    constructor
    · intro noBare
      obtain ⟨parsed, isRead, equal⟩ := reads noBare
      obtain ⟨found, isList, same⟩ := SelectorList.ofArguments?_of_equalList equal
      rw [isRead]
      refine ⟨found, by simp only [isList], ?_⟩
      rw [SelectorList.equal, same, equal]
    · intro bare
      rw [fails bare]

/-- The arguments of `a:x("b c", 0) > *`, with zero below its sign. -/
def childArguments : List Argument := [
  .selector ⟨[⟨⟨some "a", [⟨"x", [.string "b c", .number (.zero true)]⟩]⟩, .child⟩,
    ⟨⟨some "*", []⟩, .descendant⟩]⟩]

/-- The selectors of `a, :x()`. -/
def bareSelectors : SelectorList :=
  ⟨[⟨[⟨⟨some "a", []⟩, .descendant⟩]⟩, ⟨[⟨⟨none, [⟨"x", []⟩]⟩, .descendant⟩]⟩]⟩

theorem isFragment_a : IsFragment "a" := by
  have cut : tokenize "a" = .ok [⟨.ident "a", "a", 0⟩, Lexeme.endAt 1] :=
    tokenize_eq_ok_iff.mpr (by decide +kernel)
  refine ⟨by decide, .descendant, ?_⟩
  rewrite [parseSelector, lexemesOf, cut]
  rfl

theorem isFragment_asterisk : IsFragment "*" := by
  have cut : tokenize "*" = .ok [⟨.delim '*', "*", 0⟩, Lexeme.endAt 1] :=
    tokenize_eq_ok_iff.mpr (by decide +kernel)
  refine ⟨by decide, .descendant, ?_⟩
  rewrite [parseSelector, lexemesOf, cut]
  rfl

theorem childArguments_wellFormed : Argument.AllWellFormed childArguments := by
  simp only [childArguments, Argument.AllWellFormed, Argument.WellFormed,
    ComplexSelector.WellFormed, Part.AllWellFormed, Part.WellFormed, SimpleSelector.WellFormed,
    EngineFunction.AllWellFormed, EngineFunction.WellFormed]
  refine ⟨⟨List.cons_ne_nil _ _, ?_, ⟨⟨Or.inl rfl, ?_, ⟨isFunctionName_x, ?_, rfl, trivial⟩,
    trivial⟩, ⟨Or.inl rfl, ?_, trivial⟩, trivial⟩⟩, trivial⟩
  · intro last isLast
    cases isLast
    rfl
  · intro text isText
    cases isText
    exact isFragment_a
  · intro character member
    have among : character ∈ ['b', ' ', 'c'] := member
    simp only [List.mem_cons, List.not_mem_nil, or_false] at among
    rcases among with rfl | rfl | rfl <;> decide
  · intro text isText
    cases isText
    exact isFragment_asterisk

theorem bareSelectors_wellFormed :
    ∀ selector ∈ bareSelectors.selectors, selector.WellFormed := by
  have last {part : Part} (descendant : part.combinator = .descendant) :
      ∀ last ∈ [part].getLast?, last.combinator = .descendant := by
    intro last isLast
    cases isLast
    exact descendant
  refine List.forall_mem_cons.mpr ⟨?_, List.forall_mem_cons.mpr
    ⟨?_, fun _ member => absurd member List.not_mem_nil⟩⟩
  · simp only [ComplexSelector.WellFormed, Part.AllWellFormed, Part.WellFormed,
      SimpleSelector.WellFormed, EngineFunction.AllWellFormed]
    refine ⟨List.cons_ne_nil _ _, last rfl, ⟨Or.inl rfl, ?_, trivial⟩, trivial⟩
    intro text isText
    cases isText
    exact isFragment_a
  · simp only [ComplexSelector.WellFormed, Part.AllWellFormed, Part.WellFormed,
      SimpleSelector.WellFormed, EngineFunction.AllWellFormed, EngineFunction.WellFormed,
      Argument.AllWellFormed]
    exact ⟨List.cons_ne_nil _ _, last rfl, ⟨Or.inr (List.cons_ne_nil _ _), nofun,
      ⟨isFunctionName_x, trivial⟩, trivial⟩, trivial⟩

/-- The arguments are read back, and a selector of the list is not. -/
theorem childArguments_and_bareSelectors :
    (∃ parsed, parseArguments (argumentsText childArguments) = .ok parsed ∧
      Argument.equalList parsed childArguments = true) ∧
    parseSelector bareSelectors.text = .error ⟨.unexpectedToken ")", bareSelectors.text⟩ := by
  obtain ⟨ofArguments, ofSelectors⟩ := parse_text_of_wellFormed
  refine ⟨(ofArguments childArguments (List.cons_ne_nil _ _) childArguments_wellFormed).1 rfl,
    (ofSelectors bareSelectors (List.cons_ne_nil _ _) bareSelectors_wellFormed).2 rfl⟩

end SelectorLang
