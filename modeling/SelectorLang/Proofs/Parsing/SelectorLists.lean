import SelectorLang.Document

/-! # Selector lists as argument lists

A selector list is an argument list with nothing but selectors in it
(`SelectorLang.SelectorList.ofArguments?_eq_some_iff`). A text that is read as a selector
list is therefore read as an argument list as well, and fails as one in the same way unless
only the kind of its arguments is wrong (`SelectorLang.parseSelector_cases`). What is said of
argument lists holds of documents of either kind through the arguments at their top
(`SelectorLang.Document.topArguments`).
-/

namespace SelectorLang

/-- An argument list is a selector list when its arguments are those selectors. -/
theorem SelectorList.ofArguments?_eq_some_iff {arguments : List Argument} {list : SelectorList} :
    SelectorList.ofArguments? arguments = some list ↔
      arguments = list.selectors.map .selector := by
  constructor
  · intro whole
    obtain ⟨selectors, mapped, rfl⟩ := Option.map_eq_some_iff.mp whole
    clear whole
    induction arguments generalizing selectors with
    | nil =>
        cases mapped
        rfl
    | cons argument rest ih =>
        rw [List.mapM_cons] at mapped
        obtain ⟨selector, isSelector, mapped⟩ := Option.bind_eq_some_iff.mp mapped
        obtain ⟨others, mappedRest, same⟩ := Option.bind_eq_some_iff.mp mapped
        cases same
        cases argument with
        | selector complex =>
            cases isSelector
            exact congrArg (List.cons _) (ih others mappedRest)
        | number => contradiction
        | string => contradiction
  · rintro rfl
    obtain ⟨selectors⟩ := list
    refine Option.map_eq_some_iff.mpr ⟨selectors, ?_, rfl⟩
    dsimp only
    induction selectors with
    | nil => rfl
    | cons selector rest ih =>
        rw [List.map_cons, List.mapM_cons, ih]
        rfl

section Outcomes

variable {ε α β : Type} {first : Except ε α} {value : β}

theorem bind_eq_ok_iff {next : α → Except ε β} :
    first.bind next = .ok value ↔ ∃ middle, first = .ok middle ∧ next middle = .ok value := by
  cases first <;> simp [Except.bind]

theorem map_eq_ok_iff {change : α → β} :
    first.map change = .ok value ↔ ∃ middle, first = .ok middle ∧ change middle = value := by
  cases first <;> simp [Except.map]

end Outcomes

/-! ## Reading and parsing -/

/-- The selector list that an argument list of a text is, or the failure that it is none. -/
def SelectorList.ofRead (selector : String) (arguments : List Argument) :
    Except Failure SelectorList :=
  match SelectorList.ofArguments? arguments with
  | some list => .ok list
  | none => .error ⟨.notASelector, selector⟩

theorem SelectorList.ofRead_eq_ok_iff {selector : String} {arguments : List Argument}
    {list : SelectorList} :
    SelectorList.ofRead selector arguments = .ok list ↔
      arguments = list.selectors.map .selector := by
  rw [← SelectorList.ofArguments?_eq_some_iff, ofRead]
  cases SelectorList.ofArguments? arguments with
  | none => simp only [reduceCtorEq]
  | some found => rw [Except.ok.injEq, Option.some.injEq]

/-- Selector lists are read as argument lists first. -/
theorem readSelectorList_eq_bind (selector : String) (lexemes : List Lexeme) :
    readSelectorList selector lexemes =
      (readArguments selector lexemes).bind (SelectorList.ofRead selector) := by
  unfold readSelectorList
  cases readArguments selector lexemes <;> rfl

/-- Selector lists are parsed as argument lists first. -/
theorem parseSelector_eq_bind (text : String) :
    parseSelector text = (parseArguments text).bind (SelectorList.ofRead text) := by
  unfold parseSelector parseArguments
  cases lexemesOf text with
  | error failure => rfl
  | ok lexemes => exact readSelectorList_eq_bind text lexemes

/-- A text is parsed as a selector list when it is parsed as an argument list of the same
selectors. -/
theorem parseSelector_eq_ok_iff {text : String} {list : SelectorList} :
    parseSelector text = .ok list ↔
      parseArguments text = .ok (list.selectors.map .selector) := by
  rw [parseSelector_eq_bind, bind_eq_ok_iff]
  simp only [SelectorList.ofRead_eq_ok_iff, exists_eq_right]

theorem readSelectorList_eq_ok_iff {selector : String} {lexemes : List Lexeme}
    {list : SelectorList} :
    readSelectorList selector lexemes = .ok list ↔
      readArguments selector lexemes = .ok (list.selectors.map .selector) := by
  rw [readSelectorList_eq_bind, bind_eq_ok_iff]
  simp only [SelectorList.ofRead_eq_ok_iff, exists_eq_right]

/-- Reading an argument list never fails for the kind of its arguments. -/
theorem cause_of_readArguments {selector : String} {lexemes : List Lexeme} {failure : Failure}
    (fails : readArguments selector lexemes = .error failure) :
    failure.cause ≠ .notASelector := by
  unfold readArguments at fails
  split at fails
  · rename_i refused
    unfold checkSupported at refused
    split at refused <;> cases refused
    cases fails
    exact Cause.noConfusion
  · split at fails <;> cases fails
    rename_i unexpected _
    cases unexpected <;> exact Cause.noConfusion

theorem cause_of_parseArguments {text : String} {failure : Failure}
    (fails : parseArguments text = .error failure) : failure.cause ≠ .notASelector := by
  unfold parseArguments lexemesOf at fails
  cases cut : tokenize text with
  | error error =>
      rw [cut] at fails
      cases fails
      exact Cause.noConfusion
  | ok lexemes =>
      rw [cut] at fails
      exact cause_of_readArguments fails

/-- What a text is parsed as: nothing of either kind, a selector list, or an argument list
that is none of selectors. -/
theorem parseSelector_cases (text : String) :
    (∃ failure, parseArguments text = .error failure ∧ parseSelector text = .error failure ∧
        failure.cause ≠ .notASelector) ∨
      (∃ list : SelectorList, parseArguments text = .ok (list.selectors.map .selector) ∧
        parseSelector text = .ok list) ∨
      ∃ arguments, parseArguments text = .ok arguments ∧
        parseSelector text = .error ⟨.notASelector, text⟩ := by
  rw [parseSelector_eq_bind]
  cases parses : parseArguments text with
  | error failure => exact Or.inl ⟨failure, rfl, rfl, cause_of_parseArguments parses⟩
  | ok arguments =>
      cases whole : SelectorList.ofArguments? arguments with
      | some list =>
          obtain rfl := SelectorList.ofArguments?_eq_some_iff.mp whole
          exact Or.inr (Or.inl ⟨list, rfl, SelectorList.ofRead_eq_ok_iff.mpr rfl⟩)
      | none =>
          refine Or.inr (Or.inr ⟨arguments, rfl, ?_⟩)
          dsimp only [Except.bind, SelectorList.ofRead]
          rw [whole]

/-! ## Documents -/

namespace Document

/-- The arguments at the top of a document: the selectors of a list, or the arguments. -/
def topArguments : Document → List Argument
  | selectors list => list.selectors.map .selector
  | arguments list => list

/-- A document of either kind is read where its arguments are. -/
theorem readArguments_of_read {kind : Kind} {selector : String} {lexemes : List Lexeme}
    {document : Document} (reads : Document.read kind selector lexemes = .ok document) :
    readArguments selector lexemes = .ok document.topArguments := by
  cases kind with
  | selectorList =>
      obtain ⟨list, readsList, rfl⟩ := map_eq_ok_iff.mp reads
      exact readSelectorList_eq_ok_iff.mp readsList
  | argumentList =>
      obtain ⟨list, readsList, rfl⟩ := map_eq_ok_iff.mp reads
      exact readsList

/-- A document of either kind is parsed where its arguments are. -/
theorem parseArguments_of_parse {kind : Kind} {text : String} {document : Document}
    (parses : Document.parse kind text = .ok document) :
    parseArguments text = .ok document.topArguments := by
  cases kind with
  | selectorList =>
      obtain ⟨list, parsesList, rfl⟩ := map_eq_ok_iff.mp parses
      exact parseSelector_eq_ok_iff.mp parsesList
  | argumentList =>
      obtain ⟨list, parsesList, rfl⟩ := map_eq_ok_iff.mp parses
      exact parsesList

end Document

/-! ## What documents are shown as -/

theorem SelectorList.text_eq_argumentsText (list : SelectorList) :
    list.text = argumentsText (list.selectors.map .selector) := by
  rw [SelectorList.text, argumentsText, Argument.texts_eq_map, List.map_map]
  rfl

theorem SelectorList.warnings_eq_warningsAll (list : SelectorList) :
    list.warnings = Argument.warningsAll (list.selectors.map .selector) := by
  rw [SelectorList.warnings, Argument.warningsAll_eq_flatMap, List.flatMap_map]
  rfl

theorem SelectorList.filterMap_selector? (list : SelectorList) :
    (list.selectors.map Argument.selector).filterMap Argument.selector? = list.selectors := by
  rw [List.filterMap_map]
  exact List.filterMap_some

end SelectorLang
