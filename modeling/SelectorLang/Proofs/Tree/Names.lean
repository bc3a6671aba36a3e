import SelectorLang.Proofs.Tree.Walk
import SelectorLang.Tree.Names

/-! # The functions in use are those that a walk comes to

Noting the names of a selector list is keeping the first of each name that a walk through the
list comes to, and the names noted are those of the functions that stand anywhere in it,
however deep (`SelectorLang.SelectorList.functionNames_eq_eraseDups`).
-/

namespace SelectorLang

/-- The names of the functions that a walk came to, in its order. -/
def names (visited : List Visited) : List String :=
  visited.filterMap Visited.name?

theorem names_append (front rest : List Visited) :
    names (front ++ rest) = names front ++ names rest :=
  List.filterMap_append

theorem mem_names {visited : List Visited} {name : String} :
    name ∈ names visited ↔ .function name ∈ visited := by
  rw [names, List.mem_filterMap]
  constructor
  · rintro ⟨item, member, named⟩
    cases item with
    | function other => exact Option.some.inj named ▸ member
    | string value => contradiction
  · exact fun member => ⟨_, member, rfl⟩

/-- A function stands in a selector, in one of its parts or in the arguments of a function
there. -/
inductive EngineFunction.StandsIn (function : EngineFunction) : ComplexSelector → Prop
  | part {selector : ComplexSelector} (member : function ∈ selector.functions) :
      function.StandsIn selector
  | argument {selector inner : ComplexSelector} {outer : EngineFunction}
      (member : outer ∈ selector.functions) (isArgument : .selector inner ∈ outer.arguments)
      (nested : function.StandsIn inner) : function.StandsIn selector

/-! ## Noting names -/

/-- Noting names adds the first of each that was not seen before. -/
theorem foldl_noteName (seen names : List String) :
    names.foldl noteName seen = seen ++ firsts seen.contains names := by
  induction names generalizing seen with
  | nil => exact (List.append_nil seen).symm
  | cons name names ih =>
      rw [List.foldl_cons, ih, noteName]
      cases known : seen.contains name with
      | true => rw [if_pos rfl, firsts_cons_of_known known]
      | false =>
          have learnt (other : String) :
              (seen ++ [name]).contains other = (seen.contains other || other == name) := by
            rw [List.contains_append, List.contains_cons, List.contains_nil, Bool.or_false]
          rw [if_neg Bool.false_ne_true, List.append_assoc, firsts_cons_of_unknown known learnt]
          rfl

/-- Noting what is in some items, one behind the other, is noting the names that a walk
through them comes to, when it is so for each of them. -/
theorem foldl_note {α : Type} {note : List String → α → List String} {walk : α → List Visited}
    {items : List α}
    (each : ∀ item ∈ items, ∀ seen, note seen item = (names (walk item)).foldl noteName seen)
    (seen : List String) :
    items.foldl note seen = (names (items.flatMap walk)).foldl noteName seen := by
  induction items generalizing seen with
  | nil => rfl
  | cons item items ih =>
      obtain ⟨first, others⟩ := List.forall_mem_cons.mp each
      rw [List.foldl_cons, first, ih others, List.flatMap_cons, names_append, List.foldl_append]

theorem ComplexSelector.noteNames_eq_foldl (selector : ComplexSelector) (seen : List String) :
    selector.noteNames seen = selector.functions.foldl EngineFunction.noteNames seen := by
  have ofPart (seen : List String) (part : Part) :
      part.noteNames seen = part.selector.functions.foldl EngineFunction.noteNames seen := by
    obtain ⟨⟨rawText, functions⟩, combinator⟩ := part
    rw [Part.noteNames, SimpleSelector.noteNames, EngineFunction.noteNamesAll_eq_foldl]
  obtain ⟨parts⟩ := selector
  rw [ComplexSelector.noteNames, Part.noteNamesAll_eq_foldl, ComplexSelector.functions,
    List.foldl_flatMap, ← funext fun seen => funext (ofPart seen)]

/-- **Noting the names of a selector is noting those that a walk through it comes to.** -/
theorem ComplexSelector.noteNames_eq (selector : ComplexSelector) (seen : List String) :
    selector.noteNames seen = (names selector.walk).foldl noteName seen := by
  induction selector using ComplexSelector.induction generalizing seen with
  | nested selector ih =>
      rw [selector.noteNames_eq_foldl, selector.walk_eq]
      refine foldl_note (fun function member seen => ?_) seen
      obtain ⟨name, arguments⟩ := function
      rw [EngineFunction.noteNames, Argument.noteNamesAll_eq_foldl, EngineFunction.walk_eq]
      refine foldl_note (fun argument isArgument seen => ?_) (noteName seen name)
      cases argument with
      | selector inner =>
          rw [Argument.noteNames, Argument.walk]
          exact ih _ member inner isArgument seen
      | number => rfl
      | string => rfl

/-! ## Functions at any depth -/

/-- A walk through a selector comes to the names of its functions and to those in the
selectors among their arguments. -/
theorem mem_names_walk {selector : ComplexSelector} {name : String} :
    name ∈ names selector.walk ↔ ∃ function ∈ selector.functions, name = function.name ∨
      ∃ inner, .selector inner ∈ function.arguments ∧ name ∈ names inner.walk := by
  have inArguments (arguments : List Argument) :
      (∃ argument ∈ arguments, .function name ∈ argument.walk) ↔
        ∃ inner, .selector inner ∈ arguments ∧ .function name ∈ inner.walk := by
    constructor
    · rintro ⟨argument, isArgument, inside⟩
      cases argument with
      | selector inner => exact ⟨inner, isArgument, inside⟩
      | number value => exact absurd inside List.not_mem_nil
      | string value => exact absurd (List.mem_singleton.mp inside) Visited.noConfusion
    · rintro ⟨inner, isArgument, inside⟩
      exact ⟨.selector inner, isArgument, inside⟩
  simp only [mem_names, selector.walk_eq, EngineFunction.walk_eq, List.mem_flatMap, List.mem_cons,
    Visited.function.injEq, inArguments]

/-- A walk comes to the names of the functions that stand in a selector. -/
theorem mem_names_walk_iff_standsIn {selector : ComplexSelector} {name : String} :
    name ∈ names selector.walk ↔
      ∃ function : EngineFunction, function.StandsIn selector ∧ function.name = name := by
  constructor
  · intro member
    induction selector using ComplexSelector.induction with
    | nested selector ih =>
        obtain ⟨function, inParts, rfl | ⟨inner, isArgument, inside⟩⟩ := mem_names_walk.mp member
        · exact ⟨function, .part inParts, rfl⟩
        · obtain ⟨found, stands, named⟩ := ih function inParts inner isArgument inside
          exact ⟨found, .argument inParts isArgument stands, named⟩
  · rintro ⟨function, stands, rfl⟩
    induction stands with
    | part member => exact mem_names_walk.mpr ⟨function, member, Or.inl rfl⟩
    | argument member isArgument _ ih =>
        exact mem_names_walk.mpr ⟨_, member, Or.inr ⟨_, isArgument, ih⟩⟩

/-! ## Selector lists -/

/-- The names of the functions in a selector list, each as often as it is used, in the order
of a walk. -/
def SelectorList.usedNames (list : SelectorList) : List String :=
  names (list.selectors.flatMap ComplexSelector.walk)

/-- **The functions in use are listed in the order of their first use**: of the names that a
walk comes to, the first of each is kept. No name is listed twice, and a name is listed when
some function at some depth has it. -/
theorem SelectorList.functionNames_eq_eraseDups (list : SelectorList) :
    list.functionNames = list.usedNames.eraseDups ∧ list.functionNames.Nodup ∧
      ∀ name, name ∈ list.functionNames ↔ ∃ selector ∈ list.selectors,
        ∃ function : EngineFunction, function.StandsIn selector ∧ function.name = name := by
  have noted : list.functionNames = firsts (fun _ => false) list.usedNames := by
    rw [SelectorList.functionNames,
      foldl_note (fun selector _ seen => selector.noteNames_eq seen) [], foldl_noteName]
    rfl
  refine ⟨noted.trans (firsts_of_nothing_known _), noted ▸ nodup_firsts _ _, fun name => ?_⟩
  simp only [noted, mem_firsts, and_true, SelectorList.usedNames, mem_names, List.mem_flatMap]
  simp only [← mem_names, mem_names_walk_iff_standsIn]

/-- A function that was noted before is still looked into. -/
example : SelectorList.functionNames ⟨[⟨[⟨⟨none, [⟨"x", []⟩,
    ⟨"x", [.selector ⟨[⟨⟨none, [⟨"y", []⟩]⟩, .descendant⟩]⟩]⟩]⟩, .descendant⟩]⟩]⟩ = ["x", "y"] := by
  decide +kernel

end SelectorLang
