import SelectorLang.Tree.Basic

/-! # Walks through a tree

A walk goes through a tree in the order it is written, a function before what is in its
arguments (`SelectorLang.ComplexSelector.walk`). Trees nest through the arguments of functions
only: what holds of a selector as soon as it holds of the selectors in the arguments of its
functions holds of all selectors (`SelectorLang.ComplexSelector.induction`).

What a walk comes to again and again may count only the first time, and only if it was not
known before (`SelectorLang.firsts`).
-/

namespace SelectorLang

/-- What a walk comes to. -/
inductive Visited where
  /-- A function with a name. -/
  | function (name : String)
  /-- A string among the arguments of a function. -/
  | string (value : String)

namespace Visited

/-- The name of a function. -/
def name? : Visited → Option String
  | function name => some name
  | string _ => none

/-- A string. -/
def string? : Visited → Option String
  | function _ => none
  | string value => some value

end Visited

mutual

/-- What a walk through an argument comes to; numbers are passed over. -/
def Argument.walk : Argument → List Visited
  | .selector selector => selector.walk
  | .number _ => []
  | .string value => [.string value]

/-- What a walk through some arguments comes to. -/
def Argument.walkAll : List Argument → List Visited
  | [] => []
  | argument :: rest => argument.walk ++ Argument.walkAll rest

/-- What a walk through a function comes to: its name first. -/
def EngineFunction.walk : EngineFunction → List Visited
  | ⟨name, arguments⟩ => .function name :: Argument.walkAll arguments

/-- What a walk through some functions comes to. -/
def EngineFunction.walkAll : List EngineFunction → List Visited
  | [] => []
  | function :: rest => function.walk ++ EngineFunction.walkAll rest

/-- What a walk through a simple selector comes to. -/
def SimpleSelector.walk : SimpleSelector → List Visited
  | ⟨_, functions⟩ => EngineFunction.walkAll functions

/-- What a walk through a part comes to. -/
def Part.walk : Part → List Visited
  | ⟨selector, _⟩ => selector.walk

/-- What a walk through some parts comes to. -/
def Part.walkAll : List Part → List Visited
  | [] => []
  | part :: rest => part.walk ++ Part.walkAll rest

/-- What a walk through a complex selector comes to. -/
def ComplexSelector.walk : ComplexSelector → List Visited
  | ⟨parts⟩ => Part.walkAll parts

end

theorem Argument.walkAll_eq_flatMap (arguments : List Argument) :
    Argument.walkAll arguments = arguments.flatMap Argument.walk := by
  induction arguments with
  | nil => rfl
  | cons argument rest ih => exact congrArg (argument.walk ++ ·) ih

theorem EngineFunction.walkAll_eq_flatMap (functions : List EngineFunction) :
    EngineFunction.walkAll functions = functions.flatMap EngineFunction.walk := by
  induction functions with
  | nil => rfl
  | cons function rest ih => exact congrArg (function.walk ++ ·) ih

theorem Part.walkAll_eq_flatMap (parts : List Part) :
    Part.walkAll parts = parts.flatMap Part.walk := by
  induction parts with
  | nil => rfl
  | cons part rest ih => exact congrArg (part.walk ++ ·) ih

/-! ## Selectors through their functions -/

/-- The functions of the parts of a selector, not those in their arguments. -/
def ComplexSelector.functions (selector : ComplexSelector) : List EngineFunction :=
  selector.parts.flatMap fun part => part.selector.functions

/-- A walk through a selector is a walk through its functions. -/
theorem ComplexSelector.walk_eq (selector : ComplexSelector) :
    selector.walk = selector.functions.flatMap EngineFunction.walk := by
  have ofPart (part : Part) : part.walk = part.selector.functions.flatMap EngineFunction.walk := by
    obtain ⟨⟨rawText, functions⟩, combinator⟩ := part
    rw [Part.walk, SimpleSelector.walk, EngineFunction.walkAll_eq_flatMap]
  obtain ⟨parts⟩ := selector
  rw [ComplexSelector.functions, List.flatMap_assoc, ← funext ofPart, ComplexSelector.walk,
    Part.walkAll_eq_flatMap]

/-- A walk through a function is one through its arguments, behind its name. -/
theorem EngineFunction.walk_eq (function : EngineFunction) :
    function.walk = .function function.name :: function.arguments.flatMap Argument.walk := by
  obtain ⟨name, arguments⟩ := function
  rw [EngineFunction.walk, Argument.walkAll_eq_flatMap]

/-- **Induction on the nesting of selectors**: what holds of a selector as soon as it holds of
the selectors in the arguments of its functions holds of all selectors. -/
theorem ComplexSelector.induction {motive : ComplexSelector → Prop}
    (nested : ∀ selector : ComplexSelector,
      (∀ function ∈ selector.functions, ∀ inner, .selector inner ∈ function.arguments →
        motive inner) → motive selector)
    (selector : ComplexSelector) : motive selector := by
  -- What is known of a function, in whatever list it stands.
  let InArguments (function : EngineFunction) : Prop :=
    ∀ inner, .selector inner ∈ function.arguments → motive inner
  refine @ComplexSelector.rec (fun argument => ∀ inner, argument = .selector inner → motive inner)
    InArguments (fun simple => ∀ function ∈ simple.functions, InArguments function)
    (fun part => ∀ function ∈ part.selector.functions, InArguments function) motive
    (fun arguments => ∀ inner, .selector inner ∈ arguments → motive inner)
    (fun functions => ∀ function ∈ functions, InArguments function)
    (fun parts => ∀ part ∈ parts, ∀ function ∈ part.selector.functions, InArguments function)
    ?selector ?number ?string (fun _ _ inArguments => inArguments)
    (fun _ _ inFunctions => inFunctions) (fun _ _ inSimple => inSimple) ?complex
    (fun _ member => absurd member List.not_mem_nil) ?argument (List.forall_mem_nil _)
    (fun _ _ first others => List.forall_mem_cons.mpr ⟨first, others⟩) (List.forall_mem_nil _)
    (fun _ _ first others => List.forall_mem_cons.mpr ⟨first, others⟩) selector
  case selector =>
    intro selector holds inner same
    exact Argument.selector.inj same ▸ holds
  case number =>
    intro value inner same
    contradiction
  case string =>
    intro value inner same
    contradiction
  case complex =>
    intro parts inParts
    refine nested ⟨parts⟩ fun function member => ?_
    obtain ⟨part, isPart, inPart⟩ := List.mem_flatMap.mp member
    exact inParts part isPart function inPart
  case argument =>
    intro argument rest first others inner member
    rcases List.mem_cons.mp member with same | later
    · exact first inner same.symm
    · exact others inner later

/-! ## The first of each -/

section Firsts

/-- The first of each of some texts, those left out that are known. -/
def firsts (known : String → Bool) (items : List String) : List String :=
  (items.filter fun item => !known item).eraseDups

variable {known : String → Bool} {item : String} {items : List String}

theorem firsts_of_nothing_known (items : List String) :
    firsts (fun _ => false) items = items.eraseDups :=
  congrArg List.eraseDups (List.filter_eq_self.mpr fun _ _ => rfl)

/-- A known text is passed over. -/
theorem firsts_cons_of_known (isKnown : known item = true) :
    firsts known (item :: items) = firsts known items := by
  rw [firsts, List.filter_cons_of_neg (by rw [isKnown]; exact Bool.false_ne_true)]
  rfl

/-- A text that is not known comes first, and is known from then on. -/
theorem firsts_cons_of_unknown {known' : String → Bool} (unknown : known item = false)
    (learnt : ∀ other, known' other = (known other || other == item)) :
    firsts known (item :: items) = item :: firsts known' items := by
  have left (other : String) : (!other == item && !known other) = !known' other := by
    rw [learnt, Bool.not_or, Bool.and_comm]
  rw [firsts, List.filter_cons_of_pos (by rw [unknown]; rfl), List.eraseDups_cons,
    List.filter_filter, funext left]
  rfl

theorem mem_firsts : item ∈ firsts known items ↔ item ∈ items ∧ known item = false := by
  rw [firsts, List.mem_eraseDups, List.mem_filter, Bool.not_eq_true']

theorem nodup_firsts (known : String → Bool) (items : List String) :
    (firsts known items).Nodup := by
  induction items generalizing known with
  | nil => exact List.nodup_nil
  | cons item items ih =>
      cases isKnown : known item with
      | true =>
          rw [firsts_cons_of_known isKnown]
          exact ih known
      | false =>
          rw [firsts_cons_of_unknown isKnown fun _ => rfl, List.nodup_cons]
          refine ⟨fun again => ?_, ih _⟩
          have later := (mem_firsts.mp again).2
          rw [BEq.rfl, Bool.or_true] at later
          contradiction

end Firsts

end SelectorLang
