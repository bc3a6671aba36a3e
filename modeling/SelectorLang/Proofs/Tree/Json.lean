import SelectorLang.Proofs.Tree.Names
import SelectorLang.Tree.Json

/-! # Trees are told by their JSON values

JSON values are equal when they are built alike, with numbers compared numerically and the
fields of objects by their names, in whatever order they stand (`SelectorLang.Json.equal`). Trees
with finite numbers are shown as equal values exactly when they are equal
(`SelectorLang.ComplexSelector.json_equal`, `SelectorLang.json_equal_iff`): nothing marks what an
argument is, but objects, numbers and strings are told apart by themselves, and a simple selector
without native text by the field that it lacks.
-/

namespace SelectorLang

/-! ## Equality of JSON values -/

namespace Json

/-- The value of the field with a name. -/
def field? (name : String) (fields : List JsonField) : Option Json :=
  (fields.find? (·.name == name)).map JsonField.value

mutual

/-- Equality of JSON values. -/
def equal : Json → Json → Bool
  | null, null => true
  | number value, number value' => value.numericEq value'
  | string value, string value' => value == value'
  | array elements, array elements' => equalAll elements elements'
  | object fields, object fields' =>
    fields.length == fields'.length && equalFields fields fields'
  | _, _ => false

/-- Equality of elements, one by one. -/
def equalAll : List Json → List Json → Bool
  | [], [] => true
  | element :: rest, element' :: rest' => element.equal element' && equalAll rest rest'
  | _, _ => false

/-- Whether each of some fields is equal to the one of its name among others. -/
def equalFields : List JsonField → List JsonField → Bool
  | [], _ => true
  | ⟨name, value⟩ :: rest, fields =>
    (field? name fields).any (fun value' => value.equal value') && equalFields rest fields

end

/-- The order of fields does not matter. -/
example : equal (.object [⟨"name", .string "f"⟩, ⟨"args", .array []⟩])
    (.object [⟨"args", .array []⟩, ⟨"name", .string "f"⟩]) = true := by
  decide +kernel

variable {name name' : String}

theorem equal_object_one (name : String) (value value' : Json) :
    (object [⟨name, value⟩]).equal (object [⟨name, value'⟩]) = value.equal value' := by
  simp [equal, equalFields, field?]

theorem equal_object_two (apart : name ≠ name') (value value' other other' : Json) :
    (object [⟨name, value⟩, ⟨name', other⟩]).equal (object [⟨name, value'⟩, ⟨name', other'⟩]) =
      (value.equal value' && other.equal other') := by
  simp [equal, equalFields, field?, apart]

end Json

/-! ## Lists compared one by one -/

section Lists

variable {α : Type} {same : α → α → Bool} {items items' : List α}

/-- A comparison of lists that goes through both of them is `List.isEqv`. -/
theorem eq_isEqv {all : List α → List α → Bool} (none : all [] [] = true)
    (more : ∀ item rest, all [] (item :: rest) = false)
    (fewer : ∀ item rest, all (item :: rest) [] = false)
    (both : ∀ item rest item' rest',
      all (item :: rest) (item' :: rest') = (same item item' && all rest rest')) :
    all items items' = items.isEqv items' same := by
  induction items generalizing items' with
  | nil =>
      cases items' with
      | nil => exact none
      | cons item' rest' => exact more item' rest'
  | cons item rest ih =>
      cases items' with
      | nil => exact fewer item rest
      | cons item' rest' => rw [both, ih, List.isEqv]

/-- Arrays compare like the lists they show when their elements compare like the items. -/
theorem Json.equal_array_map {json : α → Json}
    (each : ∀ item ∈ items, ∀ item' ∈ items', (json item).equal (json item') = same item item') :
    (Json.array (items.map json)).equal (.array (items'.map json)) = items.isEqv items' same := by
  rw [Json.equal, @eq_isEqv _ equal _ _ equalAll rfl (fun _ _ => rfl) (fun _ _ => rfl)
    fun _ _ _ _ => rfl]
  induction items generalizing items' with
  | nil => cases items' <;> rfl
  | cons item rest ih =>
      cases items' with
      | nil => rfl
      | cons item' rest' =>
          rw [List.map_cons, List.map_cons, List.isEqv, List.isEqv,
            each item List.mem_cons_self item' List.mem_cons_self,
            ih fun inner member inner' member' =>
              each inner (List.mem_cons_of_mem _ member) inner' (List.mem_cons_of_mem _ member')]

theorem Argument.equalList_eq_isEqv (arguments arguments' : List Argument) :
    Argument.equalList arguments arguments' = arguments.isEqv arguments' Argument.equal :=
  eq_isEqv (by simp only [equalList]) (fun _ _ => by simp only [equalList])
    (fun _ _ => by simp only [equalList]) fun _ _ _ _ => by simp only [equalList]

theorem EngineFunction.equalList_eq_isEqv (functions functions' : List EngineFunction) :
    EngineFunction.equalList functions functions' =
      functions.isEqv functions' EngineFunction.equal :=
  eq_isEqv (by simp only [equalList]) (fun _ _ => by simp only [equalList])
    (fun _ _ => by simp only [equalList]) fun _ _ _ _ => by simp only [equalList]

theorem Part.equalList_eq_isEqv (parts parts' : List Part) :
    Part.equalList parts parts' = parts.isEqv parts' Part.equal :=
  eq_isEqv (by simp only [equalList]) (fun _ _ => by simp only [equalList])
    (fun _ _ => by simp only [equalList]) fun _ _ _ _ => by simp only [equalList]

end Lists

/-! ## Trees with finite numbers -/

/-- The numbers among the arguments of all functions in a selector, at any depth, are finite. -/
def ComplexSelector.HasFiniteNumbers (selector : ComplexSelector) : Prop :=
  ∀ function : EngineFunction, function.StandsIn selector →
    ∀ value, .number value ∈ function.arguments → value.isFinite = true

/-- The numbers in an argument are finite. -/
def Argument.HasFiniteNumbers : Argument → Prop
  | .selector inner => inner.HasFiniteNumbers
  | .number value => value.isFinite = true
  | .string _ => True

/-- The numbers in a selector list are finite. -/
def SelectorList.HasFiniteNumbers (list : SelectorList) : Prop :=
  ∀ selector ∈ list.selectors, selector.HasFiniteNumbers

/-- The numbers in a selector are those in the arguments of its functions. -/
theorem ComplexSelector.hasFiniteNumbers_iff {selector : ComplexSelector} :
    selector.HasFiniteNumbers ↔
      ∀ function ∈ selector.functions, ∀ argument ∈ function.arguments,
        argument.HasFiniteNumbers := by
  constructor
  · intro finite function member argument isArgument
    cases argument with
    | selector inner =>
        exact fun nested stands => finite nested (.argument member isArgument stands)
    | number value => exact finite function (.part member) value isArgument
    | string value => exact trivial
  · intro finite function stands value isArgument
    cases stands with
    | part member => exact finite function member (.number value) isArgument
    | argument member isInner nested =>
        exact finite _ member _ isInner function nested value isArgument

/-! ## What trees are shown as -/

theorem Combinator.json_equal (combinator combinator' : Combinator) :
    (Json.string combinator.sign).equal (.string combinator'.sign) =
      (combinator == combinator') := by
  cases combinator <;> cases combinator' <;> decide +kernel

theorem EngineFunction.json_equal {function function' : EngineFunction}
    (each : ∀ argument ∈ function.arguments, ∀ argument' ∈ function'.arguments,
      argument.json.equal argument'.json = argument.equal argument') :
    function.json.equal function'.json = function.equal function' := by
  obtain ⟨name, arguments⟩ := function
  obtain ⟨name', arguments'⟩ := function'
  rw [EngineFunction.json, EngineFunction.json, Json.equal_object_two (by decide),
    Argument.jsonAll_eq_map, Argument.jsonAll_eq_map, Json.equal_array_map each,
    EngineFunction.equal, Argument.equalList_eq_isEqv, Json.equal]

theorem SimpleSelector.json_equal {selector selector' : SimpleSelector}
    (each : ∀ function ∈ selector.functions, ∀ function' ∈ selector'.functions,
      function.json.equal function'.json = function.equal function') :
    selector.json.equal selector'.json = selector.equal selector' := by
  obtain ⟨rawText, functions⟩ := selector
  obtain ⟨rawText', functions'⟩ := selector'
  have shown := Json.equal_array_map each
  rw [← EngineFunction.jsonAll_eq_map, ← EngineFunction.jsonAll_eq_map,
    ← EngineFunction.equalList_eq_isEqv] at shown
  rw [SimpleSelector.equal, ← shown]
  cases rawText with
  | none =>
      cases rawText' with
      | none => exact Json.equal_object_one _ _ _
      | some text' => rfl
  | some text =>
      cases rawText' with
      | none => rfl
      | some text' => exact Json.equal_object_two (by decide) _ _ _ _

theorem Part.json_equal {part part' : Part}
    (each : ∀ function ∈ part.selector.functions, ∀ function' ∈ part'.selector.functions,
      function.json.equal function'.json = function.equal function') :
    part.json.equal part'.json = part.equal part' := by
  obtain ⟨selector, combinator⟩ := part
  obtain ⟨selector', combinator'⟩ := part'
  rw [Part.json, Part.json, Json.equal_object_two (by decide), SimpleSelector.json_equal each,
    Combinator.json_equal, Part.equal]

/-- A selector is shown as an object with one field. -/
theorem ComplexSelector.json_eq (selector : ComplexSelector) :
    selector.json = .object [⟨"parts", .array (selector.parts.map Part.json)⟩] := by
  obtain ⟨parts⟩ := selector
  rw [ComplexSelector.json, Part.jsonAll_eq_map]

theorem ComplexSelector.json_equal_of_functions {selector selector' : ComplexSelector}
    (each : ∀ function ∈ selector.functions, ∀ function' ∈ selector'.functions,
      function.json.equal function'.json = function.equal function') :
    selector.json.equal selector'.json = selector.equal selector' := by
  obtain ⟨parts⟩ := selector
  obtain ⟨parts'⟩ := selector'
  have inParts : ∀ part ∈ parts, ∀ part' ∈ parts',
      part.json.equal part'.json = part.equal part' := fun part member part' member' =>
    Part.json_equal fun function inPart function' inPart' =>
      each function (List.mem_flatMap.mpr ⟨part, member, inPart⟩)
        function' (List.mem_flatMap.mpr ⟨part', member', inPart'⟩)
  rw [ComplexSelector.json_eq, ComplexSelector.json_eq, Json.equal_object_one,
    Json.equal_array_map inParts, ComplexSelector.equal, Part.equalList_eq_isEqv]

/-- Arguments are told apart by the kind of value that they are shown as. -/
theorem Argument.json_equal_of_selectors {argument argument' : Argument}
    (finite : argument.HasFiniteNumbers) (finite' : argument'.HasFiniteNumbers)
    (each : ∀ inner inner', argument = .selector inner → argument' = .selector inner' →
      inner.json.equal inner'.json = inner.equal inner') :
    argument.json.equal argument'.json = argument.equal argument' := by
  cases argument <;> cases argument'
  case selector.selector inner inner' =>
    rw [Argument.json, Argument.json, Argument.equal]
    exact each inner inner' rfl rfl
  -- A finite number is shown as itself, so that the two values show of which kind each one is.
  all_goals
    unfold Argument.HasFiniteNumbers at finite finite'
    simp only [Argument.json, ComplexSelector.json_eq, Binary64.json, finite, finite', ↓reduceIte,
      Json.equal, Argument.equal]

/-- **Selectors with finite numbers are shown as equal values exactly when they are equal.** -/
theorem ComplexSelector.json_equal {selector selector' : ComplexSelector}
    (finite : selector.HasFiniteNumbers) (finite' : selector'.HasFiniteNumbers) :
    selector.json.equal selector'.json = selector.equal selector' := by
  induction selector using ComplexSelector.induction generalizing selector' with
  | nested selector ih =>
      rw [hasFiniteNumbers_iff] at finite finite'
      refine ComplexSelector.json_equal_of_functions fun function member function' member' =>
        EngineFunction.json_equal fun argument isArgument argument' isArgument' => ?_
      have finiteArgument := finite function member argument isArgument
      have finiteArgument' := finite' function' member' argument' isArgument'
      refine Argument.json_equal_of_selectors finiteArgument finiteArgument' ?_
      rintro inner inner' rfl rfl
      exact ih function member inner isArgument finiteArgument finiteArgument'

theorem Argument.json_equal {argument argument' : Argument}
    (finite : argument.HasFiniteNumbers) (finite' : argument'.HasFiniteNumbers) :
    argument.json.equal argument'.json = argument.equal argument' := by
  refine Argument.json_equal_of_selectors finite finite' ?_
  rintro inner inner' rfl rfl
  exact ComplexSelector.json_equal finite finite'

/-- Argument lists with finite numbers are shown as equal values exactly when they are equal. -/
theorem argumentsJson_equal {arguments arguments' : List Argument}
    (finite : ∀ argument ∈ arguments, argument.HasFiniteNumbers)
    (finite' : ∀ argument ∈ arguments', argument.HasFiniteNumbers) :
    (argumentsJson arguments).equal (argumentsJson arguments') =
      Argument.equalList arguments arguments' := by
  rw [argumentsJson, argumentsJson, Argument.jsonAll_eq_map, Argument.jsonAll_eq_map,
    Argument.equalList_eq_isEqv]
  exact Json.equal_array_map fun argument member argument' member' =>
    Argument.json_equal (finite argument member) (finite' argument' member')

/-- **Nothing is lost in JSON.** Two argument lists, or two selector lists, of whatever shape and
depth, are shown as equal values if and only if they are equal, unless there is a number in them
that is not finite. -/
theorem json_equal_iff :
    (∀ arguments arguments' : List Argument,
        (∀ argument ∈ arguments, argument.HasFiniteNumbers) →
          (∀ argument ∈ arguments', argument.HasFiniteNumbers) →
            ((argumentsJson arguments).equal (argumentsJson arguments') = true ↔
              Argument.equalList arguments arguments' = true)) ∧
      ∀ list list' : SelectorList, list.HasFiniteNumbers → list'.HasFiniteNumbers →
        (list.json.equal list'.json = true ↔ list.equal list' = true) := by
  refine ⟨fun arguments arguments' finite finite' => ?_, fun list list' finite finite' => ?_⟩
  · rw [argumentsJson_equal finite finite']
  · have inList {list : SelectorList} (finite : list.HasFiniteNumbers) :
        ∀ argument ∈ list.selectors.map Argument.selector, argument.HasFiniteNumbers :=
      List.forall_mem_map.mpr finite
    rw [list.json_eq_argumentsJson, list'.json_eq_argumentsJson,
      argumentsJson_equal (inList finite) (inList finite'), SelectorList.equal]

/-- A selector with a zero of either sign in the arguments of a function. -/
def zeroInside (negative : Bool) : ComplexSelector :=
  ⟨[⟨⟨some "a", [⟨"f", [.number (.zero negative), .string "x"]⟩]⟩, .child⟩]⟩

/-- A selector without functions. -/
def nativeOnly (rawText : Option String) : ComplexSelector :=
  ⟨[⟨⟨rawText, []⟩, .descendant⟩]⟩

theorem signedZeros_and_emptyText_shown :
    (∀ negative, ∀ argument ∈ [Argument.selector (zeroInside negative)],
        argument.HasFiniteNumbers) ∧
      (∀ rawText, (SelectorList.mk [nativeOnly rawText]).HasFiniteNumbers) ∧
      (argumentsJson [.selector (zeroInside true)]).equal
          (argumentsJson [.selector (zeroInside false)]) = true ∧
        Argument.equalList [.selector (zeroInside true)] [.selector (zeroInside false)] = true ∧
      (SelectorList.mk [nativeOnly none]).json.equal
          (SelectorList.mk [nativeOnly (some "")]).json = false ∧
        (SelectorList.mk [nativeOnly none]).equal ⟨[nativeOnly (some "")]⟩ = false := by
  have finite (negative : Bool) : ∀ argument ∈ [Argument.selector (zeroInside negative)],
      argument.HasFiniteNumbers := by
    rw [List.forall_mem_singleton, Argument.HasFiniteNumbers,
      ComplexSelector.hasFiniteNumbers_iff]
    exact List.forall_mem_singleton.mpr
      (List.forall_mem_cons.mpr ⟨rfl, List.forall_mem_singleton.mpr trivial⟩)
  have finiteNative (rawText : Option String) :
      (SelectorList.mk [nativeOnly rawText]).HasFiniteNumbers :=
    List.forall_mem_singleton.mpr (ComplexSelector.hasFiniteNumbers_iff.mpr
      fun function member => absurd member List.not_mem_nil)
  have zeros : (argumentsJson [.selector (zeroInside true)]).equal
      (argumentsJson [.selector (zeroInside false)]) = true := by decide +kernel
  have texts : (SelectorList.mk [nativeOnly none]).json.equal
      (SelectorList.mk [nativeOnly (some "")]).json = false := by decide +kernel
  exact ⟨finite, finiteNative, zeros,
    (json_equal_iff.1 _ _ (finite true) (finite false)).mp zeros, texts,
    Bool.eq_false_iff.mpr fun equal => Bool.eq_false_iff.mp texts
      ((json_equal_iff.2 _ _ (finiteNative none) (finiteNative (some ""))).mpr equal)⟩

end SelectorLang
