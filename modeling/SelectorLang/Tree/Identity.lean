import SelectorLang.Tree.Basic

/-! # Identity of trees

Whether two trees are the same value can be decided. Identity is finer than equality:
the two zeros differ, and a value that is not a number is identical to itself.
-/

namespace SelectorLang

mutual

/-- Decides whether two arguments are the same. -/
def Argument.decideSame : (first second : Argument) → Decidable (first = second)
  | .selector selector, .selector selector' =>
    match selector.decideSame selector' with
    | isTrue same => isTrue (same ▸ rfl)
    | isFalse different => isFalse fun whole => different (Argument.selector.inj whole)
  | .number value, .number value' =>
    if same : value = value' then isTrue (same ▸ rfl)
    else isFalse fun whole => same (Argument.number.inj whole)
  | .string value, .string value' =>
    if same : value = value' then isTrue (same ▸ rfl)
    else isFalse fun whole => same (Argument.string.inj whole)
  | .selector _, .number _ | .selector _, .string _ | .number _, .selector _
  | .number _, .string _ | .string _, .selector _ | .string _, .number _ => isFalse nofun

/-- Decides whether two argument lists are the same. -/
def Argument.decideSameList : (first second : List Argument) → Decidable (first = second)
  | [], [] => isTrue rfl
  | [], _ :: _ | _ :: _, [] => isFalse nofun
  | argument :: rest, argument' :: rest' =>
    match argument.decideSame argument', Argument.decideSameList rest rest' with
    | isTrue same, isTrue sameRest => isTrue (same ▸ sameRest ▸ rfl)
    | isFalse different, _ => isFalse fun whole => different (List.cons.inj whole).1
    | _, isFalse different => isFalse fun whole => different (List.cons.inj whole).2

/-- Decides whether two functions are the same. -/
def EngineFunction.decideSame : (first second : EngineFunction) → Decidable (first = second)
  | ⟨name, arguments⟩, ⟨name', arguments'⟩ =>
    if same : name = name' then
      match Argument.decideSameList arguments arguments' with
      | isTrue sameArguments => isTrue (same ▸ sameArguments ▸ rfl)
      | isFalse different => isFalse fun whole => different (EngineFunction.mk.inj whole).2
    else isFalse fun whole => same (EngineFunction.mk.inj whole).1

/-- Decides whether two function lists are the same. -/
def EngineFunction.decideSameList :
    (first second : List EngineFunction) → Decidable (first = second)
  | [], [] => isTrue rfl
  | [], _ :: _ | _ :: _, [] => isFalse nofun
  | function :: rest, function' :: rest' =>
    match function.decideSame function', EngineFunction.decideSameList rest rest' with
    | isTrue same, isTrue sameRest => isTrue (same ▸ sameRest ▸ rfl)
    | isFalse different, _ => isFalse fun whole => different (List.cons.inj whole).1
    | _, isFalse different => isFalse fun whole => different (List.cons.inj whole).2

/-- Decides whether two simple selectors are the same. -/
def SimpleSelector.decideSame : (first second : SimpleSelector) → Decidable (first = second)
  | ⟨rawText, functions⟩, ⟨rawText', functions'⟩ =>
    if same : rawText = rawText' then
      match EngineFunction.decideSameList functions functions' with
      | isTrue sameFunctions => isTrue (same ▸ sameFunctions ▸ rfl)
      | isFalse different => isFalse fun whole => different (SimpleSelector.mk.inj whole).2
    else isFalse fun whole => same (SimpleSelector.mk.inj whole).1

/-- Decides whether two parts are the same. -/
def Part.decideSame : (first second : Part) → Decidable (first = second)
  | ⟨selector, combinator⟩, ⟨selector', combinator'⟩ =>
    if same : combinator = combinator' then
      match selector.decideSame selector' with
      | isTrue sameSelector => isTrue (same ▸ sameSelector ▸ rfl)
      | isFalse different => isFalse fun whole => different (Part.mk.inj whole).1
    else isFalse fun whole => same (Part.mk.inj whole).2

/-- Decides whether two part lists are the same. -/
def Part.decideSameList : (first second : List Part) → Decidable (first = second)
  | [], [] => isTrue rfl
  | [], _ :: _ | _ :: _, [] => isFalse nofun
  | part :: rest, part' :: rest' =>
    match part.decideSame part', Part.decideSameList rest rest' with
    | isTrue same, isTrue sameRest => isTrue (same ▸ sameRest ▸ rfl)
    | isFalse different, _ => isFalse fun whole => different (List.cons.inj whole).1
    | _, isFalse different => isFalse fun whole => different (List.cons.inj whole).2

/-- Decides whether two complex selectors are the same. -/
def ComplexSelector.decideSame : (first second : ComplexSelector) → Decidable (first = second)
  | ⟨parts⟩, ⟨parts'⟩ =>
    match Part.decideSameList parts parts' with
    | isTrue same => isTrue (same ▸ rfl)
    | isFalse different => isFalse fun whole => different (ComplexSelector.mk.inj whole)

end

instance : DecidableEq Argument := Argument.decideSame

instance : DecidableEq ComplexSelector := ComplexSelector.decideSame

/-- What parsing comes to can be compared as well. -/
instance decideSameOutcome {ε α : Type} [DecidableEq ε] [DecidableEq α] : DecidableEq (Except ε α)
  | .ok first, .ok second => decidable_of_iff (first = second) (by rw [Except.ok.injEq])
  | .error first, .error second => decidable_of_iff (first = second) (by rw [Except.error.injEq])
  | .ok _, .error _ | .error _, .ok _ => isFalse nofun

instance : DecidableEq SelectorList := fun first second =>
  decidable_of_iff (first.selectors = second.selectors)
    ⟨fun same => by cases first; cases second; exact congrArg SelectorList.mk same,
      congrArg SelectorList.selectors⟩

end SelectorLang
