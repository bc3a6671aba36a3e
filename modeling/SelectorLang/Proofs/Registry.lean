import SelectorLang.Proofs.Text.Quoted
import SelectorLang.Warning

/-! # What a registry remembers

The keys in a registry are those of the warnings that were reported since it was last cleared
(`SelectorLang.Registry.Remembers`): so it is at the start, and each call keeps it so
(`SelectorLang.Registry.Remembers.perform`). A key tells the component and the message of its
warning as long as there is no closing bracket in the component
(`SelectorLang.Warning.eq_of_key`), and then every call is answered by what was reported, whatever
the messages are (`SelectorLang.Registry.performAll_answers`).
-/

namespace SelectorLang

namespace Warning

/-- There is no closing bracket in the component, so that the key shows where it ends. -/
def HasPlainComponent (warning : Warning) : Prop :=
  ']' ∉ warning.component.toList

instance (warning : Warning) : Decidable warning.HasPlainComponent :=
  inferInstanceAs (Decidable (_ ∉ _))

/-- **Keys tell warnings apart** when their components are plain. -/
theorem eq_of_key {first second : Warning} (plain : first.HasPlainComponent)
    (plain' : second.HasPlainComponent) (same : first.key = second.key) : first = second := by
  have mark : "] ".toList = [']', ' '] := rfl
  have characters := congrArg String.toList same
  simp only [key, String.append_assoc, String.toList_append, mark] at characters
  have behind := List.append_cancel_left characters
  obtain ⟨components, messages⟩ := Text.append_cons_inj plain plain' behind
  have texts := List.append_cancel_left messages
  obtain ⟨component, message⟩ := first
  obtain ⟨component', message'⟩ := second
  rw [Warning.mk.injEq]
  exact ⟨String.toList_injective components, String.toList_injective texts⟩

/-- Reporting a new warning does print something. -/
theorem line_ne_empty (warning : Warning) : warning.line ≠ "" := by
  intro nothing
  have characters := congrArg String.toList nothing
  simp only [line, String.toList_append, List.append_assoc] at characters
  contradiction

end Warning

namespace Registry

variable {registry : Registry} {calls history : List Call} {call : Call} {warning : Warning}

/-! ## What was reported -/

/-- A call that names plain components only. -/
def Call.IsPlain : Call → Prop
  | .report warning | .ask warning => warning.HasPlainComponent
  | .clear => True

instance : (call : Call) → Decidable call.IsPlain
  | .report warning | .ask warning => inferInstanceAs (Decidable warning.HasPlainComponent)
  | .clear => isTrue trivial

/-- Calls have reported a warning since the registry was last cleared. -/
def Reported (calls : List Call) (warning : Warning) : Prop :=
  ∃ before after, calls = before ++ .report warning :: after ∧ .clear ∉ after

theorem not_reported_nil (warning : Warning) : ¬Reported [] warning := by
  rintro ⟨before, after, none, -⟩
  exact List.append_ne_nil_of_right_ne_nil before (List.cons_ne_nil _ _) none.symm

/-- A call reports its own warning, and takes back what was reported before if it clears. -/
theorem reported_append_singleton :
    Reported (calls ++ [call]) warning ↔
      call = .report warning ∨ call ≠ .clear ∧ Reported calls warning := by
  constructor
  · rintro ⟨before, after, same, kept⟩
    -- The last call of all is the report itself, or the last one behind it.
    rcases List.eq_nil_or_concat after with rfl | ⟨after, last, rfl⟩
    · exact Or.inl (List.cons.inj (List.append_inj' same rfl).2).1
    · rw [List.concat_eq_append, ← List.cons_append, ← List.append_assoc] at same
      obtain ⟨rfl, isLast⟩ := List.append_inj' same rfl
      rw [List.concat_eq_append, ← isLast, List.mem_append, not_or, List.mem_singleton] at kept
      exact Or.inr ⟨fun clears => kept.2 clears.symm, before, after, rfl, kept.1⟩
  · rintro (rfl | ⟨keeps, before, after, rfl, kept⟩)
    · exact ⟨calls, [], rfl, List.not_mem_nil⟩
    · refine ⟨before, after ++ [call], by rw [List.append_assoc]; rfl, ?_⟩
      rw [List.mem_append, not_or, List.mem_singleton]
      exact ⟨kept, keeps.symm⟩

theorem Reported.hasPlainComponent (reported : Reported calls warning)
    (plain : ∀ call ∈ calls, call.IsPlain) : warning.HasPlainComponent := by
  obtain ⟨before, after, rfl, -⟩ := reported
  exact plain (.report warning) (List.mem_append_right before List.mem_cons_self)

/-! ## The keys that are kept -/

/-- A registry remembers some calls when it has the keys of what they have reported. -/
def Remembers (registry : Registry) (calls : List Call) : Prop :=
  ∀ key, key ∈ registry.keys ↔ ∃ warning, Reported calls warning ∧ warning.key = key

theorem remembers_empty : empty.Remembers [] := by
  intro key
  refine iff_of_false List.not_mem_nil ?_
  rintro ⟨warning, reported, -⟩
  exact not_reported_nil warning reported

/-- The keys behind a report are those before and that of its warning. -/
theorem mem_keys_report {key : String} :
    key ∈ (registry.report warning).2.keys ↔ key = warning.key ∨ key ∈ registry.keys := by
  unfold report
  split
  · rename_i known
    refine ⟨Or.inr, ?_⟩
    rintro (rfl | before)
    · exact List.contains_iff_mem.mp known
    · exact before
  · exact List.mem_cons

/-- **A call keeps a registry in step with the calls.** -/
theorem Remembers.perform (remembers : registry.Remembers history) (call : Call) :
    (registry.perform call).2.Remembers (history ++ [call]) := by
  intro key
  simp only [reported_append_singleton]
  cases call with
  | report warning =>
      rw [Registry.perform, mem_keys_report, remembers key]
      constructor
      · rintro (rfl | ⟨reported, before, sameKey⟩)
        · exact ⟨warning, Or.inl rfl, rfl⟩
        · exact ⟨reported, Or.inr ⟨Call.noConfusion, before⟩, sameKey⟩
      · rintro ⟨reported, now | ⟨-, before⟩, sameKey⟩
        · exact Or.inl ((Call.report.inj now ▸ sameKey).symm)
        · exact Or.inr ⟨reported, before, sameKey⟩
  | ask warning =>
      rw [Registry.perform, remembers key]
      refine exists_congr fun reported => and_congr_left' ?_
      exact ⟨fun before => Or.inr ⟨Call.noConfusion, before⟩,
        fun either => either.elim Call.noConfusion And.right⟩
  | clear =>
      refine iff_of_false List.not_mem_nil ?_
      rintro ⟨reported, now | ⟨keeps, -⟩, -⟩
      · exact Call.noConfusion now
      · exact keeps rfl

theorem Remembers.performAll (remembers : registry.Remembers history) (calls : List Call) :
    (registry.performAll calls).2.Remembers (history ++ calls) := by
  induction calls generalizing registry history with
  | nil => rwa [List.append_nil]
  | cons call rest ih =>
      rw [List.append_cons]
      exact ih (remembers.perform call)

/-- What a registry that remembers plain calls knows is what they have reported. -/
theorem Remembers.knows_iff (remembers : registry.Remembers history)
    (plain : ∀ call ∈ history, call.IsPlain) (plainWarning : warning.HasPlainComponent) :
    registry.knows warning = true ↔ Reported history warning := by
  rw [knows, List.contains_iff_mem, remembers]
  constructor
  · rintro ⟨other, reported, sameKey⟩
    exact Warning.eq_of_key (reported.hasPlainComponent plain) plainWarning sameKey ▸ reported
  · exact fun reported => ⟨warning, reported, rfl⟩

/-! ## Answers -/

theorem performAll_cons (registry : Registry) (call : Call) (rest : List Call) :
    registry.performAll (call :: rest) =
      ((registry.perform call).1 :: ((registry.perform call).2.performAll rest).1,
        ((registry.perform call).2.performAll rest).2) :=
  rfl

theorem performAll_append (registry : Registry) (front rest : List Call) :
    registry.performAll (front ++ rest) =
      ((registry.performAll front).1 ++ ((registry.performAll front).2.performAll rest).1,
        ((registry.performAll front).2.performAll rest).2) := by
  induction front generalizing registry with
  | nil => rfl
  | cons call front ih => simp only [List.cons_append, performAll_cons, ih]

theorem length_answers (registry : Registry) (calls : List Call) :
    (registry.performAll calls).1.length = calls.length := by
  induction calls generalizing registry with
  | nil => rfl
  | cons call rest ih => exact congrArg (· + 1) (ih (registry.perform call).2)

/-- A call is answered by the registry that the calls in front of it leave. -/
theorem answer_behind (registry : Registry) (earlier : List Call) (call : Call)
    (later : List Call) :
    (registry.performAll (earlier ++ call :: later)).1[earlier.length]? =
      some ((registry.performAll earlier).2.perform call).1 := by
  rw [performAll_append, List.getElem?_append_right (Nat.le_of_eq (length_answers _ _)),
    length_answers, Nat.sub_self]
  rfl

/-- Without a question all other answers are the same, and so is what is remembered. -/
theorem performAll_without_ask (registry : Registry) (earlier : List Call) (warning : Warning)
    (later : List Call) :
    registry.performAll (earlier ++ later) =
      ((registry.performAll (earlier ++ .ask warning :: later)).1.eraseIdx earlier.length,
        (registry.performAll (earlier ++ .ask warning :: later)).2) := by
  have place : (registry.performAll earlier).1.length ≤ earlier.length :=
    Nat.le_of_eq (length_answers _ _)
  simp only [performAll_append, performAll_cons, List.eraseIdx_append_of_length_le place,
    length_answers, Nat.sub_self, List.eraseIdx_cons_zero]
  rfl

/-- **A registry remembers what was reported since it was last cleared.** When no component has
a closing bracket in it, reporting a warning prints its line if and only if it was not reported
since the last clearing, asking for it tells whether it was, and nothing else depends on what
was asked. -/
theorem performAll_answers {calls : List Call} (plain : ∀ call ∈ calls, call.IsPlain) :
    (∀ earlier warning later, calls = earlier ++ .report warning :: later →
        ∃ text, (empty.performAll calls).1[earlier.length]? = some (.printed text) ∧
          (text = warning.line ∨ text = "") ∧ (text ≠ "" ↔ ¬Reported earlier warning)) ∧
      ∀ earlier warning later, calls = earlier ++ .ask warning :: later →
        (∃ isKnown, (empty.performAll calls).1[earlier.length]? = some (.known isKnown) ∧
          (isKnown = true ↔ Reported earlier warning)) ∧
        empty.performAll (earlier ++ later) =
          ((empty.performAll calls).1.eraseIdx earlier.length, (empty.performAll calls).2) := by
  have knows {earlier later : List Call} {call : Call} {warning : Warning}
      (parts : calls = earlier ++ call :: later) (plainWarning : warning.HasPlainComponent) :
      (empty.performAll earlier).2.knows warning = true ↔ Reported earlier warning :=
    (remembers_empty.performAll earlier).knows_iff
      (fun other member => plain other (parts ▸ List.mem_append_left _ member)) plainWarning
  constructor
  · intro earlier warning later parts
    have told := knows parts (plain (.report warning) (parts ▸ List.mem_append_cons_self))
    refine ⟨_, parts ▸ answer_behind empty earlier (.report warning) later, ?_⟩
    rw [← told, report]
    split
    · rename_i known
      exact ⟨Or.inr rfl, iff_of_false (fun printed => printed rfl) (fun new => new known)⟩
    · rename_i new
      exact ⟨Or.inl rfl, iff_of_true warning.line_ne_empty new⟩
  · intro earlier warning later parts
    have told := knows parts (plain (.ask warning) (parts ▸ List.mem_append_cons_self))
    subst parts
    exact ⟨⟨_, answer_behind empty earlier (.ask warning) later, told⟩,
      performAll_without_ask empty earlier warning later⟩

/-- Calls about a warning with a bracket in its message, with a clearing among them. -/
def bracketedCalls : List Call :=
  [.report ⟨"a", "b] c"⟩, .ask ⟨"a", "b"⟩, .report ⟨"a", "b] c"⟩, .clear, .ask ⟨"a", "b] c"⟩,
    .report ⟨"a", "b] c"⟩]

theorem bracketedCalls_answered :
    (∀ call ∈ bracketedCalls, call.IsPlain) ∧
      (empty.performAll bracketedCalls).1 =
        [.printed (Warning.line ⟨"a", "b] c"⟩), .known false, .printed "", .cleared, .known false,
          .printed (Warning.line ⟨"a", "b] c"⟩)] ∧
      Reported (bracketedCalls.take 2) ⟨"a", "b] c"⟩ ∧
      ¬Reported (bracketedCalls.take 4) ⟨"a", "b] c"⟩ := by
  have plain : ∀ call ∈ bracketedCalls, call.IsPlain := by decide +kernel
  have answers : (empty.performAll bracketedCalls).1 =
      [.printed (Warning.line ⟨"a", "b] c"⟩), .known false, .printed "", .cleared, .known false,
        .printed (Warning.line ⟨"a", "b] c"⟩)] := by decide +kernel
  obtain ⟨reports, asks⟩ := performAll_answers plain
  obtain ⟨text, printed, -, new⟩ := reports (bracketedCalls.take 2) _ _ rfl
  obtain ⟨⟨isKnown, told, known⟩, -⟩ := asks (bracketedCalls.take 4) _ _ rfl
  rw [answers] at printed told
  cases printed
  cases told
  exact ⟨plain, answers, Classical.byContradiction fun unknown => new.mpr unknown rfl,
    fun reported => Bool.false_ne_true (known.mpr reported)⟩

/-- With a bracket in the component, warnings can share their key. -/
example : Warning.key ⟨"a] b", "c"⟩ = Warning.key ⟨"a", "b] c"⟩ := by
  decide +kernel

end Registry

end SelectorLang
