import SelectorLang.Proofs.Text.Quoted
import SelectorLang.Proofs.Tree.Walk
import SelectorLang.Tree.Writing

/-! # What writing a tree reports

Writing comes to the canonical text whatever was reported before, and reports the warnings of
the tree one after the other (`SelectorLang.serialize_eq`). Their keys tell the strings apart
(`SelectorLang.eq_of_key_quotingWarning`), so that each string that cannot be quoted and was
not reported before is reported once, when it is first written
(`SelectorLang.serialize_reports`).
-/

namespace SelectorLang

/-! ## Reporting one after the other -/

namespace Registry

theorem reportAll_cons (registry : Registry) (warning : Warning) (rest : List Warning) :
    registry.reportAll (warning :: rest) =
      ((registry.report warning).1 ++ ((registry.report warning).2.reportAll rest).1,
        ((registry.report warning).2.reportAll rest).2) :=
  rfl

theorem reportAll_append (registry : Registry) (front rest : List Warning) :
    registry.reportAll (front ++ rest) =
      ((registry.reportAll front).1 ++ ((registry.reportAll front).2.reportAll rest).1,
        ((registry.reportAll front).2.reportAll rest).2) := by
  induction front generalizing registry with
  | nil => rw [List.nil_append, reportAll, String.empty_append]
  | cons warning front ih =>
      simp only [List.cons_append, reportAll_cons, ih, String.append_assoc]

/-- The values whose warnings are not known, the first of each. -/
def unreported (registry : Registry) (warningOf : String → Warning) (values : List String) :
    List String :=
  firsts (fun value => registry.knows (warningOf value)) values

/-- A new warning is printed, and known from then on. -/
theorem report_of_unknown {registry : Registry} {warning : Warning}
    (unknown : registry.knows warning = false) :
    registry.report warning = (warning.line, ⟨warning.key :: registry.keys⟩) := by
  rw [report, unknown, if_neg Bool.false_ne_true]

section Apart

variable {warningOf : String → Warning}
  (apart : ∀ {first second}, (warningOf first).key = (warningOf second).key → first = second)

include apart

/-- A value whose warning is new comes first, and is reported from then on. -/
theorem unreported_cons_of_unknown {registry : Registry} {value : String}
    (unknown : registry.knows (warningOf value) = false) (values : List String) :
    registry.unreported warningOf (value :: values) =
      value ::
        (Registry.mk ((warningOf value).key :: registry.keys)).unreported warningOf values := by
  refine @firsts_cons_of_unknown _ value values _ unknown fun other => ?_
  have sameKey : ((warningOf other).key == (warningOf value).key) = (other == value) :=
    Bool.eq_iff_iff.mpr (by
      rw [beq_iff_eq, beq_iff_eq]
      exact ⟨apart, fun same => same ▸ rfl⟩)
  rw [knows, knows, List.contains_cons, sameKey, Bool.or_comm]

/-- **Reporting warnings that their keys tell apart** prints the first of each that was not
known, and then knows these. -/
theorem reportAll_map (registry : Registry) (values : List String) :
    registry.reportAll (values.map warningOf) =
      (String.join ((registry.unreported warningOf values).map fun value => (warningOf value).line),
        ⟨((registry.unreported warningOf values).map fun value => (warningOf value).key).reverse ++
          registry.keys⟩) := by
  induction values generalizing registry with
  | nil => rfl
  | cons value values ih =>
      rw [List.map_cons, reportAll_cons]
      cases known : registry.knows (warningOf value) with
      | true =>
          have passed : registry.unreported warningOf (value :: values) =
              registry.unreported warningOf values :=
            @firsts_cons_of_known (fun value => registry.knows (warningOf value)) value values known
          rw [report_of_knows known, ih, passed, String.empty_append]
      | false =>
          rw [report_of_unknown known, ih, unreported_cons_of_unknown apart known]
          simp only [List.map_cons, String.join_cons, List.reverse_cons, List.append_assoc,
            List.singleton_append]

/-- What is known after reporting some warnings. -/
theorem mem_keys_reportAll_map {registry : Registry} {values : List String} {key : String} :
    key ∈ (registry.reportAll (values.map warningOf)).2.keys ↔
      key ∈ registry.keys ∨ ∃ value ∈ values, key = (warningOf value).key := by
  rw [reportAll_map apart, List.mem_append, List.mem_reverse, List.mem_map]
  constructor
  · rintro (⟨value, reported, rfl⟩ | before)
    · exact Or.inr ⟨value, (mem_firsts.mp reported).1, rfl⟩
    · exact Or.inl before
  · rintro (before | ⟨value, member, rfl⟩)
    · exact Or.inr before
    · cases known : registry.knows (warningOf value) with
      | true => exact Or.inr (List.contains_iff_mem.mp known)
      | false => exact Or.inl ⟨value, mem_firsts.mpr ⟨member, known⟩, rfl⟩

/-- Reporting the same warnings again prints nothing. -/
theorem reportAll_map_again (registry : Registry) (values : List String) :
    ((registry.reportAll (values.map warningOf)).2.reportAll (values.map warningOf)).1 = "" := by
  have nothing :
      (registry.reportAll (values.map warningOf)).2.unreported warningOf values = [] := by
    refine List.eq_nil_iff_forall_not_mem.mpr fun value reported => ?_
    obtain ⟨member, unknown⟩ := mem_firsts.mp reported
    have known : (warningOf value).key ∈ (registry.reportAll (values.map warningOf)).2.keys :=
      (mem_keys_reportAll_map apart).mpr (Or.inr ⟨value, member, rfl⟩)
    exact Bool.false_ne_true (unknown.symm.trans (List.contains_iff_mem.mpr known))
  rw [reportAll_map apart, nothing]
  rfl

end Apart

end Registry

/-! ## Writing reports the warnings of the tree -/

namespace Writing

/-- The writing with some characters behind it, and some more warnings reported. -/
def after (writing : Writing) (characters : String) (warnings : List Warning) : Writing :=
  let (printed, registry) := writing.registry.reportAll warnings
  ⟨writing.text ++ characters, writing.printed ++ printed, registry⟩

theorem after_nothing (writing : Writing) : writing.after "" [] = writing := by
  simp only [after, Registry.reportAll, String.append_empty]

theorem put_eq_after (writing : Writing) (characters : String) :
    writing.put characters = writing.after characters [] := by
  simp only [put, after, Registry.reportAll, String.append_empty]

theorem after_after (writing : Writing) (first second : String) (warnings more : List Warning) :
    (writing.after first warnings).after second more =
      writing.after (first ++ second) (warnings ++ more) := by
  simp only [after, Registry.reportAll_append, String.append_assoc]

theorem warn_eq_after (writing : Writing) (warning : Warning) :
    writing.warn warning = writing.after "" [warning] := by
  simp only [warn, after, Registry.reportAll, String.append_empty]

theorem putString_eq_after (writing : Writing) (value : String) :
    writing.putString value = writing.after ("\"" ++ value ++ "\"") (stringWarnings value) := by
  unfold putString stringWarnings
  cases isQuotable value
  · simp only [Bool.false_eq_true, ↓reduceIte, warn_eq_after, put_eq_after, after_after,
      String.empty_append, List.append_nil]
  · simp only [↓reduceIte, put_eq_after]

end Writing

mutual

theorem Argument.write_eq : (argument : Argument) → (writing : Writing) →
    argument.write writing = writing.after argument.text argument.warnings
  | .selector inner, writing => by
      rw [Argument.write, Argument.text, Argument.warnings]
      exact inner.write_eq writing
  | .number value, writing => by
      rw [Argument.write, Argument.text, Argument.warnings]
      exact writing.put_eq_after _
  | .string value, writing => by
      rw [Argument.write, Argument.text, Argument.warnings]
      exact writing.putString_eq_after value

theorem Argument.writeAll_eq : (arguments : List Argument) → (writing : Writing) →
    Argument.writeAll writing arguments =
      writing.after (", ".intercalate (Argument.texts arguments)) (Argument.warningsAll arguments)
  | [], writing => writing.after_nothing.symm
  | [argument], writing => by
      rw [Argument.writeAll, argument.write_eq]
      simp only [Argument.texts, Argument.warningsAll, String.intercalate_singleton,
        List.append_nil]
  | argument :: second :: rest, writing => by
      rw [Argument.writeAll, Argument.writeAll_eq (second :: rest), argument.write_eq]
      simp only [Writing.put_eq_after, Writing.after_after, Argument.texts, Argument.warningsAll,
        String.intercalate_cons_cons, String.append_assoc, List.append_nil]

theorem EngineFunction.write_eq : (function : EngineFunction) → (writing : Writing) →
    function.write writing = writing.after function.text function.warnings
  | ⟨name, arguments⟩, writing => by
      rw [EngineFunction.write, Argument.writeAll_eq arguments]
      simp only [Writing.put_eq_after, Writing.after_after, EngineFunction.text,
        EngineFunction.warnings, String.append_assoc, List.append_nil, List.nil_append]

theorem EngineFunction.writeAll_eq : (functions : List EngineFunction) → (writing : Writing) →
    EngineFunction.writeAll writing functions =
      writing.after (String.join (EngineFunction.texts functions))
        (EngineFunction.warningsAll functions)
  | [], writing => writing.after_nothing.symm
  | function :: rest, writing => by
      rw [EngineFunction.writeAll, EngineFunction.writeAll_eq rest, function.write_eq,
        Writing.after_after, EngineFunction.texts, EngineFunction.warningsAll, String.join_cons]

theorem SimpleSelector.write_eq : (selector : SimpleSelector) → (writing : Writing) →
    selector.write writing = writing.after selector.text selector.warnings
  | ⟨rawText, functions⟩, writing => by
      rw [SimpleSelector.write, EngineFunction.writeAll_eq functions, Writing.put_eq_after,
        Writing.after_after, SimpleSelector.text, SimpleSelector.warnings, List.nil_append]

theorem Part.write_eq : (part : Part) → (writing : Writing) →
    part.write writing = writing.after part.text part.warnings
  | ⟨selector, combinator⟩, writing => by
      have written := selector.write_eq writing
      cases combinator
      case descendant => exact written
      all_goals
        simp only [Part.write, Part.text, Part.warnings, written, Writing.put_eq_after,
          Writing.after_after, String.append_assoc, List.append_nil]

theorem Part.writeAll_eq : (parts : List Part) → (writing : Writing) →
    Part.writeAll writing parts =
      writing.after (" ".intercalate (Part.texts parts)) (Part.warningsAll parts)
  | [], writing => writing.after_nothing.symm
  | [part], writing => by
      rw [Part.writeAll, part.write_eq]
      simp only [Part.texts, Part.warningsAll, String.intercalate_singleton, List.append_nil]
  | part :: second :: rest, writing => by
      rw [Part.writeAll, Part.writeAll_eq (second :: rest), part.write_eq]
      simp only [Writing.put_eq_after, Writing.after_after, Part.texts, Part.warningsAll,
        String.intercalate_cons_cons, String.append_assoc, List.append_nil]

/-- **Writing a selector** adds its text and reports its warnings. -/
theorem ComplexSelector.write_eq : (selector : ComplexSelector) → (writing : Writing) →
    selector.write writing = writing.after selector.text selector.warnings
  | ⟨parts⟩, writing => by
      rw [ComplexSelector.write, ComplexSelector.text, ComplexSelector.warnings]
      exact Part.writeAll_eq parts writing

end

/-- Writing an argument list comes to its text, and reports its warnings one after the other. -/
theorem serialize_eq (registry : Registry) (arguments : List Argument) :
    serialize registry arguments =
      ⟨argumentsText arguments, (registry.reportAll (Argument.warningsAll arguments)).1,
        (registry.reportAll (Argument.warningsAll arguments)).2⟩ := by
  simp only [serialize, Argument.writeAll_eq, Writing.after, String.empty_append, argumentsText]

/-! ## The warnings of a tree -/

/-- The strings that a walk came to, in its order. -/
def strings (visited : List Visited) : List String :=
  visited.filterMap Visited.string?

theorem strings_append (front rest : List Visited) :
    strings (front ++ rest) = strings front ++ strings rest :=
  List.filterMap_append

/-- Writing some items, one behind the other, warns of the strings that a walk through them
comes to, when it is so for each of them. -/
theorem flatMap_warnings {α : Type} {warnings : α → List Warning} {walk : α → List Visited}
    {items : List α}
    (each : ∀ item ∈ items, warnings item = (strings (walk item)).flatMap stringWarnings) :
    items.flatMap warnings = (strings (items.flatMap walk)).flatMap stringWarnings := by
  induction items with
  | nil => rfl
  | cons item items ih =>
      obtain ⟨first, others⟩ := List.forall_mem_cons.mp each
      rw [List.flatMap_cons, List.flatMap_cons, first, ih others, strings_append,
        List.flatMap_append]

theorem ComplexSelector.warnings_eq_flatMap (selector : ComplexSelector) :
    selector.warnings = selector.functions.flatMap EngineFunction.warnings := by
  have ofPart (part : Part) :
      part.warnings = part.selector.functions.flatMap EngineFunction.warnings := by
    obtain ⟨⟨rawText, functions⟩, combinator⟩ := part
    rw [Part.warnings, SimpleSelector.warnings, EngineFunction.warningsAll_eq_flatMap]
  obtain ⟨parts⟩ := selector
  rw [ComplexSelector.functions, List.flatMap_assoc, ← funext ofPart, ComplexSelector.warnings,
    Part.warningsAll_eq_flatMap]

/-- **Writing a selector warns of the strings that a walk through it comes to.** -/
theorem ComplexSelector.warnings_eq (selector : ComplexSelector) :
    selector.warnings = (strings selector.walk).flatMap stringWarnings := by
  induction selector using ComplexSelector.induction with
  | nested selector ih =>
      rw [selector.warnings_eq_flatMap, selector.walk_eq]
      refine flatMap_warnings fun function member => ?_
      obtain ⟨name, arguments⟩ := function
      rw [EngineFunction.warnings, Argument.warningsAll_eq_flatMap, EngineFunction.walk_eq]
      refine flatMap_warnings fun argument isArgument => ?_
      cases argument with
      | selector inner =>
          rw [Argument.warnings, Argument.walk]
          exact ih _ member inner isArgument
      | number value => rfl
      | string value => exact (List.append_nil _).symm

/-- The strings at any depth of an argument list that cannot be quoted, each as often as it
stands there, in the order of a walk. -/
def unquotable (arguments : List Argument) : List String :=
  (strings (Argument.walkAll arguments)).filter fun value => !isQuotable value

theorem flatMap_stringWarnings (values : List String) :
    values.flatMap stringWarnings =
      (values.filter fun value => !isQuotable value).map quotingWarning := by
  induction values with
  | nil => rfl
  | cons value values ih =>
      rw [List.flatMap_cons, List.filter_cons, stringWarnings, ih]
      cases isQuotable value <;> rfl

theorem Argument.warningsAll_eq_map (arguments : List Argument) :
    Argument.warningsAll arguments = (unquotable arguments).map quotingWarning := by
  rw [Argument.warningsAll_eq_flatMap, unquotable, ← flatMap_stringWarnings,
    Argument.walkAll_eq_flatMap]
  refine flatMap_warnings fun argument _ => ?_
  cases argument with
  | selector inner =>
      rw [Argument.warnings, Argument.walk]
      exact inner.warnings_eq
  | number value => rfl
  | string value => exact (List.append_nil _).symm

/-- The text that a string is warned of by. -/
theorem key_quotingWarning (value : String) : (quotingWarning value).key =
    "[Serializer] string argument " ++ Text.quoted value ++
      " cannot be quoted without escaping" := by
  have front : "[Serializer] string argument " =
      "[" ++ "Serializer" ++ "] " ++ "string argument " :=
    by decide +kernel
  simp only [quotingWarning, Warning.key, front, String.append_assoc]

/-- The line that a string is warned of by. -/
theorem line_quotingWarning (value : String) : (quotingWarning value).line =
    "\x1b[33m[sift Serializer] ⚠ string argument " ++ Text.quoted value ++
      " cannot be quoted without escaping\x1b[39m\n" := by
  have front : "\x1b[33m[sift Serializer] ⚠ string argument " =
      "\x1b[33m[sift " ++ "Serializer" ++ "] ⚠ " ++ "string argument " := by
    decide +kernel
  have behind : " cannot be quoted without escaping\x1b[39m\n" =
      " cannot be quoted without escaping" ++ "\x1b[39m\n" := by
    decide +kernel
  simp only [quotingWarning, Warning.line, front, behind, String.append_assoc]

/-- The warnings of two strings have different keys. -/
theorem eq_of_key_quotingWarning {first second : String}
    (same : (quotingWarning first).key = (quotingWarning second).key) : first = second := by
  have characters := congrArg String.toList same
  simp only [key_quotingWarning, String.toList_append, List.append_assoc] at characters
  exact (Text.quoted_append_inj (List.append_cancel_left characters)).1

/-- **Each string that cannot be quoted is reported once.** Writing an argument list prints, in
the order of a walk, one line for each such string that was not reported before, the first
time it is come to; from then on all of them are known, so that writing the list again prints
nothing. The text is the same whatever was reported before. -/
theorem serialize_reports (registry : Registry) (arguments : List Argument) :
    (serialize registry arguments).text = argumentsText arguments ∧
      (serialize registry arguments).printed =
          String.join (((unquotable arguments).filter fun value =>
              !registry.knows (quotingWarning value)).eraseDups.map fun value =>
            "\x1b[33m[sift Serializer] ⚠ string argument " ++ Text.quoted value ++
              " cannot be quoted without escaping\x1b[39m\n") ∧
        (∀ key, key ∈ (serialize registry arguments).registry.keys ↔
          key ∈ registry.keys ∨ ∃ value ∈ unquotable arguments,
            key = "[Serializer] string argument " ++ Text.quoted value ++
              " cannot be quoted without escaping") ∧
        (serialize (serialize registry arguments).registry arguments).printed = "" := by
  simp only [serialize_eq, Argument.warningsAll_eq_map, ← line_quotingWarning, ← key_quotingWarning]
  refine ⟨trivial, ?_, fun key => Registry.mem_keys_reportAll_map eq_of_key_quotingWarning,
    Registry.reportAll_map_again eq_of_key_quotingWarning registry _⟩
  rw [Registry.reportAll_map eq_of_key_quotingWarning]
  rfl

/-- Strings with a quote and with a backslash, one of them once more inside a function. -/
def quoteAndBackslash : List Argument :=
  [.string "a\"",
    .selector ⟨[⟨⟨none, [⟨"x", [.string "\\\u200b", .string "a\"", .string "b"]⟩]⟩, .descendant⟩]⟩]

/-- Each of the two is warned of once, in a line that shows it. -/
theorem quoteAndBackslash_reported :
    (serialize .empty quoteAndBackslash).printed =
      "\x1b[33m[sift Serializer] ⚠ string argument \"a\\\"\" cannot be quoted without escaping" ++
        "\x1b[39m\n" ++
      "\x1b[33m[sift Serializer] ⚠ string argument \"\\\\\\u\x7b200b\x7d\" cannot be quoted " ++
        "without escaping\x1b[39m\n" :=
  (serialize_reports .empty quoteAndBackslash).2.1.trans (by decide +kernel)

end SelectorLang
