import SelectorLang.CommandLine.Report
import SelectorLang.Proofs.Parsing.SelectorLists
import SelectorLang.Tree.Identity

/-! # The program with and without argument lists

A selector list is an argument list as well, so that asking for argument lists makes no
difference to what the program prints of a selector list, nor to what it says of a text that
is neither. Only where the arguments of a text are not all selectors does one of the two
succeed alone (`SelectorLang.CommandLine.report_with_argumentList`). This holds however the
other options are spelled and ordered, for the option that asks for argument lists is read
for itself (`SelectorLang.CommandLine.readArguments_with_argumentList`).
-/

namespace SelectorLang.CommandLine

/-! ## Asking for argument lists -/

/-- Behind a double hyphen stands one selector. -/
theorem readSelectors_cons_cons (draft : Draft) (first second : String) (rest : List String) :
    readSelectors draft (first :: second :: rest) = .mistaken := by
  rw [readSelectors]
  split
  · rename_i next seen
    have hasOne : next.selector.isSome = true := by
      unfold Draft.withSelector? at seen
      split at seen <;> cases seen
      rfl
    have noSecond : next.withSelector? second = none := by
      rw [Draft.withSelector?, if_pos hasOne]
    simp only [readSelectors, noSecond]
  · rfl

/-- A second double hyphen is taken for the selector, so that no other one may follow. -/
theorem readSelectors_append (draft : Draft) (front : List String) (text : String) :
    readSelectors draft (front ++ ["--", text]) = .mistaken := by
  match front with
  | [] => exact readSelectors_cons_cons draft "--" text []
  | [argument] => exact readSelectors_cons_cons draft argument "--" [text]
  | first :: second :: front => exact readSelectors_cons_cons draft first second _

variable {text selector : String} {format : Format} {namesOnly : Bool}

/-- Behind a draft that asks for selector lists, the option asks for argument lists. -/
theorem readArguments_argumentList {draft : Draft} (selectors : draft.argumentList = false)
    (rest : List String) :
    readArguments draft ("--arguments" :: rest) =
      readArguments { draft with argumentList := true } rest := by
  have isOption : isOption "--arguments" = true := by decide +kernel
  have read : readOption draft "--arguments" = .seen { draft with argumentList := true } := by
    have asked : draft.withArgumentList? = some { draft with argumentList := true } := by
      rw [Draft.withArgumentList?, selectors]
      rfl
    exact congrArg OptionReading.ofDraft? asked
  rw [readArguments, if_neg (by decide), if_pos isOption, read]

/-- With the selector alone left to read, the option changes the kind that is asked for. -/
theorem readArguments_of_selectors {draft : Draft}
    (asked : readArguments draft ["--", text] =
      .work ⟨selector, format, .selectorList, namesOnly⟩) :
    readArguments draft ["--arguments", "--", text] =
      .work ⟨selector, format, .argumentList, namesOnly⟩ := by
  obtain ⟨seen, chosen, argumentList, names⟩ := draft
  rw [readArguments, if_pos rfl, readSelectors] at asked
  cases seen with
  | some other => exact absurd asked Request.noConfusion
  | none =>
      cases argumentList with
      | true => exact absurd asked (by simp [Draft.withSelector?, readSelectors, Draft.request])
      | false =>
          rw [readArguments_argumentList rfl, readArguments, if_pos rfl, readSelectors]
          cases asked
          rfl

/-- **The option for argument lists is read for itself**: in front of the double hyphen it
changes the kind that is asked for and nothing else. -/
theorem readArguments_with_argumentList (front : List String) :
    (∀ draft : Draft,
        readArguments draft (front ++ ["--", text]) =
            .work ⟨selector, format, .selectorList, namesOnly⟩ →
          readArguments draft (front ++ ["--arguments", "--", text]) =
            .work ⟨selector, format, .argumentList, namesOnly⟩) ∧
      ∀ draft : Draft,
        readFormat draft (front ++ ["--", text]) =
            .work ⟨selector, format, .selectorList, namesOnly⟩ →
          readFormat draft (front ++ ["--arguments", "--", text]) =
            .work ⟨selector, format, .argumentList, namesOnly⟩ := by
  induction front with
  | nil =>
      refine ⟨fun draft asked => readArguments_of_selectors asked, fun draft asked => ?_⟩
      -- The double hyphen is no name of a format.
      have isOption : isOption "--" = true := by decide +kernel
      rw [List.nil_append, readFormat, if_pos isOption] at asked
      contradiction
  | cons argument front ih =>
      obtain ⟨atArguments, atFormat⟩ := ih
      refine ⟨fun draft asked => ?_, fun draft asked => ?_⟩
      · rw [List.cons_append, readArguments] at asked ⊢
        split at asked
        · rw [readSelectors_append] at asked
          contradiction
        · rename_i notEnd
          rw [if_neg notEnd]
          split at asked
          · rename_i isOption
            rw [if_pos isOption]
            cases read : readOption draft argument with
            | seen next =>
                rw [read] at asked
                exact atArguments next asked
            | formatFollows next =>
                rw [read] at asked
                exact atFormat next asked
            | help | version | mistaken =>
                rw [read] at asked
                contradiction
          · rename_i notOption
            rw [if_neg notOption]
            cases seen : draft.withSelector? argument with
            | none =>
                rw [seen] at asked
                contradiction
            | some next =>
                rw [seen] at asked
                exact atArguments next asked
      · rw [List.cons_append, readFormat] at asked ⊢
        split at asked
        · contradiction
        · rename_i notOption
          rw [if_neg notOption]
          cases seen : draft.withFormat? argument with
          | none =>
              rw [seen] at asked
              contradiction
          | some next =>
              rw [seen] at asked
              exact atArguments next asked

/-! ## Reports on both kinds -/

/-- A text has an argument list that is not one of selectors. -/
def HasOtherArguments (text : String) : Prop :=
  ∃ failure, parseSelector text = .error failure ∧ failure.cause = .notASelector

/-- What is printed of a selector list is what is printed of its selectors as arguments. -/
theorem documentOutput_arguments (list : SelectorList) :
    documentOutput ⟨text, format, .argumentList, namesOnly⟩
        (.arguments (list.selectors.map .selector)) =
      documentOutput ⟨text, format, .selectorList, namesOnly⟩ (.selectors list) := by
  have names : (Document.arguments (list.selectors.map .selector)).functionNames =
      (Document.selectors list).functionNames := by
    simp only [Document.functionNames, list.filterMap_selector?]
  unfold documentOutput
  rw [names]
  simp only [Document.text, Document.warnings, Document.json, list.text_eq_argumentsText,
    list.json_eq_argumentsJson, list.warnings_eq_warningsAll]

/-- The report on a text as an argument list, for a text that is one of selectors or none. -/
theorem printDocument_argumentList (selectors : ¬ HasOtherArguments text) :
    printDocument ⟨text, format, .argumentList, namesOnly⟩ =
      printDocument ⟨text, format, .selectorList, namesOnly⟩ := by
  unfold printDocument
  dsimp only [Document.parse]
  rcases parseSelector_cases text with ⟨failure, fails, failsAlso, -⟩ | ⟨list, parses, isList⟩ |
      ⟨_, _, other⟩
  · rw [fails, failsAlso]
    rfl
  · rw [parses, isList]
    dsimp only [Except.map]
    rw [documentOutput_arguments]
  · exact absurd ⟨_, other, rfl⟩ selectors

/-- The reports on a text whose arguments are not all selectors. -/
theorem printDocument_of_otherArguments (other : HasOtherArguments text) :
    (printDocument ⟨text, format, .selectorList, namesOnly⟩).code = 1 ∧
      (printDocument ⟨text, format, .selectorList, namesOnly⟩).output = "" ∧
        (printDocument ⟨text, format, .argumentList, namesOnly⟩).code = 0 := by
  obtain ⟨failure, fails, isOther⟩ := other
  unfold printDocument
  dsimp only [Document.parse]
  rcases parseSelector_cases text with ⟨failure', -, fails', notOther⟩ | ⟨list, -, isList⟩ |
      ⟨arguments, parses, -⟩
  · cases fails.symm.trans fails'
    exact absurd isOther notOther
  · cases fails.symm.trans isList
  · rw [fails, parses]
    exact ⟨rfl, rfl, rfl⟩

/-- Every format can be asked for, with only the names or without, in front of any text. -/
theorem exists_options (format : Format) (namesOnly : Bool) :
    ∃ front, ∀ text, Request.ofArguments (front ++ ["--", text]) =
      .work ⟨text, format, .selectorList, namesOnly⟩ := by
  cases format <;> cases namesOnly
  case json.false => exact ⟨["-fjson"], fun _ => rfl⟩
  case json.true => exact ⟨["-nfjson"], fun _ => rfl⟩
  case text.false => exact ⟨["-ftext"], fun _ => rfl⟩
  case text.true => exact ⟨["-nftext"], fun _ => rfl⟩
  case tokens.false => exact ⟨["-ftokens"], fun _ => rfl⟩
  case tokens.true => exact ⟨["-nftokens"], fun _ => rfl⟩

/-- **Asking for argument lists makes no difference to a selector list.** The report on a text
is the same with the option and without it, unless its arguments are not all selectors; then
the program fails without the option and succeeds with it. -/
theorem report_with_argumentList {front : List String}
    (asked : Request.ofArguments (front ++ ["--", text]) =
      .work ⟨text, format, .selectorList, namesOnly⟩)
    (reads : format ≠ .tokens) :
    (¬ HasOtherArguments text →
        report (front ++ ["--arguments", "--", text]) = report (front ++ ["--", text])) ∧
      (HasOtherArguments text →
        (report (front ++ ["--", text])).code = 1 ∧ (report (front ++ ["--", text])).output = "" ∧
          (report (front ++ ["--arguments", "--", text])).code = 0) := by
  have alsoAsked := (readArguments_with_argumentList front).1 .empty asked
  have printed (kind : Kind) :
      (Invocation.mk text format kind namesOnly).report =
        printDocument ⟨text, format, kind, namesOnly⟩ := by
    cases format <;> first | rfl | exact absurd rfl reads
  have without : report (front ++ ["--", text]) =
      printDocument ⟨text, format, .selectorList, namesOnly⟩ := by
    rw [report, asked]
    exact printed .selectorList
  have withOption : report (front ++ ["--arguments", "--", text]) =
      printDocument ⟨text, format, .argumentList, namesOnly⟩ := by
    rw [report, Request.ofArguments, alsoAsked]
    exact printed .argumentList
  rw [without, withOption]
  exact ⟨printDocument_argumentList, printDocument_of_otherArguments⟩

/-- A selector list whose text warns, printed alike, and an argument list with a string in it,
whose names are printed only with the option. -/
theorem listAndString_reported :
    report ["-ftext", "--arguments", "--", "a:x(\"\\\\\"), b"] =
        report ["-ftext", "--", "a:x(\"\\\\\"), b"] ∧
      (report ["-nf=json", "--", "\"a\", b"]).code = 1 ∧
        (report ["-nf=json", "--", "\"a\", b"]).output = "" ∧
        (report ["-nf=json", "--arguments", "--", "\"a\", b"]).code = 0 := by
  have asksForText : Request.ofArguments (["-ftext"] ++ ["--", "a:x(\"\\\\\"), b"]) =
      .work ⟨"a:x(\"\\\\\"), b", .text, .selectorList, false⟩ := by
    decide +kernel
  have asksForNames : Request.ofArguments (["-nf=json"] ++ ["--", "\"a\", b"]) =
      .work ⟨"\"a\", b", .json, .selectorList, true⟩ := by
    decide +kernel
  have isList : parseSelector "a:x(\"\\\\\"), b" = .ok ⟨[
      ⟨[⟨⟨some "a", [⟨"x", [.string "\\"]⟩]⟩, .descendant⟩]⟩,
      ⟨[⟨⟨some "b", []⟩, .descendant⟩]⟩]⟩ := by
    decide +kernel
  have noList : parseSelector "\"a\", b" = .error ⟨.notASelector, "\"a\", b"⟩ := by
    decide +kernel
  have noOther : ¬ HasOtherArguments "a:x(\"\\\\\"), b" := by
    rintro ⟨failure, fails, -⟩
    cases fails.symm.trans isList
  exact ⟨(report_with_argumentList asksForText Format.noConfusion).1 noOther,
    (report_with_argumentList asksForNames Format.noConfusion).2 ⟨_, noList, rfl⟩⟩

end SelectorLang.CommandLine
