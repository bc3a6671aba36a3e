import Mathlib.Data.List.Chain
import SelectorLang.Proofs.Rules.Blocks
import SelectorLang.Proofs.Tokenizer.Lossless
import SelectorLang.Tree.Identity

/-! # Traces of texts

When a text is parsed, as a document of either kind, the rules in its trace are the skeleton
of the tree. Its lines stand in the order of the text, and the line of a complex selector
stands where that of its first part does (`SelectorLang.StartsParts`). When a text that is
read is not parsed, its trace still starts at the top and goes down one rule at a time, and
all rules that were entered are left again (`SelectorLang.traceOf_isSkeleton`).
-/

namespace SelectorLang

/-! ## Lines -/

/-- The rule of a line and its depth. -/
def TraceLine.entry (line : TraceLine) : Rule × Nat :=
  (line.rule, line.depth)

/-- The line of the first part of a complex selector. -/
def TraceLine.firstPart (line : TraceLine) : TraceLine :=
  { line with rule := .simpleSelector, depth := line.depth + 1 }

/-- No line is more than one deeper than the line in front of it. -/
def Descends (lines : List TraceLine) : Prop :=
  lines.IsChain fun line next => next.depth ≤ line.depth + 1

/-- Each complex selector is followed by its first part, at the same lexeme. -/
def StartsParts (lines : List TraceLine) : Prop :=
  ∀ index line, lines[index]? = some line → line.rule = .complexSelector →
    lines[index + 1]? = some line.firstPart

namespace StartsParts

theorem nil : StartsParts [] := by
  intro index line here
  rw [List.getElem?_nil] at here
  contradiction

theorem cons {line : TraceLine} {lines : List TraceLine}
    (first : line.rule = .complexSelector → lines.head? = some line.firstPart)
    (rest : StartsParts lines) : StartsParts (line :: lines) := by
  intro index other here selector
  cases index with
  | zero =>
      cases here
      rw [List.getElem?_cons_succ, ← List.head?_eq_getElem?]
      exact first selector
  | succ index =>
      rw [List.getElem?_cons_succ] at here ⊢
      exact rest index other here selector

theorem append {front rest : List TraceLine} (first : StartsParts front)
    (second : StartsParts rest) : StartsParts (front ++ rest) := by
  intro index line here selector
  rcases Nat.lt_or_ge index front.length with inFront | behind
  · rw [List.getElem?_append_left inFront] at here
    have next := first index line here selector
    obtain ⟨inside, -⟩ := List.getElem?_eq_some_iff.mp next
    rw [List.getElem?_append_left inside, next]
  · rw [List.getElem?_append_right behind] at here
    rw [List.getElem?_append_right (Nat.le_succ_of_le behind), Nat.succ_sub behind]
    exact second _ line here selector

end StartsParts

/-! ## Blocks of lines -/

namespace RuleReader

namespace Blocks

variable {rule : Rule} {depth : Nat} {marks : List Mark} (blocks : Blocks rule depth marks)

include blocks

theorem depth_of_head {mark : Mark} (first : mark ∈ marks.head?) : mark.depth = depth := by
  cases blocks with
  | nil => contradiction
  | cons =>
      cases first
      rfl

theorem depth_le {mark : Mark} (member : mark ∈ marks) : depth ≤ mark.depth := by
  induction blocks with
  | nil => contradiction
  | cons _ _ _ ihInner ihOthers =>
      rcases List.mem_cons.mp member with rfl | member
      · exact Nat.le_refl _
      · rcases List.mem_append.mp member with inside | behind
        · exact Nat.le_of_succ_le (ihInner inside)
        · exact ihOthers behind

/-- The rule of a mark is told by its depth. -/
theorem depth_mod (top : depth % 3 = rule.inner) {mark : Mark} (member : mark ∈ marks) :
    mark.depth % 3 = mark.rule.inner := by
  induction blocks with
  | nil => contradiction
  | @cons rule depth _ _ _ _ _ _ ihInner ihOthers =>
      rcases List.mem_cons.mp member with rfl | member
      · exact top
      · rcases List.mem_append.mp member with inside | behind
        · refine ihInner ?_ inside
          rw [Nat.add_mod, top]
          cases rule <;> rfl
        · exact ihOthers top behind

/-- Behind a block, which is nowhere less deep than it starts, there may be another. -/
theorem descends : marks.IsChain fun mark next => next.depth ≤ mark.depth + 1 := by
  induction blocks with
  | nil => exact .nil
  | cons _ inner others ihInner ihOthers =>
      refine List.isChain_cons.mpr ⟨fun next first => ?_, ihInner.append ihOthers ?_⟩
      · rw [List.head?_append] at first
        rcases Option.or_eq_some_iff.mp first with first | ⟨-, first⟩
        · exact Nat.le_of_eq (inner.depth_of_head first)
        · exact Nat.le_trans (Nat.le_of_eq (others.depth_of_head first)) (Nat.le_succ _)
      · intro last isLast next first
        rw [others.depth_of_head first]
        have deeper := inner.depth_le (List.mem_of_getLast? isLast)
        omega

/-- A complex selector and its first part have their marks at one place. -/
theorem startsParts (reader : RuleReader) (stop : Nat) :
    StartsParts (marks.map (Mark.line reader stop)) := by
  induction blocks with
  | nil => exact .nil
  | cons first _ _ ihInner ihOthers =>
      rw [List.map_cons, List.map_append]
      refine .cons (fun isSelector => ?_) (ihInner.append ihOthers)
      rw [List.head?_append, List.head?_map, first isSelector]
      rfl

end Blocks

/-- The lexemes at places in their order are in the order of their offsets. -/
theorem offset_clamped_le (selector : String) {lexemes : List Lexeme} (nonempty : lexemes ≠ [])
    (ordered : lexemes.Pairwise fun earlier later => earlier.offset ≤ later.offset)
    {place place' : Nat} (notBehind : place ≤ place') :
    (((clamped selector lexemes).lexemeAt place).getD (.endAt 0)).offset ≤
      (((clamped selector lexemes).lexemeAt place').getD (.endAt 0)).offset := by
  have positive := List.length_pos_iff.mpr nonempty
  have inside (place : Nat) : min place (lexemes.length - 1) < lexemes.length := by omega
  simp only [clamped, List.getElem?_eq_getElem (inside _), Option.getD_some]
  have notBehind : min place (lexemes.length - 1) ≤ min place' (lexemes.length - 1) := by omega
  rcases Nat.lt_or_eq_of_le notBehind with before | same
  · exact List.pairwise_iff_getElem.mp ordered _ _ (inside place) (inside place') before
  · simp only [same, Nat.le_refl]

/-- Lines of marks that are in their order stand in the order of the text. -/
theorem InOrder.pairwise_lines (selector : String) {lexemes : List Lexeme}
    (nonempty : lexemes ≠ [])
    (ordered : lexemes.Pairwise fun earlier later => earlier.offset ≤ later.offset)
    {most least stop : Nat} {marks : List Mark} (inOrder : InOrder most least marks) :
    (marks.map (Mark.line (clamped selector lexemes) stop)).Pairwise
      fun earlier later => earlier.offset ≤ later.offset := by
  rw [List.pairwise_map]
  exact inOrder.pairwise.imp fun notLess =>
    offset_clamped_le selector nonempty ordered (Nat.sub_le_sub_left notLess stop)

end RuleReader

/-! ## The trace of a text -/

/-- A text is cut into lexemes and these are read. -/
theorem Document.parse_eq_bind (kind : Kind) (text : String) :
    Document.parse kind text = (lexemesOf text).bind (Document.read kind text) := by
  cases kind with
  | selectorList =>
      rw [Document.parse, parseSelector]
      cases lexemesOf text <;> rfl
  | argumentList =>
      rw [Document.parse, parseArguments]
      cases lexemesOf text <;> rfl

/-- The lexemes of a text that is read: it can be cut, and all of them are supported. -/
def IsReadAs (text : String) (lexemes : List Lexeme) : Prop :=
  tokenize text = .ok lexemes ∧ checkSupported text lexemes = .ok ()

/-- A text that is not read is not parsed, and has no trace. -/
theorem traceOf_eq_nil_of_not_isReadAs (kind : Kind) {text : String}
    (notRead : ∀ lexemes, ¬ IsReadAs text lexemes) :
    (∃ failure, Document.parse kind text = .error failure) ∧ traceOf kind text = [] := by
  rw [Document.parse_eq_bind, traceOf, lexemesOf]
  cases cut : tokenize text with
  | error error => exact ⟨⟨_, rfl⟩, rfl⟩
  | ok lexemes =>
      cases check : checkSupported text lexemes with
      | ok => exact absurd ⟨cut, check⟩ (notRead lexemes)
      | error failure =>
          refine ⟨⟨failure, ?_⟩, ?_⟩
          · rw [Except.bind, Document.read_eq_bind, check]
            rfl
          · simp only [RuleReader.trace, RuleReader.checkSupported_ended, check, Option.getD_some]

/-- The lexemes of a text stand in its order, and there is at least one of them. -/
theorem lexemes_of_isReadAs {text : String} {lexemes : List Lexeme}
    (isRead : IsReadAs text lexemes) :
    lexemes ≠ [] ∧
      lexemes.Pairwise fun earlier later => earlier.offset ≤ later.offset := by
  obtain ⟨lossless, -⟩ := tokenize_lossless isRead.1
  obtain ⟨front, rfl, -⟩ := lossless.ending
  refine ⟨List.append_ne_nil_of_right_ne_nil _ (List.cons_ne_nil _ _), ?_⟩
  exact lossless.ordered.imp fun behind => Nat.le_trans (Nat.le_add_right _ _) behind

/-- Marks that tell what the rules do with the lexemes of a text. They come to what the text
is parsed as, whether that is a document or a failure, with no rule open any more; and their
lines are those of the marks. -/
structure MarksOf (kind : Kind) (text : String) (lexemes : List Lexeme)
    (marks : Nat → List RuleReader.Mark) : Prop where
  /-- What the rules come to. -/
  comes : ∃ place, ((RuleReader.clamped text lexemes).document kind).outcome .start =
    some (Document.parse kind text, ⟨place, 0, traceOf kind text⟩)
  /-- The lines. -/
  isTrace : traceOf kind text = (marks 0).map
    (RuleReader.Mark.line (RuleReader.clamped text lexemes) (beforeEnd lexemes).length)
  /-- The marks are in the order of the lexemes. -/
  inOrder : ∃ least, RuleReader.InOrder (beforeEnd lexemes).length least (marks 0)
  /-- The marks are those of an argument list. -/
  opens : RuleReader.Opens .arguments (beforeEnd lexemes).length
    (fun document depth => argumentsSkeleton depth document.topArguments)
    (Document.parse kind text) marks

theorem exists_marksOf (kind : Kind) {text : String} {lexemes : List Lexeme}
    (isRead : IsReadAs text lexemes) : ∃ marks, MarksOf kind text lexemes marks := by
  obtain ⟨front, isEnded, -⟩ := (tokenize_lossless isRead.1).1.ending
  have ends : ∃ lexeme ∈ lexemes, lexeme.token = .endOfText :=
    ⟨.endAt text.length, isEnded ▸ List.mem_append_right _ List.mem_cons_self, rfl⟩
  have same : RuleReader.ended text lexemes = lexemes := by
    rw [RuleReader.ended, isEnded, List.getLast?_append_of_ne_nil _ (List.cons_ne_nil _ _)]
    rfl
  obtain ⟨outcome, passed, behind, marks, -, opens, inOrder, comes⟩ :=
    RuleReader.traces_document kind text (beforeEnd lexemes) (endless_beforeEnd lexemes)
  have run : ((RuleReader.clamped text lexemes).document kind).outcome .start =
      some (outcome, ⟨passed.length, 0, (marks 0).map
        (RuleReader.Mark.line (RuleReader.clamped text lexemes) (beforeEnd lexemes).length)⟩) := by
    have run := comes (RuleReader.clamped text lexemes) rfl .start
      ((RuleReader.finds_clamped text ends).shows ends (Nat.zero_le _))
    simpa only [Course.after, Course.start, Nat.zero_add, List.nil_append] using run
  have isOutcome : outcome = Document.parse kind text := by
    have reads := RuleReader.read_eq_some kind text lexemes
    rw [RuleReader.read, RuleReader.checkSupported_ended, isRead.2, same] at reads
    simp only [run] at reads
    rw [Document.parse_eq_bind, lexemesOf, isRead.1]
    exact Option.some.inj reads
  have isTrace : traceOf kind text = (marks 0).map
      (RuleReader.Mark.line (RuleReader.clamped text lexemes) (beforeEnd lexemes).length) := by
    rw [traceOf, lexemesOf, isRead.1]
    simp only [RuleReader.trace, same, isRead.2, run, Option.map_some, Option.getD_some]
  refine ⟨marks, ⟨passed.length, ?_⟩, isTrace, ⟨_, inOrder 0⟩, isOutcome ▸ opens⟩
  rw [run, isOutcome, isTrace]

/-- **The trace of a text is the skeleton of its tree**, its lines in the order of the text and
each complex selector where its first part is. Whenever a text is read, whatever comes of it,
all the rules that are entered are left again, and the trace starts at the top and goes down one
rule at a time. -/
theorem traceOf_isSkeleton (kind : Kind) (text : String) :
    (∀ document, Document.parse kind text = .ok document →
        (traceOf kind text).map TraceLine.entry = argumentsSkeleton 0 document.topArguments) ∧
      (traceOf kind text).Pairwise (fun earlier later => earlier.offset ≤ later.offset) ∧
      StartsParts (traceOf kind text) ∧
      (∀ lexemes, IsReadAs text lexemes →
        (∃ place, ((RuleReader.clamped text lexemes).document kind).outcome .start =
          some (Document.parse kind text, ⟨place, 0, traceOf kind text⟩)) ∧
        ∃ first rest, traceOf kind text = first :: rest ∧ first.depth = 0) ∧
      Descends (traceOf kind text) ∧
      ∀ line ∈ traceOf kind text, line.depth % 3 = line.rule.inner := by
  by_cases isRead : ∃ lexemes, IsReadAs text lexemes
  · obtain ⟨lexemes, isRead⟩ := isRead
    obtain ⟨marks, isMarks⟩ := exists_marksOf kind isRead
    have blocks := isMarks.opens.blocks 0
    obtain ⟨nonempty, ordered⟩ := lexemes_of_isReadAs isRead
    refine ⟨fun document parses => ?_, ?_, ?_, fun lexemes' isRead' => ?_, ?_, ?_⟩
    · rw [isMarks.isTrace, List.map_map, ← isMarks.opens.isSkeleton document parses 0]
      rfl
    · obtain ⟨least, inOrder⟩ := isMarks.inOrder
      rw [isMarks.isTrace]
      exact inOrder.pairwise_lines text nonempty ordered
    · rw [isMarks.isTrace]
      exact blocks.startsParts _ _
    · obtain rfl : lexemes = lexemes' := Except.ok.inj (isRead.1.symm.trans isRead'.1)
      refine ⟨isMarks.comes, ?_⟩
      obtain ⟨rest, isFirst⟩ := List.head?_eq_some_iff.mp (isMarks.opens.isFirst 0)
      rw [isMarks.isTrace, isFirst]
      exact ⟨_, _, rfl, rfl⟩
    · rw [isMarks.isTrace, Descends, List.isChain_map]
      exact blocks.descends
    · rw [isMarks.isTrace]
      exact List.forall_mem_map.mpr fun mark member => blocks.depth_mod rfl member
  · have notRead (lexemes : List Lexeme) : ¬ IsReadAs text lexemes :=
      fun isReadAs => isRead ⟨lexemes, isReadAs⟩
    obtain ⟨⟨failure, fails⟩, empty⟩ := traceOf_eq_nil_of_not_isReadAs kind notRead
    rw [empty, fails]
    exact ⟨fun _ parses => (nomatch parses), .nil, .nil,
      fun lexemes isRead => absurd isRead (notRead lexemes), .nil, List.forall_mem_nil _⟩

/-- A text with functions in functions, with and without arguments. -/
def nestedFunctions : String :=
  "a:x > b:y(c:z(\"s\") d, 0):hover"

/-- What that text is parsed as. -/
def nestedFunctionsTree : SelectorList :=
  ⟨[⟨[⟨⟨some "a", [⟨"x", []⟩]⟩, .child⟩,
    ⟨⟨some "b:hover", [⟨"y", [
      .selector ⟨[⟨⟨some "c", [⟨"z", [.string "s"]⟩]⟩, .descendant⟩,
        ⟨⟨some "d", []⟩, .descendant⟩]⟩,
      .number (.zero false)]⟩]⟩, .descendant⟩]⟩]⟩

/-- The rules of a text that is parsed, and the end of a reading that fails inside a function:
no rule is open any more. -/
theorem nestedFunctions_trace :
    (Document.parse .selectorList nestedFunctions = .ok (.selectors nestedFunctionsTree) ∧
        (traceOf .selectorList nestedFunctions).map TraceLine.entry = [
          (.arguments, 0), (.complexSelector, 1), (.simpleSelector, 2), (.simpleSelector, 2),
          (.arguments, 3), (.complexSelector, 4), (.simpleSelector, 5), (.arguments, 6),
          (.simpleSelector, 5)]) ∧
      ∃ lexemes, IsReadAs "a:y(b" lexemes ∧
        (∃ place, ((RuleReader.clamped "a:y(b" lexemes).document .argumentList).outcome .start =
          some (.error ⟨.unexpectedEnd, "a:y(b"⟩, ⟨place, 0, traceOf .argumentList "a:y(b"⟩)) ∧
        ∃ first rest, traceOf .argumentList "a:y(b" = first :: rest ∧ first.depth = 0 := by
  have parses : Document.parse .selectorList nestedFunctions =
      .ok (.selectors nestedFunctionsTree) :=
    map_eq_ok_iff.mpr ⟨_, by decide +kernel, rfl⟩
  have skeleton := (traceOf_isSkeleton .selectorList nestedFunctions).1 _ parses
  have isRead : IsReadAs "a:y(b" [
      ⟨.ident "a", "a", 0⟩, ⟨.colon, ":", 1⟩, ⟨.function "y", "y(", 2⟩, ⟨.ident "b", "b", 4⟩,
      Lexeme.endAt 5] :=
    ⟨tokenize_eq_ok_iff.mpr (by decide +kernel), by decide +kernel⟩
  have fails : Document.parse .argumentList "a:y(b" = .error ⟨.unexpectedEnd, "a:y(b"⟩ :=
    congrArg (Except.map Document.arguments) (by decide +kernel :
      parseArguments "a:y(b" = .error ⟨.unexpectedEnd, "a:y(b"⟩)
  have run := (traceOf_isSkeleton .argumentList "a:y(b").2.2.2.1 _ isRead
  rw [fails] at run
  exact ⟨⟨parses, skeleton⟩, _, isRead, run⟩

end SelectorLang
