import Mathlib.Data.List.TakeWhile
import SelectorLang.Proofs.Rules.Following

/-! # The rules come to an end, and stay inside the text

A stream that ends with the end of the text has a first one, and no rule looks behind it. From
each place up to there a rule comes to an outcome, at a place not behind that end; a rule that
gives a value has gone forward. Since the outcome is the same for every reader with the same
lexemes up to the first end, holding the cursor back at the last lexeme does nothing
(`SelectorLang.RuleReader.rules_progress`).
-/

namespace SelectorLang

/-- None of the lexemes in front of the first end of the text is one. -/
theorem endless_beforeEnd (lexemes : List Lexeme) :
    ∀ lexeme ∈ beforeEnd lexemes, lexeme.token ≠ .endOfText := by
  intro lexeme member
  have inside := List.mem_takeWhile_imp member
  rw [Bool.not_eq_true'] at inside
  exact Token.isEnd_eq_false_iff.mp inside

/-- Lexemes with an end of the text among them, cut at the first one. -/
theorem exists_beforeEnd_append {lexemes : List Lexeme}
    (ends : ∃ lexeme ∈ lexemes, lexeme.token = .endOfText) :
    ∃ last behind, lexemes = beforeEnd lexemes ++ last :: behind ∧ last.token = .endOfText := by
  obtain ⟨found, member, isEnd⟩ := ends
  cases rest : lexemes.dropWhile fun lexeme => !lexeme.token.isEnd with
  | nil =>
      have inside := List.dropWhile_eq_nil_iff.mp rest found member
      rw [isEnd] at inside
      contradiction
  | cons last behind =>
      refine ⟨last, behind, rest ▸ (List.takeWhile_append_dropWhile).symm, ?_⟩
      have stops := List.head?_dropWhile_not (fun lexeme : Lexeme => !lexeme.token.isEnd) lexemes
      rw [rest] at stops
      exact Token.isEnd_eq_true_iff.mp ((Bool.not_eq_false' ..).mp stops)

/-- From a place a rule comes to an outcome and another place, whatever was read before: as many
rules are open behind it as in front of it, and its lines stand behind those from before. -/
def RuleReading.ComesTo {α : Type} (rule : RuleReading α) (place : Nat)
    (outcome : Except Failure α) (behind : Nat) : Prop :=
  ∀ course : Course, course.place = place → ∃ lines,
    rule.outcome course = some (outcome, ⟨behind, course.depth, course.lines ++ lines⟩)

namespace RuleReader

/-- A reader has the lexemes of a stream from a place up to the first end of the text; in front
of the place and behind that end the reader may have others, or none. -/
def Finds (reader : RuleReader) (lexemes : List Lexeme) (place : Nat) : Prop :=
  ∀ there, place ≤ there → there ≤ (beforeEnd lexemes).length →
    reader.lexemeAt there = lexemes[there]?

/-- From a place a rule comes to an outcome, at a place that is neither in front of it nor
behind the first end of the text, and further on if it gives a value. On the way the cursor
stays between that place and that end, and holding it back at the last lexeme has no part in
it: every reader with the lexemes in between comes to the same outcome at the same place, also
one that has no other lexemes and so no outcome if it looks for one. -/
def Advances {α : Type} (selector : String) (lexemes : List Lexeme)
    (rule : RuleReader → RuleReading α) (place : Nat) : Prop :=
  ∃ outcome behind, place ≤ behind ∧ behind ≤ (beforeEnd lexemes).length ∧
    ((∃ value, outcome = .ok value) → place < behind) ∧
    (rule (clamped selector lexemes)).ComesTo place outcome behind ∧
    ∀ reader : RuleReader, reader.selector = selector → reader.Finds lexemes place →
      (rule reader).ComesTo place outcome behind

variable {selector : String} {lexemes : List Lexeme} {place : Nat}

/-- From each place up to the first end a reader shows the lexemes in front of that end. -/
theorem Finds.shows {reader : RuleReader} (finds : reader.Finds lexemes place)
    (ends : ∃ lexeme ∈ lexemes, lexeme.token = .endOfText)
    (inside : place ≤ (beforeEnd lexemes).length) :
    reader.Shows place ((beforeEnd lexemes).drop place) := by
  obtain ⟨last, behind, cut, isLast⟩ := exists_beforeEnd_append ends
  unfold Finds at finds
  generalize beforeEnd lexemes = front at *
  subst cut
  -- The induction is on the lexemes from the place on.
  induction left : front.drop place generalizing place with
  | nil =>
      have atEnd : place = front.length := Nat.le_antisymm inside (List.drop_eq_nil_iff.mp left)
      refine ⟨last, ?_, isLast⟩
      rw [finds place (Nat.le_refl _) inside, atEnd, List.getElem?_append_right (Nat.le_refl _),
        Nat.sub_self]
      rfl
  | cons lexeme rest ih =>
      have further : place < front.length := by
        refine Nat.lt_of_le_of_ne inside ?_
        rintro rfl
        rw [List.drop_length] at left
        contradiction
      obtain ⟨rfl, later⟩ := List.cons.inj ((List.drop_eq_getElem_cons further).symm.trans left)
      refine ⟨?_, ih further (fun there least => finds there (Nat.le_of_succ_le least)) later⟩
      rw [finds place (Nat.le_refl _) inside, List.getElem?_append_left further,
        List.getElem?_eq_getElem further]

/-- Lexemes that end with the end of the text, by their places and held back at the last. -/
theorem finds_clamped (selector : String)
    (ends : ∃ lexeme ∈ lexemes, lexeme.token = .endOfText) :
    (clamped selector lexemes).Finds lexemes place := by
  obtain ⟨last, behind, cut, -⟩ := exists_beforeEnd_append ends
  intro place _ inside
  have bounded : place ≤ lexemes.length - 1 := by
    refine Nat.le_trans inside (Nat.le_sub_one_of_lt ?_)
    have length := congrArg List.length cut
    rw [List.length_append, List.length_cons] at length
    omega
  exact congrArg (lexemes[·]?) (Nat.min_eq_left bounded)

theorem Advances.of_decides {α : Type} {rule : RuleReader → RuleReading α}
    {described : Except Failure α → List Lexeme → Prop}
    (ends : ∃ lexeme ∈ lexemes, lexeme.token = .endOfText)
    (inside : place ≤ (beforeEnd lexemes).length)
    (decides : Decides selector rule ((beforeEnd lexemes).drop place) described)
    (forward : ∀ outcome behind, described outcome behind →
      Forward ((beforeEnd lexemes).drop place) outcome behind) :
    Advances selector lexemes rule place := by
  obtain ⟨outcome, front, behind, marks, cut, holds, -, comes⟩ := decides fun lexeme member =>
    endless_beforeEnd lexemes lexeme (List.mem_of_mem_drop member)
  have length := congrArg List.length cut
  rw [List.length_drop, List.length_append] at length
  have all (reader : RuleReader) (isText : reader.selector = selector)
      (finds : reader.Finds lexemes place) :
      (rule reader).ComesTo place outcome (place + front.length) := by
    rintro course rfl
    exact ⟨_, comes reader isText course (finds.shows ends inside)⟩
  refine ⟨outcome, place + front.length, Nat.le_add_right _ _, by omega, ?_,
    all _ rfl (finds_clamped selector ends), all⟩
  rintro ⟨value, given⟩
  have shorter := forward outcome behind holds value given
  rw [cut, List.length_append] at shorter
  omega

/-- What the rules do from a place up to the first end of the text. -/
structure Progress (selector : String) (lexemes : List Lexeme) (place : Nat) : Prop where
  /-- An argument list. -/
  arguments : Advances selector lexemes (fun reader => reader.arguments) place
  /-- An argument. -/
  argument : Advances selector lexemes (fun reader => reader.argument) place
  /-- A complex selector. -/
  complexSelector : Advances selector lexemes (fun reader => reader.complexSelector) place
  /-- A simple selector. -/
  simpleSelector : Advances selector lexemes (fun reader => reader.simpleSelector) place
  /-- What stands behind a colon, whatever was read in front of it. -/
  pseudo (draft : Draft) : Advances selector lexemes (fun reader => reader.pseudo draft) place
  /-- An attribute condition, from its opening bracket. -/
  «attribute» (draft : Draft) (opening : Lexeme) (isThere : lexemes[place]? = some opening)
    (opens : opening.token = .openBracket) :
    Advances selector lexemes (fun reader => reader.attribute draft) place
  /-- Native arguments: what they copy is what they move over, up to the first end of the text
  or a closing parenthesis in front of which all parentheses are closed. They have an outcome,
  so that the parentheses that are counted are never more closed than open. -/
  nativeArguments : ∃ behind, place ≤ behind ∧ behind ≤ (beforeEnd lexemes).length ∧
    (behind = (beforeEnd lexemes).length ∨
      (∃ closing, lexemes[behind]? = some closing ∧ closing.token = .closeParen) ∧
        Grammar.Balanced ((lexemes.take behind).drop place)) ∧
    ((clamped selector lexemes).nativeArguments "" 1).ComesTo place
      (.ok (Grammar.sources ((lexemes.take behind).drop place))) behind ∧
    ∀ reader : RuleReader, reader.selector = selector → reader.Finds lexemes place →
      (reader.nativeArguments "" 1).ComesTo place
        (.ok (Grammar.sources ((lexemes.take behind).drop place))) behind

theorem exists_nativeArguments (selector : String)
    (ends : ∃ lexeme ∈ lexemes, lexeme.token = .endOfText)
    (inside : place ≤ (beforeEnd lexemes).length) :
    ∃ behind, place ≤ behind ∧ behind ≤ (beforeEnd lexemes).length ∧
      (behind = (beforeEnd lexemes).length ∨
        (∃ closing, lexemes[behind]? = some closing ∧ closing.token = .closeParen) ∧
          Grammar.Balanced ((lexemes.take behind).drop place)) ∧
      ∀ reader : RuleReader, reader.selector = selector → reader.Finds lexemes place →
        (reader.nativeArguments "" 1).ComesTo place
          (.ok (Grammar.sources ((lexemes.take behind).drop place))) behind := by
  obtain ⟨last, tail, whole, -⟩ := exists_beforeEnd_append ends
  obtain ⟨outcome, front, behind, marks, cut, ⟨skipped, left, cut', rfl, unclosed, stops⟩, -,
      comes⟩ :=
    decides_nativeArguments selector ((beforeEnd lexemes).drop place) (.balanced .nil)
      fun lexeme member => endless_beforeEnd lexemes lexeme (List.mem_of_mem_drop member)
  obtain rfl : front = skipped := List.append_cancel_right (cut.symm.trans cut')
  rw [List.nil_append] at unclosed comes
  have atPlace : ((beforeEnd lexemes).take place).length = place := List.length_take_of_le inside
  have length := congrArg List.length cut
  rw [List.length_drop, List.length_append] at length
  have parts : lexemes = (beforeEnd lexemes).take place ++ front ++ (behind ++ last :: tail) := by
    rw [List.append_assoc, ← List.append_assoc front, ← cut, ← List.append_assoc,
      List.take_append_drop, ← whole]
  have atBehind : ((beforeEnd lexemes).take place ++ front).length = place + front.length := by
    rw [List.length_append, atPlace]
  have isFront : (lexemes.take (place + front.length)).drop place = front := by
    rw [parts, List.take_left' atBehind, List.drop_left' atPlace]
  refine ⟨place + front.length, Nat.le_add_right _ _, by omega, ?_, fun reader isText finds => ?_⟩
  · rcases stops with rfl | ⟨rfl, closes⟩
    · rw [List.length_nil] at length
      exact Or.inl (by omega)
    · refine Or.inr ⟨?_, ?_⟩
      · cases behind with
        | nil => exact nomatch closes
        | cons closing behind =>
            refine ⟨closing, ?_, closes⟩
            rw [parts, List.getElem?_append_right (Nat.le_of_eq atBehind), atBehind, Nat.sub_self]
            rfl
      · rw [isFront]
        cases unclosed
        assumption
  · rw [isFront]
    rintro course rfl
    exact ⟨_, comes reader isText course (finds.shows ends inside)⟩

/-- **The rules make progress and stay inside the text**, from each place of a stream up to
its first end. -/
theorem rules_progress (selector : String) {lexemes : List Lexeme} {place : Nat}
    (ends : ∃ lexeme ∈ lexemes, lexeme.token = .endOfText)
    (inside : place ≤ (beforeEnd lexemes).length) : Progress selector lexemes place := by
  have inner (shorter : List Lexeme)
      (_ : shorter.length < ((beforeEnd lexemes).drop place).length) :
      ReadsArguments selector shorter := readsArguments selector shorter
  constructor
  case arguments =>
    exact .of_decides ends inside (readsArguments selector _) fun _ _ follows => follows.1.forward
  case argument =>
    exact .of_decides ends inside (decides_argument inner (Nat.le_refl _))
      fun _ _ follows => follows.forward
  case complexSelector =>
    exact .of_decides ends inside (decides_complexSelector inner (Nat.le_refl _))
      fun _ _ follows => follows.forward
  case simpleSelector =>
    exact .of_decides ends inside (decides_simpleSelector inner (Nat.le_refl _))
      fun _ _ follows => follows.1.forward
  case pseudo =>
    exact fun draft => .of_decides ends inside (decides_pseudo inner draft (Nat.le_refl _))
      fun _ _ follows => follows.forward
  case «attribute» =>
    intro draft opening isThere opens
    have finds : (RuleReader.mk selector (lexemes[·]?)).Finds lexemes place := fun _ _ _ => rfl
    have shown := finds.shows ends inside
    cases rest : (beforeEnd lexemes).drop place with
    | nil =>
        rw [rest] at shown
        obtain ⟨last, isLast, isEnd⟩ := shown
        cases isThere.symm.trans isLast
        rw [opens] at isEnd
        contradiction
    | cons lexeme behind =>
        rw [rest] at shown
        cases isThere.symm.trans shown.1
        exact .of_decides ends inside (rest ▸ decides_attribute selector draft opens behind)
          fun _ _ follows => follows.forward
  case nativeArguments =>
    obtain ⟨behind, least, most, stops, all⟩ := exists_nativeArguments selector ends inside
    exact ⟨behind, least, most, stops, all _ rfl (finds_clamped selector ends), all⟩

/-- An attribute condition that the first end of the text cuts off from its closing bracket. -/
def cutCondition : List Lexeme := [
  ⟨.openBracket, "[", 0⟩, ⟨.ident "a", "a", 1⟩, ⟨.endOfText, "b", 2⟩, ⟨.closeBracket, "]", 3⟩,
  .endAt 4]

theorem cutCondition_progress :
    (∃ lexeme ∈ cutCondition, lexeme.token = .endOfText) ∧
      0 ≤ (beforeEnd cutCondition).length ∧ Progress "[ab]" cutCondition 0 :=
  have ends : ∃ lexeme ∈ cutCondition, lexeme.token = .endOfText :=
    ⟨.endAt 4, by decide, rfl⟩
  ⟨ends, Nat.zero_le _, rules_progress "[ab]" ends (Nat.zero_le _)⟩

end RuleReader

end SelectorLang
