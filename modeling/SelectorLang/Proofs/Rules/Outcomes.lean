import SelectorLang.Proofs.Reader.Run
import SelectorLang.Rules.Reader

/-! # Outcomes of rules

What a rule makes of the lexemes behind the cursor, up to the first end of the text, is the
same for every reader that has these lexemes there, on whatever course, and whatever it has
behind them. Each rule that was entered is left again, whether a value is given or not, so that
as many are open behind a rule as in front of it; the lines that are written tell which rules
were entered where (`SelectorLang.RuleReader.Traces`). One lemma for each way to put rules
together carries this from the parts of a rule to the rule: to look, to move, to fail, to go on
with what another rule gives, and to enter and leave. That a rule comes back is part of what is
carried, so that nothing is left to say of termination. Where the lines do not matter, they
are left out (`SelectorLang.RuleReader.Decides`).
-/

namespace SelectorLang

/-- Further on the same course, behind some lexemes and lines. -/
def Course.after (course : Course) (count : Nat) (lines : List TraceLine) : Course :=
  ⟨course.place + count, course.depth, course.lines ++ lines⟩

namespace Course

theorem after_nothing (course : Course) : course.after 0 [] = course := by
  rw [after, List.append_nil]
  rfl

theorem after_after (course : Course) (first second : Nat) (lines more : List TraceLine) :
    (course.after first lines).after second more =
      course.after (first + second) (lines ++ more) := by
  simp only [after, Nat.add_assoc, List.append_assoc]

end Course

namespace RuleReading

variable {α β : Type} {rule : RuleReading α} {next : α → RuleReading β} {course behind : Course}

theorem outcome_bind_of_ok {value : α} (comes : rule.outcome course = some (.ok value, behind)) :
    RuleReading.outcome (rule >>= next) course = (next value).outcome behind := by
  change (rule course).bind _ = _
  rw [show rule course = _ from comes]
  rfl

theorem outcome_bind_of_error {failure : Failure}
    (comes : rule.outcome course = some (.error failure, behind)) :
    RuleReading.outcome (rule >>= next) course = some (.error failure, behind) := by
  change (rule course).bind _ = _
  rw [show rule course = _ from comes]
  rfl

end RuleReading

theorem Token.isEnd_eq_true_iff {token : Token} : token.isEnd = true ↔ token = .endOfText := by
  cases token <;> simp [Token.isEnd]

/-- The token in front of lexemes that the end of the text stands behind. -/
def tokenAhead : List Lexeme → Token
  | [] => .endOfText
  | lexeme :: _ => lexeme.token

/-- Such lexemes from the first that is no blank on. -/
def afterBlanks : List Lexeme → List Lexeme
  | [] => []
  | lexeme :: rest => if lexeme.token = .whitespace then afterBlanks rest else lexeme :: rest

theorem length_afterBlanks_le (lexemes : List Lexeme) :
    (afterBlanks lexemes).length ≤ lexemes.length := by
  induction lexemes with
  | nil => exact Nat.le_refl _
  | cons lexeme rest ih =>
      rw [afterBlanks]
      split
      · exact Nat.le_trans ih (Nat.le_succ _)
      · exact Nat.le_refl _

theorem tokenAhead_afterBlanks (lexemes : List Lexeme) :
    tokenAhead (afterBlanks lexemes) ≠ .whitespace := by
  induction lexemes with
  | nil => exact nofun
  | cons lexeme rest ih =>
      rw [afterBlanks]
      split
      · exact ih
      · assumption

theorem afterBlanks_of_ahead {lexemes : List Lexeme} (ahead : tokenAhead lexemes ≠ .whitespace) :
    afterBlanks lexemes = lexemes := by
  cases lexemes with
  | nil => rfl
  | cons lexeme rest => exact if_neg ahead

/-- The failure at the first of such lexemes. -/
def failureAt (selector : String) : List Lexeme → Failure
  | [] => ⟨.unexpectedEnd, selector⟩
  | lexeme :: _ => ⟨.unexpectedToken lexeme.source, selector⟩

namespace RuleReader

/-- From a place on a reader has some lexemes, and the end of the text behind them. -/
def Shows (reader : RuleReader) : Nat → List Lexeme → Prop
  | place, [] => ∃ last, reader.lexemeAt place = some last ∧ last.token = .endOfText
  | place, lexeme :: rest =>
    reader.lexemeAt place = some lexeme ∧ reader.Shows (place + 1) rest

theorem Shows.append {reader : RuleReader} {front behind : List Lexeme} {place : Nat}
    (shown : reader.Shows place (front ++ behind)) :
    reader.Shows (place + front.length) behind := by
  induction front generalizing place with
  | nil => exact shown
  | cons lexeme front ih =>
      rw [List.length_cons, Nat.add_comm front.length, ← Nat.add_assoc]
      exact ih shown.2

/-! ## Marks -/

/-- A rule that was entered: how many rules were open, and how many lexemes were left in front
of the end of the text. -/
structure Mark where
  /-- The rule. -/
  rule : Rule
  /-- How many rules were open. -/
  depth : Nat
  /-- How many lexemes were left. -/
  left : Nat

/-- The line for a mark, for a reader that has the end of the text at a place. -/
def Mark.line (reader : RuleReader) (stop : Nat) (mark : Mark) : TraceLine :=
  let lexeme := (reader.lexemeAt (stop - mark.left)).getD (.endAt 0)
  ⟨mark.rule, mark.depth, lexeme.offset, lexeme.source⟩

/-- Marks in the order of the lexemes, between two places that are given by what is left. -/
structure InOrder (most least : Nat) (marks : List Mark) : Prop where
  /-- No mark is in front of another that was set before it. -/
  pairwise : marks.Pairwise fun earlier later => later.left ≤ earlier.left
  /-- All of them are between the places. -/
  between : ∀ mark ∈ marks, least ≤ mark.left ∧ mark.left ≤ most

namespace InOrder

variable {most middle least : Nat} {front marks : List Mark}

theorem nil (most least : Nat) : InOrder most least [] :=
  ⟨.nil, List.forall_mem_nil _⟩

/-- A mark at the first place. -/
theorem cons (inOrder : InOrder most least marks) (inside : least ≤ most) (rule : Rule)
    (depth : Nat) : InOrder most least (⟨rule, depth, most⟩ :: marks) :=
  ⟨.cons (fun mark member => (inOrder.between mark member).2) inOrder.pairwise,
    List.forall_mem_cons.mpr ⟨⟨inside, Nat.le_refl most⟩, inOrder.between⟩⟩

theorem append (first : InOrder most middle front) (second : InOrder middle least marks)
    (notMore : middle ≤ most) (notFewer : least ≤ middle) :
    InOrder most least (front ++ marks) := by
  refine ⟨List.pairwise_append.mpr ⟨first.pairwise, second.pairwise, ?_⟩,
    List.forall_mem_append.mpr ⟨fun mark member => ?_, fun mark member => ?_⟩⟩
  · intro mark member later memberBehind
    exact Nat.le_trans (second.between later memberBehind).2 (first.between mark member).1
  · obtain ⟨notBehind, notInFront⟩ := first.between mark member
    exact ⟨Nat.le_trans notFewer notBehind, notInFront⟩
  · obtain ⟨notBehind, notInFront⟩ := second.between mark member
    exact ⟨notBehind, Nat.le_trans notInFront notMore⟩

end InOrder

/-! ## Rules in front of lexemes -/

/-- In front of lexemes none of which is an end of the text a rule has one outcome, which is
the same for all readers of the text that have these lexemes behind the cursor; the cursor
moves over some of them; as many rules are open then as before; the lines that are written have
their marks at these lexemes, in their order; and the outcome is as described, together with
the lexemes behind the cursor then and with the marks, for as many rules as are open. -/
def Traces {α : Type} (selector : String) (rule : RuleReader → RuleReading α)
    (lexemes : List Lexeme)
    (described : Except Failure α → List Lexeme → (Nat → List Mark) → Prop) : Prop :=
  (∀ lexeme ∈ lexemes, lexeme.token ≠ .endOfText) →
    ∃ outcome front behind marks, lexemes = front ++ behind ∧ described outcome behind marks ∧
      (∀ depth, InOrder lexemes.length behind.length (marks depth)) ∧
      ∀ reader : RuleReader, reader.selector = selector → ∀ course : Course,
        reader.Shows course.place lexemes →
          (rule reader).outcome course = some (outcome, course.after front.length
            ((marks course.depth).map (Mark.line reader (course.place + lexemes.length))))

namespace Traces

variable {α β : Type} {selector : String} {rule : RuleReader → RuleReading α}
  {lexemes : List Lexeme} {lexeme : Lexeme}
  {described described' : Except Failure α → List Lexeme → (Nat → List Mark) → Prop}

theorem mono (traces : Traces selector rule lexemes described)
    (weaker : ∀ outcome behind marks, behind <:+ lexemes → described outcome behind marks →
      described' outcome behind marks) : Traces selector rule lexemes described' := by
  intro endless
  obtain ⟨outcome, front, behind, marks, cut, holds, comes⟩ := traces endless
  exact ⟨outcome, front, behind, marks, cut, weaker _ _ _ ⟨front, cut.symm⟩ holds, comes⟩

/-- Nowhere ahead is an end of the text. -/
theorem of_endless (traces : (∀ lexeme ∈ lexemes, lexeme.token ≠ .endOfText) →
      Traces selector rule lexemes described) : Traces selector rule lexemes described :=
  fun endless => traces endless endless

/-- What leaves the course where it is. -/
theorem of_stays {outcome : Except Failure α} (holds : described outcome lexemes fun _ => [])
    (stays : (∀ lexeme ∈ lexemes, lexeme.token ≠ .endOfText) → ∀ reader : RuleReader,
      reader.selector = selector → ∀ course : Course, reader.Shows course.place lexemes →
        (rule reader).outcome course = some (outcome, course)) :
    Traces selector rule lexemes described := by
  refine fun endless => ⟨outcome, [], lexemes, fun _ => [], rfl, holds, fun _ => .nil _ _, ?_⟩
  intro reader isText course shown
  rw [stays endless reader isText course shown, List.map_nil, List.length_nil, course.after_nothing]

/-- To give a value stays. -/
theorem pure {value : α} (holds : described (.ok value) lexemes fun _ => []) :
    Traces selector (fun _ => Pure.pure value) lexemes described :=
  of_stays holds fun _ _ _ _ _ => rfl

/-- To fail stays. -/
theorem throw {cause : Cause} (holds : described (.error ⟨cause, selector⟩) lexemes fun _ => []) :
    Traces selector (fun reader => MonadExcept.throw ⟨cause, reader.selector⟩) lexemes
      described := by
  refine of_stays holds ?_
  rintro - reader rfl course -
  rfl

/-- **A rule and what it goes on with.** -/
theorem bind {next : RuleReader → α → RuleReading β}
    {first : Except Failure α → List Lexeme → (Nat → List Mark) → Prop}
    {described : Except Failure β → List Lexeme → (Nat → List Mark) → Prop}
    (traces : Traces selector rule lexemes first)
    (fails : ∀ failure behind marks, behind <:+ lexemes → first (.error failure) behind marks →
      described (.error failure) behind marks)
    (goesOn : ∀ value behind marks, behind <:+ lexemes → first (.ok value) behind marks →
      Traces selector (next · value) behind fun outcome final more =>
        described outcome final fun depth => marks depth ++ more depth) :
    Traces selector (fun reader => rule reader >>= next reader) lexemes described := by
  intro endless
  obtain ⟨outcome, front, behind, marks, cut, holds, inOrder, comes⟩ := traces endless
  cases outcome with
  | error failure =>
      refine ⟨.error failure, front, behind, marks, cut, fails _ _ _ ⟨front, cut.symm⟩ holds,
        inOrder, ?_⟩
      intro reader isText course shown
      exact RuleReading.outcome_bind_of_error (comes reader isText course shown)
  | ok value =>
      obtain ⟨outcome, front', behind', more, cut', holds', inOrder', comes'⟩ :=
        goesOn value behind marks ⟨front, cut.symm⟩ holds fun lexeme member =>
          endless lexeme (cut ▸ List.mem_append_right front member)
      have length : lexemes.length = front.length + behind.length := by
        rw [cut, List.length_append]
      have length' : behind.length = front'.length + behind'.length := by
        rw [cut', List.length_append]
      refine ⟨outcome, front ++ front', behind', fun depth => marks depth ++ more depth, ?_, holds',
        fun depth => (inOrder depth).append (inOrder' depth) (by omega) (by omega), ?_⟩
      · rw [cut, cut', List.append_assoc]
      · intro reader isText course shown
        rw [RuleReading.outcome_bind_of_ok (comes reader isText course shown),
          comes' reader isText _ (cut ▸ shown).append, Course.after_after, List.length_append,
          List.map_append, length, ← Nat.add_assoc]
        rfl

/-- A rule with a known outcome that enters none, and what it goes on with. -/
theorem of_next {first : RuleReader → RuleReading β} {next : RuleReader → β → RuleReading α}
    {value : β} (front : List Lexeme)
    (comes : (∀ lexeme ∈ front, lexeme.token ≠ .endOfText) → ∀ reader : RuleReader,
      ∀ course : Course, reader.Shows course.place (front ++ lexemes) →
        (first reader).outcome course = some (.ok value, course.after front.length []))
    (traces : Traces selector (next · value) lexemes described) :
    Traces selector (fun reader => first reader >>= next reader) (front ++ lexemes)
      described := by
  have known : Traces selector first (front ++ lexemes) fun outcome behind marks =>
      outcome = .ok value ∧ behind = lexemes ∧ marks = fun _ => [] := fun endless =>
    ⟨.ok value, front, lexemes, fun _ => [], rfl, ⟨rfl, rfl, rfl⟩, fun _ => .nil _ _,
      fun reader _ => comes (fun lexeme member => endless lexeme (List.mem_append_left _ member))
        reader⟩
  refine known.bind (fun _ _ _ _ failed => nomatch failed.1) fun _ _ _ _ came => ?_
  obtain ⟨⟨⟩, rfl, rfl⟩ := came
  exact traces

end Traces

/-! ## The cursor -/

variable {α : Type} {selector : String} {reader : RuleReader} {lexeme : Lexeme}
  {lexemes : List Lexeme} {course : Course}
  {described : Except Failure α → List Lexeme → (Nat → List Mark) → Prop}

theorem Shows.exists_lexemeAt {place : Nat} (shown : reader.Shows place lexemes) :
    ∃ lexeme, reader.lexemeAt place = some lexeme ∧ lexeme.token = tokenAhead lexemes ∧
      (lexemes ≠ [] → lexemes.head? = some lexeme) := by
  cases lexemes with
  | nil =>
      obtain ⟨last, isThere, isEnd⟩ := shown
      exact ⟨last, isThere, isEnd, fun nonempty => absurd rfl nonempty⟩
  | cons lexeme rest => exact ⟨lexeme, shown.1, rfl, fun _ => rfl⟩

theorem outcome_current (isThere : reader.lexemeAt course.place = some lexeme) :
    reader.current.outcome course = some (.ok lexeme, course) := by
  change (reader.lexemeAt course.place).map _ = _
  rw [isThere]
  rfl

theorem Shows.outcome_peek (shown : reader.Shows course.place lexemes) :
    reader.peek.outcome course = some (.ok (tokenAhead lexemes), course) := by
  obtain ⟨lexeme, isThere, isToken, -⟩ := shown.exists_lexemeAt
  rw [peek, RuleReading.outcome_bind_of_ok (outcome_current isThere), isToken]
  rfl

theorem Shows.outcome_bump (shown : reader.Shows course.place (lexeme :: lexemes))
    (inside : lexeme.token ≠ .endOfText) :
    reader.bump.outcome course = some (.ok (), course.after 1 []) := by
  rw [bump, RuleReading.outcome_bind_of_ok shown.outcome_peek, tokenAhead,
    Token.isEnd_eq_false_iff.mpr inside, Course.after, List.append_nil]
  rfl

theorem Shows.outcome_bumpSource (shown : reader.Shows course.place (lexeme :: lexemes))
    (inside : lexeme.token ≠ .endOfText) :
    reader.bumpSource.outcome course = some (.ok lexeme.source, course.after 1 []) := by
  rw [bumpSource, RuleReading.outcome_bind_of_ok (outcome_current shown.1),
    RuleReading.outcome_bind_of_ok (shown.outcome_bump inside)]
  rfl

namespace Traces

/-- To look shows the token ahead. -/
theorem peek {next : RuleReader → Token → RuleReading α}
    (traces : Traces selector (next · (tokenAhead lexemes)) lexemes described) :
    Traces selector (fun reader => reader.peek >>= next reader) lexemes described :=
  of_next [] (fun _ _ course shown => course.after_nothing.symm ▸ shown.outcome_peek) traces

/-- To move goes over the lexeme ahead. -/
theorem bump {next : RuleReader → Unit → RuleReading α}
    (traces : Traces selector (next · ()) lexemes described) :
    Traces selector (fun reader => reader.bump >>= next reader) (lexeme :: lexemes) described :=
  of_next [lexeme]
    (fun inside _ _ shown => shown.outcome_bump (inside lexeme List.mem_cons_self)) traces

/-- To copy goes over the lexeme ahead and gives its text. -/
theorem bumpSource {next : RuleReader → String → RuleReading α}
    (traces : Traces selector (next · lexeme.source) lexemes described) :
    Traces selector (fun reader => reader.bumpSource >>= next reader) (lexeme :: lexemes)
      described :=
  of_next [lexeme]
    (fun inside _ _ shown => shown.outcome_bumpSource (inside lexeme List.mem_cons_self)) traces

/-- To find a lexeme unexpected is to fail at it. -/
theorem unexpected
    (holds : described (.error (failureAt selector lexemes)) lexemes fun _ => []) :
    Traces selector (fun reader => reader.unexpected) lexemes described := by
  refine of_stays holds fun endless reader isText course shown => ?_
  obtain ⟨found, isThere, isToken, isHead⟩ := shown.exists_lexemeAt
  rw [RuleReader.unexpected, RuleReading.outcome_bind_of_ok (outcome_current isThere), isToken,
    isText]
  cases lexemes with
  | nil => rfl
  | cons lexeme rest =>
      cases isHead (List.cons_ne_nil _ _)
      rw [tokenAhead, Token.isEnd_eq_false_iff.mpr (endless _ List.mem_cons_self)]
      rfl

/-- **A traced rule is left again**, and its mark stands in front of those that are set inside
of it, where one more rule is open. -/
theorem traced {entered : Rule} {inside : RuleReader → RuleReading α}
    (traces : Traces selector inside lexemes fun outcome behind marks =>
      described outcome behind fun depth =>
        ⟨entered, depth, lexemes.length⟩ :: marks (depth + 1)) :
    Traces selector (fun reader => reader.traced entered (inside reader)) lexemes described := by
  intro endless
  obtain ⟨outcome, front, behind, marks, cut, holds, inOrder, comes⟩ := traces endless
  have notMore : behind.length ≤ lexemes.length := by
    rw [cut, List.length_append]
    exact Nat.le_add_left _ _
  refine ⟨outcome, front, behind, _, cut, holds,
    fun depth => (inOrder (depth + 1)).cons notMore entered depth, ?_⟩
  intro reader isText course shown
  obtain ⟨lexeme, isThere, -⟩ := shown.exists_lexemeAt
  have line : Mark.line reader (course.place + lexemes.length)
      ⟨entered, course.depth, lexemes.length⟩ =
        ⟨entered, course.depth, lexeme.offset, lexeme.source⟩ := by
    rw [Mark.line, Nat.add_sub_cancel, isThere]
    rfl
  have enters : reader.enter entered course = some ((), ⟨course.place, course.depth + 1,
      course.lines ++ [⟨entered, course.depth, lexeme.offset, lexeme.source⟩]⟩) := by
    rw [enter, isThere]
    rfl
  have comesInside := comes reader isText ⟨course.place, course.depth + 1,
    course.lines ++ [⟨entered, course.depth, lexeme.offset, lexeme.source⟩]⟩ shown
  rw [List.map_cons, line]
  change (reader.enter entered course).bind _ = _
  rw [enters]
  change (RuleReading.outcome (inside reader) _).bind _ = _
  rw [comesInside]
  change some (outcome, Course.mk _ _ _) = _
  rw [Course.after, Nat.add_sub_cancel, List.append_assoc]
  rfl

end Traces

/-- **Blanks are skipped** up to the first lexeme that is none. -/
theorem traces_skipBlanks (selector : String) (lexemes : List Lexeme) :
    Traces selector (fun reader => reader.skipBlanks) lexemes fun outcome behind marks =>
      outcome = .ok () ∧ behind = afterBlanks lexemes ∧ marks = fun _ => [] := by
  induction lexemes with
  | nil =>
      unfold skipBlanks
      exact .peek (.pure ⟨rfl, rfl, rfl⟩)
  | cons lexeme rest ih =>
      unfold skipBlanks
      refine .peek ?_
      by_cases blank : lexeme.token = .whitespace
      · simp only [tokenAhead, afterBlanks, blank, ↓reduceIte]
        exact .bump ih
      · simp only [tokenAhead, afterBlanks, blank, ↓reduceIte]
        exact .pure ⟨rfl, rfl, rfl⟩

/-- To skip blanks leaves the first lexeme that is none ahead. -/
theorem Traces.skipBlanks {next : RuleReader → Unit → RuleReading α}
    (traces : Traces selector (next · ()) (afterBlanks lexemes) described) :
    Traces selector (fun reader => reader.skipBlanks >>= next reader) lexemes described := by
  refine (traces_skipBlanks selector lexemes).bind (fun _ _ _ _ failed => nomatch failed.1) ?_
  rintro _ _ _ - ⟨⟨⟩, rfl, rfl⟩
  exact traces

/-! ## Outcomes alone -/

/-- What a rule does in front of lexemes, whatever lines it writes. -/
def Decides {α : Type} (selector : String) (rule : RuleReader → RuleReading α)
    (lexemes : List Lexeme) (described : Except Failure α → List Lexeme → Prop) : Prop :=
  Traces selector rule lexemes fun outcome behind _ => described outcome behind

namespace Decides

variable {α β : Type} {selector : String} {rule : RuleReader → RuleReading α}
  {lexemes : List Lexeme} {described described' : Except Failure α → List Lexeme → Prop}

theorem mono (decides : Decides selector rule lexemes described)
    (weaker : ∀ outcome behind, behind <:+ lexemes → described outcome behind →
      described' outcome behind) : Decides selector rule lexemes described' :=
  Traces.mono decides fun outcome behind _ => weaker outcome behind

/-- A rule and what it goes on with. -/
theorem bind {next : RuleReader → α → RuleReading β} {first : Except Failure α → List Lexeme → Prop}
    {described : Except Failure β → List Lexeme → Prop}
    (decides : Decides selector rule lexemes first)
    (fails : ∀ failure behind, behind <:+ lexemes → first (.error failure) behind →
      described (.error failure) behind)
    (goesOn : ∀ value behind, behind <:+ lexemes → first (.ok value) behind →
      Decides selector (next · value) behind described) :
    Decides selector (fun reader => rule reader >>= next reader) lexemes described :=
  Traces.bind decides (fun failure behind _ => fails failure behind)
    fun value behind _ => goesOn value behind

/-- A traced rule comes to the outcome of what is inside of it. -/
theorem traced {entered : Rule} (decides : Decides selector rule lexemes described) :
    Decides selector (fun reader => reader.traced entered (rule reader)) lexemes described :=
  Traces.traced decides

end Decides

end RuleReader

end SelectorLang
