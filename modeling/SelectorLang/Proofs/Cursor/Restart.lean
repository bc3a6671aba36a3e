import SelectorLang.Proofs.Cursor.Tokens
import SelectorLang.Proofs.Tokenizer.Shift

/-! # Runs that go on where one stopped

A tokenizer that keeps its whole text and a cursor in it cuts the same lexemes as one that
keeps only what is left of the text (`SelectorLang.CursorTokenizer.run_performs`). So
whatever a run comes to, the next one goes on as a fresh one would over the text behind it, and
once the end of the text is reached every further run only reports it
(`SelectorLang.CursorTokenizer.run_restarts`).
-/

namespace SelectorLang

open Scan

namespace Run

/-- After a stray backslash a run stands behind the backslash. -/
theorem offset_of_invalidEscape (offset : Nat) (text : List Char) {place : Nat} :
    (ofText offset text).failure = some (.invalidEscape place) →
      (ofText offset text).offset = place + 1 := by
  refine ofText_induction (motive := fun _ _ run =>
    run.failure = some (.invalidEscape place) → run.offset = place + 1)
    ?unterminated ?ends ?stray ?lexeme offset text
  case unterminated =>
    intro offset text _ failure
    cases failure
  case ends =>
    intro offset text gap _ failure
    cases failure
  case stray =>
    intro offset text gap first rest _ _ failure
    cases failure
    rfl
  case lexeme =>
    intro offset text gap first rest scan _ _ ih
    exact ih

/-- After a comment without an end nothing of the text remains. -/
theorem remaining_of_unterminatedComment (offset : Nat) (text : List Char) {place : Nat} :
    (ofText offset text).failure = some (.unterminatedComment place) →
      (ofText offset text).remaining = [] := by
  refine ofText_induction (motive := fun _ _ run =>
    run.failure = some (.unterminatedComment place) → run.remaining = [])
    (fun _ _ _ _ => rfl) (fun _ _ _ _ _ => rfl) ?stray ?lexeme offset text
  case stray =>
    intro offset text gap first rest _ _ failure
    cases failure
  case lexeme =>
    intro offset text gap first rest scan _ _ ih
    exact ih

end Run

/-- A tokenizer that keeps its whole text. -/
structure CursorTokenizer where
  /-- The text, and the place that the tokenizer stands at. -/
  cursor : Cursor
  /-- Where the token that was read last started. -/
  tokenStart : Nat
  /-- The lexemes so far, in the order of the text. -/
  lexemes : List Lexeme
  /-- What it warned of. -/
  warnings : List Warning

namespace CursorTokenizer

/-- A fresh tokenizer in front of a text. -/
def start (text : List Char) : CursorTokenizer :=
  ⟨.start text, 0, [], []⟩

/-- The tokenizer with a lexeme more, which goes from the start of its token to a place. -/
def push (tokenizer : CursorTokenizer) (recognized : Recognized) (behind : Cursor) :
    CursorTokenizer where
  cursor := behind
  tokenStart := tokenizer.tokenStart
  lexemes := tokenizer.lexemes ++ [⟨recognized.token,
    String.ofList (behind.input.extract tokenizer.tokenStart behind.position),
    tokenizer.tokenStart⟩]
  warnings := tokenizer.warnings ++
    (recognized.cutOff.map (CutOff.warning tokenizer.tokenStart)).toList

theorem lexemes_push (tokenizer : CursorTokenizer) (recognized : Recognized) {behind : Cursor}
    {source : List Char}
    (taken : behind.input.extract tokenizer.tokenStart behind.position = source) :
    (tokenizer.push recognized behind).lexemes =
      tokenizer.lexemes ++ [⟨recognized.token, String.ofList source, tokenizer.tokenStart⟩] := by
  rw [push, taken]

/-- A run to the end of the text or to the first error, and the tokenizer behind it. -/
def run (tokenizer : CursorTokenizer) : Option LexicalError × CursorTokenizer :=
  match _skipped : tokenizer.cursor.comments with
  | (some error, behind) => (some error, { tokenizer with cursor := behind })
  | (none, place) =>
    let started : CursorTokenizer :=
      { tokenizer with cursor := place, tokenStart := place.position }
    match _read : place.token with
    | (none, behind) =>
      (some (.invalidEscape started.tokenStart), { started with cursor := behind })
    | (some recognized, behind) =>
      if _ended : recognized.token.isEnd then (none, started.push recognized behind)
      else (started.push recognized behind).run
termination_by tokenizer.cursor.left.length
decreasing_by
  exact Nat.lt_of_lt_of_le (Cursor.length_left_of_token _read _ended)
    (Cursor.length_left_of_comments _skipped)

/-- An outcome of a tokenizer that is the one of a run over what is left of its text. -/
structure Performs (tokenizer : CursorTokenizer)
    (outcome : Option LexicalError × CursorTokenizer) (run : Run) : Prop where
  failure : outcome.1 = run.failure
  input : outcome.2.cursor.input = tokenizer.cursor.input
  position : outcome.2.cursor.position = run.offset
  lexemes : outcome.2.lexemes = tokenizer.lexemes ++ run.lexemes
  warnings : outcome.2.warnings = tokenizer.warnings ++ run.warnings

/-- **A run with a cursor in the whole text** is the run over what is left of the text: it
reads nothing in front of the place where it starts, and its outcome does not depend on how
the tokenizer came there. -/
theorem run_performs (tokenizer : CursorTokenizer) :
    tokenizer.Performs tokenizer.run
      (Run.ofText tokenizer.cursor.position tokenizer.cursor.left) := by
  -- On the turns of the loop: its four ways to go on are the four outcomes of a run.
  fun_induction run tokenizer with
  | case1 tokenizer error behind skipped =>
    obtain ⟨unended, rfl, input, position⟩ := Cursor.of_comments_eq_some skipped
    rw [Run.ofText_of_unterminated unended]
    exact ⟨rfl, input, position, (List.append_nil _).symm, (List.append_nil _).symm⟩
  | case2 tokenizer place skipped started behind read =>
    obtain ⟨gap, comments, same, position⟩ := Cursor.of_comments_eq_none skipped
    obtain ⟨first, rest, ahead, stray, input, behind⟩ := Cursor.of_token_eq_none read
    rw [ahead] at comments
    rw [Run.ofText_of_stray comments stray, ← position]
    exact ⟨rfl, input.trans same, behind, (List.append_nil _).symm,
      (List.append_nil _).symm⟩
  | case3 tokenizer place skipped started recognized behind read ended =>
    obtain ⟨gap, comments, same, position⟩ := Cursor.of_comments_eq_none skipped
    obtain ⟨scan, found, rfl, input, further, source, left⟩ := Cursor.of_token_eq_some read
    have pushed := started.lexemes_push scan.value source
    have atEnd := (Cursor.isEnd_of_token read).mp ended
    rw [atEnd] at comments found
    cases found
    rw [Run.ofText_of_end comments, ← position]
    exact ⟨rfl, input.trans same, further, pushed, rfl⟩
  | case4 tokenizer place skipped started recognized behind read goesOn ih =>
    obtain ⟨gap, comments, same, position⟩ := Cursor.of_comments_eq_none skipped
    obtain ⟨scan, found, rfl, input, further, source, left⟩ := Cursor.of_token_eq_some read
    rw [Cursor.isEnd_of_token read] at goesOn
    obtain ⟨first, rest, ahead⟩ := List.exists_cons_of_ne_nil goesOn
    rw [ahead] at comments found
    rw [Run.ofText_of_token comments found, ← position, ← further, ← left]
    refine ⟨ih.failure, ih.input.trans (input.trans same), ih.position,
      ih.lexemes.trans ?_, ih.warnings.trans ?_⟩
    · rw [started.lexemes_push scan.value source, List.append_assoc]
      rfl
    · exact List.append_assoc _ _ _

/-- The tokenizer that keeps only what is left of the text. -/
def toTokenizer (tokenizer : CursorTokenizer) : Tokenizer :=
  ⟨tokenizer.cursor.left, tokenizer.cursor.position, tokenizer.lexemes⟩

/-- A run leaves of the text what the run over what was left of it leaves. -/
theorem left_run (tokenizer : CursorTokenizer) :
    tokenizer.run.2.cursor.left =
      (Run.ofText tokenizer.cursor.position tokenizer.cursor.left).remaining := by
  have performs := tokenizer.run_performs
  obtain ⟨taken, whole, stands⟩ :=
    Run.exists_taken tokenizer.cursor.position tokenizer.cursor.left
  rw [Cursor.left, performs.input, performs.position, stands, ← List.drop_drop]
  have dropped := congrArg (List.drop taken.length) whole
  rw [List.drop_left] at dropped
  exact dropped.symm

/-- **Both tokenizers run alike**, whatever stands in front of the place. -/
theorem run_toTokenizer (tokenizer : CursorTokenizer) :
    tokenizer.run.1 = tokenizer.toTokenizer.nextRun.failure ∧
      tokenizer.run.2.toTokenizer = tokenizer.toTokenizer.advance := by
  have performs := tokenizer.run_performs
  refine ⟨performs.failure, ?_⟩
  rw [toTokenizer, left_run, performs.position, performs.lexemes]
  rfl

/-! ## Runs one after the other -/

/-- The tokenizer after so many runs. -/
def afterRuns : Nat → CursorTokenizer → CursorTokenizer
  | 0, tokenizer => tokenizer
  | count + 1, tokenizer => afterRuns count tokenizer.run.2

/-- The runs leave the text as it is. -/
theorem input_afterRuns (count : Nat) (tokenizer : CursorTokenizer) :
    (tokenizer.afterRuns count).cursor.input = tokenizer.cursor.input := by
  induction count generalizing tokenizer with
  | zero => rfl
  | succ count ih => exact (ih tokenizer.run.2).trans tokenizer.run_performs.input

/-- The next run comes to what a fresh tokenizer comes to over a text from a place on: the
lexemes and the error are only so much further on. -/
structure ContinuesAt (text : List Char) (place : Nat) (tokenizer : CursorTokenizer) : Prop where
  input : tokenizer.run.2.cursor.input = text
  failure : tokenizer.run.1 = (start (text.drop place)).run.1.map (.shift place)
  lexemes : tokenizer.run.2.lexemes =
    tokenizer.lexemes ++ (start (text.drop place)).run.2.lexemes.map (.shift place)
  position : tokenizer.run.2.cursor.position =
    place + (start (text.drop place)).run.2.cursor.position

theorem continuesAt (tokenizer : CursorTokenizer) :
    tokenizer.ContinuesAt tokenizer.cursor.input tokenizer.cursor.position := by
  have performs := tokenizer.run_performs
  have fresh := (start (tokenizer.cursor.input.drop tokenizer.cursor.position)).run_performs
  obtain ⟨failure, lexemes⟩ := Run.ofText_shift tokenizer.cursor.position 0 tokenizer.cursor.left
  obtain ⟨-, offset⟩ :=
    Run.ofText_shift_remaining tokenizer.cursor.position 0 tokenizer.cursor.left
  rw [Nat.zero_add] at failure lexemes offset
  refine ⟨performs.input, ?_, ?_, ?_⟩
  · rw [performs.failure, failure, fresh.failure]
    rfl
  · rw [performs.lexemes, lexemes, fresh.lexemes]
    rfl
  · rw [performs.position, offset, fresh.position, Nat.add_comm]
    rfl

/-- At the end of the text a run only reports the end. -/
theorem run_of_left_eq_nil {tokenizer : CursorTokenizer} (atEnd : tokenizer.cursor.left = []) :
    tokenizer.run.1 = none ∧
      tokenizer.run.2.lexemes =
        tokenizer.lexemes ++ [Lexeme.endAt tokenizer.cursor.input.length] ∧
      tokenizer.run.2.cursor.left = [] := by
  have performs := tokenizer.run_performs
  have length := tokenizer.cursor.length_left
  have inside := tokenizer.cursor.inside
  have left := tokenizer.left_run
  have noComments : comments ([] : List Char) = ⟨true, [], []⟩ := by rw [comments]; rfl
  have ended : Run.ofText tokenizer.cursor.position [] = _ := Run.ofText_of_end noComments
  rw [atEnd, List.length_nil] at length
  have place : tokenizer.cursor.position = tokenizer.cursor.input.length := by omega
  rw [atEnd, ended] at performs left
  refine ⟨performs.failure, ?_, left⟩
  rw [performs.lexemes, List.length_nil, Nat.add_zero, place]
  rfl

theorem left_afterRuns {tokenizer : CursorTokenizer} (atEnd : tokenizer.cursor.left = [])
    (count : Nat) : (tokenizer.afterRuns count).cursor.left = [] := by
  induction count generalizing tokenizer with
  | zero => exact atEnd
  | succ count ih => exact ih (run_of_left_eq_nil atEnd).2.2

/-- **Runs go on where the last one stopped.** Whatever runs came before, the next one is the
run of a tokenizer that keeps only what is left of the text, and comes to what a fresh
tokenizer comes to over it, so much further on. After a stray backslash the text goes on
behind the backslash; after a comment without an end, or at the end of the text, every
further run adds the end of the text and nothing else. -/
theorem run_restarts (tokenizer : CursorTokenizer) (count : Nat) :
    let text := tokenizer.cursor.input
    let reached := tokenizer.afterRuns count
    (reached.run.1 = reached.toTokenizer.nextRun.failure ∧
      reached.run.2.toTokenizer = reached.toTokenizer.advance) ∧
    reached.ContinuesAt text reached.cursor.position ∧
    (∀ place, reached.run.1 = some (.invalidEscape place) →
      reached.run.2.ContinuesAt text (place + 1)) ∧
    ((reached.run.1 = none ∨ ∃ place, reached.run.1 = some (.unterminatedComment place)) →
      ∀ further,
        let later := reached.run.2.afterRuns further
        later.run.1 = none ∧
          later.run.2.lexemes = later.lexemes ++ [Lexeme.endAt text.length]) := by
  intro text reached
  have same : reached.cursor.input = text := tokenizer.input_afterRuns count
  have performs := reached.run_performs
  refine ⟨reached.run_toTokenizer, ?goesOn, ?stray, ?ended⟩
  case goesOn => exact same ▸ reached.continuesAt
  case stray =>
    intro place stray
    have stands := Run.offset_of_invalidEscape _ _ (performs.failure.symm.trans stray)
    have next := reached.run.2.continuesAt
    rwa [performs.position, stands, performs.input, same] at next
  case ended =>
    intro stopped further later
    have atEnd : reached.run.2.cursor.left = [] := by
      rw [left_run]
      rcases stopped with success | ⟨place, unterminated⟩
      · exact Run.remaining_of_failure_eq_none _ _ (performs.failure.symm.trans success)
      · exact Run.remaining_of_unterminatedComment _ _ (performs.failure.symm.trans unterminated)
    have input : later.cursor.input = text :=
      (reached.run.2.input_afterRuns further).trans (performs.input.trans same)
    obtain ⟨success, lexemes, -⟩ := run_of_left_eq_nil (left_afterRuns atEnd further)
    exact ⟨success, input ▸ lexemes⟩

/-- A text with a stray backslash and a comment without an end. -/
def strayAndOpen : List Char := "a\\\n/*b".toList

theorem strayAndOpen_restarts :
    (start strayAndOpen).run.1 = some (.invalidEscape 1) ∧
      (start strayAndOpen).run.2.ContinuesAt strayAndOpen 2 ∧
      ((start strayAndOpen).afterRuns 1).run.1 = some (.unterminatedComment 3) ∧
      ∀ further,
        let later := ((start strayAndOpen).afterRuns 2).afterRuns further
        later.run.1 = none ∧ later.run.2.lexemes = later.lexemes ++ [Lexeme.endAt 6] := by
  have stray : (start strayAndOpen).run.1 = some (.invalidEscape 1) := by decide +kernel
  have unterminated : ((start strayAndOpen).afterRuns 1).run.1 = some (.unterminatedComment 3) := by
    decide +kernel
  obtain ⟨-, -, goesOn, -⟩ := run_restarts (start strayAndOpen) 0
  obtain ⟨-, -, -, ended⟩ := run_restarts (start strayAndOpen) 1
  exact ⟨stray, goesOn 1 stray, unterminated, ended (Or.inr ⟨3, unterminated⟩)⟩

end CursorTokenizer

end SelectorLang
