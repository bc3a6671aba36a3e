import SelectorLang.Proofs.Tokenizer.Cuts

/-! # The same text further on

A run over a text that stands further on cuts the same lexemes there, or fails in the same
way (`SelectorLang.Run.ofText_shift`); a run passes over comments in front of a text
(`SelectorLang.Run.ofText_append`).
-/

namespace SelectorLang

open Scan

/-- The same error so much further on. -/
def LexicalError.shift (distance : Nat) : LexicalError → LexicalError
  | unterminatedComment offset => unterminatedComment (offset + distance)
  | invalidEscape offset => invalidEscape (offset + distance)

/-- The same cause when the text stands so much further on; only lexical errors tell where
they are. -/
def Cause.shift (distance : Nat) : Cause → Cause
  | lexical error => lexical (error.shift distance)
  | cause => cause

/-- The same lexeme so much further on. -/
def Lexeme.shift (distance : Nat) (lexeme : Lexeme) : Lexeme :=
  { lexeme with offset := lexeme.offset + distance }

/-! ## Runs further on -/

namespace Run

/-- **A run over a text further on** cuts the same lexemes there, and fails in the same
way, if it fails. -/
theorem ofText_shift (distance offset : Nat) (text : List Char) :
    (ofText (offset + distance) text).failure =
        (ofText offset text).failure.map (.shift distance) ∧
      (ofText (offset + distance) text).lexemes =
        (ofText offset text).lexemes.map (.shift distance) := by
  have further (offset length : Nat) :
      offset + distance + length = offset + length + distance := by omega
  refine ofText_induction (motive := fun offset text run =>
    (ofText (offset + distance) text).failure = run.failure.map (.shift distance) ∧
      (ofText (offset + distance) text).lexemes = run.lexemes.map (.shift distance))
    ?unterminated ?ends ?stray ?lexeme offset text
  case unterminated =>
    intro offset text noEnd
    rw [ofText_of_unterminated noEnd, further]
    exact ⟨rfl, rfl⟩
  case ends =>
    intro offset text gap skipped
    rw [ofText_of_end skipped, further]
    exact ⟨rfl, rfl⟩
  case stray =>
    intro offset text gap first rest skipped stray
    rw [ofText_of_stray skipped stray, further]
    exact ⟨rfl, rfl⟩
  case lexeme =>
    intro offset text gap first rest scan skipped found ih
    obtain ⟨failure, lexemes⟩ := ih
    rw [ofText_of_token skipped found, further, further]
    exact ⟨failure, congrArg (List.cons _) lexemes⟩

/-- A run over a text further on leaves the same of it. -/
theorem ofText_shift_remaining (distance offset : Nat) (text : List Char) :
    (ofText (offset + distance) text).remaining = (ofText offset text).remaining ∧
      (ofText (offset + distance) text).offset = (ofText offset text).offset + distance := by
  refine ofText_induction (motive := fun offset text run =>
    (ofText (offset + distance) text).remaining = run.remaining ∧
      (ofText (offset + distance) text).offset = run.offset + distance)
    ?unterminated ?ends ?stray ?lexeme offset text
  case unterminated =>
    intro offset text noEnd
    rw [ofText_of_unterminated noEnd]
    exact ⟨rfl, by simp only [stop]; omega⟩
  case ends =>
    intro offset text gap skipped
    rw [ofText_of_end skipped]
    exact ⟨rfl, by simp only [stop]; omega⟩
  case stray =>
    intro offset text gap first rest skipped stray
    rw [ofText_of_stray skipped stray]
    exact ⟨rfl, by simp only [stop]; omega⟩
  case lexeme =>
    intro offset text gap first rest scan skipped found ih
    have further : offset + distance + gap.length + scan.source.length =
        offset + gap.length + scan.source.length + distance := by omega
    rw [ofText_of_token skipped found, further]
    exact ih

/-- A run passes over comments in front of a text. -/
theorem ofText_append {front : List Char} (areComments : AreComments front) (offset : Nat)
    (text : List Char) :
    (ofText offset (front ++ text)).failure = (ofText (offset + front.length) text).failure ∧
      (ofText offset (front ++ text)).lexemes =
        (ofText (offset + front.length) text).lexemes := by
  have skipped := areComments.comments_append text
  have covers := comments_covers text
  cases read : comments text with | mk value gap rest =>
  rw [read] at skipped covers
  have length : offset + (front ++ gap).length = offset + front.length + gap.length := by
    rw [List.length_append, Nat.add_assoc]
  cases value with
  | false =>
      have noEnd : (comments text).value = false := by rw [read]
      have noEnd' : (comments (front ++ text)).value = false := by rw [skipped]; rfl
      have source : (comments (front ++ text)).source = front ++ gap := by rw [skipped]; rfl
      rw [ofText_of_unterminated noEnd, ofText_of_unterminated noEnd', source, length, read]
      exact ⟨rfl, rfl⟩
  | true =>
      cases rest with
      | nil =>
          rw [ofText_of_end read, ofText_of_end skipped, length]
          exact ⟨rfl, rfl⟩
      | cons first rest =>
          cases found : token (first :: rest) with
          | none =>
              rw [ofText_of_stray read found, ofText_of_stray skipped found, length]
              exact ⟨rfl, rfl⟩
          | some scan =>
              rw [ofText_of_token read found, ofText_of_token skipped found, length]
              exact ⟨rfl, rfl⟩

end Run

/-- **Behind its first pieces, a text is cut as what is left of it alone**, only further
on. -/
theorem tokenize_append_of_cuts {text behind : String} {pieces : List Piece}
    (cuts : Cuts text.toList pieces behind.toList) :
    tokenize text =
      match tokenize behind with
      | .error error => .error (error.shift (extent pieces))
      | .ok lexemes => .ok (place 0 pieces ++ lexemes.map (.shift (extent pieces))) := by
  have run := cuts.run_eq 0
  obtain ⟨failure, lexemes⟩ := Run.ofText_shift (extent pieces) 0 behind.toList
  unfold tokenize Tokenizer.nextRun Tokenizer.ofText
  simp only [run, Run.prepend, failure, lexemes]
  cases (Run.ofText 0 behind.toList).failure <;> rfl

end SelectorLang
