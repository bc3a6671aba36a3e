import SelectorLang.Tokenizer

/-! # Runs of the tokenizer

A run comes to one of four things, each said by one lemma: a comment without an end, the
end of the text, a stray backslash, or a lexeme and another run. What holds of every run
is shown by these four cases (`SelectorLang.Run.ofText_induction`).
-/

namespace SelectorLang.Run

open Scan

variable {offset : Nat} {text : List Char}

theorem ofText_of_unterminated (unterminated : (comments text).value = false) :
    ofText offset text =
      stop (some (.unterminatedComment (offset + (comments text).source.length))) [] []
        (offset + (comments text).source.length + (comments text).rest.length) := by
  rw [ofText]
  simp only [unterminated, ↓reduceIte]

theorem ofText_of_end {gap : List Char} (skipped : comments text = ⟨true, gap, []⟩) :
    ofText offset text =
      stop none [Lexeme.endAt (offset + gap.length)] [] (offset + gap.length) := by
  rw [ofText]
  simp only [skipped, Bool.true_eq_false, ↓reduceIte]
  split
  · rfl
  · rename_i place
    rw [skipped] at place
    contradiction

theorem ofText_of_stray {gap rest : List Char} {first : Char}
    (skipped : comments text = ⟨true, gap, first :: rest⟩) (stray : token (first :: rest) = none) :
    ofText offset text =
      stop (some (.invalidEscape (offset + gap.length))) [] rest (offset + gap.length + 1) := by
  rw [ofText]
  simp only [skipped, Bool.true_eq_false, ↓reduceIte]
  split
  · rename_i place
    rw [skipped] at place
    contradiction
  · rename_i place
    rw [skipped] at place
    cases place
    split
    · rfl
    · rename_i found
      rw [stray] at found
      contradiction

theorem ofText_of_token {gap rest : List Char} {first : Char} {scan : Scan Recognized}
    (skipped : comments text = ⟨true, gap, first :: rest⟩)
    (found : token (first :: rest) = some scan) :
    ofText offset text =
      (ofText (offset + gap.length + scan.source.length) scan.rest).cons
        ⟨scan.value.token, String.ofList scan.source, offset + gap.length⟩ scan.value.cutOff := by
  rw [ofText]
  simp only [skipped, Bool.true_eq_false, ↓reduceIte]
  split
  · rename_i place
    rw [skipped] at place
    contradiction
  · rename_i place
    rw [skipped] at place
    cases place
    split
    · rename_i stray
      rw [found] at stray
      contradiction
    · rename_i other
      rw [found] at other
      cases other
      rfl

/-- **What holds of every run**: the four things a run comes to, the last of them with
the rest of the run. -/
theorem ofText_induction {motive : Nat → List Char → Run → Prop}
    (unterminated : ∀ offset text, (comments text).value = false →
      motive offset text
        (stop (some (.unterminatedComment (offset + (comments text).source.length))) [] []
          (offset + (comments text).source.length + (comments text).rest.length)))
    (ends : ∀ offset text gap, comments text = ⟨true, gap, []⟩ →
      motive offset text
        (stop none [Lexeme.endAt (offset + gap.length)] [] (offset + gap.length)))
    (stray : ∀ offset text gap first rest, comments text = ⟨true, gap, first :: rest⟩ →
      token (first :: rest) = none →
        motive offset text
          (stop (some (.invalidEscape (offset + gap.length))) [] rest (offset + gap.length + 1)))
    (lexeme : ∀ offset text gap first rest scan, comments text = ⟨true, gap, first :: rest⟩ →
      token (first :: rest) = some scan →
        motive (offset + gap.length + scan.source.length) scan.rest
          (ofText (offset + gap.length + scan.source.length) scan.rest) →
        motive offset text
          ((ofText (offset + gap.length + scan.source.length) scan.rest).cons
            ⟨scan.value.token, String.ofList scan.source, offset + gap.length⟩
            scan.value.cutOff))
    (offset : Nat) (text : List Char) : motive offset text (ofText offset text) := by
  induction length : text.length using Nat.strongRecOn generalizing offset text with
  | ind length' ih =>
      subst length
      have covers := comments_covers text
      cases skipped : comments text with
      | mk value gap rest =>
          rw [skipped] at covers
          cases value with
          | false =>
              have noEnd : (comments text).value = false := by rw [skipped]
              rw [ofText_of_unterminated noEnd]
              exact unterminated offset text noEnd
          | true =>
              cases rest with
              | nil =>
                  rw [ofText_of_end skipped]
                  exact ends offset text gap skipped
              | cons first rest =>
                  cases found : token (first :: rest) with
                  | none =>
                      rw [ofText_of_stray skipped found]
                      exact stray offset text gap first rest skipped found
                  | some scan =>
                      have shorter := token_length_rest_lt found
                      have left := covers.length_rest_le
                      rw [ofText_of_token skipped found]
                      refine lexeme offset text gap first rest scan skipped found ?_
                      exact ih _ (Nat.lt_of_lt_of_le shorter left) _ _ rfl

end SelectorLang.Run
