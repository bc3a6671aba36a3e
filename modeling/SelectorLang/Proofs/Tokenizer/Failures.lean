import SelectorLang.Proofs.Cursor.Restart
import SelectorLang.Proofs.Tokenizer.Tails
import SelectorLang.Proofs.Tokenizer.Warnings

/-! # Where a text cannot be cut

A run that fails stops at a backslash in front of a line feed or at a comment without an end.
No token in front of either sees it (`SelectorLang.indistinct_of_stands`), so that the lexemes
so far are those of the text up to there, and a text with neither of the two in it is cut to
its end (`SelectorLang.tokenize_fails_at_error`).
-/

namespace SelectorLang

open Scan CodePoint

variable {tail tail' : List Char}

/-! ## What stands at an error -/

/-- What an error says of the text from its offset on. -/
def LexicalError.Stands (rest : List Char) : LexicalError → Prop
  | invalidEscape _ => ['\\', '\n'] <+: rest
  | unterminatedComment _ => ['/', '*'] <+: rest ∧ ¬ ['*', '/'] <:+: rest.drop 2

/-- Where the tokenizer stops at an error in a text of some length. -/
def LexicalError.stop (length : Nat) : LexicalError → Nat
  | invalidEscape offset => offset + 1
  | unterminatedComment _ => length

namespace Scan

theorem not_infix_of_commentBody {text : List Char} (unclosed : commentBody text = none) :
    ¬ ['*', '/'] <:+: text := by
  induction text with
  | nil => simp
  | cons first rest ih =>
      rw [commentBody] at unclosed
      split at unclosed
      · contradiction
      · rename_i goesOn
        rw [List.infix_cons_iff]
        rintro (closes | later)
        · obtain ⟨asterisk, slash⟩ := List.cons_prefix_cons.mp closes
          obtain ⟨behind, rfl⟩ := slash
          exact goesOn ⟨asterisk.symm, rfl⟩
        · exact ih (Option.map_eq_none_iff.mp unclosed) later

/-- Comments that do not all end leave one that has no end. -/
theorem stands_of_comments {text : List Char} (unterminated : (comments text).value = false)
    (offset : Nat) : (LexicalError.unterminatedComment offset).Stands (comments text).rest := by
  fun_induction comments text with
  | case1 text starts unclosed =>
      obtain ⟨behind, rfl⟩ := exists_of_commentStarts starts
      exact ⟨⟨behind, rfl⟩, not_infix_of_commentBody unclosed⟩
  | case2 text _ body _ ih => exact ih unterminated
  | case3 => contradiction

/-- Only a backslash in front of a line feed starts no token. -/
theorem stands_of_token {first : Char} {rest : List Char} (stray : token (first :: rest) = none)
    (offset : Nat) : (LexicalError.invalidEscape offset).Stands (first :: rest) := by
  rw [token] at stray
  cases announced : opening first rest <;> rw [announced] at stray <;> try contradiction
  obtain ⟨rfl, noEscape⟩ := Cursor.opening_stray announced
  obtain ⟨behind, rfl⟩ := exists_of_stray (Bool.not_eq_true _ ▸ noEscape)
  exact ⟨behind, rfl⟩

end Scan

/-- A run that fails has cut the text in front of the error into its lexemes, up to comments
right in front of the error. -/
theorem exists_cuts_of_failure (offset : Nat) (text : List Char) {error : LexicalError} :
    (Run.ofText offset text).failure = some error →
      ∃ pieces gap tail, Cuts text pieces (gap ++ tail) ∧ AreComments gap ∧ error.Stands tail ∧
        error.offset = offset + extent pieces + gap.length ∧
        (Run.ofText offset text).lexemes = place offset pieces := by
  refine Run.ofText_induction (motive := fun offset text run =>
    run.failure = some error →
      ∃ pieces gap tail, Cuts text pieces (gap ++ tail) ∧ AreComments gap ∧ error.Stands tail ∧
        error.offset = offset + extent pieces + gap.length ∧ run.lexemes = place offset pieces)
    ?unterminated ?ends ?stray ?lexeme offset text
  case unterminated =>
    intro offset text unterminated fails
    cases fails
    refine ⟨[], (comments text).source, (comments text).rest, ?_, comments_areComments text,
      stands_of_comments unterminated _, rfl, rfl⟩
    rw [show (comments text).source ++ (comments text).rest = text from comments_covers text]
    exact .done text
  case ends =>
    intro offset text gap _ fails
    contradiction
  case stray =>
    intro offset text gap first rest skipped stray fails
    cases fails
    obtain ⟨areComments, -, rfl⟩ := areComments_of_comments skipped
    exact ⟨[], gap, first :: rest, .done _, areComments, stands_of_token stray _, rfl, rfl⟩
  case lexeme =>
    intro offset text gap first rest scan skipped found ih fails
    -- A token that is cut off leaves nothing for the run to fail on.
    have uncut : scan.value.cutOff = none := by
      cases cutOff : scan.value.cutOff with
      | none => rfl
      | some construct =>
          have atEnd := (token_of_cutOff found cutOff).1
          rw [Run.cons, atEnd, Run.ofText_of_end (comments_of_none rfl)] at fails
          contradiction
    obtain ⟨pieces, inner, tail, cuts, areComments, stands, place, lexemes⟩ := ih fails
    refine ⟨_, inner, tail, .piece skipped found uncut cuts, areComments, stands, ?_, ?_⟩
    · rw [place, extent]
      dsimp only
      omega
    · exact congrArg (List.cons _) lexemes

/-! ## Texts that the tokens in front of them do not tell apart -/

namespace Scan

theorem quotedString_rest_of_broken {quote : Char} {text : List Char}
    (broken : (quotedString quote text).value.ending = .broken) :
    ∃ behind, (quotedString quote text).rest = '\n' :: behind := by
  fun_induction quotedString quote text with
  | case1 => contradiction
  | case2 => contradiction
  | case3 rest => exact ⟨rest, rfl⟩
  | case4 => contradiction
  | case5 rest _ _ escaped _ _ ih => exact ih broken
  | case6 rest _ _ _ _ ih => exact ih broken
  | case7 first rest _ _ _ ih => exact ih broken

/-- A broken string is one in front of a line feed. -/
theorem rest_of_badString {first : Char} {text : List Char} {scan : Scan Recognized}
    (found : token (first :: text) = some scan) (isBroken : scan.value.token = .badString) :
    ∃ behind, scan.rest = '\n' :: behind := by
  rw [token] at found
  cases announced : opening first text <;> rw [announced] at found <;> cases found
  case mark mark =>
    have single := family_of_punctuation (opening_mark announced)
    rw [show mark = .badString from isBroken] at single
    contradiction
  case quote =>
    apply quotedString_rest_of_broken
    dsimp only [stringToken, after, map] at isBroken
    split at isBroken
    · contradiction
    · contradiction
    · assumption
  case number =>
    unfold numericToken at isBroken
    dsimp only at isBroken
    split at isBroken
    · contradiction
    · split at isBroken <;> contradiction
  case hash =>
    unfold hashToken at isBroken
    split at isBroken <;> contradiction
  case atSign =>
    unfold atToken at isBroken
    split at isBroken <;> contradiction
  case hyphen =>
    unfold hyphenToken at isBroken
    split at isBroken
    · contradiction
    · split at isBroken
      · exact absurd isBroken (nameToken_ne rfl rfl _)
      · contradiction
  case name => exact absurd isBroken (nameToken_ne rfl rfl _)
  case symbol =>
    unfold symbolToken at isBroken
    split at isBroken <;> contradiction
  all_goals contradiction

end Scan

/-- Two texts that no token in front of them tells apart: the one starts with nothing that a token
waits for, the other goes on with none, and behind a hyphen neither makes a name of it. -/
structure Indistinct (tail tail' : List Char) : Prop where
  /-- Something stands there, so that nothing is cut off. -/
  goesOn : tail ≠ []
  /-- No line feed breaks a string there or stands behind a backslash. -/
  escaping : escapes tail = true
  /-- No quote follows that an address function looks for. -/
  noQuote : (tail.dropWhile isBlank).head?.any isQuote = false
  /-- No name starts there. -/
  noName : continuesHyphen tail = false
  /-- No name starts behind the first character. -/
  ahead : continuesHyphen (tail.drop 1) = false
  /-- No token goes on with the other text. -/
  quiet : Quiet tail'
  /-- The other text starts with no blank. -/
  visible : tail'.head?.any isBlank = false
  /-- No name starts behind the first character of the other text. -/
  ahead' : continuesHyphen (tail'.drop 1) = false

namespace Indistinct

/-- What a hyphen at the front of a text looks at is the same. -/
theorem continuesHyphen_eq (same : Indistinct tail tail') {front : List Char}
    (nonempty : front ≠ []) :
    continuesHyphen ((front ++ tail').drop 2) = continuesHyphen ((front ++ tail).drop 2) := by
  match front with
  | [] => contradiction
  | [_] => exact same.ahead'.trans same.ahead.symm
  | [_, _] => exact same.quiet.endsName.continuesHyphen_eq.trans same.noName.symm
  | _ :: _ :: third :: front =>
      exact @continuesHyphen_congr (third :: front) tail tail' same.quiet.endsName
        same.quiet.escapes_eq (fun _ => same.escaping)
        (fun empty => absurd empty (List.cons_ne_nil _ _))

/-- A token in front of the one text is the same in front of the other. -/
theorem tokenEnds (same : Indistinct tail tail') {behind left : List Char} {first : Char}
    {scan : Scan Recognized} (found : token (first :: (behind ++ tail)) = some scan)
    (whole : scan.value.cutOff = none) (stays : scan.rest = left ++ tail) :
    TokenEnds scan left tail tail' := by
  have invisible : ¬ tail'.head?.any isBlank = true := by
    rw [same.visible]
    exact Bool.false_ne_true
  refine ⟨same.quiet, ⟨same.quiet.endsName, same.quiet.escapes_eq,
    fun _ blank => absurd blank invisible, fun none => absurd none same.goesOn,
    fun _ => same.escaping⟩, fun _ blank => absurd blank invisible, whole, ?_, fun _ => ?_, ?_, ?_⟩
  · rintro rfl isBroken
    obtain ⟨rest, breaks⟩ := rest_of_badString found isBroken
    have escaping := same.escaping
    rw [show tail = '\n' :: rest from stays.symm.trans breaks] at escaping
    contradiction
  · exact List.append_ne_nil_of_right_ne_nil _ same.goesOn
  · intro name isFunction isUrl blanks
    have quote := quoted_of_token found name isFunction isUrl
    rw [stays, List.dropWhile_append, blanks, List.isEmpty_nil, if_pos rfl, same.noQuote] at quote
    contradiction
  · intro _ _
    exact same.continuesHyphen_eq
      (List.append_ne_nil_of_left_ne_nil (token_source_ne_nil found) left)

end Indistinct

/-- **The pieces in front of a text are the same in front of one that they do not tell from
it.** -/
theorem Cuts.in_place_of {front : List Char} {pieces : List Piece} (same : Indistinct tail tail')
    (cuts : Cuts (front ++ tail) pieces tail) : Cuts (front ++ tail') pieces tail' := by
  refine @Cuts.exchange tail tail' (fun _ => True) ?_ same.quiet _ _ _ cuts rfl trivial
  intro gap behind left first scan pieces found whole _ stays _ _
  exact ⟨same.tokenEnds found whole stays, trivial⟩

/-- Comments in front of an error are not told from the error behind them. -/
theorem indistinct_of_stands {gap : List Char} {error : LexicalError}
    (areComments : AreComments gap) (stands : error.Stands tail) :
    Indistinct (gap ++ tail) gap := by
  rcases areComments.eq_nil_or with rfl | ⟨rest, rfl⟩
  · cases error with
    | invalidEscape =>
        obtain ⟨behind, rfl⟩ := stands
        exact ⟨List.cons_ne_nil _ _, rfl, rfl, rfl, rfl, quiet_nil, rfl, rfl⟩
    | unterminatedComment =>
        obtain ⟨⟨behind, rfl⟩, -⟩ := stands
        exact ⟨List.cons_ne_nil _ _, rfl, rfl, rfl, rfl, quiet_nil, rfl, rfl⟩
  · refine ⟨List.cons_ne_nil _ _, rfl, rfl, rfl, rfl, ?_, rfl, rfl⟩
    intro first head
    cases head
    decide

/-! ## Runs that fail -/

/-- An error of a run over a whole text: it stands at its offset, the tokenizer has stopped
there, and has cut the text in front of the error into its lexemes. -/
structure FailsAt (text : String) (error : LexicalError) : Prop where
  /-- The error stands at its offset. -/
  stands : error.Stands (text.toList.drop error.offset)
  /-- The tokenizer stops behind the backslash, or at the end of the text. -/
  stops : (Tokenizer.ofText text).advance.offset = error.stop text.length
  /-- What is left is what stands behind the place where it stops. -/
  remains : (Tokenizer.ofText text).advance.remaining =
    text.toList.drop (error.stop text.length)
  /-- The text in front of the error can be cut, and comes to the lexemes of the run. -/
  front : tokenize (String.ofList (text.toList.take error.offset)) =
    .ok ((Tokenizer.ofText text).advance.lexemes ++ [Lexeme.endAt error.offset])

theorem Run.offset_of_failure {text : String} {error : LexicalError}
    (fails : (Run.ofText 0 text.toList).failure = some error) :
    (Run.ofText 0 text.toList).offset = error.stop text.length := by
  cases error with
  | invalidEscape => exact Run.offset_of_invalidEscape 0 text.toList fails
  | unterminatedComment =>
      obtain ⟨taken, whole, stands⟩ := Run.exists_taken 0 text.toList
      rw [Run.remaining_of_unterminatedComment 0 text.toList fails, List.append_nil] at whole
      rw [stands, whole, Nat.zero_add, String.length_toList]
      rfl

theorem failsAt_of_failure {text : String} {error : LexicalError}
    (fails : (Tokenizer.ofText text).nextRun.failure = some error) : FailsAt text error := by
  have fails : (Run.ofText 0 text.toList).failure = some error := fails
  have stops := Run.offset_of_failure fails
  obtain ⟨pieces, gap, tail, cuts, areComments, stands, place, lexemes⟩ :=
    exists_cuts_of_failure 0 text.toList fails
  obtain ⟨front, isText⟩ := cuts.exists_front
  have length := cuts.length_eq
  rw [isText, List.length_append, Nat.add_right_cancel_iff] at length
  have place : error.offset = (front ++ gap).length := by
    rw [place, List.length_append, length, Nat.zero_add]
  have cuts' := (isText ▸ cuts).in_place_of (indistinct_of_stands areComments stands)
  rw [← List.append_assoc] at isText
  refine ⟨?stands, stops, ?remains, ?front⟩
  case stands => rwa [isText, place, List.drop_left]
  case remains =>
    obtain ⟨taken, whole, reached⟩ := Run.exists_taken 0 text.toList
    rw [Nat.zero_add] at reached
    rw [← stops, reached, ← whole, List.drop_left]
    rfl
  case front =>
    rw [isText, place, List.take_left]
    have cut := @tokenize_of_cuts (String.ofList (front ++ gap)) pieces gap
      (by rwa [String.toList_ofList]) areComments.comments_self
    rw [cut, String.length_ofList, ← lexemes]
    rfl

/-- **A text that cannot be cut fails at a backslash in front of a line feed or at a comment
without an end**, where the tokenizer stops with the lexemes of the text up to there. A text
that has neither a backslash in front of a line feed nor the opening of a comment can be cut. -/
theorem tokenize_fails_at_error (text : String) :
    (∀ error, (Tokenizer.ofText text).nextRun.failure = some error → FailsAt text error) ∧
      (¬ ['\\', '\n'] <:+: text.toList → ¬ ['/', '*'] <:+: text.toList →
        ∃ lexemes, tokenize text = .ok lexemes) := by
  refine ⟨fun error => failsAt_of_failure, fun noStray noComment => ?_⟩
  unfold tokenize
  dsimp only
  cases fails : (Tokenizer.ofText text).nextRun.failure with
  | none => exact ⟨_, rfl⟩
  | some error =>
      have stands := (failsAt_of_failure fails).stands
      have behind := (text.toList.drop_suffix error.offset).isInfix
      cases error with
      | invalidEscape => exact absurd (stands.isInfix.trans behind) noStray
      | unterminatedComment => exact absurd (stands.1.isInfix.trans behind) noComment

/-- A text with a hyphen for a name, a broken string and a comment in front of a stray
backslash. -/
def strayBehindComment : String := "->a\"b\n-\\61 /**/\\\n/*"

/-- A text with an escaped backslash in front of a comment without an end. -/
def openBehindEscape : String := "#-/*b*//**/-\\\\/*/"

theorem strayBehindComment_and_openBehindEscape_fail :
    (Tokenizer.ofText strayBehindComment).nextRun.failure = some (.invalidEscape 15) ∧
      FailsAt strayBehindComment (.invalidEscape 15) ∧
      (Tokenizer.ofText openBehindEscape).nextRun.failure = some (.unterminatedComment 14) ∧
      FailsAt openBehindEscape (.unterminatedComment 14) ∧
      ∃ lexemes, tokenize "-/\\*" = .ok lexemes := by
  have stray : (Tokenizer.ofText strayBehindComment).nextRun.failure =
      some (.invalidEscape 15) := by decide +kernel
  have unclosed : (Tokenizer.ofText openBehindEscape).nextRun.failure =
      some (.unterminatedComment 14) := by decide +kernel
  exact ⟨stray, (tokenize_fails_at_error _).1 _ stray, unclosed,
    (tokenize_fails_at_error _).1 _ unclosed,
    (tokenize_fails_at_error "-/\\*").2 (by decide) (by decide)⟩

end SelectorLang
