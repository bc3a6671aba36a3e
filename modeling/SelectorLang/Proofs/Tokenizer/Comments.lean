import SelectorLang.Proofs.Scan.Lookahead
import SelectorLang.Proofs.Tokenizer.Lossless

/-! # Skipping comments

Whole comments in front of a text are skipped with those that it starts with
(`SelectorLang.AreComments.comments_append`), and no comment starts where skipping ends.
What is skipped therefore does not depend on the text behind it
(`SelectorLang.comments_tail`).
-/

namespace SelectorLang

open Scan

variable {text tail tail' : List Char}

theorem comments_of_none (none : commentStarts text = false) :
    comments text = ⟨true, [], text⟩ := by
  rw [comments, if_neg (Bool.eq_false_iff.mp none)]

theorem comments_of_comment {body : Scan Unit} (starts : commentStarts text = true)
    (found : commentBody (text.drop 2) = some body) :
    comments text = (comments body.rest).after (text.take 2 ++ body.source) := by
  rw [comments, if_pos starts]
  split
  · rename_i none
    rw [found] at none
    contradiction
  · rename_i other same
    rw [found] at same
    cases same
    rfl

theorem exists_of_commentStarts (starts : commentStarts text = true) :
    ∃ behind, text = '/' :: '*' :: behind := by
  unfold commentStarts at starts
  split at starts
  · exact ⟨_, rfl⟩
  · contradiction

theorem commentStarts_of_head (noSlash : text.head? ≠ some '/') : commentStarts text = false := by
  refine Bool.eq_false_iff.mpr fun starts => ?_
  obtain ⟨behind, rfl⟩ := exists_of_commentStarts starts
  exact noSlash rfl

/-- Where skipping ends well, no comment starts. -/
theorem commentStarts_rest (skips : (comments text).value = true) :
    commentStarts (comments text).rest = false := by
  fun_induction comments text with
  | case1 => contradiction
  | case2 text _ body _ ih => exact ih skips
  | case3 text none => exact Bool.eq_false_iff.mpr none

/-- The first `*/` ends a comment, whatever stands behind it. -/
theorem commentBody_append {body : List Char}
    (isFirst : ∀ earlier, earlier ++ ['*', '/'] <+: body ++ ['*', '/'] → earlier = body)
    (tail : List Char) :
    commentBody (body ++ ['*', '/'] ++ tail) = some ⟨(), body ++ ['*', '/'], tail⟩ := by
  induction body with
  | nil => rfl
  | cons first body ih =>
      have goesOn : ¬ (first = '*' ∧ (body ++ ['*', '/'] ++ tail).head? = some '/') := by
        rintro ⟨rfl, slash⟩
        cases body with
        | nil => cases slash
        | cons second body =>
            cases slash
            have ended : ([] : List Char) ++ ['*', '/'] <+: '*' :: '/' :: body ++ ['*', '/'] :=
              ⟨body ++ ['*', '/'], rfl⟩
            exact absurd (isFirst [] ended) (List.cons_ne_nil _ _).symm
      have behind := ih fun earlier initial =>
        (List.cons.inj (isFirst (first :: earlier) (List.cons_prefix_cons.mpr ⟨rfl, initial⟩))).2
      rw [List.cons_append, List.cons_append, commentBody, if_neg goesOn, behind]
      rfl

/-- What holds no `*/` is closed by the one behind it. -/
theorem isComment_of_body {body : List Char} (unclosed : ¬ ['*', '/'] <:+: body) :
    IsComment (['/', '*'] ++ (body ++ ['*', '/'])) := by
  refine ⟨body, rfl, fun earlier closes => ?_⟩
  rw [List.append_cons body, List.prefix_concat_iff, List.prefix_concat_iff] at closes
  rcases closes with whole | shifted | inside
  · rw [← List.append_cons] at whole
    exact List.append_cancel_right whole
  · have last := congrArg List.getLast? shifted
    simp at last
  · exact absurd ((List.suffix_append _ _).isInfix.trans inside.isInfix) unclosed

theorem IsComment.comments_append {comment : List Char} (isComment : IsComment comment)
    (tail : List Char) : comments (comment ++ tail) = (comments tail).after comment := by
  obtain ⟨body, rfl, isFirst⟩ := isComment
  have found := commentBody_append isFirst tail
  exact @comments_of_comment ('/' :: '*' :: (body ++ ['*', '/'] ++ tail)) _ rfl found

/-- **Comments in front of a text are skipped with its own.** -/
theorem AreComments.comments_append {front : List Char} (areComments : AreComments front)
    (tail : List Char) : comments (front ++ tail) = (comments tail).after front := by
  obtain ⟨pieces, each, rfl⟩ := areComments
  induction pieces with
  | nil => rfl
  | cons comment pieces ih =>
      obtain ⟨isComment, others⟩ := List.forall_mem_cons.mp each
      rw [List.flatten_cons, List.append_assoc, isComment.comments_append, ih others]
      simp only [Scan.after, List.append_assoc]

theorem IsComment.areComments {comment : List Char} (isComment : IsComment comment) :
    AreComments comment := by
  have only := areComments_nil.cons isComment
  rwa [List.append_nil] at only

theorem AreComments.append {front behind : List Char} (areComments : AreComments front)
    (others : AreComments behind) : AreComments (front ++ behind) := by
  obtain ⟨pieces, each, rfl⟩ := areComments
  obtain ⟨more, eachMore, rfl⟩ := others
  exact ⟨pieces ++ more, List.forall_mem_append.mpr ⟨each, eachMore⟩, List.flatten_append⟩

theorem AreComments.eq_nil_or {gap : List Char} (areComments : AreComments gap) :
    gap = [] ∨ ∃ rest, gap = '/' :: '*' :: rest := by
  obtain ⟨pieces, each, rfl⟩ := areComments
  cases pieces with
  | nil => exact Or.inl rfl
  | cons comment pieces =>
      obtain ⟨body, rfl, -⟩ := (List.forall_mem_cons.mp each).1
      exact Or.inr ⟨_, rfl⟩

/-- Comments in front of a place where none starts are skipped. -/
theorem AreComments.comments_eq {gap : List Char} (areComments : AreComments gap)
    (none : commentStarts tail = false) : comments (gap ++ tail) = ⟨true, gap, tail⟩ := by
  rw [areComments.comments_append, comments_of_none none, Scan.after, List.append_nil]

theorem AreComments.comments_self {gap : List Char} (areComments : AreComments gap) :
    comments gap = ⟨true, gap, []⟩ := by
  have skipped := @AreComments.comments_eq [] gap areComments rfl
  rwa [List.append_nil] at skipped

/-- What is skipped in front of a place is comments, and none starts there. -/
theorem areComments_of_comments {gap rest : List Char}
    (skipped : comments text = ⟨true, gap, rest⟩) :
    AreComments gap ∧ commentStarts rest = false ∧ text = gap ++ rest := by
  have areComments := comments_areComments text
  have covers := comments_covers text
  have stops := @commentStarts_rest text
  rw [skipped] at areComments covers stops
  exact ⟨areComments, stops rfl, covers.symm⟩

/-- Comments within the front of a text, with a token behind them, are skipped alike. -/
theorem comments_tail {gap behind : List Char} {first : Char} (quiet : Quiet tail')
    (skipped : comments (text ++ tail) = ⟨true, gap, first :: (behind ++ tail)⟩) :
    comments (text ++ tail') = ⟨true, gap, first :: (behind ++ tail')⟩ := by
  obtain ⟨areComments, stops, whole⟩ := areComments_of_comments skipped
  have front : text = gap ++ first :: behind := by
    rw [← List.cons_append, ← List.append_assoc] at whole
    exact List.append_cancel_right whole
  rw [front, List.append_assoc]
  refine areComments.comments_eq (Bool.eq_false_iff.mpr fun starts => ?_)
  obtain ⟨_, opened⟩ := exists_of_commentStarts starts
  cases behind with
  | cons second behind =>
      cases opened
      contradiction
  | nil =>
      cases opened
      exact absurd (quiet '*' rfl) (by decide)

end SelectorLang
