import SelectorLang.Scan.Basic

/-! # Comments

A comment runs from `/*` to the first `*/` behind it. Comments in front of a token
are skipped, however many there are; one without an end is reported by its place.
-/

namespace SelectorLang.Scan

/-- The rest of a text behind the end of the comment that it starts in, and the
characters of the comment; nothing when it has no end. -/
def commentBody : List Char → Option (Scan Unit)
  | [] => none
  | first :: rest =>
    if first = '*' ∧ rest.head? = some '/' then some ⟨(), [first, '/'], rest.drop 1⟩
    else (commentBody rest).map (·.after [first])

theorem commentBody_covers {text : List Char} {scan : Scan Unit}
    (found : commentBody text = some scan) : scan.Covers text := by
  induction text generalizing scan with
  | nil => simp [commentBody] at found
  | cons first rest ih =>
    simp only [commentBody] at found
    split at found
    · rename_i ends
      obtain ⟨rfl, slash⟩ := ends
      cases found
      cases rest with
      | nil => simp at slash
      | cons second rest =>
        simp only [List.head?_cons, Option.some.injEq] at slash
        subst slash
        rfl
    · obtain ⟨inner, innerFound, rfl⟩ := Option.map_eq_some_iff.mp found
      exact (ih innerFound).after [first]

/-- Whether a comment starts at the front of a text. -/
def commentStarts : List Char → Bool
  | '/' :: '*' :: _ => true
  | _ => false

/-- The comments in front of a text. The value tells whether all of them end; if one
does not, the scan stops in front of it. -/
def comments (text : List Char) : Scan Bool :=
  if commentStarts text then
    match _found : commentBody (text.drop 2) with
    | none => ⟨false, [], text⟩
    | some body => (comments body.rest).after (text.take 2 ++ body.source)
  else
    ⟨true, [], text⟩
termination_by text.length
decreasing_by
  have shorter := (commentBody_covers _found).length_rest_le
  rw [List.length_drop] at shorter
  have starts : 2 ≤ text.length := by
    rename_i commented
    unfold commentStarts at commented
    split at commented
    · simp only [List.length_cons]
      omega
    · contradiction
  omega

theorem comments_covers (text : List Char) : (comments text).Covers text := by
  fun_induction comments text with
  | case1 => rfl
  | case2 text _ body found ih =>
    have whole := ih.after (text.take 2 ++ body.source)
    rwa [List.append_assoc, commentBody_covers found, List.take_append_drop] at whole
  | case3 => rfl

end SelectorLang.Scan
