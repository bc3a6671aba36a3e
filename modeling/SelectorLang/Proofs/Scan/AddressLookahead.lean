import SelectorLang.Proofs.Scan.Lookahead

/-! # What addresses see of the text behind them

An address goes on to a closing parenthesis, sound or broken. One that leaves something has
found it and does not depend on the text behind (`SelectorLang.Scan.address_tail`).
-/

namespace SelectorLang.Scan

open CodePoint

variable {text rest tail tail' : List Char}

/-! ## What a scan leaves -/

section Leaves

variable {α : Type} {scan : Scan α}

theorem Covers.ne_nil (covers : scan.Covers text) (more : scan.rest ≠ []) : text ≠ [] := by
  rintro rfl
  exact more (List.append_eq_nil_iff.mp covers).2

/-- A scan that takes something and leaves all of what stands behind a front takes it from
the front. -/
theorem Covers.front_ne_nil (covers : scan.Covers (text ++ tail))
    (stays : scan.rest = rest ++ tail) (takes : scan.source ≠ []) : text ≠ [] := by
  rw [covers.front_eq stays]
  exact List.append_ne_nil_of_left_ne_nil takes _

end Leaves

/-- An escape that leaves something and what stands behind it is within the front. -/
theorem escape_within (stays : (escape (text ++ tail)).rest = rest ++ tail)
    (more : rest ≠ []) :
    text ≠ [] ∧ escape (text ++ tail') = (escape (text ++ tail)).leaving (rest ++ tail') := by
  have leaves : (escape (text ++ tail)).rest ≠ [] := by
    rw [stays]
    exact List.append_ne_nil_of_left_ne_nil more _
  have takes := escape_source_ne_nil ((escape_covers (text ++ tail)).ne_nil leaves)
  have nonempty := (escape_covers (text ++ tail)).front_ne_nil stays takes
  exact ⟨nonempty, escape_tail stays nonempty fun none => absurd none more⟩

/-! ## Broken addresses -/

theorem remnants_of_closing : remnants (')' :: text) = ⟨(), [')'], text⟩ := by
  rw [remnants, if_pos rfl]

theorem remnants_of_escape (isEscape : escapes text = true) :
    remnants ('\\' :: text) =
      (remnants (escape text).rest).after ('\\' :: (escape text).source) := by
  rw [remnants, if_neg (by decide), if_pos ⟨rfl, isEscape⟩]

theorem remnants_of_character {first : Char} (goesOn : first ≠ ')')
    (noEscape : ¬ (first = '\\' ∧ escapes text = true)) :
    remnants (first :: text) = (remnants text).after [first] := by
  rw [remnants, if_neg goesOn, if_neg noEscape]

theorem remnants_source_ne_nil (more : (remnants text).rest ≠ []) :
    (remnants text).source ≠ [] := by
  cases text with
  | nil => exact absurd rfl ((remnants_covers []).ne_nil more)
  | cons first text =>
      rw [remnants]
      split
      · exact List.cons_ne_nil _ _
      · split <;> exact List.cons_ne_nil _ _

/-- A broken address that leaves something is closed within the front of a text. -/
theorem remnants_tail (stays : (remnants (text ++ tail)).rest = rest ++ tail)
    (more : rest ++ tail ≠ []) :
    text ≠ [] ∧
      remnants (text ++ tail') = (remnants (text ++ tail)).leaving (rest ++ tail') := by
  induction length : text.length using Nat.strongRecOn generalizing text with
  | ind size ih =>
      subst length
      have takes := remnants_source_ne_nil (stays ▸ more)
      have nonempty := (remnants_covers (text ++ tail)).front_ne_nil stays takes
      refine ⟨nonempty, ?_⟩
      cases text with
      | nil => contradiction
      | cons first text =>
          rw [List.cons_append] at stays ⊢
          rw [List.cons_append]
          by_cases closes : first = ')'
          · subst closes
            rw [remnants_of_closing] at stays ⊢
            have same : text = rest := List.append_cancel_right stays
            rw [remnants_of_closing, same]
            rfl
          by_cases isEscape : first = '\\' ∧ escapes (text ++ tail) = true
          · obtain ⟨rfl, isEscape⟩ := isEscape
            rw [remnants_of_escape isEscape] at stays ⊢
            have stays : (remnants (escape (text ++ tail)).rest).rest = rest ++ tail := stays
            have behind := eq_append_of_part (remnants_covers (escape (text ++ tail)).rest) stays
            have inside := remnants_source_ne_nil (stays ▸ more)
            obtain ⟨nonempty, escaped⟩ := @escape_within _ _ _ tail' behind
              (List.append_ne_nil_of_left_ne_nil inside _)
            have shorter := length_lt_of_escape_stays behind '\\'
            have isEscape' : escapes (text ++ tail') = true := by
              rwa [escapes_tail nonempty] at isEscape ⊢
            generalize (remnants (escape (text ++ tail)).rest).source ++ rest = left at *
            rw [behind] at stays ⊢
            rw [remnants_of_escape isEscape', escaped, leaving, (ih _ shorter stays rfl).2]
            rfl
          · rw [remnants_of_character closes isEscape] at stays ⊢
            have stays : (remnants (text ++ tail)).rest = rest ++ tail := stays
            obtain ⟨nonempty, same⟩ := ih text.length (Nat.lt_succ_self _) stays rfl
            rw [escapes_tail nonempty] at isEscape
            rw [remnants_of_character closes (by rwa [escapes_tail nonempty]), same]
            rfl

/-! ## Addresses -/

/-- A broken address does as what is left of it does. -/
theorem brokenAddress_tail (stays : (brokenAddress (text ++ tail)).rest = rest ++ tail)
    (more : rest ++ tail ≠ []) :
    text ≠ [] ∧
      brokenAddress (text ++ tail') = (brokenAddress (text ++ tail)).leaving (rest ++ tail') := by
  obtain ⟨nonempty, same⟩ := @remnants_tail _ _ _ tail' stays more
  refine ⟨nonempty, ?_⟩
  rw [brokenAddress, same, brokenAddress]
  rfl

theorem addressEnd_source_ne_nil (more : (addressEnd text).rest ≠ []) :
    (addressEnd text).source ≠ [] := by
  cases text with
  | nil => exact absurd rfl ((addressEnd_covers []).ne_nil more)
  | cons first text =>
      rw [addressEnd] at more ⊢
      split at more
      · rename_i closes
        rw [if_pos closes]
        exact List.cons_ne_nil _ _
      · rename_i goesOn
        rw [if_neg goesOn]
        exact remnants_source_ne_nil more

theorem addressEnd_tail (stays : (addressEnd (text ++ tail)).rest = rest ++ tail)
    (more : rest ++ tail ≠ []) :
    text ≠ [] ∧
      addressEnd (text ++ tail') = (addressEnd (text ++ tail)).leaving (rest ++ tail') := by
  have takes := addressEnd_source_ne_nil (stays ▸ more)
  have nonempty := (addressEnd_covers (text ++ tail)).front_ne_nil stays takes
  refine ⟨nonempty, ?_⟩
  cases text with
  | nil => contradiction
  | cons first text =>
      rw [List.cons_append] at stays ⊢
      rw [List.cons_append, addressEnd]
      rw [addressEnd] at stays ⊢
      by_cases closes : first = ')'
      · rw [if_pos closes] at stays ⊢
        rw [if_pos closes]
        have same : text = rest := List.append_cancel_right stays
        rw [same]
        rfl
      · rw [if_neg closes] at stays ⊢
        rw [if_neg closes]
        exact (@brokenAddress_tail (first :: text) rest tail tail' stays more).2

section Equations

variable {first : Char}

theorem address_of_closing : address (')' :: text) = ⟨.ended .closed, [')'], text⟩ := by
  rw [address, if_pos rfl]

theorem address_of_blank (goesOn : first ≠ ')') (blank : isBlank first = true) :
    address (first :: text) =
      (addressEnd (text.dropWhile isBlank)).after (first :: text.takeWhile isBlank) := by
  rw [address, if_neg goesOn, if_pos blank]

theorem address_of_broken (goesOn : first ≠ ')') (visible : ¬ isBlank first = true)
    (breaks : isQuote first = true ∨ first = '(') :
    address (first :: text) = (brokenAddress text).after [first] := by
  rw [address, if_neg goesOn, if_neg visible, if_pos breaks]

theorem address_of_escape (isEscape : escapes text = true) :
    address ('\\' :: text) =
      ((address (escape text).rest).map (·.cons (escape text).value)).after
        ('\\' :: (escape text).source) := by
  rw [address, if_neg (by decide), if_neg (by decide), if_neg (by decide), if_pos rfl,
    if_pos isEscape]

theorem address_of_stray (noEscape : ¬ escapes text = true) :
    address ('\\' :: text) = (brokenAddress text).after ['\\'] := by
  rw [address, if_neg (by decide), if_neg (by decide), if_neg (by decide), if_pos rfl,
    if_neg noEscape]

theorem address_of_character (goesOn : first ≠ ')') (visible : ¬ isBlank first = true)
    (sound : ¬ (isQuote first = true ∨ first = '(')) (noBackslash : first ≠ '\\') :
    address (first :: text) = ((address text).map (·.cons first)).after [first] := by
  rw [address, if_neg goesOn, if_neg visible, if_neg sound, if_neg noBackslash]

end Equations

theorem address_source_ne_nil (more : (address text).rest ≠ []) : (address text).source ≠ [] := by
  cases text with
  | nil => exact absurd rfl ((address_covers []).ne_nil more)
  | cons first text =>
      rw [address]
      repeat' split
      all_goals exact List.cons_ne_nil _ _

/-- **An address that leaves something is closed within the front of a text**, whatever
stands behind that. -/
theorem address_tail (stays : (address (text ++ tail)).rest = rest ++ tail)
    (more : rest ++ tail ≠ []) :
    text ≠ [] ∧ address (text ++ tail') = (address (text ++ tail)).leaving (rest ++ tail') := by
  induction length : text.length using Nat.strongRecOn generalizing text with
  | ind size ih =>
      subst length
      have takes := address_source_ne_nil (stays ▸ more)
      have nonempty := (address_covers (text ++ tail)).front_ne_nil stays takes
      refine ⟨nonempty, ?_⟩
      cases text with
      | nil => contradiction
      | cons first text =>
          rw [List.cons_append] at stays ⊢
          rw [List.cons_append]
          by_cases closes : first = ')'
          · subst closes
            rw [address_of_closing] at stays ⊢
            have same : text = rest := List.append_cancel_right stays
            rw [address_of_closing, same]
            rfl
          by_cases blank : isBlank first = true
          · rw [address_of_blank closes blank] at stays ⊢
            have stays : (addressEnd ((text ++ tail).dropWhile isBlank)).rest = rest ++ tail :=
              stays
            have behind := eq_append_of_part (addressEnd_covers _) stays
            have inside := addressEnd_source_ne_nil (stays ▸ more)
            have nonempty := List.append_ne_nil_of_left_ne_nil inside rest
            generalize (addressEnd ((text ++ tail).dropWhile isBlank)).source ++ rest = left
              at behind nonempty
            obtain ⟨blanks, behind'⟩ := @dropWhile_tail _ _ _ tail' _ behind
              fun none => absurd none nonempty
            rw [behind] at stays
            rw [blanks, behind', address_of_blank closes blank, behind,
              (addressEnd_tail stays more).2]
            rfl
          by_cases breaks : isQuote first = true ∨ first = '('
          · rw [address_of_broken closes blank breaks] at stays ⊢
            rw [address_of_broken closes blank breaks, (brokenAddress_tail stays more).2]
            rfl
          by_cases backslash : first = '\\'
          · subst backslash
            by_cases isEscape : escapes (text ++ tail) = true
            · rw [address_of_escape isEscape] at stays ⊢
              have stays : (address (escape (text ++ tail)).rest).rest = rest ++ tail := stays
              have behind := eq_append_of_part (address_covers (escape (text ++ tail)).rest) stays
              have inside := address_source_ne_nil (stays ▸ more)
              obtain ⟨nonempty, escaped⟩ := @escape_within _ _ _ tail' behind
                (List.append_ne_nil_of_left_ne_nil inside _)
              have shorter := length_lt_of_escape_stays behind '\\'
              have isEscape' : escapes (text ++ tail') = true := by
                rwa [escapes_tail nonempty] at isEscape ⊢
              generalize (address (escape (text ++ tail)).rest).source ++ rest = left at *
              rw [behind] at stays ⊢
              rw [address_of_escape isEscape', escaped, leaving, (ih _ shorter stays rfl).2]
              rfl
            · rw [address_of_stray isEscape] at stays ⊢
              obtain ⟨nonempty, same⟩ := @brokenAddress_tail _ _ _ tail' stays more
              rw [escapes_tail nonempty] at isEscape
              rw [address_of_stray (by rwa [escapes_tail nonempty]), same]
              rfl
          · rw [address_of_character closes blank breaks backslash] at stays ⊢
            rw [address_of_character closes blank breaks backslash,
              (ih text.length (Nat.lt_succ_self _) stays rfl).2]
            rfl

end SelectorLang.Scan
