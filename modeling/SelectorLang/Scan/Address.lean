import SelectorLang.Scan.QuotedString

/-! # Unquoted addresses

What stands behind `url(` when no quote follows: blanks, an address up to the
closing parenthesis, and blanks. A blank inside, a quote, an opening parenthesis or
a backslash that does not escape breaks the address, and everything up to the next
closing parenthesis goes with it. Both scans cover the text they read
(`remnants_covers`, `address_covers`).
-/

namespace SelectorLang.Scan

open CodePoint

/-- The quotes that strings are written with. -/
def isQuote (character : Char) : Bool :=
  character == '"' || character == '\''

/-- The characters up to and including the next closing parenthesis that is not
escaped. -/
def remnants (text : List Char) : Scan Unit :=
  match text with
  | [] => ⟨(), [], []⟩
  | first :: rest =>
    if first = ')' then ⟨(), [first], rest⟩
    else if first = '\\' ∧ escapes rest then
      let escaped := escape rest
      (remnants escaped.rest).after (first :: escaped.source)
    else
      (remnants rest).after [first]
termination_by text.length
decreasing_by
  · exact (escape_covers rest).length_rest_lt_cons first
  · simp

theorem remnants_covers (text : List Char) : (remnants text).Covers text := by
  fun_induction remnants text with
  | case1 => rfl
  | case2 => rfl
  | case3 first rest _ _ escaped ih =>
    have whole := ih.after (first :: escaped.source)
    rwa [List.cons_append, escape_covers rest] at whole
  | case4 first rest _ _ ih => exact ih.after [first]

/-- A broken address goes on to the next closing parenthesis. -/
def brokenAddress (text : List Char) : Scan Body :=
  (remnants text).map fun _ => .ended .broken

/-- The end of an address at its first blank, given what follows all blanks there:
the closing parenthesis or the end of the text close it. -/
def addressEnd : List Char → Scan Body
  | [] => ⟨.ended .closed, [], []⟩
  | first :: rest =>
    if first = ')' then ⟨.ended .closed, [first], rest⟩ else brokenAddress (first :: rest)

theorem addressEnd_covers (text : List Char) : (addressEnd text).Covers text := by
  unfold addressEnd
  split
  · rfl
  · split
    · rfl
    · exact (remnants_covers _).map _

/-- An address from its first character on. -/
def address (text : List Char) : Scan Body :=
  match text with
  | [] => ⟨.ended .cutOff, [], []⟩
  | first :: rest =>
    if first = ')' then ⟨.ended .closed, [first], rest⟩
    else if isBlank first then
      (addressEnd (rest.dropWhile isBlank)).after (first :: rest.takeWhile isBlank)
    else if isQuote first ∨ first = '(' then (brokenAddress rest).after [first]
    else if first = '\\' then
      if escapes rest then
        let escaped := escape rest
        ((address escaped.rest).map (·.cons escaped.value)).after (first :: escaped.source)
      else
        (brokenAddress rest).after [first]
    else
      ((address rest).map (·.cons first)).after [first]
termination_by text.length
decreasing_by
  · exact (escape_covers rest).length_rest_lt_cons first
  · simp

theorem address_covers (text : List Char) : (address text).Covers text := by
  fun_induction address text with
  | case1 => rfl
  | case2 => rfl
  | case3 first rest _ _ =>
    have whole := (addressEnd_covers (rest.dropWhile isBlank)).after
      (first :: rest.takeWhile isBlank)
    rwa [List.cons_append, List.takeWhile_append_dropWhile] at whole
  | case4 first rest => exact ((remnants_covers rest).map _).after [first]
  | case5 rest _ escaped _ _ _ ih =>
    have whole := (ih.map (·.cons escaped.value)).after ('\\' :: escaped.source)
    rwa [List.cons_append, escape_covers rest] at whole
  | case6 rest => exact ((remnants_covers rest).map _).after ['\\']
  | case7 first rest _ _ _ _ ih => exact (ih.map _).after [first]

end SelectorLang.Scan
