import SelectorLang.Scan.Name

/-! # Quoted strings

What stands behind an opening quote: characters and escapes up to the same quote.
A backslash in front of a line feed joins two lines and means nothing, as does one
at the end of the text; any other line feed breaks the string. The scan covers the
text it reads (`quotedString_covers`).
-/

namespace SelectorLang.Scan

/-- How a quoted string or an address came to its end. -/
inductive Ending where
  /-- By its closing character. -/
  | closed
  /-- By the end of the text. -/
  | cutOff
  /-- By a character that it cannot hold. -/
  | broken
deriving DecidableEq, Repr

/-- The characters of a quoted string or an address, escapes resolved, and how it
came to its end. -/
structure Body where
  /-- The characters. -/
  characters : List Char
  /-- How it ended. -/
  ending : Ending
deriving DecidableEq, Repr

namespace Body

/-- No characters, and an end. -/
def ended (ending : Ending) : Body :=
  ⟨[], ending⟩

/-- One more character in front. -/
def cons (character : Char) (body : Body) : Body :=
  ⟨character :: body.characters, body.ending⟩

end Body

/-- The string behind an opening quote. -/
def quotedString (quote : Char) (text : List Char) : Scan Body :=
  match text with
  | [] => ⟨.ended .cutOff, [], []⟩
  | first :: rest =>
    if first = quote then ⟨.ended .closed, [first], rest⟩
    else if first = '\n' then ⟨.ended .broken, [], text⟩
    else if first = '\\' then
      if rest = [] then ⟨.ended .cutOff, [first], []⟩
      else if escapes rest then
        let escaped := escape rest
        ((quotedString quote escaped.rest).map (·.cons escaped.value)).after
          (first :: escaped.source)
      else
        (quotedString quote (rest.drop 1)).after (first :: rest.take 1)
    else
      ((quotedString quote rest).map (·.cons first)).after [first]
termination_by text.length
decreasing_by
  · exact (escape_covers rest).length_rest_lt_cons first
  · simp only [List.length_drop, List.length_cons]
    omega
  · simp

theorem quotedString_covers (quote : Char) (text : List Char) :
    (quotedString quote text).Covers text := by
  fun_induction quotedString quote text with
  | case1 => rfl
  | case2 => rfl
  | case3 => rfl
  | case4 => rfl
  | case5 rest _ _ escaped _ _ ih =>
    have whole := (ih.map (·.cons escaped.value)).after ('\\' :: escaped.source)
    rwa [List.cons_append, escape_covers rest] at whole
  | case6 rest _ _ _ _ ih =>
    have whole := ih.after ('\\' :: rest.take 1)
    rwa [List.cons_append, List.take_append_drop] at whole
  | case7 first _ _ _ _ ih => exact (ih.map _).after [first]

end SelectorLang.Scan
