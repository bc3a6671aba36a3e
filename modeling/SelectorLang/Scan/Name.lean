import SelectorLang.CodePoint
import SelectorLang.Scan.Basic

/-! # Escapes and names

A backslash escapes the character behind it, or stands with up to six hexadecimal
digits and one blank for the character of that number. A name is a run of name
characters and escapes. Both scans cover the text they read (`escape_covers`,
`name_covers`).
-/

namespace SelectorLang.Scan

open CodePoint

/-- A backslash escapes unless a line feed stands behind it. -/
def escapes (rest : List Char) : Bool :=
  rest.head? != some '\n'

/-- The number that hexadecimal digits spell. -/
def hexNumber (digits : List Char) : Nat :=
  digits.foldl (fun number digit => 16 * number + (hexValue? digit).getD 0) 0

/-- What stands behind an escaping backslash: up to six hexadecimal digits and one
blank, or any other character for itself; at the end of the text the replacement
character. -/
def escape (text : List Char) : Scan Char :=
  match text with
  | [] => ⟨replacement, [], []⟩
  | character :: rest =>
    if isHexDigit character then
      let digits := takeRun 6 isHexDigit text
      let blank := takeRun 1 isBlank digits.2
      ⟨ofNumber (hexNumber digits.1), digits.1 ++ blank.1, blank.2⟩
    else
      ⟨character, [character], rest⟩

theorem escape_covers (text : List Char) : (escape text).Covers text := by
  unfold escape Covers
  split
  · rfl
  · split
    · rw [List.append_assoc, takeRun_append, takeRun_append]
    · rfl

/-- The characters of a name: as many name characters and escapes as there are. -/
def name (text : List Char) : Scan (List Char) :=
  match text with
  | [] => ⟨[], [], []⟩
  | first :: rest =>
    if continuesName first then
      ((name rest).map (first :: ·)).after [first]
    else if first = '\\' ∧ escapes rest then
      let escaped := escape rest
      ((name escaped.rest).map (escaped.value :: ·)).after (first :: escaped.source)
    else
      ⟨[], [], text⟩
termination_by text.length
decreasing_by
  · simp
  · exact (escape_covers rest).length_rest_lt_cons first

theorem name_covers (text : List Char) : (name text).Covers text := by
  fun_induction name text with
  | case1 => rfl
  | case2 first rest continues ih => exact (ih.map _).after [first]
  | case3 first rest _ _ escaped ih =>
    have whole := (ih.map (escaped.value :: ·)).after (first :: escaped.source)
    rwa [List.cons_append, escape_covers rest] at whole
  | case4 => rfl

/-- A hyphen starts a name when what stands behind it starts one, is a second
hyphen or is an escape. -/
def continuesHyphen : List Char → Bool
  | [] => false
  | second :: rest => startsName second || second == '-' || (second == '\\' && escapes rest)

/-- Whether a name starts at the front of a text. -/
def nameStarts : List Char → Bool
  | [] => false
  | first :: rest =>
    if first = '-' then continuesHyphen rest
    else startsName first || (first == '\\' && escapes rest)

end SelectorLang.Scan
