import SelectorLang.Scan.Basic

/-! # A place in a text that stays whole

A cursor keeps the whole text and a place in it. It looks at characters from its place on,
moves over one character or several, never beyond the end of the text, and moves back by one
character. What it sees is the text from its place on (`SelectorLang.Cursor.left`); a move over
a character and back again leaves it where it was (`SelectorLang.Cursor.reconsume_skip`).
-/

namespace SelectorLang

/-- A text and a place in it. -/
@[ext]
structure Cursor where
  /-- The whole text. -/
  input : List Char
  /-- How many of its characters precede the place. -/
  position : Nat
  /-- The place is in the text or at its end. -/
  inside : position ≤ input.length

namespace Cursor

variable {α β : Type} (cursor : Cursor)

/-- The start of a text. -/
def start (text : List Char) : Cursor :=
  ⟨text, 0, Nat.zero_le _⟩

/-! ## Moves -/

/-- The character so many characters behind the place. -/
def peekAt (distance : Nat) : Option Char :=
  cursor.input[cursor.position + distance]?

/-- The character at the place. -/
def peek : Option Char :=
  cursor.peekAt 0

/-- Moves over characters, at most to the end of the text. -/
def skip (count : Nat) : Cursor :=
  ⟨cursor.input, min (cursor.position + count) cursor.input.length, Nat.min_le_right _ _⟩

/-- Reads the character at the place and moves over it. -/
def consume : Option Char × Cursor :=
  if more : cursor.position < cursor.input.length then
    (some cursor.input[cursor.position], ⟨cursor.input, cursor.position + 1, more⟩)
  else
    (none, cursor)

/-- Moves back over the last character. -/
def reconsume : Cursor :=
  ⟨cursor.input, cursor.position - 1, Nat.le_trans (Nat.sub_le _ _) cursor.inside⟩

/-! ## What is left of the text -/

/-- The text from the place on. -/
def left : List Char :=
  cursor.input.drop cursor.position

theorem length_left : cursor.left.length = cursor.input.length - cursor.position :=
  List.length_drop

@[simp]
theorem input_skip (count : Nat) : (cursor.skip count).input = cursor.input :=
  rfl

theorem peekAt_eq (distance : Nat) : cursor.peekAt distance = cursor.left[distance]? :=
  List.getElem?_drop.symm

theorem peek_eq : cursor.peek = cursor.left.head? := by
  rw [peek, peekAt_eq, List.head?_eq_getElem?]

theorem left_skip (count : Nat) : (cursor.skip count).left = cursor.left.drop count := by
  simp only [left, skip, List.drop_drop]
  rcases Nat.le_total (cursor.position + count) cursor.input.length with within | beyond
  · rw [Nat.min_eq_left within]
  · rw [Nat.min_eq_right beyond, List.drop_length, List.drop_eq_nil_of_le beyond]

@[simp]
theorem skip_zero : cursor.skip 0 = cursor :=
  Cursor.ext rfl (Nat.min_eq_left cursor.inside)

theorem skip_skip (count more : Nat) :
    (cursor.skip count).skip more = cursor.skip (count + more) := by
  refine Cursor.ext rfl ?_
  simp only [skip]
  omega

theorem position_skip {count : Nat} (within : count ≤ cursor.left.length) :
    (cursor.skip count).position = cursor.position + count := by
  have inside := cursor.inside
  rw [length_left] at within
  simp only [skip]
  omega

variable {cursor} {first : Char} {rest : List Char}

theorem skip_of_left_eq_nil (atEnd : cursor.left = []) (count : Nat) :
    cursor.skip count = cursor := by
  have inside := cursor.inside
  have ended := congrArg List.length atEnd
  rw [length_left, List.length_nil] at ended
  refine Cursor.ext rfl ?_
  simp only [skip]
  omega

theorem lt_of_left_eq_cons (ahead : cursor.left = first :: rest) :
    cursor.position < cursor.input.length := by
  have more := congrArg List.length ahead
  rw [length_left, List.length_cons] at more
  omega

theorem consume_of_left_eq_nil (atEnd : cursor.left = []) : cursor.consume = (none, cursor) := by
  have ended := congrArg List.length atEnd
  rw [length_left, List.length_nil] at ended
  rw [consume, dif_neg (by omega)]

theorem consume_of_left_eq_cons (ahead : cursor.left = first :: rest) :
    cursor.consume = (some first, cursor.skip 1) := by
  have more := lt_of_left_eq_cons ahead
  have seen : cursor.input[cursor.position] = first := by
    rw [left, List.drop_eq_getElem_cons more] at ahead
    exact (List.cons.inj ahead).1
  rw [consume, dif_pos more, seen]
  exact congrArg (Prod.mk (some first)) (Cursor.ext rfl (Nat.min_eq_left more).symm)

theorem left_skip_one (ahead : cursor.left = first :: rest) : (cursor.skip 1).left = rest := by
  rw [left_skip, ahead, List.drop_one, List.tail_cons]

theorem peek_of_left_eq_cons (ahead : cursor.left = first :: rest) : cursor.peek = some first := by
  rw [peek_eq, ahead, List.head?_cons]

theorem peekAt_succ (ahead : cursor.left = first :: rest) (distance : Nat) :
    cursor.peekAt (distance + 1) = rest[distance]? := by
  rw [peekAt_eq, ahead, List.getElem?_cons_succ]

theorem peekAt_one (ahead : cursor.left = first :: rest) : cursor.peekAt 1 = rest.head? := by
  rw [peekAt_succ ahead, List.head?_eq_getElem?]

/-- **A character consumed and put back** leaves the cursor where it was: it never comes in
front of the place where it started. -/
theorem reconsume_skip (ahead : cursor.left = first :: rest) :
    (cursor.skip 1).reconsume = cursor := by
  have more := lt_of_left_eq_cons ahead
  refine Cursor.ext rfl ?_
  simp only [reconsume, skip]
  omega

/-- What is consumed was in front of what is left behind it. -/
theorem left_eq_of_consume {behind : Cursor} (read : cursor.consume = (some first, behind)) :
    behind = cursor.skip 1 ∧ cursor.left = first :: behind.left := by
  cases ahead : cursor.left with
  | nil => rw [consume_of_left_eq_nil ahead] at read; cases read
  | cons other rest =>
      rw [consume_of_left_eq_cons ahead] at read
      cases read
      exact ⟨rfl, by rw [left_skip_one ahead]⟩

/-- Only at the end of the text nothing is consumed. -/
theorem left_eq_nil_of_consume {behind : Cursor} (read : cursor.consume = (none, behind)) :
    behind = cursor ∧ cursor.left = [] := by
  cases ahead : cursor.left with
  | nil => rw [consume_of_left_eq_nil ahead] at read; cases read; exact ⟨rfl, rfl⟩
  | cons other rest => rw [consume_of_left_eq_cons ahead] at read; cases read

/-- What is seen is in front of what is left behind it. -/
theorem left_eq_of_peek (seen : cursor.peek = some first) :
    cursor.left = first :: (cursor.skip 1).left := by
  rw [peek_eq] at seen
  cases ahead : cursor.left with
  | nil => rw [ahead] at seen; cases seen
  | cons other rest =>
      rw [ahead] at seen
      cases seen
      rw [left_skip_one ahead]

/-- Only at the end of the text nothing is seen. -/
theorem left_eq_nil_of_peek (seen : cursor.peek = none) : cursor.left = [] := by
  rwa [peek_eq, List.head?_eq_none_iff] at seen

/-- Behind a character that was consumed, less of the text is left. -/
theorem length_left_of_consume {behind : Cursor} (read : cursor.consume = (some first, behind)) :
    behind.left.length < cursor.left.length := by
  rw [(left_eq_of_consume read).2, List.length_cons]
  exact Nat.lt_succ_self _

variable (cursor)

/-- No move forward leaves more of the text. -/
theorem length_left_skip_le (count : Nat) :
    (cursor.skip count).left.length ≤ cursor.left.length := by
  rw [left_skip, List.length_drop]
  exact Nat.sub_le _ _

/-- A move over at least one character that is there leaves less of the text. -/
theorem length_left_skip_lt {count : Nat} {character : Char} (seen : cursor.peek = some character)
    (moves : 0 < count) : (cursor.skip count).left.length < cursor.left.length := by
  rw [left_skip, List.length_drop, left_eq_of_peek seen, List.length_cons]
  omega

/-! ## Readings

A reading from a cursor gives a value and the cursor behind what was read. A scan of the text
from the cursor on describes one: its value, and a move over the characters it took.
-/

/-- The reading that a scan of the text from the cursor on describes. -/
def through (scan : Scan α) : α × Cursor :=
  (scan.value, cursor.skip scan.source.length)

theorem through_map (change : α → β) (scan : Scan α) :
    cursor.through (scan.map change) =
      (change (cursor.through scan).1, (cursor.through scan).2) :=
  rfl

theorem through_after (front : List Char) (scan : Scan α) :
    cursor.through (scan.after front) = (cursor.skip front.length).through scan := by
  simp only [through, Scan.after, List.length_append, skip_skip]

theorem through_after_cons (first : Char) (front : List Char) (scan : Scan α) :
    cursor.through (scan.after (first :: front)) =
      ((cursor.skip 1).skip front.length).through scan := by
  rw [through_after, skip_skip, List.length_cons, Nat.add_comm]

/-- Behind a scan that covers the text, the cursor sees what the scan leaves. -/
theorem left_through {scan : Scan α} (covers : scan.Covers cursor.left) :
    (cursor.through scan).2.left = scan.rest := by
  rw [through, left_skip, ← covers, List.drop_left]

/-- A scan of no characters leaves the cursor where it is. -/
theorem through_nil (value : α) (rest : List Char) :
    cursor.through ⟨value, [], rest⟩ = (value, cursor) :=
  congrArg (Prod.mk value) cursor.skip_zero

/-- The reading of the first of two parts that make up the text from the cursor on. -/
def past (part : List Char × List Char) : List Char × Cursor :=
  (part.1, cursor.skip part.1.length)

/-- Behind the first part of the text, the cursor sees the second. -/
theorem left_past {part : List Char × List Char} (whole : part.1 ++ part.2 = cursor.left) :
    (cursor.past part).2.left = part.2 := by
  rw [past, left_skip, ← whole, List.drop_left]

/-- An empty first part leaves the cursor where it is. -/
theorem past_nil (rest : List Char) : cursor.past ([], rest) = ([], cursor) :=
  congrArg (Prod.mk []) cursor.skip_zero

/-- A part with a character in front is read behind that character. -/
theorem past_cons (first : Char) (part rest : List Char) :
    cursor.past (first :: part, rest) =
      (first :: ((cursor.skip 1).past (part, rest)).1, ((cursor.skip 1).past (part, rest)).2) := by
  simp only [past, List.length_cons, skip_skip, Nat.add_comm]

end Cursor

end SelectorLang
