/-! # Scanning

A scan is what a reading of the front of a text comes to: a value, the characters
it took and the characters it left. Scans are made so that the taken and the left
characters together are the text (`Scan.Covers`); a scan therefore never leaves
more than there was.
-/

namespace SelectorLang

/-- The outcome of reading the front of a text. -/
structure Scan (α : Type) where
  /-- What was read. -/
  value : α
  /-- The characters taken. -/
  source : List Char
  /-- The characters left. -/
  rest : List Char
deriving DecidableEq, Repr

namespace Scan

variable {α β : Type}

/-- The same characters with another value. -/
def map (change : α → β) (scan : Scan α) : Scan β :=
  ⟨change scan.value, scan.source, scan.rest⟩

/-- The scan with characters put in front of those it took. -/
def after (front : List Char) (scan : Scan α) : Scan α :=
  ⟨scan.value, front ++ scan.source, scan.rest⟩

/-- The taken and the left characters make up the text. -/
def Covers (scan : Scan α) (text : List Char) : Prop :=
  scan.source ++ scan.rest = text

theorem Covers.map {scan : Scan α} {text : List Char} (covers : scan.Covers text)
    (change : α → β) : (scan.map change).Covers text :=
  covers

theorem Covers.after {scan : Scan α} {text : List Char} (covers : scan.Covers text)
    (front : List Char) : (scan.after front).Covers (front ++ text) := by
  unfold Covers at *
  simp [Scan.after, covers]

/-- What a scan leaves is no longer than the text. -/
theorem Covers.length_rest_le {scan : Scan α} {text : List Char} (covers : scan.Covers text) :
    scan.rest.length ≤ text.length := by
  rw [← covers, List.length_append]
  omega

/-- Reading on after characters that may include more than the first one makes the
text shorter. -/
theorem Covers.length_rest_lt_cons {scan : Scan α} {text : List Char} (covers : scan.Covers text)
    (first : Char) : scan.rest.length < (first :: text).length := by
  have shorter := covers.length_rest_le
  simp only [List.length_cons]
  omega

/-- The longest run of characters of a class at the front of a text, but no more
than a given number of them, and what follows. -/
def takeRun (limit : Nat) (member : Char → Bool) (text : List Char) : List Char × List Char :=
  let run := (text.take limit).takeWhile member
  (run, text.drop run.length)

/-- A run and what follows it make up the text. -/
theorem takeRun_append (limit : Nat) (member : Char → Bool) (text : List Char) :
    (takeRun limit member text).1 ++ (takeRun limit member text).2 = text := by
  have initial : (text.take limit).takeWhile member <+: text :=
    (List.takeWhile_prefix member).trans (List.take_prefix limit text)
  exact List.prefix_iff_eq_append.mp initial

end Scan

end SelectorLang
