import SelectorLang.Scan.Name
import SelectorLang.Text.Quoted

/-! # What quoted texts are read back as

A quoted character tells where it ends, so that it is read back in front of anything
(`SelectorLang.Text.unquotedCharacter?_append`). Two quoted texts at the front of the same
characters are therefore the same text (`SelectorLang.Text.quoted_append_inj`), and there is no
control character in a quoted text (`SelectorLang.Text.not_mem_quoted_of_isControl`). Where a
text does not tell its own end, a mark that it has no copy of does
(`SelectorLang.Text.append_cons_inj`).
-/

namespace SelectorLang.Text

open Scan CodePoint

/-! ## Marks -/

/-- A mark that stands in neither of two fronts tells where they end. -/
theorem append_cons_inj {mark : Char} {front front' behind behind' : List Char}
    (outside : mark ∉ front) (outside' : mark ∉ front')
    (same : front ++ mark :: behind = front' ++ mark :: behind') :
    front = front' ∧ behind = behind' := by
  have parts := congrArg (List.splitOn mark) same
  rw [List.splitOn_append_cons_self_of_not_mem outside,
    List.splitOn_append_cons_self_of_not_mem outside'] at parts
  obtain rfl := (List.cons.inj parts).1
  exact ⟨rfl, (List.cons.inj (List.append_cancel_left same)).2⟩

/-! ## Digits of a number -/

/-- What holds of the digits of a base holds of those that a number is written with. -/
theorem forall_mem_toDigits {Holds : Char → Prop} {base : Nat} (many : 1 < base)
    (each : ∀ digit < base, Holds (Nat.digitChar digit)) (number : Nat) :
    ∀ character ∈ Nat.toDigits base number, Holds character := by
  induction number using Nat.strongRecOn with
  | ind number ih =>
      intro character member
      rw [Nat.toDigits_eq_if many] at member
      split at member
      · rename_i isDigit
        rw [List.mem_singleton.mp member]
        exact each number isDigit
      · rename_i large
        rcases List.mem_append.mp member with front | last
        · exact ih (number / base) (Nat.div_lt_self (by omega) many) character front
        · rw [List.mem_singleton.mp last]
          exact each _ (Nat.mod_lt _ (by omega))

theorem hexNumber_append (digits : List Char) (digit : Char) :
    hexNumber (digits ++ [digit]) = 16 * hexNumber digits + (hexValue? digit).getD 0 := by
  rw [hexNumber, List.foldl_append]
  rfl

/-- The digits of a number spell it. -/
theorem hexNumber_toDigits (number : Nat) : hexNumber (Nat.toDigits 16 number) = number := by
  have value : ∀ digit < 16, (hexValue? (Nat.digitChar digit)).getD 0 = digit := by decide
  induction number using Nat.strongRecOn with
  | ind number ih =>
      rw [Nat.toDigits_eq_if (by decide)]
      split
      · rename_i isDigit
        have single := hexNumber_append [] (Nat.digitChar number)
        rw [value number isDigit] at single
        exact single.trans (Nat.zero_add number)
      · rename_i large
        rw [hexNumber_append, ih (number / 16) (Nat.div_lt_self (by omega) (by decide)),
          value _ (Nat.mod_lt _ (by decide))]
        exact Nat.div_add_mod number 16

/-! ## Reading a quoted text -/

/-- The character that stands quoted at the front of a text, and what is behind it; there is
none at the closing quote. -/
def unquotedCharacter? : List Char → Option (Char × List Char)
  | '\\' :: 'u' :: '\x7b' :: rest =>
    some (Char.ofNat (hexNumber (rest.takeWhile (· ≠ '\x7d'))),
      (rest.dropWhile (· ≠ '\x7d')).drop 1)
  | '\\' :: '0' :: rest => some ('\x00', rest)
  | '\\' :: 't' :: rest => some ('\t', rest)
  | '\\' :: 'r' :: rest => some ('\r', rest)
  | '\\' :: 'n' :: rest => some ('\n', rest)
  | '\\' :: escaped :: rest => some (escaped, rest)
  | '"' :: _ => none
  | character :: rest => some (character, rest)
  | [] => none

/-- A character that is neither a quote nor a backslash stands for itself. -/
theorem unquotedCharacter?_cons {character : Char} (tail : List Char)
    (noQuote : character ≠ '"') (noBackslash : character ≠ '\\') :
    unquotedCharacter? (character :: tail) = some (character, tail) := by
  unfold unquotedCharacter?
  split
  case h_8 => rename_i same; cases same; rfl
  case h_9 => contradiction
  all_goals
    rename_i same
    cases same
    contradiction

/-- What is escaped by its number is read by its number. -/
theorem unquotedCharacter?_number (number : Nat) (tail : List Char) :
    unquotedCharacter? (['\\', 'u', '\x7b'] ++ Nat.toDigits 16 number ++ ['\x7d'] ++ tail) =
      some (Char.ofNat number, tail) := by
  have inside : ∀ digit ∈ Nat.toDigits 16 number, decide (digit ≠ '\x7d') = true :=
    forall_mem_toDigits (by decide) (by decide) number
  rw [List.append_assoc, List.append_assoc]
  simp only [List.cons_append, List.nil_append, unquotedCharacter?]
  rw [List.takeWhile_append_of_pos inside, List.dropWhile_append_of_pos inside]
  simp only [ne_eq, not_true_eq_false, decide_false, Bool.false_eq_true, not_false_eq_true,
    List.takeWhile_cons_of_neg, List.dropWhile_cons_of_neg, List.append_nil, hexNumber_toDigits,
    List.drop_succ_cons, List.drop_zero]

/-- **A quoted character is read back**, whatever stands behind it. -/
theorem unquotedCharacter?_append (character : Char) (tail : List Char) :
    unquotedCharacter? (quotedCharacter character ++ tail) = some (character, tail) := by
  unfold quotedCharacter
  split
  · rename_i quote
    rw [quote]
    rfl
  · rename_i noQuote
    split
    · rename_i backslash
      rw [backslash]
      rfl
    · rename_i noBackslash
      repeat' split
      case _ named => rw [named]; rfl
      case _ named => rw [named]; rfl
      case _ named => rw [named]; rfl
      case _ named => rw [named]; rfl
      · rw [unquotedCharacter?_number, Char.ofNat_toNat]
      · exact unquotedCharacter?_cons tail noQuote noBackslash

/-! ## Quoted texts -/

theorem toList_quoted (text : String) :
    (quoted text).toList = '"' :: (text.toList.flatMap quotedCharacter ++ ['"']) :=
  String.toList_ofList

/-- The characters of two texts, quoted up to the closing quote. -/
theorem quotedCharacters_append_inj {first second : List Char} {tail tail' : List Char}
    (same : first.flatMap quotedCharacter ++ '"' :: tail =
      second.flatMap quotedCharacter ++ '"' :: tail') :
    first = second ∧ tail = tail' := by
  -- At its closing quote a text has no further character, so both texts end together.
  have noEnd (character : Char) (rest behind : List Char) :
      '"' :: behind ≠ quotedCharacter character ++ rest := by
    intro ends
    have read := unquotedCharacter?_append character rest
    rw [← ends] at read
    contradiction
  induction first generalizing second with
  | nil =>
      cases second with
      | nil => exact ⟨rfl, (List.cons.inj same).2⟩
      | cons character second =>
          rw [List.flatMap_cons, List.append_assoc] at same
          exact absurd same (noEnd _ _ _)
  | cons character first ih =>
      rw [List.flatMap_cons, List.append_assoc] at same
      cases second with
      | nil => exact absurd same.symm (noEnd _ _ _)
      | cons other second =>
          rw [List.flatMap_cons, List.append_assoc] at same
          have read := unquotedCharacter?_append character
            (first.flatMap quotedCharacter ++ '"' :: tail)
          rw [same, unquotedCharacter?_append, Option.some.injEq, Prod.mk.injEq] at read
          obtain ⟨rfl, behind⟩ := read
          obtain ⟨rfl, rfl⟩ := ih behind.symm
          exact ⟨rfl, rfl⟩

/-- **Quoted texts are told apart by their own characters**: where two of them stand at the
front of the same characters, they are the same. -/
theorem quoted_append_inj {first second : String} {tail tail' : List Char}
    (same : (quoted first).toList ++ tail = (quoted second).toList ++ tail') :
    first = second ∧ tail = tail' := by
  rw [toList_quoted, toList_quoted, List.cons_append, List.cons_append, List.append_assoc,
    List.append_assoc] at same
  obtain ⟨texts, rest⟩ := quotedCharacters_append_inj (List.cons.inj same).2
  exact ⟨String.toList_injective texts, rest⟩

/-- A quoted character is written without control characters. -/
theorem isControl_of_mem_quotedCharacter {character : Char} :
    ∀ written ∈ quotedCharacter character, isControl written = false := by
  have both {first second : Char} (plain : isControl first = false)
      (plain' : isControl second = false) :
      ∀ written ∈ [first, second], isControl written = false :=
    List.forall_mem_cons.mpr ⟨plain, List.forall_mem_singleton.mpr plain'⟩
  unfold quotedCharacter
  repeat' split
  any_goals exact both rfl rfl
  · rw [List.append_assoc, List.forall_mem_append, List.forall_mem_append]
    exact ⟨List.forall_mem_cons.mpr ⟨rfl, both rfl rfl⟩,
      forall_mem_toDigits (by decide) (by decide) _, List.forall_mem_singleton.mpr rfl⟩
  · rename_i shown
    rw [Bool.or_eq_true, not_or] at shown
    exact List.forall_mem_singleton.mpr (Bool.eq_false_iff.mpr shown.1)

/-- There is no control character in a quoted text, neither a line feed nor an escape. -/
theorem not_mem_quoted_of_isControl {character : Char} (control : isControl character = true)
    (text : String) : character ∉ (quoted text).toList := by
  have plain : ∀ written ∈ (quoted text).toList, isControl written = false := by
    rw [toList_quoted, ← List.cons_append, List.forall_mem_append, List.forall_mem_cons]
    refine ⟨⟨rfl, fun written member => ?_⟩, List.forall_mem_singleton.mpr rfl⟩
    obtain ⟨quotedAs, -, inQuoted⟩ := List.mem_flatMap.mp member
    exact isControl_of_mem_quotedCharacter written inQuoted
  intro member
  rw [plain character member] at control
  contradiction

end SelectorLang.Text
