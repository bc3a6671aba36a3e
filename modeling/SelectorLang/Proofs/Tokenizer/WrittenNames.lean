import Mathlib.Data.List.Induction
import Mathlib.Data.Nat.Digits.Defs
import SelectorLang.Proofs.Tokenizer.NameStarts

/-! # Ways to write a name

A character of a name stands for itself, is named by its number in up to six hexadecimal digits
with a blank behind them, or stands behind a backslash. However its characters are written, a
name is read as the characters that are meant, as a name, a hash, behind a commercial at, in
quotes and in front of a parenthesis (`SelectorLang.WrittenName.readsBack`).
-/

namespace SelectorLang

open Scan CodePoint

/-! ## Hexadecimal numbers -/

/-- A hexadecimal digit of either case; from ten on the cases differ. -/
structure HexDigit where
  /-- Its value. -/
  value : Fin 16
  /-- Whether a letter is written as a capital. -/
  capital : Bool

namespace HexDigit

/-- The character that a digit is written with. -/
def character (digit : HexDigit) : Char :=
  if digit.value.val < 10 then Char.ofNat ('0'.toNat + digit.value.val)
  else Char.ofNat ((if digit.capital then 'A' else 'a').toNat + (digit.value.val - 10))

/-- The number that digits spell, the first of them the highest. -/
def number (digits : List HexDigit) : Nat :=
  Nat.ofDigits 16 (digits.reverse.map fun digit => digit.value.val)

theorem hexValue?_character (digit : HexDigit) :
    hexValue? digit.character = some digit.value.val := by
  obtain ⟨value, capital⟩ := digit
  revert value capital
  decide

theorem isHexDigit_character (digit : HexDigit) : isHexDigit digit.character = true := by
  rw [isHexDigit, hexValue?_character]
  rfl

/-- Every hexadecimal digit is written in this way. -/
theorem exists_of_isHexDigit {character : Char} (hex : isHexDigit character = true) :
    ∃ digit : HexDigit, digit.character = character := by
  have same {number : Nat} (isNumber : number = character.toNat) : Char.ofNat number = character :=
    isNumber ▸ Char.ofNat_toNat character
  have bounds {low high : Char} (between : low ≤ character ∧ character ≤ high) :
      low.toNat ≤ character.toNat ∧ character.toNat ≤ high.toNat :=
    ⟨UInt32.le_iff_toNat_le.mp between.1, UInt32.le_iff_toNat_le.mp between.2⟩
  have letter {first : Char} (capital : Bool) (isFirst : (if capital then 'A' else 'a') = first)
      (between : first.toNat ≤ character.toNat ∧ character.toNat < first.toNat + 6) :
      ∃ digit : HexDigit, digit.character = character := by
    refine ⟨⟨⟨character.toNat - first.toNat + 10, by omega⟩, capital⟩, ?_⟩
    rw [HexDigit.character, isFirst, if_neg (Nat.not_lt.mpr (Nat.le_add_left _ _)),
      Nat.add_sub_cancel]
    exact same (Nat.add_sub_cancel' between.1)
  unfold isHexDigit hexValue? at hex
  split at hex
  · rename_i digit
    simp only [Char.isDigit, Bool.and_eq_true, decide_eq_true_eq, ge_iff_le] at digit
    have between := @bounds '0' '9' digit
    have value : '0'.toNat + (character.toNat - '0'.toNat) = character.toNat :=
      Nat.add_sub_cancel' between.1
    simp only [Char.reduceToNat] at between value
    refine ⟨⟨⟨character.toNat - 48, by omega⟩, false⟩, ?_⟩
    rw [HexDigit.character, if_pos (by dsimp only; omega)]
    exact same value
  · split at hex
    · rename_i small
      simp only [Bool.and_eq_true, decide_eq_true_eq] at small
      have between := bounds small
      exact letter false rfl ⟨between.1, Nat.lt_succ_of_le between.2⟩
    · split at hex
      · rename_i large
        simp only [Bool.and_eq_true, decide_eq_true_eq] at large
        have between := bounds large
        exact letter true rfl ⟨between.1, Nat.lt_succ_of_le between.2⟩
      · contradiction

theorem hexNumber_characters (digits : List HexDigit) :
    hexNumber (digits.map HexDigit.character) = number digits := by
  induction digits using List.reverseRecOn with
  | nil => rfl
  | append_singleton digits digit ih =>
      rw [hexNumber] at ih
      rw [hexNumber, number, List.map_append, List.foldl_append, ih, List.reverse_append,
        List.map_append, List.map_singleton, List.reverse_singleton, List.map_singleton,
        List.singleton_append, Nat.ofDigits_cons, List.foldl_cons, List.foldl_nil,
        hexValue?_character]
      exact Nat.add_comm _ _

end HexDigit

/-! ## Ways to write a character -/

/-- A way to write a character of a name. -/
inductive WrittenCharacter where
  /-- The character as it stands. -/
  | plain (character : Char) (continues : continuesName character = true)
  /-- The number of the character and a blank. -/
  | numbered (digits : List HexDigit) (blank : Char) (nonempty : digits ≠ [])
      (few : digits.length ≤ 6) (isBlank : isBlank blank = true)
  /-- The character behind a backslash. -/
  | escaped (character : Char) (noDigit : ∀ digit : HexDigit, digit.character ≠ character)
      (noBreak : character ≠ '\n')

namespace WrittenCharacter

/-- The characters that it is written with. -/
def text : WrittenCharacter → List Char
  | plain character _ => [character]
  | numbered digits blank _ _ _ => '\\' :: (digits.map HexDigit.character ++ [blank])
  | escaped character _ _ => ['\\', character]

/-- The character that is meant. A number that is zero, belongs to half of a surrogate pair or
lies beyond the last character stands for the replacement character. -/
def meant : WrittenCharacter → Char
  | plain character _ => character
  | numbered digits _ _ _ _ =>
    let number := HexDigit.number digits
    if number = 0 ∨ (0xD800 ≤ number ∧ number ≤ 0xDFFF) ∨ 0x10FFFF < number then '\ufffd'
    else Char.ofNat number
  | escaped character _ _ => character

/-- Whether it is neither a plain digit nor a plain hyphen. -/
def mayStart : WrittenCharacter → Bool
  | plain character _ => !character.isDigit && character != '-'
  | _ => true

end WrittenCharacter

/-- A name, character by character. A digit or a hyphen at its front is written by its number or
behind a backslash. -/
structure WrittenName where
  /-- The first character. -/
  first : WrittenCharacter
  /-- It may stand at the front. -/
  starts : first.mayStart = true
  /-- The other characters. -/
  others : List WrittenCharacter

namespace WrittenName

/-- The characters that a name is written with. -/
def spelling (name : WrittenName) : List Char :=
  (name.first :: name.others).flatMap WrittenCharacter.text

/-- The way that a name is written. -/
def text (name : WrittenName) : String :=
  String.ofList name.spelling

/-- The name that is meant. -/
def meant (name : WrittenName) : String :=
  String.ofList ((name.first :: name.others).map WrittenCharacter.meant)

end WrittenName

/-! ## What scans read of a written character -/

namespace Scan

/-- A run of no more than so many characters is taken whole. -/
theorem takeRun_of_run {limit : Nat} {member : Char → Bool} {run rest : List Char}
    (belong : ∀ character ∈ run, member character = true) (few : run.length ≤ limit)
    (stops : rest.head?.any member = false) :
    takeRun limit member (run ++ rest) = (run, rest) := by
  induction run generalizing limit with
  | nil => exact takeRun_of_head limit stops
  | cons first run ih =>
      obtain ⟨belongs, belong⟩ := List.forall_mem_cons.mp belong
      cases limit with
      | zero => exact absurd few (Nat.not_succ_le_zero _)
      | succ limit =>
          rw [List.cons_append, takeRun_cons limit belongs,
            ih belong (Nat.le_of_succ_le_succ few)]

/-- The character with a number, in terms of the numbers that no character has. -/
theorem ofNumber_eq (number : Nat) :
    ofNumber number =
      if number = 0 ∨ (0xD800 ≤ number ∧ number ≤ 0xDFFF) ∨ 0x10FFFF < number then '\ufffd'
      else Char.ofNat number := by
  have valid : (number ≠ 0 ∧ number.isValidChar) ↔
      ¬ (number = 0 ∨ (0xD800 ≤ number ∧ number ≤ 0xDFFF) ∨ 0x10FFFF < number) := by
    unfold Nat.isValidChar
    omega
  unfold ofNumber
  rw [if_congr valid rfl rfl, ite_not]
  rfl

theorem escape_numbered {digits : List HexDigit} {blank : Char} (nonempty : digits ≠ [])
    (few : digits.length ≤ 6) (blanks : isBlank blank = true) (rest : List Char) :
    escape (digits.map HexDigit.character ++ blank :: rest) =
      ⟨ofNumber (HexDigit.number digits), digits.map HexDigit.character ++ [blank], rest⟩ := by
  have noDigit : isHexDigit blank = false := by
    refine Bool.eq_false_iff.mpr fun hex => ?_
    rw [isBlank_of_continuesName (continuesName_of_isHexDigit hex)] at blanks
    contradiction
  have hex : ∀ character ∈ digits.map HexDigit.character, isHexDigit character = true := by
    intro character member
    obtain ⟨digit, -, rfl⟩ := List.mem_map.mp member
    exact digit.isHexDigit_character
  have run := @takeRun_of_run 6 isHexDigit _ (blank :: rest) hex (by rwa [List.length_map]) noDigit
  have behind : takeRun 1 isBlank (blank :: rest) = ([blank], rest) := takeRun_cons 0 blanks
  rw [← HexDigit.hexNumber_characters]
  obtain ⟨first, others, rfl⟩ := List.exists_cons_of_ne_nil nonempty
  rw [List.map_cons, List.cons_append] at run ⊢
  simp only [escape, first.isHexDigit_character, ↓reduceIte, run, behind]

end Scan

namespace WrittenCharacter

/-- A character is written as it stands or as an escape, which is read as the character
that is meant. -/
theorem plain_or_escape (character : WrittenCharacter) :
    (continuesName character.meant = true ∧ character.text = [character.meant] ∧
        (character.mayStart = true → startsName character.meant = true)) ∨
      ∃ body, character.text = '\\' :: body ∧ body ≠ [] ∧ ∀ rest,
        escapes (body ++ rest) = true ∧
          escape (body ++ rest) = ⟨character.meant, body, rest⟩ := by
  cases character with
  | plain character continues =>
      refine Or.inl ⟨continues, rfl, fun starts => ?_⟩
      simp only [continuesName, Bool.or_eq_true, beq_iff_eq] at continues
      simp only [mayStart, Bool.and_eq_true, Bool.not_eq_true', bne_iff_ne] at starts
      rcases continues with (isStart | digit) | hyphen
      · exact isStart
      · exact absurd digit (Bool.eq_false_iff.mp starts.1)
      · exact absurd hyphen starts.2
  | numbered digits blank nonempty few isBlank =>
      refine Or.inr ⟨digits.map HexDigit.character ++ [blank], rfl, ?_, fun rest => ⟨?_, ?_⟩⟩
      · exact List.append_ne_nil_of_right_ne_nil _ (List.cons_ne_nil _ _)
      · obtain ⟨first, others, rfl⟩ := List.exists_cons_of_ne_nil nonempty
        refine bne_iff_ne.mpr fun breaks => ?_
        have hex := first.isHexDigit_character
        rw [Option.some.inj breaks] at hex
        contradiction
      · rw [List.append_assoc, List.singleton_append, escape_numbered nonempty few isBlank,
          ofNumber_eq]
        rfl
  | escaped character noDigit noBreak =>
      refine Or.inr ⟨[character], rfl, List.cons_ne_nil _ _, fun rest => ⟨?_, ?_⟩⟩
      · exact bne_iff_ne.mpr fun breaks => noBreak (Option.some.inj breaks)
      · have noHex : ¬ isHexDigit character = true := fun hex => by
          obtain ⟨digit, isDigit⟩ := HexDigit.exists_of_isHexDigit hex
          exact noDigit digit isDigit
        simp only [List.singleton_append, escape, if_neg noHex]
        rfl

/-- Where it may stand at the front, a name starts with it, and neither a hyphen nor a slash
does. -/
theorem starts_of_mayStart {character : WrittenCharacter} (front : character.mayStart = true) :
    ∃ first body, character.text = first :: body ∧ first ≠ '-' ∧ first ≠ '/' ∧
      ∀ rest, nameStarts (first :: (body ++ rest)) = true := by
  rcases character.plain_or_escape with ⟨-, text, starts⟩ | ⟨body, text, -, reads⟩
  · have isStart := starts front
    have noHyphen : character.meant ≠ '-' :=
      ne_of_apply_ne startsName (by rw [isStart]; decide)
    have noSlash : character.meant ≠ '/' :=
      ne_of_apply_ne startsName (by rw [isStart]; decide)
    refine ⟨character.meant, [], text, noHyphen, noSlash, fun rest => ?_⟩
    exact (nameStarts_cons_iff noHyphen).mpr (Or.inl isStart)
  · refine ⟨'\\', body, text, by decide, by decide, fun rest => ?_⟩
    exact (nameStarts_cons_iff (by decide)).mpr (Or.inr ⟨rfl, (reads rest).1⟩)

end WrittenCharacter

namespace Scan

variable {tail : List Char}

/-- **A written name is read as the characters that are meant**, up to where no name goes on. -/
theorem name_of_written (characters : List WrittenCharacter) (ends : EndsName tail) :
    name (characters.flatMap WrittenCharacter.text ++ tail) =
      ⟨characters.map WrittenCharacter.meant, characters.flatMap WrittenCharacter.text, tail⟩ := by
  induction characters with
  | nil => exact name_of_characters (fun _ member => absurd member List.not_mem_nil) ends
  | cons character characters ih =>
      rw [List.flatMap_cons, List.append_assoc, List.map_cons]
      rcases character.plain_or_escape with ⟨continues, text, -⟩ | ⟨body, text, -, reads⟩
      · rw [text, List.singleton_append, name_of_continues continues, ih]
        rfl
      · -- An escape takes its own characters only, so what is written behind it is left.
        obtain ⟨escapes, read⟩ := reads (characters.flatMap WrittenCharacter.text ++ tail)
        rw [text, List.cons_append, name_of_escape (by decide) ⟨rfl, escapes⟩, read, ih]
        rfl

/-- **In quotes a written name is read as the characters that are meant.** -/
theorem quotedString_of_written {quote : Char} (isQuote : isQuote quote = true)
    (characters : List WrittenCharacter) :
    quotedString quote (characters.flatMap WrittenCharacter.text ++ quote :: tail) =
      ⟨⟨characters.map WrittenCharacter.meant, .closed⟩,
        characters.flatMap WrittenCharacter.text ++ [quote], tail⟩ := by
  induction characters with
  | nil => exact quotedString_of_quote
  | cons character characters ih =>
      rw [List.flatMap_cons, List.append_assoc, List.append_assoc, List.map_cons]
      rcases character.plain_or_escape with ⟨continues, text, -⟩ | ⟨body, text, nonempty, reads⟩
      · have different : character.meant ≠ quote := by
          intro same
          rw [← same, isQuote_of_continuesName continues] at isQuote
          contradiction
        have noBreak : character.meant ≠ '\n' :=
          ne_of_apply_ne continuesName (by rw [continues]; decide)
        have noBackslash : character.meant ≠ '\\' :=
          ne_of_apply_ne continuesName (by rw [continues]; decide)
        rw [text, List.singleton_append, quotedString_of_character different noBreak noBackslash,
          ← List.append_assoc, ih]
        rfl
      · have different : '\\' ≠ quote := by
          rintro rfl
          contradiction
        obtain ⟨escapes, read⟩ :=
          reads (characters.flatMap WrittenCharacter.text ++ quote :: tail)
        rw [text, List.cons_append, quotedString_of_escape different
          (List.append_ne_nil_of_left_ne_nil nonempty _) escapes, read, ih]
        simp only [List.cons_append]
        rfl

end Scan

/-! ## A written name is one token -/

namespace WrittenName

variable (name : WrittenName)

theorem toList_text : name.text.toList = name.spelling :=
  String.toList_ofList

theorem name_spelling {tail : List Char} (ends : EndsName tail) :
    Scan.name (name.spelling ++ tail) =
      ⟨(name.first :: name.others).map WrittenCharacter.meant, name.spelling, tail⟩ :=
  name_of_written _ ends

theorem starts_spelling (tail : List Char) : ∃ first behind,
    name.spelling ++ tail = first :: behind ∧ first ≠ '-' ∧ first ≠ '/' ∧
      nameStarts (first :: behind) = true := by
  obtain ⟨first, body, text, noHyphen, noSlash, starts⟩ :=
    WrittenCharacter.starts_of_mayStart name.starts
  refine ⟨first, body ++ (name.others.flatMap WrittenCharacter.text ++ tail), ?_, noHyphen, noSlash,
    starts _⟩
  rw [spelling, List.flatMap_cons, text, List.append_assoc, List.cons_append]

/-- What starts with a written name is one token when all of it is read with the name. -/
theorem isOneToken_of_nameToken {whole : String} {tail : List Char} {recognized : Recognized}
    (isWhole : whole.toList = name.spelling ++ tail)
    (found : nameToken (name.spelling ++ tail) = ⟨recognized, name.spelling ++ tail, []⟩) :
    IsOneToken whole recognized.token := by
  obtain ⟨first, behind, opens, noHyphen, noSlash, starts⟩ := name.starts_spelling tail
  rw [opens] at isWhole found
  refine isOneToken_of_cons isWhole noSlash ?_
  rw [token, opening_of_nameStarts noHyphen starts, tokenOf, found]

theorem nameStarts_spelling : nameStarts name.spelling = true := by
  obtain ⟨first, behind, opens, -, -, starts⟩ := name.starts_spelling []
  rwa [← List.append_nil name.spelling, opens]

theorem name_alone : Scan.name name.spelling =
    ⟨(name.first :: name.others).map WrittenCharacter.meant, name.spelling, []⟩ := by
  have read := name.name_spelling endsName_nil
  rwa [List.append_nil] at read

theorem isOneToken_ident : IsOneToken name.text (.ident name.meant) := by
  have found : nameToken (name.spelling ++ []) =
      ⟨⟨.ident name.meant, none⟩, name.spelling ++ [], []⟩ := by
    rw [List.append_nil, nameToken_of_name name.name_alone (Option.some_ne_none _).symm]
    rfl
  refine name.isOneToken_of_nameToken ?_ found
  rw [toList_text, List.append_nil]

theorem isOneToken_hash : IsOneToken ("#" ++ name.text) (.hash name.meant .id) := by
  have found : token ('#' :: name.spelling) =
      some ⟨⟨.hash name.meant .id, none⟩, '#' :: name.spelling, []⟩ := by
    rw [token_numberSign, hashToken_of_name (hashStarts_of_nameStarts name.nameStarts_spelling),
      if_pos name.nameStarts_spelling, name.name_alone]
    rfl
  refine isOneToken_of_cons ?_ (by decide) found
  rw [String.toList_append, toList_text]
  rfl

theorem isOneToken_atKeyword : IsOneToken ("@" ++ name.text) (.atKeyword name.meant) := by
  have found : token ('@' :: name.spelling) =
      some ⟨⟨.atKeyword name.meant, none⟩, '@' :: name.spelling, []⟩ := by
    rw [token_atSign, atToken, if_pos name.nameStarts_spelling, name.name_alone]
    rfl
  refine isOneToken_of_cons ?_ (by decide) found
  rw [String.toList_append, toList_text]
  rfl

theorem isOneToken_string {quote : Char} {mark : String} (isMark : mark.toList = [quote])
    (quotes : isQuote quote = true) (noBlank : ¬ isBlank quote = true) :
    IsOneToken (mark ++ name.text ++ mark) (.string name.meant) := by
  have found : token (quote :: (name.spelling ++ [quote])) =
      some ⟨⟨.string name.meant, none⟩, quote :: (name.spelling ++ [quote]), []⟩ := by
    rw [token, opening_of_quote noBlank quotes, tokenOf, stringToken, spelling,
      quotedString_of_written quotes]
    rfl
  refine isOneToken_of_cons ?_ ?_ found
  · rw [String.toList_append, String.toList_append, toList_text, isMark]
    rfl
  · rintro rfl
    contradiction

theorem isOneToken_function (noAddress : name.meant.toLower ≠ "url") :
    IsOneToken (name.text ++ "(") (.function name.meant) := by
  have noUrl : ((name.first :: name.others).map WrittenCharacter.meant).map Char.toLower ≠
      ['u', 'r', 'l'] := by
    intro isUrl
    apply noAddress
    apply String.toList_injective
    rw [toLower_eq_map, String.toList_map, meant, String.toList_ofList, isUrl]
    rfl
  have ends : EndsName ['('] := endsName_cons (by decide) (by decide) []
  have found : nameToken (name.spelling ++ ['(']) =
      ⟨⟨.function name.meant, none⟩, name.spelling ++ ['('], []⟩ := by
    rw [nameToken_of_call (name.name_spelling ends) rfl, callToken, if_neg noUrl]
    simp only [after, fixed, List.take_nil, List.drop_nil, List.append_nil]
    rfl
  refine name.isOneToken_of_nameToken ?_ found
  rw [String.toList_append, toList_text]
  rfl

/-- A name is read as what is meant wherever a name may stand. -/
structure ReadsBack : Prop where
  /-- As it stands. -/
  ident : IsOneToken name.text (.ident name.meant)
  /-- Behind a number sign. -/
  hash : IsOneToken ("#" ++ name.text) (.hash name.meant .id)
  /-- Behind a commercial at. -/
  atKeyword : IsOneToken ("@" ++ name.text) (.atKeyword name.meant)
  /-- In quotes of either kind. -/
  string : ∀ quote ∈ ["\"", "'"], IsOneToken (quote ++ name.text ++ quote) (.string name.meant)
  /-- In front of a parenthesis, unless the name opens an address. -/
  function : name.meant.toLower ≠ "url" → IsOneToken (name.text ++ "(") (.function name.meant)

/-- **However its characters are written, a name is read as the characters that are meant.** -/
theorem readsBack : name.ReadsBack where
  ident := name.isOneToken_ident
  hash := name.isOneToken_hash
  atKeyword := name.isOneToken_atKeyword
  string := by
    intro quote member
    simp only [List.mem_cons, List.not_mem_nil, or_false] at member
    rcases member with rfl | rfl
    · exact @isOneToken_string name '"' _ rfl (by decide) (by decide)
    · exact @isOneToken_string name '\'' _ rfl (by decide) (by decide)
  function := name.isOneToken_function

/-- The name `-7`, a character that does not exist and a quotation mark; only the digit stands as
it is. -/
def mixedName : WrittenName where
  first := .numbered [⟨2, false⟩, ⟨13, true⟩] '\n' (by decide) (by decide) (by decide)
  starts := rfl
  others := [
    .plain '7' (by decide),
    .numbered [⟨13, false⟩, ⟨8, false⟩, ⟨0, false⟩, ⟨0, false⟩] ' ' (by decide) (by decide)
      (by decide),
    .escaped '"' (fun digit same => absurd (same ▸ digit.isHexDigit_character) (by decide))
      (by decide)]

theorem mixedName_readsBack :
    IsOneToken "\\2D\n7\\d800 \\\"" (.ident "-7\ufffd\"") ∧
      IsOneToken "\\2D\n7\\d800 \\\"(" (.function "-7\ufffd\"") := by
  have text : mixedName.text = "\\2D\n7\\d800 \\\"" := by decide
  have meant : mixedName.meant = "-7\ufffd\"" := by decide
  have ident := mixedName.readsBack.ident
  have function := mixedName.readsBack.function (by decide +kernel)
  rw [text, meant] at ident function
  exact ⟨ident, function⟩

end WrittenName

end SelectorLang
