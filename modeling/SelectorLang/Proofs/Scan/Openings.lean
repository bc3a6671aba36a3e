import SelectorLang.Proofs.Scan.TokenLookahead

/-! # How a token was read

The opening of a text limits the kinds of its first token (`SelectorLang.Scan.family_mem`), so
that the kind of a token tells how it was read: what starts with a name from its characters
(`SelectorLang.Scan.nameToken_of_named`), a hash behind a number sign
(`SelectorLang.Scan.hashToken_of_hash`), a mark or delimiter from one character
(`SelectorLang.Scan.source_of_single`).
-/

namespace SelectorLang

open CodePoint

/-- The ways to read a token. -/
inductive Token.Family where
  /-- By the characters of a name. -/
  | named
  /-- By a number sign with the characters of a name behind it. -/
  | hash
  /-- By a character alone. -/
  | single
  /-- In some other way. -/
  | other
deriving DecidableEq

/-- The way that a token of its kind is read. -/
def Token.family : Token → Family
  | ident _ | function _ => .named
  | hash _ _ => .hash
  | openParen | closeParen | openBracket | closeBracket | openBrace | closeBrace | comma | colon
  | semicolon | delim _ => .single
  | _ => .other

namespace Scan

/-- The ways to go on from an opening. -/
def Opening.families : Opening → List Token.Family
  | .hash => [.hash, .single]
  | .hyphen => [.named, .single, .other]
  | .name => [.named, .other]
  | .mark _ | .atSign | .symbol => [.single, .other]
  | .blank | .quote | .number | .markup | .strayBackslash => [.other]

theorem family_of_isAddress {token : Token} (isAddress : token.isAddress = true) :
    token.family = .other := by
  cases token <;> first | rfl | contradiction

theorem nameToken_family (text : List Char) :
    (nameToken text).value.token.family ∈ Opening.families .name := by
  rcases nameToken_cases text with ⟨called, -, same⟩ | same <;> rw [same]
  · dsimp only [after]
    rcases callToken_token (Scan.name text).value called with isCall | isAddress
    · rw [isCall]
      exact List.mem_cons_self
    · rw [family_of_isAddress isAddress]
      exact .tail _ List.mem_cons_self
  · exact List.mem_cons_self

/-- What starts with a name is no other token than a name, a function or an address. -/
theorem nameToken_ne {token : Token} (isOther : token.family = .other)
    (noAddress : token.isAddress = false) (text : List Char) :
    (nameToken text).value.token ≠ token := by
  rintro rfl
  rcases nameToken_cases text with ⟨called, -, same⟩ | same <;> rw [same] at isOther noAddress
  · dsimp only [after] at isOther noAddress
    rcases callToken_token (Scan.name text).value called with isCall | isAddress
    · rw [isCall] at isOther
      contradiction
    · rw [isAddress] at noAddress
      contradiction
  · contradiction

theorem opening_mark {first : Char} {rest : List Char} {mark : Token}
    (announced : opening first rest = .mark mark) : punctuation? first = some mark := by
  unfold opening at announced
  repeat' split at announced
  all_goals first
    | contradiction
    | (cases announced; assumption)

theorem family_of_punctuation {character : Char} {mark : Token}
    (isMark : punctuation? character = some mark) : mark.family = .single := by
  unfold punctuation? at isMark
  split at isMark <;> cases isMark <;> rfl

/-- A mark is a token of one character only. -/
theorem eq_of_punctuation {character mark : Char} {token : Token}
    (isToken : punctuation? character = some token) (isMark : punctuation? mark = some token) :
    character = mark := by
  unfold punctuation? at isToken isMark
  split at isToken <;> cases isToken <;> split at isMark <;> first | rfl | cases isMark

/-- The first token is read in a way that the opening leaves. -/
theorem family_mem {first : Char} {text : List Char} {scan : Scan Recognized}
    (found : token (first :: text) = some scan) :
    scan.value.token.family ∈ (opening first text).families := by
  rw [token] at found
  cases announced : opening first text <;> rw [announced] at found <;> cases found
  case mark mark =>
    dsimp only [fixed]
    rw [family_of_punctuation (opening_mark announced)]
    exact List.mem_cons_self
  case quote =>
    dsimp only [stringToken, after, map]
    split <;> exact List.mem_cons_self
  case number =>
    unfold numericToken
    dsimp only
    split
    · exact List.mem_cons_self
    · split <;> exact List.mem_cons_self
  case hash =>
    unfold hashToken
    split
    · exact List.mem_cons_self
    · exact .tail _ List.mem_cons_self
  case atSign =>
    unfold atToken
    split
    · exact .tail _ List.mem_cons_self
    · exact List.mem_cons_self
  case hyphen =>
    unfold hyphenToken
    split
    · exact .tail _ (.tail _ List.mem_cons_self)
    · split
      · have isName := nameToken_family (first :: text)
        simp only [Opening.families, List.mem_cons, List.not_mem_nil, or_false] at isName ⊢
        exact isName.imp_right Or.inr
      · exact .tail _ List.mem_cons_self
  case name => exact nameToken_family _
  case symbol =>
    unfold symbolToken
    split
    · exact .tail _ List.mem_cons_self
    · exact .tail _ List.mem_cons_self
    · exact List.mem_cons_self
  all_goals exact List.mem_cons_self

section Found

variable {first : Char} {text : List Char} {scan : Scan Recognized}
  (found : token (first :: text) = some scan)

include found

/-- What starts with a name is announced by one, or by a hyphen that sees one. -/
theorem nameToken_of_named (named : scan.value.token.family = .named) :
    scan = nameToken (first :: text) ∧ (opening first text = .name ∨
      opening first text = .hyphen ∧ continuesHyphen (text.drop 1) = true) := by
  have allowed := family_mem found
  rw [named] at allowed
  rw [token] at found
  cases announced : opening first text <;> rw [announced] at allowed found
  case name =>
    cases found
    exact ⟨rfl, Or.inl rfl⟩
  case hyphen =>
    cases found
    revert named
    unfold hyphenToken
    split
    · intro named
      contradiction
    · split <;> intro named
      · rename_i continues
        exact ⟨rfl, Or.inr ⟨rfl, continues.2⟩⟩
      · contradiction
  all_goals
    simp only [Opening.families, List.mem_cons, List.not_mem_nil, or_false, reduceCtorEq] at allowed

omit found in
theorem opening_hash (announced : opening first text = .hash) : first = '#' := by
  unfold opening at announced
  repeat' split at announced
  all_goals first | assumption | contradiction

/-- A hash is announced by a number sign. -/
theorem hashToken_of_hash (isHash : scan.value.token.family = .hash) :
    first = '#' ∧ scan = hashToken '#' text := by
  have allowed := family_mem found
  rw [isHash] at allowed
  rw [token] at found
  cases announced : opening first text <;> rw [announced] at allowed found
  case hash =>
    cases found
    cases opening_hash announced
    exact ⟨rfl, rfl⟩
  all_goals
    simp only [Opening.families, List.mem_cons, List.not_mem_nil, or_false, reduceCtorEq] at allowed

/-- A token of one character is that character. -/
theorem source_of_single (single : scan.value.token.family = .single) :
    scan.source = [first] ∧
      (scan.value.token = .delim first ∨ punctuation? first = some scan.value.token) := by
  have allowed := family_mem found
  rw [single] at allowed
  rw [token] at found
  cases announced : opening first text <;> rw [announced] at allowed found
  case mark mark =>
    cases found
    exact ⟨rfl, Or.inr (opening_mark announced)⟩
  case hash =>
    cases found
    revert single
    unfold hashToken
    split <;> intro single
    · contradiction
    · exact ⟨rfl, Or.inl rfl⟩
  case atSign =>
    cases found
    revert single
    unfold atToken
    split <;> intro single
    · contradiction
    · exact ⟨rfl, Or.inl rfl⟩
  case hyphen =>
    cases found
    revert single
    unfold hyphenToken
    split
    · intro single
      contradiction
    · split <;> intro single
      · have isName := nameToken_family (first :: text)
        rw [single] at isName
        contradiction
      · exact ⟨rfl, Or.inl rfl⟩
  case symbol =>
    cases found
    revert single
    unfold symbolToken
    split <;> intro single
    · contradiction
    · contradiction
    · exact ⟨rfl, Or.inl rfl⟩
  all_goals
    simp only [Opening.families, List.mem_cons, List.not_mem_nil, or_false, reduceCtorEq] at allowed

end Found

end Scan

end SelectorLang
