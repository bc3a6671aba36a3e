import SelectorLang.Proofs.Scan.Openings

/-! # Names without escapes

A name without escapes is the same name wherever it ends (`SelectorLang.Scan.IsPlainName`);
in front of a parenthesis it calls a function (`SelectorLang.Scan.IsPlainName.token_call`).
-/

namespace SelectorLang

open CodePoint

namespace Scan

variable {characters tail : List Char}

/-- Characters that are a name as they stand: a hyphen in front takes two more with it, the
second of which starts a name or is a hyphen. -/
structure IsPlainName (characters : List Char) : Prop where
  continues : ∀ character ∈ characters, continuesName character = true
  starts : characters.head?.any startsName = true ∨
    ∃ second third rest, characters = '-' :: second :: third :: rest ∧
      second.isDigit = false ∧ (startsName third || third == '-') = true

/-- Whether characters are a name as they stand. -/
def isPlainName (characters : List Char) : Bool :=
  characters.all continuesName && (characters.head?.any startsName ||
    match characters with
    | '-' :: second :: third :: _ => !second.isDigit && (startsName third || third == '-')
    | _ => false)

theorem isPlainName_iff : isPlainName characters = true ↔ IsPlainName characters := by
  unfold isPlainName
  rw [Bool.and_eq_true, Bool.or_eq_true, List.all_eq_true]
  constructor
  · rintro ⟨continues, starts⟩
    refine ⟨continues, starts.imp_right fun hyphen => ?_⟩
    split at hyphen
    · rename_i second third rest
      rw [Bool.and_eq_true, Bool.not_eq_true'] at hyphen
      exact ⟨second, third, rest, rfl, hyphen⟩
    · contradiction
  · rintro ⟨continues, starts⟩
    refine ⟨continues, starts.imp_right ?_⟩
    rintro ⟨second, third, rest, rfl, hyphen⟩
    rwa [← Bool.not_eq_true', ← Bool.and_eq_true] at hyphen

instance (characters : List Char) : Decidable (IsPlainName characters) :=
  decidable_of_iff _ isPlainName_iff

theorem isDigit_of_startsName {character : Char} (starts : startsName character = true) :
    character.isDigit = false := by
  cases digit : character.isDigit with
  | false => rfl
  | true =>
      simp only [startsName, isAlpha_eq, isUpper_eq, isLower_eq, Char.isDigit,
        Bool.or_eq_true, Bool.and_eq_true, decide_eq_true_eq, beq_iff_eq, ge_iff_le,
        UInt32.le_iff_toNat_le, Char.reduceVal, UInt32.reduceToNat, Char.toNat] at starts digit
      rcases starts with ((upper | lower) | rfl) | beyond
      · omega
      · omega
      · contradiction
      · omega

/-! ## What is read of a plain name -/

/-- Characters that start a name announce one. -/
theorem opening_of_startsName {first : Char} (starts : startsName first = true)
    (behind : List Char) : opening first behind = .name := by
  have continues := continuesName_of_startsName starts
  have other {character : Char} (outside : startsName character = false) : first ≠ character := by
    rintro rfl
    rw [outside] at starts
    contradiction
  have noSign : isSign first = false := by
    rw [isSign, Bool.or_eq_false_iff, beq_eq_false_iff_ne, beq_eq_false_iff_ne]
    exact ⟨other (by decide), other (by decide)⟩
  have noSignFirst : (first :: behind).head?.any isSign = false := noSign
  have noNumber : numberStarts (first :: behind) = false := by
    rw [numberStarts_eq, signPart, takeRun_of_head 1 noSignFirst, unsignedStarts,
      isDigit_of_startsName starts, beq_eq_false_iff_ne.mpr (other (by decide))]
    rfl
  rw [opening, isBlank_of_continuesName continues, isQuote_of_continuesName continues, noNumber]
  simp only [Bool.false_eq_true, ↓reduceIte, other (show startsName '#' = false by decide),
    other (show startsName '@' = false by decide), other (show startsName '-' = false by decide),
    other (show startsName '<' = false by decide), other (show startsName '\\' = false by decide),
    false_and, starts]

/-- A hyphen and a character of a name announce a name as well, as far as the hyphen sees. -/
theorem opening_hyphen_of_continues {second : Char} (continues : continuesName second = true)
    (noDigit : second.isDigit = false) (behind : List Char) :
    opening '-' (second :: behind) = .hyphen := by
  have noPoint : second ≠ '.' := by
    rintro rfl
    contradiction
  have noNumber : numberStarts ('-' :: second :: behind) = false := by
    have sign : signPart ('-' :: second :: behind) = (['-'], second :: behind) := rfl
    rw [numberStarts_eq, sign, unsignedStarts, noDigit, beq_eq_false_iff_ne.mpr noPoint]
    rfl
  exact opening_of_hyphen noNumber

theorem name_of_characters (continues : ∀ character ∈ characters, continuesName character = true)
    (ends : EndsName tail) : name (characters ++ tail) = ⟨characters, characters, tail⟩ := by
  induction characters with
  | nil =>
      cases tail with
      | nil => rw [List.nil_append, name]
      | cons first rest =>
          obtain ⟨outside, noBackslash⟩ := ends first rfl
          exact name_of_stops outside fun escape => noBackslash escape.1
  | cons first rest ih =>
      obtain ⟨continuesFirst, continues⟩ := List.forall_mem_cons.mp continues
      rw [List.cons_append, name_of_continues continuesFirst, ih continues]
      rfl

namespace IsPlainName

variable (plain : IsPlainName characters)

include plain

theorem ne_nil : characters ≠ [] := by
  rintro rfl
  rcases plain.starts with starts | ⟨_, _, _, isCons, -⟩ <;> contradiction

/-- A plain name starts a token that starts with a name. -/
theorem token_eq (tail : List Char) :
    token (characters ++ tail) = some (nameToken (characters ++ tail)) := by
  rcases plain.starts with starts | ⟨second, third, rest, rfl, noDigit, continues⟩
  · cases characters with
    | nil => contradiction
    | cons first rest =>
        rw [List.cons_append, token, opening_of_startsName starts]
        rfl
  · have continuesSecond := plain.continues second (.tail _ List.mem_cons_self)
    have seen : continuesHyphen ((second :: third :: (rest ++ tail)).drop 1) = true := by
      rw [List.drop_succ_cons, List.drop_zero, continuesHyphen, continues, Bool.true_or]
    rw [List.cons_append, List.cons_append, List.cons_append, token,
      opening_hyphen_of_continues continuesSecond noDigit, tokenOf, hyphenToken_of_name seen]

/-- A plain name in front of a parenthesis calls a function; where it is `url`, a quote has
to follow. -/
theorem token_call (behind : List Char)
    (quoted : characters.map Char.toLower = ['u', 'r', 'l'] →
      behind.head?.any isQuote = true) :
    token (characters ++ '(' :: behind) =
      some ⟨⟨.function (String.ofList characters), none⟩, characters ++ ['('], behind⟩ := by
  have ends : EndsName ('(' :: behind) := endsName_cons (by decide) (by decide) behind
  rw [plain.token_eq, nameToken_of_call (name_of_characters plain.continues ends) rfl, callToken]
  dsimp only
  by_cases isUrl : characters.map Char.toLower = ['u', 'r', 'l']
  · have quote := quoted isUrl
    cases behind with
    | nil => contradiction
    | cons first rest =>
        have quote : isQuote first = true := quote
        have visible : ¬ isBlank first = true := by
          intro blank
          simp only [isQuote, Bool.or_eq_true, beq_iff_eq] at quote
          rcases quote with rfl | rfl <;> contradiction
        rw [if_pos isUrl, List.dropWhile_cons_of_neg visible, List.head?_cons, Option.any_some,
          if_pos quote, List.takeWhile_cons_of_neg visible, fixed, Scan.after]
        simp only [List.length_nil, Nat.zero_sub, List.take_zero, List.drop_zero, List.append_nil]
  · rw [if_neg isUrl]
    simp only [fixed, Scan.after, List.take_zero, List.drop_zero, List.append_nil]

end IsPlainName

/-! ## Lower case -/

/-- Nothing changes in lower case but capital letters. -/
theorem toLower_of_not_isUpper {character : Char} (lower : character.isUpper = false) :
    character.toLower = character := by
  delta Char.toLower
  exact dif_neg (of_decide_eq_false lower)

theorem isUpper_of_isDigit {character : Char} (digit : character.isDigit = true) :
    character.isUpper = false := by
  cases upper : character.isUpper with
  | false => rfl
  | true =>
      simp only [isUpper_eq, Char.isDigit, Bool.and_eq_true, decide_eq_true_eq, ge_iff_le,
        UInt32.le_iff_toNat_le, Char.reduceVal, UInt32.reduceToNat] at digit upper
      omega

end Scan

end SelectorLang
