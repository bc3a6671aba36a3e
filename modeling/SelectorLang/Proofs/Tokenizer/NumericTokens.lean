import SelectorLang.Proofs.Number.Grammar
import SelectorLang.Proofs.Tokenizer.OneToken

/-! # Numeric tokens

A number, a percentage and a dimension start with the longest number literal that stands at their
place in the text, and have its value, the nearest one to the decimal that is written; behind it
they have nothing, a percent sign or the name of a unit (`SelectorLang.exists_readsNumber_of_mem`).
-/

namespace SelectorLang

open Scan DecimalLiteral

/-- The value of a numeric token. -/
def Token.numericValue? : Token → Option Binary64
  | number amount _ | percentage amount | dimension amount _ => some amount
  | _ => none

/-- What a numeric token has behind its literal, in front of the rest of the text. A number is
an integer when its literal has neither a point nor an exponent. -/
def Token.Closes (token : Token) (source behind rest : List Char) : Prop :=
  match token with
  | number _ kind => behind = [] ∧ (kind = .integer ↔ IsWhole source)
  | percentage _ => behind = ['%']
  | dimension _ unit => behind ≠ [] ∧ name (behind ++ rest) = ⟨unit.toList, behind, rest⟩
  | _ => False

/-- A lexeme reads the number literal in front of its place in a text. -/
structure ReadsNumber (text : List Char) (lexeme : Lexeme) (value : Binary64)
    (source behind rest : List Char) (literal : DecimalLiteral) : Prop where
  /-- The characters of the literal stand at its place, and what closes it behind them. -/
  place : text.drop lexeme.offset = source ++ (behind ++ rest)
  /-- Both are the source of the lexeme. -/
  taken : lexeme.source = String.ofList (source ++ behind)
  /-- The characters spell the literal. -/
  spells : Spells source literal
  /-- No literal at this place is longer. -/
  longest : ∀ other otherLiteral, Spells other otherLiteral → other <+: text.drop lexeme.offset →
    other.length ≤ source.length
  /-- What closes the literal is what the kind of the token says. -/
  closes : lexeme.token.Closes source behind rest
  /-- The characters are read as a literal, and as any text of a number is. -/
  read : Binary64.ofLiteral? source = some value ∧
    Binary64.ofText? (String.ofList source) = some value
  /-- The value is the nearest number to the digits of the literal times its power of ten. -/
  nearest : value = Binary64.ofRatio literal.negative
    (literal.digits * Nat.pow 10 literal.exponent.toNat) (Nat.pow 10 (-literal.exponent).toNat)

/-! ## What a numeric token takes -/

theorem Token.family_of_numericValue? {token : Token} {value : Binary64}
    (numeric : token.numericValue? = some value) :
    token.family = .other ∧ token.isAddress = false := by
  cases token <;> first | exact ⟨rfl, rfl⟩ | cases numeric

theorem numericValue?_nameToken (text : List Char) :
    (nameToken text).value.token.numericValue? = none := by
  cases numeric : (nameToken text).value.token.numericValue? with
  | none => rfl
  | some value =>
      obtain ⟨other, noAddress⟩ := Token.family_of_numericValue? numeric
      exact absurd rfl (nameToken_ne other noAddress text)

/-- Only what starts like a number is a numeric token. -/
theorem opening_of_numericValue? {first : Char} {rest : List Char} {scan : Scan Recognized}
    {value : Binary64} (found : token (first :: rest) = some scan)
    (numeric : scan.value.token.numericValue? = some value) :
    numberStarts (first :: rest) = true ∧ scan = numericToken (first :: rest) := by
  rw [token] at found
  cases announced : opening first rest <;> rw [announced] at found <;> cases found
  case number => exact ⟨opening_number announced, rfl⟩
  case blank => cases numeric
  case mark mark =>
    have single := family_of_punctuation (opening_mark announced)
    have other : mark.family = .other := (Token.family_of_numericValue? numeric).1
    rw [single] at other
    cases other
  case quote =>
    revert numeric
    dsimp only [stringToken, Scan.after, Scan.map]
    split <;> intro numeric <;> cases numeric
  case hash =>
    revert numeric
    unfold hashToken
    split <;> intro numeric <;> cases numeric
  case atSign =>
    revert numeric
    unfold atToken
    split <;> intro numeric <;> cases numeric
  case hyphen =>
    revert numeric
    unfold hyphenToken
    split
    · intro numeric
      cases numeric
    · split <;> intro numeric
      · rw [numericValue?_nameToken] at numeric
        cases numeric
      · cases numeric
  case markup => cases numeric
  case name =>
    rw [numericValue?_nameToken] at numeric
    cases numeric
  case symbol =>
    revert numeric
    unfold symbolToken
    split <;> intro numeric <;> cases numeric

/-- A numeric token takes its literal and what closes it. -/
theorem exists_closes_numericToken {text : List Char} {literal : DecimalLiteral}
    (spells : Spells (numberLiteral text).source literal) :
    ∃ behind rest, text = (numberLiteral text).source ++ (behind ++ rest) ∧
      (numericToken text).source = (numberLiteral text).source ++ behind ∧
        (numericToken text).value.token.Closes (numberLiteral text).source behind rest ∧
          (numericToken text).value.token.numericValue? = some literal.value := by
  have covers : (numberLiteral text).source ++ (numberLiteral text).rest = text :=
    numberLiteral_covers text
  have whole := numberLiteral_value_eq_integer_iff text
  have value : (Binary64.ofLiteral? (numberLiteral text).source).getD (Binary64.zero false) =
      literal.value := by
    rw [Binary64.ofLiteral?, ofChars?_of_spells spells, Option.map_some, Option.getD_some]
  cases starts : nameStarts (numberLiteral text).rest with
  | true =>
      have unit : (name (numberLiteral text).rest).source ++
          (name (numberLiteral text).rest).rest = (numberLiteral text).rest := name_covers _
      have nonempty := name_source_ne_nil_of_starts starts
      rw [numericToken_of_unit rfl starts, value]
      refine ⟨(name (numberLiteral text).rest).source, (name (numberLiteral text).rest).rest, ?_,
        rfl, ⟨nonempty, ?_⟩, rfl⟩
      · rw [unit, covers]
      · rw [unit, String.toList_ofList]
  | false =>
      by_cases percent : (numberLiteral text).rest.head? = some '%'
      · obtain ⟨rest, isPercent⟩ := List.head?_eq_some_iff.mp percent
        rw [numericToken_of_percent rfl starts percent, value]
        refine ⟨['%'], rest, ?_, ?_, rfl, rfl⟩
        · rw [List.singleton_append, ← isPercent, covers]
        · rw [isPercent]
          rfl
      · rw [numericToken_of_number rfl starts percent, value]
        exact ⟨[], (numberLiteral text).rest, covers.symm, (List.append_nil _).symm,
          ⟨rfl, whole⟩, rfl⟩

/-- **Numeric tokens read the longest number literal** at their place. It is always one that can
be read, so that the token has its value. -/
theorem exists_readsNumber_of_mem {text : String} {lexemes : List Lexeme} {lexeme : Lexeme}
    {value : Binary64} (cut : tokenize text = .ok lexemes) (member : lexeme ∈ lexemes)
    (numeric : lexeme.token.numericValue? = some value) :
    ∃ source behind rest literal,
      ReadsNumber text.toList lexeme value source behind rest literal := by
  obtain ⟨-, rfl⟩ := tokenize_eq_ok_iff.mp cut
  have notEnd : lexeme.token ≠ .endOfText := by
    intro isEnd
    rw [isEnd] at numeric
    cases numeric
  obtain ⟨front, first, left, scan, isText, stands, -, found, token, source⟩ :=
    Run.exists_place_of_mem 0 text.toList lexeme member notEnd
  rw [token] at numeric
  obtain ⟨starts, rfl⟩ := opening_of_numericValue? found numeric
  have place : text.toList.drop lexeme.offset = first :: left := by
    rw [isText, stands, Nat.zero_add, List.drop_left]
  obtain ⟨literal, spells⟩ := exists_spells_numberLiteral starts
  obtain ⟨behind, rest, whole, taken, closes, same⟩ := exists_closes_numericToken spells
  have isValue : literal.value = value := Option.some.inj (same.symm.trans numeric)
  refine ⟨_, behind, rest, literal, place.trans whole, source.trans (congrArg _ taken), spells, ?_,
    token ▸ closes, ⟨?_, ?_⟩, ?_⟩
  · rintro other otherLiteral otherSpells isFront
    rw [place] at isFront
    obtain ⟨after, isFront⟩ := isFront
    exact isFront ▸ length_le_numberLiteral otherSpells after
  · rw [Binary64.ofLiteral?, ofChars?_of_spells spells, Option.map_some, isValue]
  · rw [Binary64.ofText?_of_spells spells, isValue]
  · rw [← isValue, literal.value_eq_ofRatio]

/-- A number with a fraction, a power of ten and a unit that looks like another power. -/
def dimensionBehindComment : List Lexeme :=
  [⟨.ident "a", "a", 0⟩, ⟨.dimension (.ofRatio false 5 100) "e+", "+.5e-1e\\+", 5⟩,
    Lexeme.endAt 14]

theorem dimensionBehindComment_readsNumber :
    tokenize "a/**/+.5e-1e\\+" = .ok dimensionBehindComment ∧
      ∃ source behind rest literal,
        ReadsNumber "a/**/+.5e-1e\\+".toList
          ⟨.dimension (.ofRatio false 5 100) "e+", "+.5e-1e\\+", 5⟩ (.ofRatio false 5 100)
          source behind rest literal := by
  have cut : tokenize "a/**/+.5e-1e\\+" = .ok dimensionBehindComment :=
    tokenize_eq_ok_iff.mpr (by decide +kernel)
  exact ⟨cut, exists_readsNumber_of_mem cut (.tail _ List.mem_cons_self) rfl⟩

end SelectorLang
