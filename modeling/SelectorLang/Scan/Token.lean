import SelectorLang.Number.Literal
import SelectorLang.Scan.Address
import SelectorLang.Scan.NumberLiteral

/-! # One token

The token at the front of a text, chosen by its first character and at most three
more. Only a backslash in front of a line feed starts no token. A string or an
address that the end of the text cuts off is a token all the same, and is told apart
for a warning. The scan covers the text (`token_covers`) and takes at least one
character where there is one (`token_source_ne_nil`).
-/

namespace SelectorLang

/-- The constructs that the end of the text may cut off. -/
inductive CutOff where
  /-- A quoted string. -/
  | string
  /-- An unquoted address. -/
  | address
deriving DecidableEq, Repr

/-- A token, and whether it was cut off by the end of the text. -/
structure Recognized where
  /-- The token. -/
  token : Token
  /-- What it is the front of, if it was cut off. -/
  cutOff : Option CutOff
deriving DecidableEq

namespace Scan

open CodePoint

/-- A token of a fixed number of characters at the front of a text. -/
def fixed (token : Token) (length : Nat) (text : List Char) : Scan Recognized :=
  ⟨⟨token, none⟩, text.take length, text.drop length⟩

/-- The brackets and separators, each a token of its own. -/
def punctuation? : Char → Option Token
  | '(' => some .openParen
  | ')' => some .closeParen
  | '[' => some .openBracket
  | ']' => some .closeBracket
  | '\x7b' => some .openBrace
  | '\x7d' => some .closeBrace
  | ',' => some .comma
  | ':' => some .colon
  | ';' => some .semicolon
  | _ => none

/-- The comparison that a character makes with an equals sign behind it. -/
def matchOperator? : Char → Option MatchOperator
  | '~' => some .includes
  | '|' => some .dash
  | '^' => some .starts
  | '$' => some .ends
  | '*' => some .substring
  | _ => none

/-- The string token that a quote opens. -/
def stringToken (quote : Char) (rest : List Char) : Scan Recognized :=
  ((quotedString quote rest).map fun body =>
    match body.ending with
    | .closed => ⟨.string (String.ofList body.characters), none⟩
    | .cutOff => ⟨.string (String.ofList body.characters), some .string⟩
    | .broken => ⟨.badString, none⟩).after [quote]

/-- The address token, from the first blank or character of the address on. -/
def addressToken (text : List Char) : Scan Recognized :=
  ((address (text.dropWhile isBlank)).map fun body =>
    match body.ending with
    | .closed => ⟨.url (String.ofList body.characters), none⟩
    | .cutOff => ⟨.url (String.ofList body.characters), some .address⟩
    | .broken => ⟨.badUrl, none⟩).after (text.takeWhile isBlank)

/-- What a name opens with a parenthesis. The name `url` opens an address unless a
quote follows; in that case all blanks but the last one in front of the quote
belong to the function token. -/
def callToken (name : List Char) (rest : List Char) : Scan Recognized :=
  let function : Token := .function (String.ofList name)
  if name.map Char.toLower = ['u', 'r', 'l'] then
    if (rest.dropWhile isBlank).head?.any isQuote then
      fixed function ((rest.takeWhile isBlank).length - 1) rest
    else
      addressToken rest
  else
    fixed function 0 rest

/-- The token that starts with a name. -/
def nameToken (text : List Char) : Scan Recognized :=
  let name := Scan.name text
  match name.rest with
  | '(' :: rest => (callToken name.value rest).after (name.source ++ ['('])
  | _ => name.map fun characters => ⟨.ident (String.ofList characters), none⟩

/-- The token that starts with a number: a unit or a percent sign may follow. -/
def numericToken (text : List Char) : Scan Recognized :=
  let literal := numberLiteral text
  let value := (Binary64.ofLiteral? literal.source).getD (Binary64.zero false)
  if nameStarts literal.rest then
    ((name literal.rest).map fun unit =>
      ⟨.dimension value (String.ofList unit), none⟩).after literal.source
  else if literal.rest.head? = some '%' then
    (fixed (.percentage value) 1 literal.rest).after literal.source
  else
    literal.map fun kind => ⟨.number value kind, none⟩

/-- The token that a number sign starts. -/
def hashToken (sign : Char) (rest : List Char) : Scan Recognized :=
  if rest.head?.any continuesName ∨ rest.head? = some '\\' ∧ escapes (rest.drop 1) then
    let kind : HashKind := if nameStarts rest then .id else .unrestricted
    ((name rest).map fun characters => ⟨.hash (String.ofList characters) kind, none⟩).after [sign]
  else
    fixed (.delim sign) 1 (sign :: rest)

/-- The token that a commercial at starts. -/
def atToken (sign : Char) (rest : List Char) : Scan Recognized :=
  if nameStarts rest then
    ((name rest).map fun characters => ⟨.atKeyword (String.ofList characters), none⟩).after [sign]
  else
    fixed (.delim sign) 1 (sign :: rest)

/-- The token that a hyphen starts where no number does. Whether it is a name is
decided by what stands behind the next character. -/
def hyphenToken (hyphen : Char) (rest : List Char) : Scan Recognized :=
  if rest.take 2 = ['-', '>'] then fixed .commentClose 3 (hyphen :: rest)
  else if rest ≠ [] ∧ continuesHyphen (rest.drop 1) then nameToken (hyphen :: rest)
  else fixed (.delim hyphen) 1 (hyphen :: rest)

/-- The token that any other character starts: a comparison with an equals sign, a
column, or the character alone. -/
def symbolToken (first : Char) (rest : List Char) : Scan Recognized :=
  match matchOperator? first, rest.head? with
  | some operator, some '=' => fixed (.matchOperator operator) 2 (first :: rest)
  | some .dash, some '|' => fixed .column 2 (first :: rest)
  | _, _ => fixed (.delim first) 1 (first :: rest)

/-- What the characters at the front of a text announce. -/
inductive Opening where
  /-- A run of blanks. -/
  | blank
  /-- A bracket or separator. -/
  | mark (token : Token)
  /-- A quoted string. -/
  | quote
  /-- A number, with or without a unit. -/
  | number
  /-- A number sign. -/
  | hash
  /-- A commercial at. -/
  | atSign
  /-- A hyphen that starts no number. -/
  | hyphen
  /-- The start of a markup comment. -/
  | markup
  /-- A name, with or without a parenthesis. -/
  | name
  /-- A backslash that does not escape. -/
  | strayBackslash
  /-- Any other character. -/
  | symbol
deriving DecidableEq

/-- What a text announces by its first character and those behind it. -/
def opening (first : Char) (rest : List Char) : Opening :=
  if isBlank first then .blank
  else if isQuote first then .quote
  else if numberStarts (first :: rest) then .number
  else if first = '#' then .hash
  else if first = '@' then .atSign
  else if first = '-' then .hyphen
  else if first = '<' ∧ rest.take 3 = ['!', '-', '-'] then .markup
  else if first = '\\' then if escapes rest then .name else .strayBackslash
  else if startsName first then .name
  else match punctuation? first with
    | some mark => .mark mark
    | none => .symbol

/-- The token that an opening announces. -/
def tokenOf (first : Char) (rest : List Char) : Opening → Option (Scan Recognized)
  | .blank => some (fixed .whitespace ((rest.takeWhile isBlank).length + 1) (first :: rest))
  | .mark token => some (fixed token 1 (first :: rest))
  | .quote => some (stringToken first rest)
  | .number => some (numericToken (first :: rest))
  | .hash => some (hashToken first rest)
  | .atSign => some (atToken first rest)
  | .hyphen => some (hyphenToken first rest)
  | .markup => some (fixed .commentOpen 4 (first :: rest))
  | .name => some (nameToken (first :: rest))
  | .strayBackslash => none
  | .symbol => some (symbolToken first rest)

/-- The token at the front of a text; none where a backslash does not escape. -/
def token : List Char → Option (Scan Recognized)
  | [] => some (fixed .endOfText 0 [])
  | first :: rest => tokenOf first rest (opening first rest)

/-! ## The scans cover their texts -/

theorem fixed_covers (token : Token) (length : Nat) (text : List Char) :
    (fixed token length text).Covers text :=
  List.take_append_drop length text

theorem stringToken_covers (quote : Char) (rest : List Char) :
    (stringToken quote rest).Covers (quote :: rest) :=
  ((quotedString_covers quote rest).map _).after [quote]

theorem addressToken_covers (text : List Char) : (addressToken text).Covers text := by
  have whole := ((address_covers (text.dropWhile isBlank)).map fun body =>
    match body.ending with
    | .closed => (⟨.url (String.ofList body.characters), none⟩ : Recognized)
    | .cutOff => ⟨.url (String.ofList body.characters), some .address⟩
    | .broken => ⟨.badUrl, none⟩).after (text.takeWhile isBlank)
  rwa [List.takeWhile_append_dropWhile] at whole

theorem callToken_covers (name rest : List Char) : (callToken name rest).Covers rest := by
  unfold callToken
  dsimp only
  split
  · split
    · exact fixed_covers _ _ _
    · exact addressToken_covers rest
  · exact fixed_covers _ _ _

theorem nameToken_covers (text : List Char) : (nameToken text).Covers text := by
  have whole := name_covers text
  unfold nameToken
  dsimp only
  split
  · rename_i rest opened
    have called := (callToken_covers (name text).value rest).after ((name text).source ++ ['('])
    unfold Covers at whole
    rwa [List.append_assoc, List.singleton_append, ← opened, whole] at called
  · exact whole.map _

theorem numericToken_covers (text : List Char) : (numericToken text).Covers text := by
  have whole := numberLiteral_covers text
  have front := whole
  unfold Covers at front
  unfold numericToken
  dsimp only
  split
  · have withUnit := ((name_covers (numberLiteral text).rest).map fun unit =>
      (⟨.dimension ((Binary64.ofLiteral? (numberLiteral text).source).getD (Binary64.zero false))
        (String.ofList unit), none⟩ : Recognized)).after (numberLiteral text).source
    rwa [front] at withUnit
  · split
    · have withSign := (fixed_covers (.percentage
        ((Binary64.ofLiteral? (numberLiteral text).source).getD (Binary64.zero false)))
        1 (numberLiteral text).rest).after (numberLiteral text).source
      rwa [front] at withSign
    · exact whole.map _

theorem hashToken_covers (sign : Char) (rest : List Char) :
    (hashToken sign rest).Covers (sign :: rest) := by
  unfold hashToken
  split
  · exact ((name_covers rest).map _).after [sign]
  · exact fixed_covers _ _ _

theorem atToken_covers (sign : Char) (rest : List Char) :
    (atToken sign rest).Covers (sign :: rest) := by
  unfold atToken
  split
  · exact ((name_covers rest).map _).after [sign]
  · exact fixed_covers _ _ _

theorem hyphenToken_covers (hyphen : Char) (rest : List Char) :
    (hyphenToken hyphen rest).Covers (hyphen :: rest) := by
  unfold hyphenToken
  split
  · exact fixed_covers _ _ _
  · split
    · exact nameToken_covers _
    · exact fixed_covers _ _ _

theorem symbolToken_covers (first : Char) (rest : List Char) :
    (symbolToken first rest).Covers (first :: rest) := by
  unfold symbolToken
  split <;> exact fixed_covers _ _ _

/-- Whatever is announced, the scan covers the text. -/
theorem tokenOf_covers {first : Char} {rest : List Char} {announced : Opening}
    {scan : Scan Recognized} (found : tokenOf first rest announced = some scan) :
    scan.Covers (first :: rest) := by
  cases announced <;> simp only [tokenOf, Option.some.injEq, reduceCtorEq] at found <;>
    subst found
  · exact fixed_covers _ _ _
  · exact fixed_covers _ _ _
  · exact stringToken_covers first rest
  · exact numericToken_covers _
  · exact hashToken_covers first rest
  · exact atToken_covers first rest
  · exact hyphenToken_covers first rest
  · exact fixed_covers _ _ _
  · exact nameToken_covers _
  · exact symbolToken_covers first rest

/-- The characters of a token and those behind it are the text. -/
theorem token_covers {text : List Char} {scan : Scan Recognized} (found : token text = some scan) :
    scan.Covers text := by
  cases text with
  | nil =>
    cases found
    rfl
  | cons first rest => exact tokenOf_covers found

/-! ## A token takes at least one character -/

theorem name_source_ne_nil {first : Char} {rest : List Char}
    (starts : continuesName first = true ∨ first = '\\' ∧ escapes rest = true) :
    (name (first :: rest)).source ≠ [] := by
  rw [name]
  split
  · simp [after]
  · rename_i notName
    rw [if_pos (starts.resolve_left notName)]
    simp [after]

theorem nameToken_source_ne_nil {first : Char} {rest : List Char}
    (starts : continuesName first = true ∨ first = '\\' ∧ escapes rest = true) :
    (nameToken (first :: rest)).source ≠ [] := by
  unfold nameToken
  dsimp only
  split
  · simp [after]
  · exact name_source_ne_nil starts

theorem numberLiteral_source_ne_nil {text : List Char} (starts : numberStarts text = true) :
    (numberLiteral text).source ≠ [] := by
  intro empty
  simp only [numberLiteral, List.append_eq_nil_iff] at empty
  obtain ⟨⟨⟨noSign, noDigits⟩, noFraction⟩, -⟩ := empty
  simp only [numberStarts] at starts
  split at starts
  · contradiction
  · rename_i first rest afterSign
    simp only [Bool.or_eq_true, Bool.and_eq_true, beq_iff_eq] at starts
    rw [afterSign] at noDigits noFraction
    rcases starts with digit | ⟨point, digit⟩
    · simp [digitsPart, digit] at noDigits
    · subst point
      simp [digitsPart, fractionPart, digit, Char.isDigit] at noFraction

theorem numericToken_source_ne_nil {text : List Char} (starts : numberStarts text = true) :
    (numericToken text).source ≠ [] := by
  have literal := numberLiteral_source_ne_nil starts
  unfold numericToken
  dsimp only
  split
  · simp [after, literal]
  · split
    · simp [after, literal]
    · exact literal

theorem opening_number {first : Char} {rest : List Char}
    (announced : opening first rest = .number) : numberStarts (first :: rest) = true := by
  unfold opening at announced
  repeat' split at announced
  all_goals first | assumption | contradiction

theorem opening_hyphen {first : Char} {rest : List Char}
    (announced : opening first rest = .hyphen) : first = '-' := by
  unfold opening at announced
  repeat' split at announced
  all_goals first | assumption | contradiction

theorem opening_name {first : Char} {rest : List Char} (announced : opening first rest = .name) :
    startsName first = true ∨ first = '\\' ∧ escapes rest = true := by
  unfold opening at announced
  repeat' split at announced
  all_goals first
    | contradiction
    | exact Or.inr ⟨‹_›, ‹_›⟩
    | exact Or.inl ‹_›

/-- A token at the front of a text that is not empty takes at least one character. -/
theorem token_source_ne_nil {first : Char} {rest : List Char} {scan : Scan Recognized}
    (found : token (first :: rest) = some scan) : scan.source ≠ [] := by
  simp only [token] at found
  cases announced : opening first rest <;> rw [announced] at found <;>
    simp only [tokenOf, Option.some.injEq, reduceCtorEq] at found <;> subst found
  · simp [fixed]
  · simp [fixed]
  · simp [stringToken, after]
  · exact numericToken_source_ne_nil (opening_number announced)
  · unfold hashToken
    split <;> simp [after, fixed]
  · unfold atToken
    split <;> simp [after, fixed]
  · unfold hyphenToken
    split
    · simp [fixed]
    · split
      · refine nameToken_source_ne_nil (Or.inl ?_)
        rw [opening_hyphen announced]
        decide
      · simp [fixed]
  · simp [fixed]
  · exact nameToken_source_ne_nil
      ((opening_name announced).imp_left continuesName_of_startsName)
  · unfold symbolToken
    split <;> simp [fixed]

/-- Behind a token the text is shorter. -/
theorem token_length_rest_lt {first : Char} {rest : List Char} {scan : Scan Recognized}
    (found : token (first :: rest) = some scan) :
    scan.rest.length < (first :: rest).length := by
  have whole := token_covers found
  have taken := List.length_pos_iff.mpr (token_source_ne_nil found)
  rw [← whole, List.length_append]
  omega

end Scan

end SelectorLang
