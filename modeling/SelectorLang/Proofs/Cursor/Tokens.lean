import SelectorLang.Proofs.Cursor.Readings
import SelectorLang.Proofs.Scan.PlainName
import SelectorLang.Proofs.Tokenizer.Comments

/-! # Reading a token from a cursor

A token is read by its first character, which is consumed, and by those that the cursor
sees behind it; a name or a number puts that character back and reads it again. Each token is
the one that the scan of the text from the cursor on gives (`SelectorLang.Cursor.token_eq`), so
that none depends on what stands in front of the cursor. The same holds of the comments in
front of a token (`SelectorLang.Cursor.comments_eq`).
-/

namespace SelectorLang.Cursor

open CodePoint

variable (cursor : Cursor)

/-! ## Looking ahead -/

/-- Whether a name starts with a character, given what the cursor sees behind the place of
that character. -/
def startsNameWith : Option Char → Bool
  | some first =>
    if first = '-' then
      (cursor.peekAt 1).any startsName || cursor.peekAt 1 == some '-' ||
        isEscape (cursor.peekAt 1) (cursor.peekAt 2)
    else if first = '\\' then isEscape (some '\\') (cursor.peekAt 1)
    else startsName first
  | none => false

/-- Whether a number starts with a character that was consumed. -/
def startsNumberWith (first : Char) : Bool :=
  if Scan.isSign first then
    (cursor.peekAt 0).any Char.isDigit ||
      (cursor.peek == some '.' && (cursor.peekAt 1).any Char.isDigit)
  else if first = '.' then (cursor.peekAt 0).any Char.isDigit
  else first.isDigit

/-- Behind a hyphen the second character from the place on and the third are looked at. -/
theorem startsNameWith_hyphen :
    cursor.startsNameWith (some '-') = Scan.continuesHyphen (cursor.left.drop 1) := by
  rw [startsNameWith, if_pos rfl, peekAt_eq, peekAt_eq]
  cases cursor.left with
  | nil => rfl
  | cons first rest =>
      cases rest with
      | nil => rfl
      | cons second rest =>
          cases rest <;> rfl

theorem startsNameWith_peek :
    cursor.startsNameWith cursor.peek = Scan.nameStarts cursor.left := by
  cases ahead : cursor.left with
  | nil => rw [peek_eq, ahead]; rfl
  | cons first rest =>
      rw [peek_of_left_eq_cons ahead, Scan.nameStarts]
      by_cases hyphen : first = '-'
      · rw [if_pos hyphen, hyphen, startsNameWith_hyphen, ahead, List.drop_one, List.tail_cons]
      · rw [startsNameWith, if_neg hyphen, if_neg hyphen, peekAt_one ahead]
        by_cases backslash : first = '\\'
        · rw [if_pos backslash, backslash]
          rfl
        · rw [if_neg backslash, beq_eq_false_iff_ne.mpr backslash, Bool.false_and, Bool.or_false]

theorem startsNumberWith_eq (first : Char) :
    cursor.startsNumberWith first = Scan.numberStarts (first :: cursor.left) := by
  rw [Scan.numberStarts_eq, Scan.signPart, startsNumberWith, peek, peekAt_eq, peekAt_eq]
  cases signed : Scan.isSign first with
  | true =>
      rw [if_pos rfl, Scan.takeRun_cons 0 signed, Scan.takeRun_zero]
      cases cursor.left with
      | nil => rfl
      | cons second rest => cases rest <;> rfl
  | false =>
      rw [if_neg Bool.false_ne_true, Scan.takeRun_of_head 1 (by simpa using signed)]
      by_cases point : first = '.'
      · rw [if_pos point, point, ← List.head?_eq_getElem?]
        rfl
      · rw [if_neg point, Scan.unsignedStarts, beq_eq_false_iff_ne.mpr point, Bool.false_and,
          Bool.or_false]

/-! ## Numbers, strings and addresses -/

/-- A token of a fixed number of characters is a move over them. -/
theorem through_fixed (token : Token) (length : Nat) :
    cursor.through (Scan.fixed token length cursor.left) =
      (⟨token, none⟩, cursor.skip length) := by
  refine congrArg (Prod.mk _) (Cursor.ext rfl ?_)
  have inside := cursor.inside
  simp only [Scan.fixed, skip, List.length_take, length_left]
  omega

/-- The token that starts with a number. -/
def numericToken : Recognized × Cursor :=
  let number := cursor.number
  let value := (Binary64.ofLiteral? number.1.2).getD (Binary64.zero false)
  if number.2.startsNameWith number.2.peek then
    let unit := number.2.name
    (⟨.dimension value (String.ofList unit.1), none⟩, unit.2)
  else if number.2.peek = some '%' then (⟨.percentage value, none⟩, number.2.skip 1)
  else (⟨.number value number.1.1, none⟩, number.2)

theorem numericToken_eq : cursor.numericToken = cursor.through (Scan.numericToken cursor.left) := by
  have covers := Scan.numberLiteral_covers cursor.left
  have behind : (cursor.skip (Scan.numberLiteral cursor.left).source.length).left =
      (Scan.numberLiteral cursor.left).rest := left_through cursor covers
  unfold numericToken Scan.numericToken
  rw [number_eq]
  dsimp only
  rw [startsNameWith_peek, behind, peek_eq, behind]
  split
  · rw [through_after, through_map, name_eq, behind]
  · split
    · rw [through_after, ← behind, through_fixed]
    · rfl

/-- The token behind an opening quote. -/
def stringToken (quote : Char) : Recognized × Cursor :=
  let body := cursor.quotedString quote
  (match body.1.ending with
    | .closed => ⟨.string (String.ofList body.1.characters), none⟩
    | .cutOff => ⟨.string (String.ofList body.1.characters), some .string⟩
    | .broken => ⟨.badString, none⟩, body.2)

theorem stringToken_eq (quote : Char) {rest : List Char} (ahead : cursor.left = quote :: rest) :
    (cursor.skip 1).stringToken quote = cursor.through (Scan.stringToken quote rest) := by
  rw [stringToken, quotedString_eq, left_skip_one ahead, Scan.stringToken, through_after_cons,
    List.length_nil, skip_zero]
  rfl

/-- The token of an address from the first blank or character of the address on. -/
def addressToken : Recognized × Cursor :=
  let body := (cursor.takeWhile isBlank).2.address
  (match body.1.ending with
    | .closed => ⟨.url (String.ofList body.1.characters), none⟩
    | .cutOff => ⟨.url (String.ofList body.1.characters), some .address⟩
    | .broken => ⟨.badUrl, none⟩, body.2)

theorem addressToken_eq :
    cursor.addressToken = cursor.through (Scan.addressToken cursor.left) := by
  rw [addressToken, address_eq, left_takeWhile, takeWhile_eq, Scan.addressToken, through_after]
  rfl

/-! ## Names -/

/-- Moves over blanks up to the last of them. -/
def lastBlank (cursor : Cursor) : Cursor :=
  if _blanks : cursor.peek.any isBlank ∧ (cursor.peekAt 1).any isBlank then
    (cursor.skip 1).lastBlank
  else
    cursor
termination_by cursor.left.length
decreasing_by
  obtain ⟨blank, seen, -⟩ := Option.any_eq_true _ _ |>.mp _blanks.1
  exact cursor.length_left_skip_lt seen Nat.one_pos

/-- Whether a quote stands at the place, or behind one blank. -/
def quoteFollows : Bool :=
  cursor.peek.any Scan.isQuote || (cursor.peek.any isBlank && (cursor.peekAt 1).any Scan.isQuote)

theorem takeWhile_of_head {member : Char → Bool} {text : List Char}
    (stops : text.head?.any member = false) :
    text.takeWhile member = [] ∧ text.dropWhile member = text := by
  cases text with
  | nil => exact ⟨rfl, rfl⟩
  | cons first rest =>
      have outside : ¬ member first = true := Bool.eq_false_iff.mp stops
      exact ⟨List.takeWhile_cons_of_neg outside, List.dropWhile_cons_of_neg outside⟩

theorem isQuote_of_isBlank {character : Char} (blank : isBlank character = true) :
    Scan.isQuote character = false := by
  simp only [isBlank, Bool.or_eq_true, beq_iff_eq] at blank
  rcases blank with (((rfl | rfl) | rfl) | rfl) | rfl <;> rfl

variable {cursor}

theorem left_eq_of_blanks (blanks : cursor.peek.any isBlank ∧ (cursor.peekAt 1).any isBlank) :
    ∃ blank, isBlank blank = true ∧ cursor.left = blank :: (cursor.skip 1).left ∧
      ((cursor.skip 1).left.takeWhile isBlank) ≠ [] := by
  obtain ⟨blank, seen, isBlank⟩ := Option.any_eq_true _ _ |>.mp blanks.1
  have ahead := left_eq_of_peek seen
  obtain ⟨second, found, more⟩ := Option.any_eq_true _ _ |>.mp (peekAt_one ahead ▸ blanks.2)
  refine ⟨blank, isBlank, ahead, ?_⟩
  obtain ⟨rest, same⟩ := List.head?_eq_some_iff.mp found
  rw [same, List.takeWhile_cons_of_pos more]
  exact List.cons_ne_nil _ _

/-- Where no second blank follows, at most one blank stands in front. -/
theorem left_eq_of_noBlanks
    (noBlanks : ¬ (cursor.peek.any isBlank ∧ (cursor.peekAt 1).any isBlank)) :
    cursor.left.head?.any isBlank = false ∨
      ∃ blank rest, isBlank blank = true ∧ cursor.left = blank :: rest ∧
        rest.head?.any isBlank = false := by
  cases front : cursor.left.head?.any isBlank with
  | false => exact Or.inl rfl
  | true =>
      obtain ⟨blank, found, isBlank⟩ := Option.any_eq_true _ _ |>.mp front
      obtain ⟨rest, ahead⟩ := List.head?_eq_some_iff.mp found
      refine Or.inr ⟨blank, rest, isBlank, ahead, ?_⟩
      rw [peek_eq, peekAt_one ahead] at noBlanks
      exact Bool.eq_false_iff.mpr fun more => noBlanks ⟨front, more⟩

variable (cursor)

theorem lastBlank_eq :
    cursor.lastBlank = cursor.skip ((cursor.left.takeWhile isBlank).length - 1) := by
  fun_induction lastBlank cursor with
  | case1 cursor blanks ih =>
    obtain ⟨blank, isBlank, ahead, more⟩ := left_eq_of_blanks blanks
    have length := List.length_pos_iff.mpr more
    rw [ih, ahead, List.takeWhile_cons_of_pos isBlank, List.length_cons, skip_skip]
    exact congrArg cursor.skip (by omega)
  | case2 cursor noBlanks =>
    rcases left_eq_of_noBlanks noBlanks with none | ⟨blank, rest, isBlank, ahead, none⟩
    · rw [(takeWhile_of_head none).1, List.length_nil, Nat.zero_sub, skip_zero]
    · rw [ahead, List.takeWhile_cons_of_pos isBlank, (takeWhile_of_head none).1,
        List.length_singleton, Nat.sub_self, skip_zero]

/-- All blanks are passed over from the last of them as from the first. -/
theorem takeWhile_lastBlank :
    (cursor.lastBlank.takeWhile isBlank).2 = (cursor.takeWhile isBlank).2 := by
  fun_induction lastBlank cursor with
  | case1 cursor blanks ih =>
    obtain ⟨blank, isBlank, ahead, -⟩ := left_eq_of_blanks blanks
    rw [ih, takeWhile_eq, takeWhile_eq, ahead, List.takeWhile_cons_of_pos isBlank, past_cons]
    rfl
  | case2 cursor noBlanks => rfl

theorem quoteFollows_lastBlank :
    cursor.lastBlank.quoteFollows = (cursor.left.dropWhile isBlank).head?.any Scan.isQuote := by
  fun_induction lastBlank cursor with
  | case1 cursor blanks ih =>
    obtain ⟨blank, isBlank, ahead, -⟩ := left_eq_of_blanks blanks
    rw [ih, ahead, List.dropWhile_cons_of_pos isBlank]
  | case2 cursor noBlanks =>
    rcases left_eq_of_noBlanks noBlanks with none | ⟨blank, rest, isBlank, ahead, none⟩
    · rw [(takeWhile_of_head none).2, quoteFollows, peek_eq, none, Bool.false_and, Bool.or_false]
    · rw [ahead, List.dropWhile_cons_of_pos isBlank, (takeWhile_of_head none).2, quoteFollows,
        peek_of_left_eq_cons ahead, peekAt_one ahead, Option.any_some, Option.any_some, isBlank,
        isQuote_of_isBlank isBlank, Bool.false_or, Bool.true_and]

/-- What a name opens, from behind its parenthesis on. -/
def callToken (name : List Char) : Recognized × Cursor :=
  if name.map Char.toLower = ['u', 'r', 'l'] then
    if cursor.lastBlank.quoteFollows then
      (⟨.function (String.ofList name), none⟩, cursor.lastBlank)
    else
      cursor.lastBlank.addressToken
  else
    (⟨.function (String.ofList name), none⟩, cursor)

theorem callToken_eq (name : List Char) :
    cursor.callToken name = cursor.through (Scan.callToken name cursor.left) := by
  unfold callToken Scan.callToken
  dsimp only
  rw [quoteFollows_lastBlank]
  split
  · split
    · rw [through_fixed, lastBlank_eq]
    · rw [← addressToken_eq, addressToken, addressToken, takeWhile_lastBlank]
  · rw [through_fixed, skip_zero]

/-- The token that starts with a name. -/
def nameToken : Recognized × Cursor :=
  let name := cursor.name
  if name.2.peek = some '(' then (name.2.skip 1).callToken name.1
  else (⟨.ident (String.ofList name.1), none⟩, name.2)

/-- **A token that starts with a name**, read from a cursor, is that at the front of what is
left. -/
theorem nameToken_eq : cursor.nameToken = cursor.through (Scan.nameToken cursor.left) := by
  have behind : cursor.name.2.left = (Scan.name cursor.left).rest := by
    rw [name_eq, left_through cursor (Scan.name_covers cursor.left)]
  unfold nameToken
  dsimp only
  rw [peek_eq, behind]
  cases opens : (Scan.name cursor.left).rest with
  | nil =>
      rw [if_neg (by simp), Scan.nameToken_of_name rfl (by simp [opens]), name_eq]
      rfl
  | cons first rest =>
      by_cases call : first = '('
      · subst call
        rw [opens] at behind
        rw [if_pos List.head?_cons, Scan.nameToken_of_call rfl opens, callToken_eq,
          left_skip_one behind, name_eq, through_after, List.length_append, List.length_singleton,
          ← skip_skip]
        rfl
      · rw [if_neg (by simpa using call), Scan.nameToken_of_name rfl (by simpa [opens] using call),
          name_eq]
        rfl

/-! ## Tokens -/

/-- The token that a comparison may be, from behind its first character on. -/
def comparison (first : Char) (operator : MatchOperator) : Recognized × Cursor :=
  if cursor.peek = some '=' then (⟨.matchOperator operator, none⟩, cursor.skip 1)
  else if first = '|' ∧ cursor.peek = some '|' then (⟨.column, none⟩, cursor.skip 1)
  else (⟨.delim first, none⟩, cursor)

/-- A token that was read, where one was. -/
def recognized (reading : Recognized × Cursor) : Option Recognized × Cursor :=
  (some reading.1, reading.2)

/-- The token from its first character on, the cursor behind that character; none where a
backslash does not escape. -/
def tokenBehind (first : Char) : Option Recognized × Cursor :=
  if isBlank first then recognized (⟨.whitespace, none⟩, (cursor.takeWhile isBlank).2)
  else match Scan.punctuation? first with
  | some mark => recognized (⟨mark, none⟩, cursor)
  | none =>
  if Scan.isQuote first then recognized (cursor.stringToken first)
  else if first = '#' ∧
      (cursor.peek.any continuesName ∨ isEscape cursor.peek (cursor.peekAt 1)) then
    let kind : HashKind := if cursor.startsNameWith cursor.peek then .id else .unrestricted
    let name := cursor.name
    recognized (⟨.hash (String.ofList name.1) kind, none⟩, name.2)
  else if (first = '+' ∨ first = '.') ∧ cursor.startsNumberWith first then
    recognized cursor.reconsume.numericToken
  else if first = '-' ∧ cursor.startsNumberWith '-' then recognized cursor.reconsume.numericToken
  else if first = '-' ∧ cursor.peek = some '-' ∧ cursor.peekAt 1 = some '>' then
    recognized (⟨.commentClose, none⟩, cursor.skip 2)
  else if first = '-' ∧ cursor.startsNameWith (some '-') then recognized cursor.reconsume.nameToken
  else if first = '<' ∧ cursor.peek = some '!' ∧ cursor.peekAt 1 = some '-' ∧
      cursor.peekAt 2 = some '-' then
    recognized (⟨.commentOpen, none⟩, cursor.skip 3)
  else if first = '@' ∧ cursor.startsNameWith cursor.peek then
    let name := cursor.name
    recognized (⟨.atKeyword (String.ofList name.1), none⟩, name.2)
  else if first = '\\' ∧ isEscape (some '\\') cursor.peek then
    recognized cursor.reconsume.nameToken
  else if first = '\\' then (none, cursor)
  else match Scan.matchOperator? first with
  | some operator => recognized (cursor.comparison first operator)
  | none =>
  if first.isDigit then recognized cursor.reconsume.numericToken
  else if startsName first then recognized cursor.reconsume.nameToken
  else recognized (⟨.delim first, none⟩, cursor)

/-- What a token is read as that a scan of the text from the cursor on describes. -/
def answer : Option (Scan Recognized) → Option Recognized × Cursor
  | some scan => recognized (cursor.through scan)
  | none => (none, cursor.skip 1)

/-- Whether a hash has a name is seen from behind its number sign. -/
theorem hashStarts_iff :
    (cursor.peek.any continuesName = true ∨ isEscape cursor.peek (cursor.peekAt 1) = true) ↔
      Scan.hashStarts cursor.left := by
  cases ahead : cursor.left with
  | nil => simp [peek_eq, ahead, Scan.hashStarts, isEscape]
  | cons first rest =>
      rw [peek_of_left_eq_cons ahead, peekAt_one ahead]
      simp [Scan.hashStarts, isEscape, Scan.escapes]

theorem take_two_iff {text : List Char} {first second : Char} :
    text.take 2 = [first, second] ↔ text.head? = some first ∧ text[1]? = some second := by
  rcases text with _ | ⟨_, _ | ⟨_, _⟩⟩ <;> simp

theorem take_three_iff {text : List Char} {first second third : Char} :
    text.take 3 = [first, second, third] ↔
      text.head? = some first ∧ text[1]? = some second ∧ text[2]? = some third := by
  rcases text with _ | ⟨_, _ | ⟨_, _ | ⟨_, _⟩⟩⟩ <;> simp

/-- A character that continues a name, other than a hyphen, is told apart only at last. -/
theorem tokenBehind_word {first : Char} (word : continuesName first = true)
    (noHyphen : first ≠ '-') :
    cursor.tokenBehind first =
      if first.isDigit then recognized cursor.reconsume.numericToken
      else recognized cursor.reconsume.nameToken := by
  have differs {other : Char} (outside : continuesName other = false) : first ≠ other := by
    rintro rfl
    exact Bool.false_ne_true (outside.symm.trans word)
  have noBlank := Scan.isBlank_of_continuesName word
  have noQuote := Scan.isQuote_of_continuesName word
  have noMark : Scan.punctuation? first = none := by
    unfold Scan.punctuation?
    split <;> first | rfl | exact absurd word (by decide)
  have noOperator : Scan.matchOperator? first = none := by
    unfold Scan.matchOperator?
    split <;> first | rfl | exact absurd word (by decide)
  have starts (noDigit : ¬ first.isDigit = true) : startsName first = true := by
    simpa [continuesName, noDigit, noHyphen] using word
  have noHash : first ≠ '#' := differs rfl
  have noPlus : first ≠ '+' := differs rfl
  have noPoint : first ≠ '.' := differs rfl
  have noAngle : first ≠ '<' := differs rfl
  have noAt : first ≠ '@' := differs rfl
  have noBackslash : first ≠ '\\' := differs rfl
  simp only [tokenBehind, noBlank, noMark, noQuote, noOperator, noHyphen, noHash, noPlus, noPoint,
    noAngle, noAt, noBackslash, Bool.false_eq_true, false_or, false_and, ↓reduceIte]
  split
  · rfl
  · rename_i noDigit
    rw [if_pos (starts noDigit)]

theorem opening_blank {first : Char} {rest : List Char}
    (announced : Scan.opening first rest = .blank) : isBlank first = true := by
  unfold Scan.opening at announced
  repeat' split at announced
  all_goals first | assumption | contradiction

theorem opening_quote {first : Char} {rest : List Char}
    (announced : Scan.opening first rest = .quote) :
    Scan.isQuote first = true := by
  unfold Scan.opening at announced
  repeat' split at announced
  all_goals first | assumption | contradiction

theorem opening_atSign {first : Char} {rest : List Char}
    (announced : Scan.opening first rest = .atSign) : first = '@' := by
  unfold Scan.opening at announced
  repeat' split at announced
  all_goals first | assumption | contradiction

theorem opening_stray {first : Char} {rest : List Char}
    (announced : Scan.opening first rest = .strayBackslash) :
    first = '\\' ∧ ¬ Scan.escapes rest = true := by
  unfold Scan.opening at announced
  repeat' split at announced
  all_goals first | exact ⟨‹_›, ‹_›⟩ | contradiction

section Behind

variable {cursor} {first : Char} {rest : List Char} (ahead : cursor.left = first :: rest)

include ahead

theorem tokenBehind_blank (blank : isBlank first = true) :
    (cursor.skip 1).tokenBehind first =
      recognized (cursor.through
        (Scan.fixed .whitespace ((rest.takeWhile isBlank).length + 1) (first :: rest))) := by
  rw [tokenBehind, if_pos blank, takeWhile_eq, left_skip_one ahead, ← ahead, through_fixed,
    Nat.add_comm, ← skip_skip]
  rfl

theorem tokenBehind_mark {mark : Token} (isMark : Scan.punctuation? first = some mark) :
    (cursor.skip 1).tokenBehind first =
      recognized (cursor.through (Scan.fixed mark 1 (first :: rest))) := by
  have noBlank : ¬ isBlank first = true := by
    unfold Scan.punctuation? at isMark
    split at isMark <;> first | decide | contradiction
  rw [tokenBehind, if_neg noBlank, isMark, ← ahead, through_fixed]

theorem tokenBehind_quote (quote : Scan.isQuote first = true) :
    (cursor.skip 1).tokenBehind first =
      recognized (cursor.through (Scan.stringToken first rest)) := by
  rw [← stringToken_eq cursor first ahead]
  simp only [Scan.isQuote, Bool.or_eq_true, beq_iff_eq] at quote
  rcases quote with rfl | rfl <;> rfl

theorem tokenBehind_hash (isHash : first = '#') :
    (cursor.skip 1).tokenBehind first = recognized (cursor.through (Scan.hashToken '#' rest)) := by
  subst isHash
  have starts := hashStarts_iff (cursor.skip 1)
  rw [left_skip_one ahead] at starts
  have noName : startsName '#' = false := rfl
  by_cases named : (cursor.skip 1).peek.any continuesName = true ∨
      isEscape (cursor.skip 1).peek ((cursor.skip 1).peekAt 1) = true
  · rw [Scan.hashToken_of_name (starts.mp named), through_after_cons, List.length_nil, skip_zero,
      through_map, ← left_skip_one ahead, ← name_eq, ← startsNameWith_peek]
    simp [tokenBehind, named, isBlank, Scan.punctuation?, Scan.isQuote]
  · rw [Scan.hashToken_of_sign (fun name => named (starts.mpr name)), ← ahead, through_fixed]
    simp [tokenBehind, named, noName, isBlank, Scan.punctuation?, Scan.isQuote,
      Scan.matchOperator?]

theorem tokenBehind_at (isAt : first = '@') :
    (cursor.skip 1).tokenBehind first = recognized (cursor.through (Scan.atToken '@' rest)) := by
  subst isAt
  have noName : startsName '@' = false := rfl
  rw [Scan.atToken, ← left_skip_one ahead, ← startsNameWith_peek]
  by_cases named : (cursor.skip 1).startsNameWith (cursor.skip 1).peek = true
  · rw [if_pos named, through_after_cons, List.length_nil, skip_zero, through_map, ← name_eq]
    simp [tokenBehind, named, isBlank, Scan.punctuation?, Scan.isQuote]
  · rw [if_neg named, left_skip_one ahead, ← ahead, through_fixed]
    simp [tokenBehind, named, noName, isBlank, Scan.punctuation?, Scan.isQuote,
      Scan.matchOperator?]

theorem tokenBehind_hyphen (isHyphen : first = '-')
    (noNumber : Scan.numberStarts (first :: rest) = false) :
    (cursor.skip 1).tokenBehind first =
      recognized (cursor.through (Scan.hyphenToken '-' rest)) := by
  subst isHyphen
  have behind := left_skip_one ahead
  have noName : startsName '-' = false := rfl
  rw [← behind, ← startsNumberWith_eq] at noNumber
  have arrow : rest.take 2 = ['-', '>'] ↔
      (cursor.skip 1).peek = some '-' ∧ (cursor.skip 1).peekAt 1 = some '>' := by
    rw [peek_eq, peekAt_eq, behind]
    exact take_two_iff
  have named := startsNameWith_hyphen (cursor.skip 1)
  rw [behind] at named
  unfold Scan.hyphenToken
  by_cases closes : rest.take 2 = ['-', '>']
  · rw [if_pos closes, ← ahead, through_fixed]
    simp [tokenBehind, noNumber, arrow.mp closes, isBlank, Scan.punctuation?, Scan.isQuote,
      skip_skip]
  · rw [if_neg closes]
    rw [arrow] at closes
    cases continues : Scan.continuesHyphen (rest.drop 1) with
    | true =>
        have nonempty : rest ≠ [] := by
          rintro rfl
          contradiction
        rw [continues] at named
        rw [if_pos ⟨nonempty, rfl⟩, ← ahead, ← nameToken_eq]
        simp [tokenBehind, noNumber, closes, named, isBlank, Scan.punctuation?, Scan.isQuote,
          reconsume_skip ahead]
    | false =>
        rw [continues] at named
        rw [if_neg (fun both => Bool.false_ne_true both.2), ← ahead, through_fixed]
        simp [tokenBehind, noNumber, closes, named, noName, isBlank, Scan.punctuation?,
          Scan.isQuote, Scan.matchOperator?]

theorem tokenBehind_markup (isAngle : first = '<') (markup : rest.take 3 = ['!', '-', '-']) :
    (cursor.skip 1).tokenBehind first =
      recognized (cursor.through (Scan.fixed .commentOpen 4 (first :: rest))) := by
  subst isAngle
  have seen : (cursor.skip 1).peek = some '!' ∧ (cursor.skip 1).peekAt 1 = some '-' ∧
      (cursor.skip 1).peekAt 2 = some '-' := by
    rw [peek_eq, peekAt_eq, peekAt_eq, left_skip_one ahead]
    exact take_three_iff.mp markup
  rw [← ahead, through_fixed]
  simp [tokenBehind, seen, isBlank, Scan.punctuation?, Scan.isQuote, skip_skip]

theorem tokenBehind_backslash (isBackslash : first = '\\') :
    (cursor.skip 1).tokenBehind first =
      if Scan.escapes rest then recognized (cursor.through (Scan.nameToken (first :: rest)))
      else (none, cursor.skip 1) := by
  subst isBackslash
  rw [← left_skip_one ahead, ← isEscape_backslash, left_skip_one ahead, ← ahead, ← nameToken_eq]
  by_cases escapes : isEscape (some '\\') (cursor.skip 1).peek = true
  · simp [tokenBehind, escapes, isBlank, Scan.punctuation?, Scan.isQuote, reconsume_skip ahead]
  · simp [tokenBehind, escapes, isBlank, Scan.punctuation?, Scan.isQuote]

theorem tokenBehind_number (starts : Scan.numberStarts (first :: rest) = true) :
    (cursor.skip 1).tokenBehind first =
      recognized (cursor.through (Scan.numericToken (first :: rest))) := by
  rw [← ahead, ← numericToken_eq]
  rw [← left_skip_one ahead, ← startsNumberWith_eq] at starts
  by_cases plus : first = '+' ∨ first = '.'
  · rcases plus with rfl | rfl <;>
      simp [tokenBehind, starts, isBlank, Scan.punctuation?, Scan.isQuote, reconsume_skip ahead]
  by_cases hyphen : first = '-'
  · subst hyphen
    simp [tokenBehind, starts, isBlank, Scan.punctuation?, Scan.isQuote, reconsume_skip ahead]
  have digit : first.isDigit = true := by
    obtain ⟨noPlus, noPoint⟩ := not_or.mp plus
    simpa [startsNumberWith, Scan.isSign, noPlus, hyphen, noPoint] using starts
  rw [tokenBehind_word _ (by simp [continuesName, digit]) hyphen, if_pos digit,
    reconsume_skip ahead]

theorem tokenBehind_name (starts : startsName first = true) :
    (cursor.skip 1).tokenBehind first =
      recognized (cursor.through (Scan.nameToken (first :: rest))) := by
  have noHyphen : first ≠ '-' := by
    rintro rfl
    contradiction
  rw [tokenBehind_word _ (continuesName_of_startsName starts) noHyphen,
    if_neg (by simp [Scan.isDigit_of_startsName starts]), reconsume_skip ahead, ← ahead,
    ← nameToken_eq]

theorem comparison_eq {operator : MatchOperator}
    (isOperator : Scan.matchOperator? first = some operator) :
    (cursor.skip 1).comparison first operator =
      cursor.through (Scan.symbolToken first rest) := by
  have seen : (cursor.skip 1).peek = rest.head? := by rw [peek_eq, left_skip_one ahead]
  have isDash : first = '|' ↔ operator = .dash := by
    unfold Scan.matchOperator? at isOperator
    split at isOperator <;> cases isOperator <;> simp_all
  rw [comparison, seen, Scan.symbolToken, isOperator]
  by_cases equals : rest.head? = some '='
  · rw [if_pos equals, equals, ← ahead]
    simp only [through_fixed, skip_skip]
  by_cases column : first = '|' ∧ rest.head? = some '|'
  · rw [if_neg equals, if_pos column, column.2, isDash.mp column.1, ← ahead]
    simp only [through_fixed, skip_skip]
  · rw [if_neg equals, if_neg column, ← ahead]
    split
    · rename_i found
      exact absurd found equals
    · rename_i dash found
      exact absurd ⟨isDash.mpr (Option.some.inj dash), found⟩ column
    · rw [through_fixed]

theorem tokenBehind_symbol (isSymbol : Scan.opening first rest = .symbol) :
    (cursor.skip 1).tokenBehind first =
      recognized (cursor.through (Scan.symbolToken first rest)) := by
  unfold Scan.opening at isSymbol
  repeat' split at isSymbol
  all_goals first | contradiction | skip
  rename_i noBlank noQuote noNumber noHash noAt noHyphen noMarkup noBackslash noName _ noMark
  rw [← left_skip_one ahead, ← startsNumberWith_eq] at noNumber
  have noDigit : ¬ first.isDigit = true := by
    intro digit
    have unsigned : Scan.isSign first = false := by
      cases signed : Scan.isSign first with
      | false => rfl
      | true =>
          simp only [Scan.isSign, Bool.or_eq_true, beq_iff_eq] at signed
          rcases signed with rfl | rfl <;> contradiction
    have noPoint : first ≠ '.' := by
      rintro rfl
      contradiction
    rw [startsNumberWith, unsigned, if_neg Bool.false_ne_true, if_neg noPoint] at noNumber
    exact noNumber digit
  have noMarkup' : ¬ (first = '<' ∧ (cursor.skip 1).peek = some '!' ∧
      (cursor.skip 1).peekAt 1 = some '-' ∧ (cursor.skip 1).peekAt 2 = some '-') := by
    rwa [peek_eq, peekAt_eq, peekAt_eq, left_skip_one ahead, ← take_three_iff]
  simp only [tokenBehind, noBlank, noMark, noQuote, noHash, noNumber, noHyphen, noMarkup', noAt,
    noBackslash, noDigit, noName, Bool.false_eq_true, false_and, and_false, ↓reduceIte]
  split
  · rename_i operator isOperator
    rw [comparison_eq ahead isOperator]
  · rename_i noOperator
    rw [Scan.symbolToken, noOperator, ← ahead, through_fixed]

/-- A token from its first character on is the one that the character and those behind it
announce. -/
theorem tokenBehind_eq :
    (cursor.skip 1).tokenBehind first = cursor.answer (Scan.token (first :: rest)) := by
  rw [Scan.token]
  cases announced : Scan.opening first rest
  case blank => exact tokenBehind_blank ahead (opening_blank announced)
  case mark mark => exact tokenBehind_mark ahead (Scan.opening_mark announced)
  case quote => exact tokenBehind_quote ahead (opening_quote announced)
  case number => exact tokenBehind_number ahead (Scan.opening_number announced)
  case hash =>
    have isHash := Scan.opening_hash announced
    rw [tokenBehind_hash ahead isHash, isHash]
    rfl
  case atSign =>
    have isAt := opening_atSign announced
    rw [tokenBehind_at ahead isAt, isAt]
    rfl
  case hyphen =>
    have isHyphen := Scan.opening_hyphen announced
    rw [tokenBehind_hyphen ahead isHyphen (Scan.numberStarts_of_opening_hyphen announced),
      isHyphen]
    rfl
  case markup =>
    obtain ⟨isAngle, markup⟩ := Scan.opening_markup announced
    exact tokenBehind_markup ahead isAngle markup
  case name =>
    rcases Scan.opening_name announced with starts | ⟨isBackslash, escapes⟩
    · exact tokenBehind_name ahead starts
    · rw [tokenBehind_backslash ahead isBackslash, if_pos escapes]
      rfl
  case strayBackslash =>
    obtain ⟨isBackslash, stray⟩ := opening_stray announced
    rw [tokenBehind_backslash ahead isBackslash, if_neg stray]
    rfl
  case symbol => exact tokenBehind_symbol ahead announced

end Behind

/-- The token at the place. -/
def token : Option Recognized × Cursor :=
  match cursor.consume with
  | (some first, behind) => behind.tokenBehind first
  | (none, behind) => recognized (⟨.endOfText, none⟩, behind)

/-- **A token** read from a cursor is the token at the front of what is left: none depends on
what stands in front of the cursor. -/
theorem token_eq : cursor.token = cursor.answer (Scan.token cursor.left) := by
  cases ahead : cursor.left with
  | nil =>
      rw [token, consume_of_left_eq_nil ahead]
      exact congrArg recognized (through_nil _ _ _).symm
  | cons first rest => rw [token, consume_of_left_eq_cons ahead, ← tokenBehind_eq ahead]

/-! ## Comments -/

/-- Moves over the comments in front of a token; the error that one of them has no end. -/
def comments (cursor : Cursor) : Option LexicalError × Cursor :=
  if _starts : cursor.peek = some '/' ∧ cursor.peekAt 1 = some '*' then
    match _body : (cursor.skip 2).commentBody with
    | (true, behind) => behind.comments
    | (false, behind) => (some (.unterminatedComment cursor.position), behind)
  else
    (none, cursor)
termination_by cursor.left.length
decreasing_by
  have within := length_left_commentBody_le (cursor.skip 2)
  rw [_body] at within
  exact Nat.lt_of_le_of_lt within (cursor.length_left_skip_lt _starts.1 Nat.two_pos)

theorem commentStarts_iff :
    (cursor.peek = some '/' ∧ cursor.peekAt 1 = some '*') ↔
      Scan.commentStarts cursor.left = true := by
  constructor
  · rintro ⟨slash, star⟩
    have ahead := left_eq_of_peek slash
    rw [peekAt_one ahead] at star
    obtain ⟨rest, behind⟩ := List.head?_eq_some_iff.mp star
    rw [ahead, behind]
    rfl
  · intro starts
    obtain ⟨behind, ahead⟩ := exists_of_commentStarts starts
    exact ⟨peek_of_left_eq_cons ahead, peekAt_one ahead⟩

theorem comments_of_unclosed {text : List Char} (starts : Scan.commentStarts text = true)
    (unclosed : Scan.commentBody (text.drop 2) = none) :
    Scan.comments text = ⟨false, [], text⟩ := by
  rw [Scan.comments, if_pos starts]
  split
  · rfl
  · rename_i body closed
    rw [unclosed] at closed
    cases closed

theorem two_le_of_commentStarts {text : List Char} (starts : Scan.commentStarts text = true) :
    2 ≤ text.length := by
  obtain ⟨behind, rfl⟩ := exists_of_commentStarts starts
  exact Nat.le_add_left 2 behind.length

/-- **The comments** passed over from a cursor are those in front of what is left. -/
theorem comments_eq :
    cursor.comments =
      if (Scan.comments cursor.left).value then
        (none, cursor.skip (Scan.comments cursor.left).source.length)
      else
        (some (.unterminatedComment
            (cursor.skip (Scan.comments cursor.left).source.length).position),
          cursor.skip cursor.left.length) := by
  fun_induction comments cursor with
  | case1 cursor starts behind body ih =>
    have commented := (commentStarts_iff cursor).mp starts
    have enough := two_le_of_commentStarts commented
    rw [commentBody_eq, left_skip] at body
    split at body
    · rename_i inner found
      cases body
      have covers := Scan.commentBody_covers found
      rw [← left_skip] at covers
      have left := left_through (cursor.skip 2) covers
      rw [through] at left
      rw [ih, left, comments_of_comment commented found]
      have whole : 2 + (inner.source.length + inner.rest.length) = cursor.left.length := by
        rw [← List.length_append, covers, left_skip, List.length_drop]
        omega
      have opening : (cursor.left.take 2).length = 2 := List.length_take_of_le enough
      simp only [Scan.after, List.length_append, skip_skip, opening, ← whole, Nat.add_assoc]
    · cases body
  | case2 cursor starts behind body =>
    have commented := (commentStarts_iff cursor).mp starts
    have enough := two_le_of_commentStarts commented
    rw [commentBody_eq, left_skip] at body
    split at body
    · cases body
    · rename_i none
      cases body
      rw [comments_of_unclosed commented none, if_neg Bool.false_ne_true, List.length_nil,
        skip_zero, skip_skip, List.length_drop, Nat.add_sub_cancel' enough]
  | case3 cursor noComment =>
    rw [commentStarts_iff] at noComment
    rw [comments_of_none (Bool.eq_false_iff.mpr noComment), if_pos rfl, List.length_nil, skip_zero]

/-! ## What was read -/

variable {cursor} {behind : Cursor}

/-- Behind the comments in front of a token the cursor sees what they leave. -/
theorem of_comments_eq_none (skipped : cursor.comments = (none, behind)) :
    ∃ gap, Scan.comments cursor.left = ⟨true, gap, behind.left⟩ ∧
      behind.input = cursor.input ∧ behind.position = cursor.position + gap.length := by
  have covers := Scan.comments_covers cursor.left
  rw [comments_eq] at skipped
  cases read : Scan.comments cursor.left with | mk ended gap rest =>
  rw [read] at skipped covers
  cases ended with
  | false => cases skipped
  | true =>
      cases skipped
      have within : gap.length ≤ cursor.left.length := by
        rw [← covers, List.length_append]
        exact Nat.le_add_right _ _
      refine ⟨gap, ?_, rfl, position_skip cursor within⟩
      rw [left_skip, ← covers, List.drop_left]

/-- A comment without an end is reported by its place, and the cursor goes to the end of the
text. -/
theorem of_comments_eq_some {error : LexicalError}
    (skipped : cursor.comments = (some error, behind)) :
    (Scan.comments cursor.left).value = false ∧
      error = .unterminatedComment (cursor.position + (Scan.comments cursor.left).source.length) ∧
      behind.input = cursor.input ∧
      behind.position = cursor.position + (Scan.comments cursor.left).source.length +
        (Scan.comments cursor.left).rest.length := by
  have covers := congrArg List.length (Scan.comments_covers cursor.left)
  rw [List.length_append] at covers
  rw [comments_eq] at skipped
  cases unended : (Scan.comments cursor.left).value with
  | true =>
      rw [unended] at skipped
      cases skipped
  | false =>
      rw [unended] at skipped
      cases skipped
      rw [position_skip cursor (by omega), position_skip cursor (Nat.le_refl _), Nat.add_assoc,
        covers]
      exact ⟨rfl, rfl, rfl, rfl⟩

/-- A token that is read was scanned in front of what the cursor sees behind it. -/
theorem of_token_eq_some {recognized : Recognized}
    (read : cursor.token = (some recognized, behind)) :
    ∃ scan, Scan.token cursor.left = some scan ∧ recognized = scan.value ∧
      behind.input = cursor.input ∧ behind.position = cursor.position + scan.source.length ∧
      behind.input.extract cursor.position behind.position = scan.source ∧
      behind.left = scan.rest := by
  rw [token_eq] at read
  cases found : Scan.token cursor.left with
  | none =>
      rw [found] at read
      cases read
  | some scan =>
      rw [found] at read
      cases read
      have covers := Scan.token_covers found
      have within : scan.source.length ≤ cursor.left.length := by
        rw [← covers, List.length_append]
        exact Nat.le_add_right _ _
      have moved := position_skip cursor within
      refine ⟨scan, rfl, rfl, rfl, moved, ?_, left_through cursor covers⟩
      have taken : cursor.left.take scan.source.length = scan.source := by
        rw [← covers, List.take_left]
      dsimp only [through]
      rw [moved, input_skip, List.extract_eq_take_drop, Nat.add_sub_cancel_left]
      exact taken

theorem of_token_eq_none (read : cursor.token = (none, behind)) :
    ∃ first rest, cursor.left = first :: rest ∧ Scan.token (first :: rest) = none ∧
      behind.input = cursor.input ∧ behind.position = cursor.position + 1 := by
  rw [token_eq] at read
  cases ahead : cursor.left with
  | nil =>
      rw [ahead] at read
      cases read
  | cons first rest =>
      rw [ahead] at read
      cases found : Scan.token (first :: rest) with
      | some scan =>
          rw [found] at read
          cases read
      | none =>
          rw [found] at read
          cases read
          refine ⟨first, rest, rfl, found, rfl, position_skip cursor ?_⟩
          rw [ahead]
          exact Nat.le_add_left 1 rest.length

theorem eq_endOfText_of_isEnd {token : Token} (isEnd : token.isEnd = true) :
    token = .endOfText := by
  cases token <;> first | rfl | contradiction

/-- Only at the end of the text is the end of the text read. -/
theorem isEnd_of_token {recognized : Recognized}
    (read : cursor.token = (some recognized, behind)) :
    recognized.token.isEnd = true ↔ cursor.left = [] := by
  obtain ⟨scan, found, rfl, -⟩ := of_token_eq_some read
  cases ahead : cursor.left with
  | nil =>
      rw [ahead] at found
      cases found
      exact ⟨fun _ => rfl, fun _ => rfl⟩
  | cons first rest =>
      rw [ahead] at found
      have goesOn := token_ne_endOfText found
      constructor
      · intro isEnd
        exact absurd (eq_endOfText_of_isEnd isEnd) goesOn
      · intro none
        cases none

theorem length_left_of_comments (skipped : cursor.comments = (none, behind)) :
    behind.left.length ≤ cursor.left.length := by
  obtain ⟨gap, comments, -⟩ := of_comments_eq_none skipped
  have within := (Scan.comments_covers cursor.left).length_rest_le
  rwa [comments] at within

/-- Behind a token in front of the end of the text, less of the text is left. -/
theorem length_left_of_token {recognized : Recognized}
    (read : cursor.token = (some recognized, behind)) (goesOn : ¬ recognized.token.isEnd = true) :
    behind.left.length < cursor.left.length := by
  rw [isEnd_of_token read] at goesOn
  obtain ⟨scan, found, -, -, -, -, left⟩ := of_token_eq_some read
  obtain ⟨first, rest, ahead⟩ := List.exists_cons_of_ne_nil goesOn
  rw [ahead] at found ⊢
  rw [left]
  exact Scan.token_length_rest_lt found

end SelectorLang.Cursor
