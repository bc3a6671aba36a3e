import SelectorLang.Proofs.Cursor.Basic
import SelectorLang.Proofs.Scan.TokenLookahead
import SelectorLang.Scan.Comment

/-! # Reading parts of tokens from a cursor

The parts of tokens, read character by character: each reading consumes, looks ahead and puts
back, and each is a scan of the text from the cursor on. So a reading of a name depends on
nothing in front of the cursor (`SelectorLang.Cursor.name_eq`), nor does one of a number, a
quoted string, an address or a comment.
-/

namespace SelectorLang.Cursor

open CodePoint

variable (cursor : Cursor)

/-! ## Runs of characters -/

/-- The characters of a class from the place on. -/
def takeWhile (member : Char → Bool) (cursor : Cursor) : List Char × Cursor :=
  match _seen : cursor.peek with
  | some next =>
    if member next then
      let more := takeWhile member (cursor.skip 1)
      (next :: more.1, more.2)
    else
      ([], cursor)
  | none => ([], cursor)
termination_by cursor.left.length
decreasing_by exact cursor.length_left_skip_lt _seen Nat.one_pos

theorem takeWhile_eq (member : Char → Bool) :
    cursor.takeWhile member =
      cursor.past (cursor.left.takeWhile member, cursor.left.dropWhile member) := by
  fun_induction takeWhile member cursor with
  | case1 cursor next seen belongs more ih =>
    rw [left_eq_of_peek seen, List.takeWhile_cons_of_pos belongs,
      List.dropWhile_cons_of_pos belongs, past_cons, ← ih]
  | case2 cursor next seen outside =>
    rw [left_eq_of_peek seen, List.takeWhile_cons_of_neg outside, past_nil]
  | case3 cursor seen =>
    rw [left_eq_nil_of_peek seen, List.takeWhile_nil, past_nil]

theorem left_takeWhile (member : Char → Bool) :
    (cursor.takeWhile member).2.left = cursor.left.dropWhile member := by
  rw [takeWhile_eq, left_past cursor List.takeWhile_append_dropWhile]

/-- The characters of a class from the place on, but no more than so many. -/
def takeRun (member : Char → Bool) : Nat → Cursor → List Char × Cursor
  | 0, cursor => ([], cursor)
  | limit + 1, cursor =>
    match cursor.peek with
    | some next =>
      if member next then
        let more := takeRun member limit (cursor.skip 1)
        (next :: more.1, more.2)
      else
        ([], cursor)
    | none => ([], cursor)

theorem takeRun_eq (member : Char → Bool) (limit : Nat) (cursor : Cursor) :
    takeRun member limit cursor = cursor.past (Scan.takeRun limit member cursor.left) := by
  induction limit generalizing cursor with
  | zero => rw [Scan.takeRun_zero, past_nil, takeRun]
  | succ limit ih =>
      rw [takeRun]
      split
      · rename_i next seen
        rw [left_eq_of_peek seen]
        split
        · rename_i belongs
          rw [Scan.takeRun_cons limit belongs, past_cons, ih]
        · rename_i outside
          rw [Scan.takeRun_of_head (limit + 1) (by simpa using outside), past_nil]
      · rename_i seen
        rw [left_eq_nil_of_peek seen, Scan.takeRun_of_head (limit + 1) rfl, past_nil]

theorem left_takeRun (member : Char → Bool) (limit : Nat) :
    (takeRun member limit cursor).2.left = (Scan.takeRun limit member cursor.left).2 := by
  rw [takeRun_eq, left_past cursor (Scan.takeRun_append limit member cursor.left)]

/-! ## Escapes and names -/

/-- Whether two characters in a row are a backslash and what it escapes. -/
def isEscape (first second : Option Char) : Bool :=
  first == some '\\' && second != some '\n'

theorem isEscape_backslash : isEscape (some '\\') cursor.peek = Scan.escapes cursor.left := by
  rw [peek_eq]
  rfl

theorem isEscape_iff (first : Char) :
    isEscape (some first) cursor.peek = true ↔ first = '\\' ∧ Scan.escapes cursor.left = true := by
  rw [peek_eq]
  simp [isEscape, Scan.escapes]

/-- The character that an escape stands for, from behind its backslash on. -/
def escape : Char × Cursor :=
  match cursor.consume with
  | (some first, behind) =>
    if isHexDigit first then
      let digits := takeRun isHexDigit 5 behind
      let blank := takeRun isBlank 1 digits.2
      (ofNumber (Scan.hexNumber (first :: digits.1)), blank.2)
    else
      (first, behind)
  | (none, behind) => (replacement, behind)

theorem escape_eq : cursor.escape = cursor.through (Scan.escape cursor.left) := by
  unfold escape
  split
  · rename_i first behind read
    obtain ⟨rfl, ahead⟩ := left_eq_of_consume read
    rw [ahead]
    unfold Scan.escape
    dsimp only
    split
    · rename_i hex
      rw [Scan.takeRun_cons 5 hex, takeRun_eq isBlank, left_takeRun, takeRun_eq]
      simp only [past, through, List.cons_append, List.length_cons, List.length_append, skip_skip,
        Nat.add_assoc, Nat.add_comm 1]
    · rfl
  · rename_i behind read
    obtain ⟨rfl, atEnd⟩ := left_eq_nil_of_consume read
    rw [atEnd]
    exact (through_nil _ _ _).symm

theorem escape_fst : cursor.escape.1 = (Scan.escape cursor.left).value := by
  rw [escape_eq]
  rfl

theorem escape_snd :
    cursor.escape.2 = cursor.skip (Scan.escape cursor.left).source.length := by
  rw [escape_eq]
  rfl

theorem left_escape : cursor.escape.2.left = (Scan.escape cursor.left).rest := by
  rw [escape_eq]
  exact left_through cursor (Scan.escape_covers cursor.left)

theorem length_left_escape_le : cursor.escape.2.left.length ≤ cursor.left.length := by
  rw [escape_snd]
  exact length_left_skip_le _ _

/-- The characters of a name. -/
def name (cursor : Cursor) : List Char × Cursor :=
  match _read : cursor.consume with
  | (some first, behind) =>
    if continuesName first then
      let more := name behind
      (first :: more.1, more.2)
    else if isEscape (some first) behind.peek then
      let escaped := behind.escape
      let more := name escaped.2
      (escaped.1 :: more.1, more.2)
    else
      ([], behind.reconsume)
  | (none, behind) => ([], behind)
termination_by cursor.left.length
decreasing_by
  · exact length_left_of_consume _read
  · exact Nat.lt_of_le_of_lt behind.length_left_escape_le (length_left_of_consume _read)

/-- **A name** read from a cursor is the name at the front of what is left. -/
theorem name_eq : cursor.name = cursor.through (Scan.name cursor.left) := by
  fun_induction name cursor with
  | case1 cursor first behind read continues more ih =>
    obtain ⟨rfl, ahead⟩ := left_eq_of_consume read
    rw [ahead, Scan.name_of_continues continues, through_after_cons, List.length_nil, skip_zero,
      through_map, ← ih]
  | case2 cursor first behind read outside escapes escaped more ih =>
    obtain ⟨rfl, ahead⟩ := left_eq_of_consume read
    rw [ahead, Scan.name_of_escape outside ((isEscape_iff _ _).mp escapes), through_after_cons,
      through_map, ← left_escape, ← escape_snd, ← escape_fst, ← ih]
  | case3 cursor first behind read outside noEscape =>
    obtain ⟨rfl, ahead⟩ := left_eq_of_consume read
    rw [isEscape_iff] at noEscape
    rw [reconsume_skip ahead, ahead,
      Scan.name_of_stops (Bool.eq_false_iff.mpr outside) noEscape, through_nil]
  | case4 cursor behind read =>
    obtain ⟨rfl, atEnd⟩ := left_eq_nil_of_consume read
    rw [atEnd, Scan.name, through_nil]

/-! ## Numbers -/

/-- A point with its digits, if it has any. -/
def fraction : List Char × Cursor :=
  if cursor.peek = some '.' ∧ (cursor.peekAt 1).any Char.isDigit then
    let digits := (cursor.skip 1).takeWhile Char.isDigit
    ('.' :: digits.1, digits.2)
  else
    ([], cursor)

/-- An exponent with its sign and digits, if it has any digits. -/
def exponent : List Char × Cursor :=
  match cursor.peek with
  | some letter =>
    let signed := (cursor.peekAt 1).any Scan.isSign
    if (letter = 'e' ∨ letter = 'E') ∧
        (cursor.peekAt (if signed then 2 else 1)).any Char.isDigit then
      let sign := takeRun Scan.isSign 1 (cursor.skip 1)
      let digits := sign.2.takeWhile Char.isDigit
      (letter :: (sign.1 ++ digits.1), digits.2)
    else
      ([], cursor)
  | none => ([], cursor)

/-- A number: its kind, its characters and the cursor behind them. -/
def number : (NumberKind × List Char) × Cursor :=
  let sign := takeRun Scan.isSign 1 cursor
  let whole := sign.2.takeWhile Char.isDigit
  let fraction := whole.2.fraction
  let exponent := fraction.2.exponent
  ((if fraction.1 = [] ∧ exponent.1 = [] then .integer else .general,
    sign.1 ++ whole.1 ++ fraction.1 ++ exponent.1), exponent.2)

theorem fraction_eq : cursor.fraction = cursor.past (Scan.fractionPart cursor.left) := by
  unfold fraction
  cases ahead : cursor.left with
  | nil =>
      have noPoint : ¬ (cursor.peek = some '.' ∧ (cursor.peekAt 1).any Char.isDigit = true) := by
        simp [peek_eq, ahead]
      rw [if_neg noPoint, Scan.fractionPart, past_nil]
  | cons first rest =>
      have digit : (cursor.peekAt 1).any Char.isDigit = Scan.digitFirst rest := by
        rw [peekAt_one ahead]
        rfl
      simp only [peek_of_left_eq_cons ahead, digit, Option.some.injEq, Scan.fractionPart]
      by_cases pointed : first = '.' ∧ Scan.digitFirst rest = true
      · rw [if_pos pointed, if_pos pointed, past_cons, takeWhile_eq, left_skip_one ahead, pointed.1]
        rfl
      · rw [if_neg pointed, if_neg pointed, past_nil]

theorem left_fraction : cursor.fraction.2.left = (Scan.fractionPart cursor.left).2 := by
  rw [fraction_eq, left_past cursor (Scan.fractionPart_append cursor.left)]

/-- The digit of an exponent is looked for behind a sign, if there is one. -/
theorem any_digit_behind_sign {letter : Char} {rest : List Char}
    (ahead : cursor.left = letter :: rest) :
    (cursor.peekAt (if (cursor.peekAt 1).any Scan.isSign then 2 else 1)).any Char.isDigit =
      Scan.digitFirst (Scan.signPart rest).2 := by
  rw [Scan.signPart, peekAt_one ahead]
  cases rest with
  | nil => rw [if_neg (by simp), peekAt_one ahead]; rfl
  | cons second rest =>
      cases isSign : Scan.isSign second with
      | true =>
          rw [List.head?_cons, Option.any_some, isSign, if_pos rfl, peekAt_succ ahead,
            Scan.takeRun_cons 0 isSign, List.getElem?_cons_succ, ← List.head?_eq_getElem?]
          rfl
      | false =>
          rw [List.head?_cons, Option.any_some, isSign, if_neg Bool.false_ne_true,
            peekAt_one ahead, Scan.takeRun_of_head 1 (by simpa using isSign)]
          rfl

theorem exponent_eq : cursor.exponent = cursor.past (Scan.exponentPart cursor.left) := by
  unfold exponent
  split
  · rename_i letter seen
    have ahead := left_eq_of_peek seen
    dsimp only
    rw [any_digit_behind_sign cursor ahead, ahead, Scan.exponentPart]
    split
    · rw [past_cons, takeWhile_eq, left_takeRun, takeRun_eq]
      simp only [past, List.length_append, skip_skip, Nat.add_assoc]
      rfl
    · rw [past_nil]
  · rename_i seen
    rw [left_eq_nil_of_peek seen, Scan.exponentPart, past_nil]

/-- **A number** read from a cursor is the literal at the front of what is left. -/
theorem number_eq :
    cursor.number =
      (((Scan.numberLiteral cursor.left).value, (Scan.numberLiteral cursor.left).source),
        cursor.skip (Scan.numberLiteral cursor.left).source.length) := by
  unfold number Scan.numberLiteral
  dsimp only
  rw [exponent_eq, left_fraction, fraction_eq, left_takeWhile, takeWhile_eq, left_takeRun,
    takeRun_eq]
  simp only [past, List.length_append, skip_skip]
  rfl

/-! ## Quoted strings -/

/-- The string behind an opening quote. -/
def quotedString (quote : Char) (cursor : Cursor) : Scan.Body × Cursor :=
  match _read : cursor.consume with
  | (some first, behind) =>
    if first = quote then (.ended .closed, behind)
    else if first = '\n' then (.ended .broken, behind.reconsume)
    else if first = '\\' then
      match behind.peek with
      | none => behind.quotedString quote
      | some second =>
        if second = '\n' then (behind.skip 1).quotedString quote
        else
          let escaped := behind.escape
          let more := escaped.2.quotedString quote
          (more.1.cons escaped.1, more.2)
    else
      let more := behind.quotedString quote
      (more.1.cons first, more.2)
  | (none, behind) => (.ended .cutOff, behind)
termination_by cursor.left.length
decreasing_by
  · exact length_left_of_consume _read
  · exact Nat.lt_of_le_of_lt (length_left_skip_le behind 1) (length_left_of_consume _read)
  · exact Nat.lt_of_le_of_lt behind.length_left_escape_le (length_left_of_consume _read)
  · exact length_left_of_consume _read

/-- **A quoted string** read from a cursor is the string at the front of what is left. -/
theorem quotedString_eq (quote : Char) :
    cursor.quotedString quote = cursor.through (Scan.quotedString quote cursor.left) := by
  fun_induction quotedString quote cursor with
  | case1 cursor behind read =>
    obtain ⟨rfl, ahead⟩ := left_eq_of_consume read
    rw [ahead, Scan.quotedString, if_pos rfl]
    rfl
  | case2 cursor behind read different =>
    obtain ⟨rfl, ahead⟩ := left_eq_of_consume read
    rw [reconsume_skip ahead, ahead, Scan.quotedString, if_neg different, if_pos rfl, through_nil]
  | case3 cursor behind ends read different _ ih =>
    obtain ⟨rfl, ahead⟩ := left_eq_of_consume read
    -- The backslash is the last character: the next turn meets the end of the text.
    have atEnd := left_eq_nil_of_peek ends
    rw [ih, ahead, atEnd, Scan.quotedString, Scan.quotedString, if_neg different,
      if_neg (by decide), if_pos rfl, if_pos rfl, through_nil]
    rfl
  | case4 cursor behind read different _ breaks ih =>
    obtain ⟨rfl, ahead⟩ := left_eq_of_consume read
    have joined := left_eq_of_peek breaks
    rw [ih, ahead, joined, Scan.quotedString_of_joined (Ne.intro different) rfl]
    rw [List.take_succ_cons, List.take_zero, List.drop_one, List.tail_cons, through_after_cons,
      List.length_singleton]
  | case5 cursor behind second seen noBreak escaped more read different _ ih =>
    obtain ⟨rfl, ahead⟩ := left_eq_of_consume read
    have nonempty : (cursor.skip 1).left ≠ [] := by
      rw [left_eq_of_peek seen]
      exact List.cons_ne_nil _ _
    have escapes : Scan.escapes (cursor.skip 1).left = true := by
      rw [left_eq_of_peek seen]
      simpa [Scan.escapes] using noBreak
    rw [ahead, Scan.quotedString_of_escape (Ne.intro different) nonempty escapes,
      through_after_cons, through_map, ← left_escape, ← escape_snd, ← escape_fst, ← ih]
  | case6 cursor first behind read different noBreak noBackslash more ih =>
    obtain ⟨rfl, ahead⟩ := left_eq_of_consume read
    rw [ahead, Scan.quotedString_of_character different noBreak noBackslash,
      through_after_cons, List.length_nil, skip_zero, through_map, ← ih]
  | case7 cursor behind read =>
    obtain ⟨rfl, atEnd⟩ := left_eq_nil_of_consume read
    rw [atEnd, Scan.quotedString, through_nil]

/-! ## Addresses -/

/-- Moves over the rest of a broken address. -/
def remnants (cursor : Cursor) : Cursor :=
  match _read : cursor.consume with
  | (some first, behind) =>
    if first = ')' then behind
    else if isEscape (some first) behind.peek then behind.escape.2.remnants
    else behind.remnants
  | (none, behind) => behind
termination_by cursor.left.length
decreasing_by
  · exact Nat.lt_of_le_of_lt behind.length_left_escape_le (length_left_of_consume _read)
  · exact length_left_of_consume _read

theorem remnants_eq :
    cursor.remnants = (cursor.through (Scan.remnants cursor.left)).2 := by
  fun_induction remnants cursor with
  | case1 cursor behind read =>
    obtain ⟨rfl, ahead⟩ := left_eq_of_consume read
    rw [ahead, Scan.remnants, if_pos rfl]
    rfl
  | case2 cursor first behind read notEnd escapes ih =>
    obtain ⟨rfl, ahead⟩ := left_eq_of_consume read
    rw [ih, ahead, Scan.remnants, if_neg notEnd, if_pos ((isEscape_iff _ _).mp escapes),
      through_after_cons, left_escape, escape_snd]
  | case3 cursor first behind read notEnd noEscape ih =>
    obtain ⟨rfl, ahead⟩ := left_eq_of_consume read
    rw [isEscape_iff] at noEscape
    rw [ih, ahead, Scan.remnants, if_neg notEnd, if_neg noEscape, through_after_cons,
      List.length_nil, skip_zero]
  | case4 cursor behind read =>
    obtain ⟨rfl, atEnd⟩ := left_eq_nil_of_consume read
    rw [atEnd, Scan.remnants, through_nil]

/-- A broken address goes on with its remnants. -/
theorem remnants_broken :
    (Scan.Body.ended .broken, cursor.remnants) =
      cursor.through (Scan.brokenAddress cursor.left) := by
  rw [Scan.brokenAddress, through_map, remnants_eq]

/-- The end of an address behind the blanks in it. -/
def addressEnd : Scan.Body × Cursor :=
  if cursor.peek = some ')' ∨ cursor.peek = none then (.ended .closed, cursor.skip 1)
  else (.ended .broken, cursor.remnants)

theorem addressEnd_eq : cursor.addressEnd = cursor.through (Scan.addressEnd cursor.left) := by
  cases ahead : cursor.left with
  | nil =>
      rw [addressEnd, peek_eq, ahead, List.head?_nil, if_pos (Or.inr rfl), Scan.addressEnd,
        through_nil, skip_of_left_eq_nil ahead]
  | cons first rest =>
      rw [addressEnd, peek_of_left_eq_cons ahead, Scan.addressEnd]
      by_cases closes : first = ')'
      · rw [if_pos (Or.inl (congrArg some closes)), if_pos closes]
        rfl
      · rw [if_neg (by simpa using closes), if_neg closes, ← ahead, remnants_broken]

/-- The address from its first character on. -/
def address (cursor : Cursor) : Scan.Body × Cursor :=
  match _read : cursor.consume with
  | (some first, behind) =>
    if first = ')' then (.ended .closed, behind)
    else if isBlank first then
      (behind.takeWhile isBlank).2.addressEnd
    else if Scan.isQuote first ∨ first = '(' then (.ended .broken, behind.remnants)
    else if first = '\\' then
      if isEscape (some '\\') behind.peek then
        let escaped := behind.escape
        let more := escaped.2.address
        (more.1.cons escaped.1, more.2)
      else (.ended .broken, behind.remnants)
    else
      let more := behind.address
      (more.1.cons first, more.2)
  | (none, behind) => (.ended .cutOff, behind)
termination_by cursor.left.length
decreasing_by
  · exact Nat.lt_of_le_of_lt behind.length_left_escape_le (length_left_of_consume _read)
  · exact length_left_of_consume _read

/-- **An address** read from a cursor is the address at the front of what is left. -/
theorem address_eq : cursor.address = cursor.through (Scan.address cursor.left) := by
  fun_induction address cursor with
  | case1 cursor behind read =>
    obtain ⟨rfl, ahead⟩ := left_eq_of_consume read
    rw [ahead, Scan.address, if_pos rfl]
    rfl
  | case2 cursor first behind read goesOn blank =>
    obtain ⟨rfl, ahead⟩ := left_eq_of_consume read
    rw [ahead, Scan.address, if_neg goesOn, if_pos blank, through_after_cons, addressEnd_eq,
      left_takeWhile, takeWhile_eq]
    rfl
  | case3 cursor first behind read goesOn noBlank breaks =>
    obtain ⟨rfl, ahead⟩ := left_eq_of_consume read
    rw [ahead, Scan.address, if_neg goesOn, if_neg noBlank, if_pos breaks, through_after_cons,
      List.length_nil, skip_zero, remnants_broken]
  | case4 cursor behind escapes escaped more read goesOn noBlank noBreak ih =>
    obtain ⟨rfl, ahead⟩ := left_eq_of_consume read
    rw [isEscape_backslash] at escapes
    rw [ahead, Scan.address, if_neg goesOn, if_neg noBlank, if_neg noBreak, if_pos rfl,
      if_pos escapes, through_after_cons, through_map, ← left_escape, ← escape_snd, ← escape_fst,
      ← ih]
  | case5 cursor behind noEscape read goesOn noBlank noBreak =>
    obtain ⟨rfl, ahead⟩ := left_eq_of_consume read
    rw [isEscape_backslash] at noEscape
    rw [ahead, Scan.address, if_neg goesOn, if_neg noBlank, if_neg noBreak, if_pos rfl,
      if_neg noEscape, through_after_cons, List.length_nil, skip_zero, remnants_broken]
  | case6 cursor first behind read goesOn noBlank noBreak noBackslash more ih =>
    obtain ⟨rfl, ahead⟩ := left_eq_of_consume read
    rw [ahead, Scan.address, if_neg goesOn, if_neg noBlank, if_neg noBreak,
      if_neg noBackslash, through_after_cons, List.length_nil, skip_zero, through_map, ← ih]
  | case7 cursor behind read =>
    obtain ⟨rfl, atEnd⟩ := left_eq_nil_of_consume read
    rw [atEnd, Scan.address, through_nil]

/-! ## Comments -/

/-- Moves over the rest of a comment; whether the comment has an end. -/
def commentBody (cursor : Cursor) : Bool × Cursor :=
  match _read : cursor.consume with
  | (some first, behind) =>
    if first = '*' ∧ behind.peek = some '/' then (true, behind.skip 1) else behind.commentBody
  | (none, behind) => (false, behind)
termination_by cursor.left.length
decreasing_by exact length_left_of_consume _read

theorem commentBody_eq :
    cursor.commentBody =
      match Scan.commentBody cursor.left with
      | some body => (true, cursor.skip body.source.length)
      | none => (false, cursor.skip cursor.left.length) := by
  fun_induction commentBody cursor with
  | case1 cursor first behind read ends =>
    obtain ⟨rfl, ahead⟩ := left_eq_of_consume read
    rw [peek_eq] at ends
    rw [ahead, Scan.commentBody, if_pos ends, skip_skip]
    rfl
  | case2 cursor first behind read goesOn ih =>
    obtain ⟨rfl, ahead⟩ := left_eq_of_consume read
    rw [peek_eq] at goesOn
    rw [ih, ahead, Scan.commentBody, if_neg goesOn]
    cases Scan.commentBody (cursor.skip 1).left with
    | none => simp only [Option.map_none, skip_skip, List.length_cons, Nat.add_comm]
    | some body =>
        simp only [Option.map_some, skip_skip, Scan.after, List.length_append,
          List.length_singleton]
  | case3 cursor behind read =>
    obtain ⟨rfl, atEnd⟩ := left_eq_nil_of_consume read
    rw [atEnd, Scan.commentBody, List.length_nil, skip_zero]

theorem length_left_commentBody_le : cursor.commentBody.2.left.length ≤ cursor.left.length := by
  rw [commentBody_eq]
  split <;> exact length_left_skip_le _ _

end SelectorLang.Cursor
