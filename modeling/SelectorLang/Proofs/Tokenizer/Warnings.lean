import SelectorLang.Proofs.Tokenizer.Cuts

/-! # What the end of the text cuts off

A string or an address that the end of the text cuts off leaves nothing behind it. A run
therefore warns at most once, of the last lexeme in front of the end (`SelectorLang.Run.marks`).

Whether a string was closed can be seen in its source by a simple scan that takes each
backslash with the character behind it (`SelectorLang.behindQuote?`): however many
characters an escape has, none but its first may be a quote or a backslash. A text is warned
of a string just when that scan finds no closing quote at its end
(`SelectorLang.tokenizeWarnings_mark_cutOffs`).
-/

namespace SelectorLang

open Scan CodePoint

namespace Scan

theorem quotedString_rest_of_cutOff {quote : Char} {text : List Char}
    (cutOff : (quotedString quote text).value.ending = .cutOff) :
    (quotedString quote text).rest = [] := by
  fun_induction quotedString quote text with
  | case1 => rfl
  | case2 => contradiction
  | case3 => contradiction
  | case4 => rfl
  | case5 rest _ _ escaped _ _ ih => exact ih cutOff
  | case6 rest _ _ _ _ ih => exact ih cutOff
  | case7 first rest _ _ _ ih => exact ih cutOff

theorem addressEnd_ending (text : List Char) : (addressEnd text).value.ending ≠ .cutOff := by
  unfold addressEnd
  split
  · exact Ending.noConfusion
  · split
    · exact Ending.noConfusion
    · exact Ending.noConfusion

theorem address_rest_of_cutOff {text : List Char}
    (cutOff : (address text).value.ending = .cutOff) : (address text).rest = [] := by
  fun_induction address text with
  | case1 => rfl
  | case2 => contradiction
  | case3 first rest => exact absurd cutOff (addressEnd_ending _)
  | case4 => contradiction
  | case5 rest _ escaped _ _ _ ih => exact ih cutOff
  | case6 => contradiction
  | case7 first rest _ _ _ _ ih => exact ih cutOff

end Scan

/-- The token that a construct is, cut off or not. -/
def CutOff.token (value : String) : CutOff → Token
  | .string => .string value
  | .address => .url value

namespace Scan

theorem stringToken_of_cutOff {quote : Char} {text : List Char} {construct : CutOff}
    (cutOff : (stringToken quote text).value.cutOff = some construct) :
    (stringToken quote text).rest = [] ∧
      ∃ value, (stringToken quote text).value.token = construct.token value := by
  simp only [stringToken, Scan.map, Scan.after] at cutOff ⊢
  split at cutOff
  · contradiction
  · rename_i isCutOff
    cases cutOff
    exact ⟨quotedString_rest_of_cutOff isCutOff, _, rfl⟩
  · contradiction

theorem addressToken_of_cutOff {text : List Char} {construct : CutOff}
    (cutOff : (addressToken text).value.cutOff = some construct) :
    (addressToken text).rest = [] ∧
      ∃ value, (addressToken text).value.token = construct.token value := by
  simp only [addressToken, Scan.map, Scan.after] at cutOff ⊢
  split at cutOff
  · contradiction
  · rename_i isCutOff
    cases cutOff
    exact ⟨address_rest_of_cutOff isCutOff, _, rfl⟩
  · contradiction

theorem nameToken_of_cutOff {text : List Char} {construct : CutOff}
    (cutOff : (nameToken text).value.cutOff = some construct) :
    (nameToken text).rest = [] ∧
      ∃ value, (nameToken text).value.token = construct.token value := by
  unfold nameToken callToken at cutOff ⊢
  dsimp only at cutOff ⊢
  split at cutOff
  · split at cutOff
    · split at cutOff
      · contradiction
      · rename_i url quote
        rw [if_pos url, if_neg quote]
        exact addressToken_of_cutOff cutOff
    · contradiction
  · contradiction

/-- A token that is cut off is a string or an address, and nothing stands behind it. -/
theorem token_of_cutOff {first : Char} {text : List Char} {scan : Scan Recognized}
    {construct : CutOff} (found : token (first :: text) = some scan)
    (cutOff : scan.value.cutOff = some construct) :
    scan.rest = [] ∧ ∃ value, scan.value.token = construct.token value := by
  rw [token] at found
  cases announced : opening first text <;> rw [announced] at found <;> cases found
  case quote => exact stringToken_of_cutOff cutOff
  case number =>
    unfold numericToken at cutOff
    dsimp only at cutOff
    split at cutOff
    · contradiction
    · split at cutOff <;> contradiction
  case hash =>
    unfold hashToken at cutOff
    split at cutOff <;> contradiction
  case atSign =>
    unfold atToken at cutOff
    split at cutOff <;> contradiction
  case hyphen =>
    unfold hyphenToken at cutOff ⊢
    split at cutOff
    · contradiction
    · rename_i noArrow
      split at cutOff
      · rename_i named
        rw [if_neg noArrow, if_pos named]
        exact nameToken_of_cutOff cutOff
      · contradiction
  case name => exact nameToken_of_cutOff cutOff
  case symbol =>
    unfold symbolToken at cutOff
    split at cutOff <;> contradiction
  all_goals contradiction

end Scan

/-! ## Closing quotes -/

/-- What stands behind the first of a quote, a backslash being taken with the character
behind it. -/
def behindQuote? (quote : Char) : List Char → Option (List Char)
  | [] => none
  | '\\' :: _ :: rest => behindQuote? quote rest
  | first :: rest => if first = quote then some rest else behindQuote? quote rest

/-- Whether the source of a string ends with the quote that closes it. -/
def IsClosed (source : String) : Prop :=
  ∃ quote body, source.toList = quote :: body ∧ behindQuote? quote body = some []

section Quote

variable {quote first : Char}

theorem behindQuote?_cons (noBackslash : first ≠ '\\') (rest : List Char) :
    behindQuote? quote (first :: rest) =
      if first = quote then some rest else behindQuote? quote rest := by
  rw [behindQuote?]
  rintro _ _ rfl
  contradiction

/-- Characters of a class without the quote and the backslash are passed over. -/
theorem behindQuote?_takeWhile {member : Char → Bool} (noQuote : member quote = false)
    (noBackslash : member '\\' = false) (text rest : List Char) :
    behindQuote? quote (text.takeWhile member ++ rest) = behindQuote? quote rest := by
  induction text with
  | nil => rfl
  | cons first text ih =>
      by_cases isMember : member first = true
      · have other : first ≠ quote := by
          rintro rfl
          exact Bool.noConfusion (noQuote.symm.trans isMember)
        have noEscape : first ≠ '\\' := by
          rintro rfl
          exact Bool.noConfusion (noBackslash.symm.trans isMember)
        rw [List.takeWhile_cons_of_pos isMember, List.cons_append, behindQuote?_cons noEscape,
          if_neg other, ih]
      · rw [List.takeWhile_cons_of_neg isMember, List.nil_append]

theorem eq_of_isQuote (isQuote : isQuote quote = true) : quote = '"' ∨ quote = '\'' := by
  simpa [Scan.isQuote] using isQuote

/-- An escape is passed over as if it had only one character. -/
theorem behindQuote?_escape (isQuote : isQuote quote = true) (escaped : List Char)
    (rest : List Char) :
    behindQuote? quote ('\\' :: (escape (first :: escaped)).source ++ rest) =
      behindQuote? quote rest := by
  have noDigit : isHexDigit quote = false := by
    rcases eq_of_isQuote isQuote with rfl | rfl <;> decide
  have noBlank : isBlank quote = false := by
    rcases eq_of_isQuote isQuote with rfl | rfl <;> decide
  rw [escape]
  split
  · rename_i isDigit
    -- The first digit goes with the backslash; the others and the blank are plain characters.
    have digits : (takeRun 6 isHexDigit (first :: escaped)).1 =
        first :: (escaped.take 5).takeWhile isHexDigit :=
      List.takeWhile_cons_of_pos isDigit
    simp only [digits, List.cons_append, List.append_assoc]
    rw [behindQuote?, behindQuote?_takeWhile noDigit (by decide), takeRun,
      behindQuote?_takeWhile noBlank (by decide)]
  · rfl

/-- The scan of a string stops behind the closing quote, or passes over none. -/
theorem behindQuote?_quotedString (isQuote : isQuote quote = true) (text : List Char) :
    behindQuote? quote (quotedString quote text).source =
      if (quotedString quote text).value.ending = .closed then some [] else none := by
  have noBackslash : quote ≠ '\\' := by
    rcases eq_of_isQuote isQuote with rfl | rfl <;> decide
  fun_induction quotedString quote text with
  | case1 => rfl
  | case2 => exact (behindQuote?_cons noBackslash []).trans (if_pos rfl)
  | case3 => rfl
  | case4 other => exact if_neg other
  | case5 rest present _ escaped _ _ ih =>
    cases rest with
    | nil => contradiction
    | cons first behind => exact (behindQuote?_escape isQuote behind _).trans ih
  | case6 rest present _ _ _ ih =>
    cases rest with
    | nil => contradiction
    | cons first behind => exact ih
  | case7 first rest other _ noEscape ih =>
    rw [after, List.singleton_append, behindQuote?_cons noEscape, if_neg other]
    exact ih

end Quote

theorem isClosed_iff (quote : Char) (body : List Char) :
    IsClosed (String.ofList (quote :: body)) ↔ behindQuote? quote body = some [] := by
  unfold IsClosed
  rw [String.toList_ofList]
  constructor
  · rintro ⟨_, _, same, closed⟩
    cases same
    exact closed
  · intro closed
    exact ⟨quote, body, rfl, closed⟩

namespace Scan

variable {first : Char} {rest : List Char} {scan : Scan Recognized} {value : String}

/-- A string token is cut off unless its source is closed. -/
theorem isClosed_stringToken (isQuote : isQuote first = true)
    (isString : (stringToken first rest).value.token = .string value) :
    IsClosed (String.ofList (stringToken first rest).source) ↔
      (stringToken first rest).value.cutOff = none := by
  have source : (stringToken first rest).source = first :: (quotedString first rest).source := rfl
  rw [source, isClosed_iff, behindQuote?_quotedString isQuote]
  revert isString
  dsimp only [stringToken, after, map]
  cases (quotedString first rest).value.ending <;> intro isString
  · simp
  · simp
  · contradiction

theorem opening_quote (announced : opening first rest = .quote) : isQuote first = true := by
  unfold opening at announced
  repeat' split at announced
  all_goals first | assumption | contradiction

/-- Only a quote starts a string. -/
theorem stringToken_of_string (found : token (first :: rest) = some scan)
    (isString : scan.value.token = .string value) :
    isQuote first = true ∧ scan = stringToken first rest := by
  rw [token] at found
  cases announced : opening first rest <;> rw [announced] at found <;> cases found
  case quote => exact ⟨opening_quote announced, rfl⟩
  case mark mark =>
    have single := family_of_punctuation (opening_mark announced)
    cases isString
    contradiction
  case number =>
    unfold numericToken at isString
    dsimp only at isString
    split at isString
    · contradiction
    · split at isString <;> contradiction
  case hash =>
    unfold hashToken at isString
    split at isString <;> contradiction
  case atSign =>
    unfold atToken at isString
    split at isString <;> contradiction
  case hyphen =>
    unfold hyphenToken at isString
    split at isString
    · contradiction
    · split at isString
      · exact absurd isString (nameToken_ne rfl rfl _)
      · contradiction
  case name => exact absurd isString (nameToken_ne rfl rfl _)
  case symbol =>
    unfold symbolToken at isString
    split at isString <;> contradiction
  all_goals contradiction

end Scan

/-! ## Runs -/

/-- A string that its source does not close. -/
def Lexeme.IsOpenString (lexeme : Lexeme) : Prop :=
  (∃ value, lexeme.token = .string value) ∧ ¬ IsClosed lexeme.source

/-- How a run over a text may warn. -/
inductive Run.Marks (offset : Nat) (text : List Char) (run : Run) : Prop
  /-- Of nothing, all strings being closed. -/
  | nothing (quiet : run.warnings = []) (closed : ∀ lexeme ∈ run.lexemes, ¬ lexeme.IsOpenString)
  /-- Of the lexeme that the end of the text cuts off. -/
  | last {front : List Lexeme} {last : Lexeme} {construct : CutOff} {value : String}
      (succeeds : run.failure = none) (warns : run.warnings = [construct.warning last.offset])
      (lexemes : run.lexemes = front ++ [last, Lexeme.endAt (offset + text.length)])
      (cutOff : last.token = construct.token value)
      (toTheEnd : ∃ before, text = before ++ last.source.toList ∧
        last.offset = offset + before.length)
      (isOpen : construct = .string → last.IsOpenString)

/-- A lexeme is an open string only if the end of the text cuts it off. -/
theorem Scan.isOpenString_iff {first : Char} {rest : List Char} {scan : Scan Recognized}
    (found : Scan.token (first :: rest) = some scan) (start : Nat) :
    Lexeme.IsOpenString ⟨scan.value.token, String.ofList scan.source, start⟩ ↔
      scan.value.cutOff = some .string := by
  constructor
  · rintro ⟨⟨value, isString⟩, isOpen⟩
    obtain ⟨isQuote, rfl⟩ := stringToken_of_string found isString
    have cutOff := mt (isClosed_stringToken isQuote isString).mpr isOpen
    revert cutOff
    dsimp only [stringToken, after, map]
    cases (quotedString first rest).value.ending <;> intro cutOff
    · exact absurd rfl cutOff
    · rfl
    · exact absurd rfl cutOff
  · intro cutOff
    obtain ⟨-, value, isString⟩ := token_of_cutOff found cutOff
    obtain ⟨isQuote, rfl⟩ := stringToken_of_string found isString
    refine ⟨⟨value, isString⟩, fun closed => ?_⟩
    rw [(isClosed_stringToken isQuote isString).mp closed] at cutOff
    contradiction

/-- **Every run warns of what the end of the text cuts off**, and of nothing else. -/
theorem Run.marks (offset : Nat) (text : List Char) :
    (Run.ofText offset text).Marks offset text := by
  refine ofText_induction (motive := fun offset text run => run.Marks offset text)
    ?unterminated ?ends ?stray ?lexeme offset text
  case unterminated =>
    intro offset text _
    exact .nothing rfl (List.forall_mem_nil _)
  case stray =>
    intro offset text gap first rest _ _
    exact .nothing rfl (List.forall_mem_nil _)
  case ends =>
    intro offset text gap _
    refine .nothing rfl (List.forall_mem_singleton.mpr ?_)
    rintro ⟨⟨_, isString⟩, _⟩
    contradiction
  case lexeme =>
    intro offset text gap first rest scan skipped found ih
    have covers := comments_covers text
    rw [skipped] at covers
    have whole : text = gap ++ (scan.source ++ scan.rest) := by
      rw [token_covers found]
      exact covers.symm
    have length : offset + gap.length + scan.source.length + scan.rest.length =
        offset + text.length := by
      rw [whole, List.length_append, List.length_append]
      omega
    cases cutOff : scan.value.cutOff with
    | some construct =>
        -- Nothing stands behind what is cut off, so that the run ends there.
        obtain ⟨atEnd, value, isToken⟩ := token_of_cutOff found cutOff
        have stops : ofText (offset + gap.length + scan.source.length) scan.rest =
            stop none [Lexeme.endAt (offset + text.length)] [] (offset + text.length) := by
          rw [← length, atEnd]
          exact ofText_of_end (comments_of_none rfl)
        rw [atEnd, List.append_nil] at whole
        rw [stops]
        refine .last rfl rfl (List.nil_append _).symm isToken ⟨gap, ?_, rfl⟩ ?_
        · rw [whole, String.toList_ofList]
        · rintro rfl
          exact (isOpenString_iff found _).mpr cutOff
    | none =>
        cases ih with
        | nothing quiet closed =>
            refine .nothing quiet (List.forall_mem_cons.mpr ⟨?_, closed⟩)
            rw [isOpenString_iff found, cutOff]
            exact Option.some_ne_none _ |>.symm
        | @last front last construct value succeeds warns lexemes isToken toTheEnd isOpen =>
            obtain ⟨before, left, stands⟩ := toTheEnd
            have isLast := congrArg
              (List.cons ⟨scan.value.token, String.ofList scan.source, offset + gap.length⟩) lexemes
            rw [length, ← List.cons_append] at isLast
            refine .last succeeds warns isLast isToken
              ⟨gap ++ (scan.source ++ before), ?_, ?_⟩ isOpen
            · rw [whole, left]
              simp only [List.append_assoc]
            · rw [stands]
              simp only [List.length_append, Nat.add_assoc]

/-! ## Texts -/

theorem eq_string_of_warning {construct : CutOff} {start place : Nat}
    (same : CutOff.string.warning start = construct.warning place) : construct = .string := by
  cases construct with
  | string => rfl
  | address =>
      have messages := congrArg (fun warning => (warning.message.toList.drop 13).head?) same
      simp [CutOff.warning] at messages

/-- The lexeme that stands in front of the end of a text. -/
def IsLastLexeme (text : String) (lexeme : Lexeme) : Prop :=
  ∃ front, tokenize text = .ok (front ++ [lexeme, Lexeme.endAt text.length])

theorem IsLastLexeme.eq {text : String} {last other : Lexeme} (isLast : IsLastLexeme text last)
    (isOther : IsLastLexeme text other) : last = other := by
  obtain ⟨front, cut⟩ := isLast
  obtain ⟨front', cut'⟩ := isOther
  have same := Except.ok.inj (cut.symm.trans cut')
  exact List.head_eq_of_cons_eq (List.append_inj_right' same rfl)

/-- **A text is warned of at most once**, and only if it is cut to its end: of the last string
or address in it, which goes on to the end of the text. It is warned of a string just when
its last lexeme is one that is not closed. -/
theorem tokenizeWarnings_mark_cutOffs (text : String) :
    (tokenizeWarnings text).length ≤ 1 ∧
      (∀ warning ∈ tokenizeWarnings text, ∃ (construct : CutOff) (value : String) (last : Lexeme),
        IsLastLexeme text last ∧ last.token = construct.token value ∧
          warning = construct.warning last.offset ∧
            text.toList.drop last.offset = last.source.toList) ∧
      ((∃ start, CutOff.string.warning start ∈ tokenizeWarnings text) ↔
        ∃ (value : String) (last : Lexeme), IsLastLexeme text last ∧ last.token = .string value ∧
          ¬ IsClosed last.source) ∧
      ∀ error, tokenize text = .error error → tokenizeWarnings text = [] := by
  have warnings : tokenizeWarnings text = (Run.ofText 0 text.toList).warnings := rfl
  rw [warnings]
  cases Run.marks 0 text.toList with
  | nothing quiet closed =>
      rw [quiet]
      refine ⟨Nat.zero_le 1, List.forall_mem_nil _, ⟨?_, ?_⟩, fun _ _ => rfl⟩
      · rintro ⟨_, member⟩
        exact absurd member List.not_mem_nil
      · rintro ⟨value, last, ⟨front, succeeds⟩, isString, notClosed⟩
        have lexemes := (tokenize_eq_ok_iff.mp succeeds).2
        refine absurd ⟨⟨value, isString⟩, notClosed⟩ (closed last ?_)
        rw [lexemes]
        exact List.mem_append_right front List.mem_cons_self
  | @last front last construct value succeeds warns lexemes isToken toTheEnd isOpen =>
      obtain ⟨before, whole, stands⟩ := toTheEnd
      rw [Nat.zero_add] at stands
      rw [Nat.zero_add, String.length_toList] at lexemes
      have cut := tokenize_eq_ok_iff.mpr ⟨succeeds, lexemes⟩
      rw [warns]
      refine ⟨Nat.le_refl 1, List.forall_mem_singleton.mpr ?_, ⟨?_, ?_⟩, ?_⟩
      · refine ⟨construct, value, last, ⟨front, cut⟩, isToken, rfl, ?_⟩
        rw [whole, stands, List.drop_left]
      · rintro ⟨start, member⟩
        obtain rfl := eq_string_of_warning (List.mem_singleton.mp member)
        exact ⟨value, last, ⟨front, cut⟩, isToken, (isOpen rfl).2⟩
      · rintro ⟨_, other, isLast, isString, _⟩
        obtain rfl := IsLastLexeme.eq ⟨front, cut⟩ isLast
        rw [isToken] at isString
        cases construct with
        | string => exact ⟨_, List.mem_singleton_self _⟩
        | address => contradiction
      · intro error fails
        rw [cut] at fails
        contradiction

/-- A quote behind a backslash does not close a string, and the end of a text cuts off an
address as well. -/
theorem openString_warned :
    tokenizeWarnings "a '\\'" = [⟨"Tokenizer", "unterminated string at offset 2"⟩] ∧
      (∃ (value : String) (last : Lexeme), IsLastLexeme "a '\\'" last ∧
        last.token = .string value ∧ ¬ IsClosed last.source) ∧
      tokenizeWarnings "url(b" = [⟨"Tokenizer", "unterminated url at offset 0"⟩] := by
  have warned : tokenizeWarnings "a '\\'" = [CutOff.string.warning 2] := by decide +kernel
  have isOpen := (tokenizeWarnings_mark_cutOffs "a '\\'").2.2.1.mp
    ⟨2, warned ▸ List.mem_singleton_self _⟩
  exact ⟨by decide +kernel, isOpen, by decide +kernel⟩

end SelectorLang
