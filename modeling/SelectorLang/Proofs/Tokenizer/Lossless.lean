import SelectorLang.Proofs.Scan.Openings
import SelectorLang.Proofs.Tokenizer.Run

/-! # Cutting a text loses nothing

The lexemes of a text stand in it one behind the other, each at its offset, with nothing
but comments between them (`SelectorLang.Tiles`). So the sources of the lexemes and the
comments in between are the text again (`SelectorLang.tokenize_lossless`).
-/

namespace SelectorLang

open Scan

/-! ## Comments -/

/-- A comment ends with the first `*/` behind its opening. -/
def IsComment (characters : List Char) : Prop :=
  ∃ body, characters = ['/', '*'] ++ (body ++ ['*', '/']) ∧
    ∀ earlier, earlier ++ ['*', '/'] <+: body ++ ['*', '/'] → earlier = body

/-- Some comments, one behind the other. -/
def AreComments (characters : List Char) : Prop :=
  ∃ pieces : List (List Char), (∀ piece ∈ pieces, IsComment piece) ∧ pieces.flatten = characters

theorem areComments_nil : AreComments [] :=
  ⟨[], List.forall_mem_nil _, rfl⟩

theorem AreComments.cons {comment characters : List Char} (first : IsComment comment)
    (others : AreComments characters) : AreComments (comment ++ characters) := by
  obtain ⟨pieces, areComments, rfl⟩ := others
  exact ⟨comment :: pieces, List.forall_mem_cons.mpr ⟨first, areComments⟩, rfl⟩

/-- The scan of a comment goes to the first `*/`. -/
theorem commentBody_source {text : List Char} {scan : Scan Unit}
    (found : commentBody text = some scan) :
    ∃ body, scan.source = body ++ ['*', '/'] ∧
      ∀ earlier, earlier ++ ['*', '/'] <+: body ++ ['*', '/'] → earlier = body := by
  induction text generalizing scan with
  | nil => contradiction
  | cons first rest ih =>
      rw [commentBody] at found
      split at found
      · rename_i ends
        cases found
        refine ⟨[], by rw [ends.1, List.nil_append], ?_⟩
        intro earlier initial
        have short := initial.length_le
        rw [List.length_append, List.nil_append] at short
        exact List.eq_nil_of_length_eq_zero (by omega)
      · rename_i goesOn
        obtain ⟨inner, innerFound, rfl⟩ := Option.map_eq_some_iff.mp found
        obtain ⟨body, same, isFirst⟩ := ih innerFound
        refine ⟨first :: body, congrArg (first :: ·) same, ?_⟩
        intro earlier initial
        cases earlier with
        | nil =>
            -- Then the text has `*/` at its front, where the scan would have ended.
            rw [List.nil_append, List.cons_append, ← same] at initial
            obtain ⟨asterisk, slash⟩ := List.cons_prefix_cons.mp initial
            obtain ⟨behind, whole⟩ := slash.trans ⟨inner.rest, commentBody_covers innerFound⟩
            exact absurd ⟨asterisk.symm, by rw [← whole]; rfl⟩ goesOn
        | cons character earlier =>
            rw [List.cons_append, List.cons_append] at initial
            obtain ⟨rfl, behind⟩ := List.cons_prefix_cons.mp initial
            rw [isFirst earlier behind]

/-- What is skipped in front of a token is comments. -/
theorem comments_areComments (text : List Char) : AreComments (comments text).source := by
  fun_induction comments text with
  | case1 => exact areComments_nil
  | case2 text starts body found ih =>
      obtain ⟨inner, same, isFirst⟩ := commentBody_source found
      refine AreComments.cons ⟨inner, ?_, isFirst⟩ ih
      rw [same]
      congr 1
      unfold commentStarts at starts
      split at starts
      · rfl
      · contradiction
  | case3 => exact areComments_nil

/-! ## Tilings -/

/-- Where a lexeme stops. -/
def Lexeme.stop (lexeme : Lexeme) : Nat :=
  lexeme.offset + lexeme.source.length

/-- The lexemes of a text that starts at an offset. -/
inductive Tiles : Nat → List Char → List Lexeme → Prop
  | endOfText {offset : Nat} {gap : List Char} (skipped : AreComments gap) :
      Tiles offset gap [Lexeme.endAt (offset + gap.length)]
  | lexeme {offset : Nat} {gap text : List Char} {lexeme : Lexeme} {lexemes : List Lexeme}
      (skipped : AreComments gap) (stands : lexeme.offset = offset + gap.length)
      (nonempty : lexeme.source ≠ "") (notEnd : lexeme.token ≠ .endOfText)
      (rest : Tiles lexeme.stop text lexemes) :
      Tiles offset (gap ++ (lexeme.source.toList ++ text)) (lexeme :: lexemes)

theorem punctuation_ne_endOfText {character : Char} {mark : Token}
    (stands : punctuation? character = some mark) : mark ≠ .endOfText := by
  unfold punctuation? at stands
  split at stands <;> cases stands <;> nofun

theorem Token.ne_endOfText {token : Token} (goesOn : token.isEnd = false) : token ≠ .endOfText := by
  rintro rfl
  contradiction

/-- In front of a character, no token is the end of the text. -/
theorem token_ne_endOfText {first : Char} {rest : List Char} {scan : Scan Recognized}
    (found : token (first :: rest) = some scan) : scan.value.token ≠ .endOfText := by
  rw [token] at found
  cases announced : opening first rest <;> rw [announced] at found <;> cases found
  case blank => exact Token.ne_endOfText rfl
  case mark mark => exact punctuation_ne_endOfText (opening_mark announced)
  case quote =>
    dsimp only [stringToken, Scan.after, Scan.map]
    split <;> exact Token.ne_endOfText rfl
  case number =>
    unfold numericToken
    dsimp only
    split
    · exact Token.ne_endOfText rfl
    · split <;> exact Token.ne_endOfText rfl
  case hash =>
    unfold hashToken
    split <;> exact Token.ne_endOfText rfl
  case atSign =>
    unfold atToken
    split <;> exact Token.ne_endOfText rfl
  case hyphen =>
    unfold hyphenToken
    split
    · exact Token.ne_endOfText rfl
    · split
      · exact nameToken_ne rfl rfl _
      · exact Token.ne_endOfText rfl
  case markup => exact Token.ne_endOfText rfl
  case name => exact nameToken_ne rfl rfl _
  case symbol =>
    unfold symbolToken
    split <;> exact Token.ne_endOfText rfl

/-- **A run over a text to its end tiles it.** -/
theorem Run.tiles_of_failure_eq_none (offset : Nat) (text : List Char) :
    (Run.ofText offset text).failure = none →
      Tiles offset text (Run.ofText offset text).lexemes := by
  refine Run.ofText_induction (motive := fun offset text run =>
    run.failure = none → Tiles offset text run.lexemes) ?unterminated ?ends ?stray ?lexeme
    offset text
  case unterminated =>
    intro offset text noEnd succeeds
    contradiction
  case stray =>
    intro offset text gap first rest skipped stray succeeds
    contradiction
  case ends =>
    intro offset text gap skipped _
    have comments := comments_areComments text
    have covers := comments_covers text
    rw [skipped] at comments covers
    have whole : gap = text := (List.append_nil gap).symm.trans covers
    rw [← whole]
    exact .endOfText comments
  case lexeme =>
    intro offset text gap first rest scan skipped found ih succeeds
    have comments := comments_areComments text
    have covers := comments_covers text
    rw [skipped] at comments covers
    have tokenCovers := token_covers found
    let lexeme : Lexeme :=
      ⟨scan.value.token, String.ofList scan.source, offset + gap.length⟩
    have source : lexeme.source.toList = scan.source := String.toList_ofList
    have stop : lexeme.stop = offset + gap.length + scan.source.length := by
      rw [Lexeme.stop, ← String.length_toList, source]
    have nonempty : lexeme.source ≠ "" := by
      intro empty
      rw [empty] at source
      exact token_source_ne_nil found source.symm
    have whole : text = gap ++ (lexeme.source.toList ++ scan.rest) := by
      rw [source, tokenCovers]
      exact covers.symm
    rw [whole]
    refine .lexeme comments rfl nonempty (token_ne_endOfText found) ?_
    rw [stop]
    exact ih succeeds

/-! ## What a tiling says -/

/-- What stands in front of each lexeme, behind the one before it. -/
def gaps (text : List Char) (start : Nat) : List Lexeme → List (List Char)
  | [] => []
  | lexeme :: rest => text.extract start lexeme.offset :: gaps text lexeme.stop rest

/-- The gaps and the sources of the lexemes by turns. -/
def interleave (gaps : List (List Char)) (lexemes : List Lexeme) : List Char :=
  (List.zipWith (fun gap lexeme => gap ++ lexeme.source.toList) gaps lexemes).flatten

/-- Nothing of a text is lost in its lexemes. -/
structure Lossless (text : List Char) (lexemes : List Lexeme) : Prop where
  /-- Each source is the part of the text between its offset and its end. -/
  slices : ∀ lexeme ∈ lexemes, text.extract lexeme.offset lexeme.stop = lexeme.source.toList
  /-- No lexeme goes beyond the text. -/
  inside : ∀ lexeme ∈ lexemes, lexeme.stop ≤ text.length
  /-- Only the end of the text has no source. -/
  nonempty : ∀ lexeme ∈ lexemes, lexeme.token ≠ .endOfText → lexeme.source ≠ ""
  /-- The lexemes are in the order of the text and do not overlap. -/
  ordered : lexemes.Pairwise fun earlier later => earlier.stop ≤ later.offset
  /-- Only comments stand in front of a lexeme. -/
  commented : ∀ gap ∈ gaps text 0 lexemes, AreComments gap
  /-- The last lexeme, and no other, is the end of the text. -/
  ending : ∃ front, lexemes = front ++ [Lexeme.endAt text.length] ∧
    ∀ lexeme ∈ front, lexeme.token ≠ .endOfText
  /-- The comments and the sources make up the text. -/
  rebuilt : interleave (gaps text 0 lexemes) lexemes = text

theorem extract_append_middle (before middle behind : List Char) :
    (before ++ (middle ++ behind)).extract before.length (before.length + middle.length) =
      middle := by
  rw [List.extract_eq_take_drop, Nat.add_sub_cancel_left, List.drop_left, List.take_left]

theorem Lexeme.stop_endAt (offset : Nat) : (Lexeme.endAt offset).stop = offset :=
  rfl

namespace Tiles

variable {offset : Nat} {text : List Char} {lexemes : List Lexeme}

theorem offset_le (tiles : Tiles offset text lexemes) :
    ∀ lexeme ∈ lexemes, offset ≤ lexeme.offset := by
  induction tiles with
  | endOfText =>
      rw [List.forall_mem_singleton]
      exact Nat.le_add_right _ _
  | lexeme _ stands _ _ _ ih =>
      have first : ∀ {start : Nat} {lexeme : Lexeme}, start ≤ lexeme.offset → start ≤ lexeme.stop :=
        fun before => Nat.le_trans before (Nat.le_add_right _ _)
      have here := stands ▸ Nat.le_add_right _ _
      refine List.forall_mem_cons.mpr ⟨here, ?_⟩
      intro later member
      exact Nat.le_trans (first here) (ih later member)

theorem ordered (tiles : Tiles offset text lexemes) :
    lexemes.Pairwise fun earlier later => earlier.stop ≤ later.offset := by
  induction tiles with
  | endOfText => exact List.pairwise_singleton _ _
  | lexeme _ _ _ _ rest ih => exact List.pairwise_cons.mpr ⟨rest.offset_le, ih⟩

theorem nonempty (tiles : Tiles offset text lexemes) :
    ∀ lexeme ∈ lexemes, lexeme.token ≠ .endOfText → lexeme.source ≠ "" := by
  induction tiles with
  | endOfText =>
      rw [List.forall_mem_singleton]
      exact fun notEnd => absurd rfl notEnd
  | lexeme _ _ nonempty _ _ ih => exact List.forall_mem_cons.mpr ⟨fun _ => nonempty, ih⟩

theorem ending (tiles : Tiles offset text lexemes) :
    ∃ front, lexemes = front ++ [Lexeme.endAt (offset + text.length)] ∧
      ∀ lexeme ∈ front, lexeme.token ≠ .endOfText := by
  induction tiles with
  | endOfText => exact ⟨[], rfl, List.forall_mem_nil _⟩
  | @lexeme _ gap text lexeme _ _ stands _ notEnd _ ih =>
      obtain ⟨front, rfl, notEnds⟩ := ih
      refine ⟨lexeme :: front, ?_, List.forall_mem_cons.mpr ⟨notEnd, notEnds⟩⟩
      rw [List.cons_append, Lexeme.stop, stands, ← String.length_toList]
      simp only [List.length_append, Nat.add_assoc]

/-- The lexemes behind a part of the text are its slices. -/
theorem slices (tiles : Tiles offset text lexemes) (before : List Char)
    (length : before.length = offset) :
    ∀ lexeme ∈ lexemes,
      (before ++ text).extract lexeme.offset lexeme.stop = lexeme.source.toList ∧
        lexeme.stop ≤ (before ++ text).length := by
  induction tiles generalizing before with
  | endOfText =>
      rw [List.forall_mem_singleton, Lexeme.stop_endAt, Lexeme.endAt, List.extract_eq_take_drop,
        Nat.sub_self, List.take_zero, List.length_append, length]
      exact ⟨rfl, Nat.le_refl _⟩
  | @lexeme _ gap text lexeme _ _ stands _ _ _ ih =>
      subst length
      have front : lexeme.offset = (before ++ gap).length := by rw [stands, List.length_append]
      have stop : (before ++ gap ++ lexeme.source.toList).length = lexeme.stop := by
        rw [List.length_append, ← front, String.length_toList, Lexeme.stop]
      refine List.forall_mem_cons.mpr ⟨⟨?_, ?_⟩, ?_⟩
      · rw [← List.append_assoc, Lexeme.stop, front, ← String.length_toList]
        exact extract_append_middle _ _ _
      · rw [← stop]
        simp only [List.length_append]
        omega
      · have later := ih _ stop
        rwa [List.append_assoc, List.append_assoc] at later

/-- Between the lexemes stand comments, which make up the text with them. -/
theorem rebuilt (tiles : Tiles offset text lexemes) (before : List Char)
    (length : before.length = offset) :
    (∀ gap ∈ gaps (before ++ text) offset lexemes, AreComments gap) ∧
      interleave (gaps (before ++ text) offset lexemes) lexemes = text := by
  induction tiles generalizing before with
  | @endOfText _ gap skipped =>
      subst length
      have only : gaps (before ++ gap) before.length [Lexeme.endAt (before.length + gap.length)] =
          [gap] := by
        have middle := extract_append_middle before gap []
        rw [List.append_nil] at middle
        rw [gaps, gaps, Lexeme.endAt, middle]
      rw [only, List.forall_mem_singleton]
      refine ⟨skipped, ?_⟩
      simp [interleave, Lexeme.endAt]
  | @lexeme _ gap text lexeme lexemes skipped stands _ _ _ ih =>
      subst length
      have stop : (before ++ gap ++ lexeme.source.toList).length = lexeme.stop := by
        simp only [List.length_append, String.length_toList, Lexeme.stop, stands]
      obtain ⟨areComments, whole⟩ := ih _ stop
      rw [List.append_assoc, List.append_assoc] at areComments whole
      have first := extract_append_middle before gap (lexeme.source.toList ++ text)
      rw [gaps, stands, first]
      refine ⟨List.forall_mem_cons.mpr ⟨skipped, areComments⟩, ?_⟩
      rw [interleave, List.zipWith_cons_cons, List.flatten_cons, List.append_assoc]
      exact congrArg (fun rest => gap ++ (lexeme.source.toList ++ rest)) whole

/-- **A tiling loses nothing.** -/
theorem lossless (tiles : Tiles 0 text lexemes) : Lossless text lexemes where
  slices lexeme member := (tiles.slices [] rfl lexeme member).1
  inside lexeme member := (tiles.slices [] rfl lexeme member).2
  nonempty := tiles.nonempty
  ordered := tiles.ordered
  commented := (tiles.rebuilt [] rfl).1
  ending := by
    have ending := tiles.ending
    rwa [Nat.zero_add] at ending
  rebuilt := (tiles.rebuilt [] rfl).2

end Tiles

/-! ## Where a run stands -/

/-- What a run took and what it left are the text, whatever it came to. -/
theorem Run.exists_taken (offset : Nat) (text : List Char) :
    ∃ taken, taken ++ (Run.ofText offset text).remaining = text ∧
      (Run.ofText offset text).offset = offset + taken.length := by
  refine Run.ofText_induction (motive := fun offset text run =>
    ∃ taken, taken ++ run.remaining = text ∧ run.offset = offset + taken.length)
    ?unterminated ?ends ?stray ?lexeme offset text
  case unterminated =>
    intro offset text _
    refine ⟨text, List.append_nil text, ?_⟩
    have length := congrArg List.length (comments_covers text)
    rw [List.length_append] at length
    rw [← length, ← Nat.add_assoc]
    rfl
  case ends =>
    intro offset text gap skipped
    have covers := comments_covers text
    rw [skipped] at covers
    exact ⟨gap, covers, rfl⟩
  case stray =>
    intro offset text gap first rest skipped _
    have covers := comments_covers text
    rw [skipped] at covers
    refine ⟨gap ++ [first], ?_, ?_⟩
    · rw [List.append_assoc]
      exact covers
    · rw [List.length_append, ← Nat.add_assoc]
      rfl
  case lexeme =>
    intro offset text gap first rest scan skipped found ih
    obtain ⟨taken, whole, stands⟩ := ih
    have covers := comments_covers text
    rw [skipped] at covers
    have tokenCovers := token_covers found
    refine ⟨gap ++ scan.source ++ taken, ?_, ?_⟩
    · rw [List.append_assoc, List.append_assoc]
      change gap ++ (scan.source ++ (taken ++ (ofText _ scan.rest).remaining)) = text
      rw [whole, tokenCovers]
      exact covers
    · refine stands.trans ?_
      simp only [List.length_append, Nat.add_assoc]

theorem Run.remaining_of_failure_eq_none (offset : Nat) (text : List Char) :
    (Run.ofText offset text).failure = none → (Run.ofText offset text).remaining = [] := by
  refine Run.ofText_induction (motive := fun _ _ run => run.failure = none → run.remaining = [])
    (fun _ _ _ _ => rfl) (fun _ _ _ _ _ => rfl) ?stray ?lexeme offset text
  case stray =>
    intro offset text gap first rest _ _ succeeds
    contradiction
  case lexeme =>
    intro offset text gap first rest scan _ _ ih
    exact ih

theorem tokenize_eq_ok_iff {text : String} {lexemes : List Lexeme} :
    tokenize text = .ok lexemes ↔
      (Run.ofText 0 text.toList).failure = none ∧
        (Run.ofText 0 text.toList).lexemes = lexemes := by
  unfold tokenize Tokenizer.nextRun Tokenizer.ofText
  dsimp only
  cases (Run.ofText 0 text.toList).failure with
  | none => simp only [Except.ok.injEq, true_and]
  | some error => simp only [reduceCtorEq, false_and]

/-- **Cutting a text loses nothing.** When a text can be cut, its lexemes are slices of
it in order, with nothing but comments in between and the end of the text as the last;
the tokenizer has gone to the end of the text and not beyond. -/
theorem tokenize_lossless {text : String} {lexemes : List Lexeme}
    (succeeds : tokenize text = .ok lexemes) :
    Lossless text.toList lexemes ∧
      (Tokenizer.ofText text).advance.remaining = [] ∧
        (Tokenizer.ofText text).advance.offset = text.length := by
  obtain ⟨noFailure, rfl⟩ := tokenize_eq_ok_iff.mp succeeds
  have remaining := Run.remaining_of_failure_eq_none 0 text.toList noFailure
  obtain ⟨taken, whole, stands⟩ := Run.exists_taken 0 text.toList
  refine ⟨(Run.tiles_of_failure_eq_none 0 text.toList noFailure).lossless, remaining, ?_⟩
  rw [remaining, List.append_nil] at whole
  rw [Nat.zero_add, whole, String.length_toList] at stands
  exact stands

/-- A text with comments at both ends and behind an escape. -/
def commentedText : String := "/**/a\\31 /*.*/>\"b/*\"/***/"

theorem commentedText_lossless :
    ∃ lexemes, tokenize commentedText = .ok lexemes ∧
      Lossless commentedText.toList lexemes ∧
        (Tokenizer.ofText commentedText).advance.remaining = [] ∧
          (Tokenizer.ofText commentedText).advance.offset = commentedText.length := by
  have succeeds : tokenize commentedText = .ok [
      ⟨.ident "a1", "a\\31 ", 4⟩, ⟨.delim '>', ">", 14⟩, ⟨.string "b/*", "\"b/*\"", 15⟩,
      Lexeme.endAt 25] :=
    tokenize_eq_ok_iff.mpr (by decide +kernel)
  exact ⟨_, succeeds, tokenize_lossless succeeds⟩

end SelectorLang
