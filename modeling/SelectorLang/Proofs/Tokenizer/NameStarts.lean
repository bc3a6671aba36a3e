import SelectorLang.Proofs.Tokenizer.OneToken

/-! # Where a name starts

Behind a number sign and behind a commercial at, a name starts on one condition
(`SelectorLang.Scan.hash_iff`, `SelectorLang.Scan.atKeyword_iff`). A name that stands alone starts
on the same condition, unless its first character is a hyphen: then the token looks one character
further than a name has to, and some names are not seen (`SelectorLang.hasOnly_name`).
-/

namespace SelectorLang

open Scan CodePoint

/-- The tokens of a whole text are one and the end of the text. Comments count for nothing. -/
def HasOnly (text : String) (token : Token) : Prop :=
  (tokenize text).map (·.map Lexeme.token) = .ok [token, .endOfText]

instance (text : String) (token : Token) : Decidable (HasOnly text token) :=
  inferInstanceAs (Decidable ((tokenize text).map (·.map Lexeme.token) = .ok _))

/-! ## The tokens of a run -/

namespace Run

/-- A run goes to the end of its text and cuts lexemes with these tokens. -/
structure Yields (run : Run) (tokens : List Token) : Prop where
  succeeds : run.failure = none
  cuts : run.lexemes.map Lexeme.token = tokens

variable {offset : Nat} {text : List Char} {token : Token}

theorem yields_cons_iff {lexeme : Lexeme} {cutOff : Option CutOff} {run : Run}
    {tokens : List Token} :
    (run.cons lexeme cutOff).Yields (token :: tokens) ↔
      lexeme.token = token ∧ run.Yields tokens := by
  constructor
  · rintro ⟨succeeds, cuts⟩
    obtain ⟨isFirst, others⟩ := List.cons.inj cuts
    exact ⟨isFirst, succeeds, others⟩
  · rintro ⟨rfl, succeeds, rfl⟩
    exact ⟨succeeds, rfl⟩

/-- Nothing but the end is cut out of comments, and of them only. -/
theorem yields_end_iff : (ofText offset text).Yields [.endOfText] ↔ AreComments text := by
  constructor
  · refine ofText_induction (motive := fun _ text run => run.Yields [.endOfText] → AreComments text)
      ?unterminated ?ends ?stray ?lexeme offset text
    case unterminated => exact fun _ _ _ yields => absurd yields.succeeds (Option.some_ne_none _)
    case stray => exact fun _ _ _ _ _ _ _ yields => absurd yields.succeeds (Option.some_ne_none _)
    case ends =>
      intro offset text gap skipped _
      obtain ⟨areComments, -, rfl⟩ := areComments_of_comments skipped
      rwa [List.append_nil]
    case lexeme =>
      intro offset text gap first rest scan _ found _ yields
      exact absurd (yields_cons_iff.mp yields).1 (token_ne_endOfText found)
  · intro areComments
    rw [ofText_of_end areComments.comments_self]
    exact ⟨rfl, rfl⟩

/-- One token is cut where only comments stand behind it. -/
theorem yields_token_iff (noComment : commentStarts text = false) (notEnd : token ≠ .endOfText) :
    (ofText offset text).Yields [token, .endOfText] ↔
      ∃ scan, Scan.token text = some scan ∧ scan.value.token = token ∧ AreComments scan.rest := by
  have skipped := comments_of_none noComment
  cases text with
  | nil =>
      rw [ofText_of_end skipped]
      constructor
      · rintro ⟨-, cuts⟩
        cases cuts
      · rintro ⟨scan, found, rfl, -⟩
        cases found
        exact absurd rfl notEnd
  | cons first rest =>
      cases found : Scan.token (first :: rest) with
      | none =>
          rw [ofText_of_stray skipped found]
          constructor
          · rintro ⟨fails, -⟩
            contradiction
          · rintro ⟨scan, isScan, -⟩
            contradiction
      | some scan =>
          rw [ofText_of_token skipped found, yields_cons_iff, yields_end_iff]
          constructor
          · exact fun only => ⟨scan, rfl, only⟩
          · rintro ⟨other, same, only⟩
            cases same
            exact only

end Run

theorem hasOnly_iff_yields {text : String} {token : Token} :
    HasOnly text token ↔ (Run.ofText 0 text.toList).Yields [token, .endOfText] := by
  rw [HasOnly, map_eq_ok_iff]
  constructor
  · rintro ⟨lexemes, cut, tokens⟩
    obtain ⟨succeeds, rfl⟩ := tokenize_eq_ok_iff.mp cut
    exact ⟨succeeds, tokens⟩
  · rintro ⟨succeeds, tokens⟩
    exact ⟨_, tokenize_eq_ok_iff.mpr ⟨succeeds, rfl⟩, tokens⟩

/-! ## Names with nothing behind them -/

namespace Scan

/-- A name starts at the front of a text, and only comments stand behind it. -/
structure IsNameAlone (text : List Char) (name : String) : Prop where
  starts : nameStarts text = true
  spells : String.ofList (Scan.name text).value = name
  comments : AreComments (Scan.name text).rest

/-- The first token of a text is this one, and only comments stand behind it. -/
def IsAlone (text : List Char) (token : Token) : Prop :=
  ∃ scan, Scan.token text = some scan ∧ scan.value.token = token ∧ AreComments scan.rest

variable {text : List Char} {first : Char} {name : String}

theorem nameStarts_cons_iff (noHyphen : first ≠ '-') :
    nameStarts (first :: text) = true ↔
      startsName first = true ∨ first = '\\' ∧ escapes text = true := by
  rw [nameStarts, if_neg noHyphen, Bool.or_eq_true, Bool.and_eq_true, beq_iff_eq]

theorem hashStarts_of_nameStarts (starts : nameStarts text = true) : hashStarts text := by
  cases text with
  | nil => contradiction
  | cons first text =>
      by_cases hyphen : first = '-'
      · subst hyphen
        exact Or.inl (by decide : continuesName '-' = true)
      · refine ((nameStarts_cons_iff hyphen).mp starts).imp continuesName_of_startsName ?_
        exact fun escape => ⟨congrArg some escape.1, escape.2⟩

/-- What starts a name and is no hyphen announces a name. -/
theorem opening_of_nameStarts (noHyphen : first ≠ '-')
    (starts : nameStarts (first :: text) = true) : opening first text = .name := by
  rcases (nameStarts_cons_iff noHyphen).mp starts with plain | ⟨rfl, escape⟩
  · exact opening_of_startsName plain text
  · exact opening_of_escape escape

theorem token_numberSign : token ('#' :: text) = some (hashToken '#' text) :=
  rfl

theorem token_atSign : token ('@' :: text) = some (atToken '@' text) :=
  rfl

/-- Behind a number sign a name stands alone where it does without the sign. -/
theorem hash_iff : IsAlone ('#' :: text) (.hash name .id) ↔ IsNameAlone text name := by
  constructor
  · rintro ⟨scan, found, isHash, behind⟩
    rw [token_numberSign] at found
    cases found
    by_cases starts : hashStarts text
    · rw [hashToken_of_name starts] at isHash behind
      obtain ⟨spells, kind⟩ := Token.hash.inj isHash
      cases starts : nameStarts text with
      | true => exact ⟨starts, spells, behind⟩
      | false =>
          rw [starts] at kind
          contradiction
    · rw [hashToken_of_sign starts] at isHash
      contradiction
  · rintro ⟨starts, rfl, behind⟩
    refine ⟨_, token_numberSign, ?_, ?_⟩
    · rw [hashToken_of_name (hashStarts_of_nameStarts starts), if_pos starts]
      rfl
    · rwa [hashToken_of_name (hashStarts_of_nameStarts starts)]

/-- Behind a commercial at a name stands alone where it does without it. -/
theorem atKeyword_iff : IsAlone ('@' :: text) (.atKeyword name) ↔ IsNameAlone text name := by
  constructor
  · rintro ⟨scan, found, isKeyword, behind⟩
    rw [token_atSign] at found
    cases found
    unfold atToken at isKeyword behind
    split at isKeyword
    · rename_i starts
      rw [if_pos starts] at behind
      exact ⟨starts, Token.atKeyword.inj isKeyword, behind⟩
    · contradiction
  · rintro ⟨starts, rfl, behind⟩
    refine ⟨_, token_atSign, ?_, ?_⟩ <;> rw [atToken, if_pos starts]
    · rfl
    · exact behind

/-- A name that is a token has a name in front of it, as far as the token sees. -/
theorem spells_of_ident (isAlone : IsAlone (first :: text) (.ident name)) :
    (opening first text = .name ∨
      opening first text = .hyphen ∧ continuesHyphen (text.drop 1) = true) ∧
      String.ofList (Scan.name (first :: text)).value = name ∧
      AreComments (Scan.name (first :: text)).rest := by
  obtain ⟨scan, found, isIdent, behind⟩ := isAlone
  obtain ⟨rfl, announced⟩ := nameToken_of_named found (by rw [isIdent]; rfl)
  have whole := nameToken_of_ident isIdent
  rw [whole] at isIdent behind
  exact ⟨announced, Token.ident.inj isIdent, behind⟩

/-- A name without a hyphen in front is a token where it stands alone. -/
theorem ident_iff (noHyphen : text.head? ≠ some '-') :
    IsAlone text (.ident name) ↔ IsNameAlone text name := by
  cases text with
  | nil =>
      constructor
      · rintro ⟨scan, found, isIdent, -⟩
        cases found
        contradiction
      · rintro ⟨starts, -⟩
        contradiction
  | cons first text =>
      have noHyphen : first ≠ '-' := fun hyphen => noHyphen (congrArg some hyphen)
      constructor
      · intro isAlone
        obtain ⟨announced, spells, behind⟩ := spells_of_ident isAlone
        refine ⟨(nameStarts_cons_iff noHyphen).mpr ?_, spells, behind⟩
        rcases announced with isName | ⟨isHyphen, -⟩
        · exact opening_name isName
        · exact absurd (opening_hyphen isHyphen) noHyphen
      · rintro ⟨starts, rfl, behind⟩
        have noCall : (Scan.name (first :: text)).rest.head? ≠ some '(' := by
          rcases behind.eq_nil_or with none | ⟨rest, opens⟩
          · rw [none]
            exact Option.some_ne_none _ |>.symm
          · rw [opens]
            exact fun isCall => absurd (Option.some.inj isCall) (by decide)
        refine ⟨nameToken (first :: text), ?_, ?_, ?_⟩
        · rw [token, opening_of_nameStarts noHyphen starts]
          rfl
        · rw [nameToken_of_name rfl noCall]
          rfl
        · rwa [nameToken_of_name rfl noCall]

/-- A hyphen that is a token with the name behind it starts a name. The token does not look at the
second character. -/
theorem nameStarts_of_ident (isAlone : IsAlone ('-' :: text) (.ident name)) :
    nameStarts ('-' :: text) = true := by
  obtain ⟨announced, -, behind⟩ := spells_of_ident isAlone
  obtain ⟨isHyphen, continuesThird⟩ := announced.resolve_left fun isName => by
    rcases opening_name isName with starts | ⟨backslash, -⟩ <;> contradiction
  have noNumber := numberStarts_of_opening_hyphen isHyphen
  rw [name_of_continues (by decide)] at behind
  cases text with
  | nil => contradiction
  | cons second text =>
      rw [nameStarts, if_pos rfl]
      -- Without a name the second character is a digit, which makes a number, or opens a
      -- comment, and then the hyphen sees an asterisk.
      refine eq_true_of_ne_false fun noName => ?_
      simp only [continuesHyphen, Bool.or_eq_false_iff, beq_eq_false_iff_ne, Bool.and_eq_false_iff]
        at noName
      obtain ⟨⟨noStart, noHyphen⟩, noEscape⟩ := noName
      have noDigit : second.isDigit = false := by
        have sign : signPart ('-' :: second :: text) = (['-'], second :: text) := rfl
        rw [numberStarts_eq, sign, unsignedStarts, Bool.or_eq_false_iff] at noNumber
        exact noNumber.1
      have outside : continuesName second = false := by
        rw [continuesName, noDigit, noStart, beq_eq_false_iff_ne.mpr noHyphen]
        rfl
      have stops : Scan.name (second :: text) = ⟨[], [], second :: text⟩ := by
        refine name_of_stops outside ?_
        rintro ⟨isBackslash, isEscape⟩
        rw [isEscape] at noEscape
        exact noEscape.elim (absurd isBackslash) Bool.noConfusion
      rw [stops] at behind
      rcases behind.eq_nil_or with none | ⟨rest, opens⟩
      · contradiction
      · cases opens
        contradiction

end Scan

/-! ## One name, seen in three ways -/

theorem hasOnly_iff_isAlone {text : String} {characters : List Char} {token : Token}
    (isText : text.toList = characters) (noSlash : characters.head? ≠ some '/')
    (notEnd : token ≠ .endOfText) : HasOnly text token ↔ IsAlone characters token := by
  rw [hasOnly_iff_yields, isText, Run.yields_token_iff (commentStarts_of_head noSlash) notEnd,
    IsAlone]

/-- **A name is seen behind a number sign where it is seen behind a commercial at**, and where
it is seen alone if no hyphen is in front. A hyphen that starts a name alone starts one behind
both signs. -/
theorem hasOnly_name (text name : String) :
    (HasOnly ("#" ++ text) (.hash name .id) ↔ HasOnly ("@" ++ text) (.atKeyword name)) ∧
      (text.toList.head? ≠ some '-' → text.toList.head? ≠ some '/' →
        (HasOnly text (.ident name) ↔ HasOnly ("#" ++ text) (.hash name .id)) ∧
          (HasOnly text (.ident name) ↔ HasOnly ("@" ++ text) (.atKeyword name))) ∧
      (text.toList.head? = some '-' → HasOnly text (.ident name) →
        HasOnly ("#" ++ text) (.hash name .id) ∧ HasOnly ("@" ++ text) (.atKeyword name)) := by
  have sign {whole : String} {character : Char} (isWhole : whole.toList = character :: text.toList)
      (noSlash : character ≠ '/') {token : Token} (notEnd : token ≠ .endOfText) :
      HasOnly whole token ↔ IsAlone (character :: text.toList) token :=
    hasOnly_iff_isAlone isWhole (fun slash => noSlash (Option.some.inj slash)) notEnd
  have hash : HasOnly ("#" ++ text) (.hash name .id) ↔ IsNameAlone text.toList name :=
    (sign String.toList_append (by decide) Token.noConfusion).trans hash_iff
  have keyword : HasOnly ("@" ++ text) (.atKeyword name) ↔ IsNameAlone text.toList name :=
    (sign String.toList_append (by decide) Token.noConfusion).trans atKeyword_iff
  refine ⟨hash.trans keyword.symm, fun noHyphen noSlash => ?_, fun hyphen isIdent => ?_⟩
  · have ident : HasOnly text (.ident name) ↔ IsNameAlone text.toList name :=
      (hasOnly_iff_isAlone rfl noSlash Token.noConfusion).trans (ident_iff noHyphen)
    exact ⟨ident.trans hash.symm, ident.trans keyword.symm⟩
  · have noSlash : text.toList.head? ≠ some '/' := by
      rw [hyphen]
      decide
    have isAlone := (hasOnly_iff_isAlone rfl noSlash Token.noConfusion).mp isIdent
    rw [hash, keyword, and_self]
    cases characters : text.toList with
    | nil =>
        rw [characters] at hyphen
        contradiction
    | cons first behind =>
        rw [characters] at hyphen isAlone
        cases hyphen
        obtain ⟨-, spells, comments⟩ := spells_of_ident isAlone
        exact ⟨nameStarts_of_ident isAlone, spells, comments⟩

/-- A name with an escape and a comment behind it, and one with two hyphens in front. -/
theorem escapedName_and_customName_seen :
    HasOnly "\\2d a/**/" (.ident "-a") ∧ HasOnly ("#" ++ "\\2d a/**/") (.hash "-a" .id) ∧
      HasOnly "--a" (.ident "--a") ∧ HasOnly ("@" ++ "--a") (.atKeyword "--a") := by
  have escaped : HasOnly "\\2d a/**/" (.ident "-a") := by decide +kernel
  have custom : HasOnly "--a" (.ident "--a") := by decide +kernel
  have hash := ((hasOnly_name "\\2d a/**/" "-a").2.1 (by decide) (by decide)).1.mp escaped
  have keyword := ((hasOnly_name "--a" "--a").2.2 (by decide) custom).2
  exact ⟨escaped, hash, custom, keyword⟩

/-- Alone a hyphen in front of a name of one character is not seen as a part of it. -/
example : HasOnly "#-a" (.hash "-a" .id) ∧ ¬ HasOnly "-a" (.ident "-a") := by decide +kernel

end SelectorLang
