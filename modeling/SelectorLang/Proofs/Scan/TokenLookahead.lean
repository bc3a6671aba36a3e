import SelectorLang.Proofs.Scan.AddressLookahead

/-! # What tokens see of the text behind them

A token within the front of a text is the same when something quiet stands behind that
front (`SelectorLang.Scan.token_tail`). There are a few exceptions, which are conditions
here (`SelectorLang.Scan.TokenEnds`): what the end of the text cuts off goes on, blanks
join blanks, a hyphen looks two characters ahead and `url(` looks for a quote behind any
number of blanks.
-/

namespace SelectorLang

/-- The tokens that unquoted addresses are, sound or broken. -/
def Token.isAddress : Token → Bool
  | url _ | badUrl => true
  | _ => false

namespace Scan

open CodePoint

variable {text rest tail tail' : List Char}

/-- The conditions under which a token that leaves a rest in front of a text is the same
in front of another text. -/
structure TokenEnds (scan : Scan Recognized) (rest tail tail' : List Char) : Prop where
  /-- No token goes on with the other text, blanks apart. -/
  quiet : Quiet tail'
  /-- Names and escapes end. -/
  names : NameEnds scan.source rest tail tail'
  /-- Blanks do not join blanks. -/
  blank : rest = [] → tail'.head?.any isBlank = true → scan.value.token ≠ .whitespace
  /-- The end of the text does not cut the token off. -/
  whole : scan.value.cutOff = none
  /-- A line feed that breaks a string stands in the rest. -/
  unbroken : rest = [] → scan.value.token ≠ .badString
  /-- An address leaves something, so that it is closed. -/
  address : scan.value.token.isAddress = true → rest ++ tail ≠ []
  /-- The quote that an address function looks for stands in the rest. -/
  quoted : ∀ name, scan.value.token = .function name →
    name.toList.map Char.toLower = ['u', 'r', 'l'] → rest.dropWhile isBlank ≠ []
  /-- A hyphen that starts no number finds the same two characters ahead. -/
  hyphen : (scan.source ++ rest).head? = some '-' →
    numberStarts (scan.source ++ rest ++ tail) = false →
    continuesHyphen ((scan.source ++ rest ++ tail').drop 2) =
      continuesHyphen ((scan.source ++ rest ++ tail).drop 2)

theorem dropWhile_eq_drop {member : Char → Bool} (text : List Char) :
    text.dropWhile member = text.drop (text.takeWhile member).length := by
  have left := @List.drop_left _ (text.takeWhile member) (text.dropWhile member)
  rw [List.takeWhile_append_dropWhile] at left
  exact left.symm

theorem fixed_tail {token : Token} {length : Nat}
    (stays : (fixed token length (text ++ tail)).rest = rest ++ tail)
    (enough : length ≤ (text ++ tail).length) :
    length ≤ text.length ∧
      fixed token length (text ++ tail') =
        (fixed token length (text ++ tail)).leaving (rest ++ tail') := by
  have lengths := congrArg List.length stays
  simp only [fixed, List.length_drop, List.length_append] at lengths enough
  have inside : length ≤ text.length := by omega
  refine ⟨inside, ?_⟩
  simp only [fixed] at stays
  rw [List.drop_append_of_le_length inside] at stays
  have same : text.drop length = rest := List.append_cancel_right stays
  simp only [fixed, leaving, List.drop_append_of_le_length inside,
    List.take_append_of_le_length inside, same]

theorem stringToken_tail {quote : Char}
    (stays : (stringToken quote (text ++ tail)).rest = rest ++ tail)
    (whole : (stringToken quote (text ++ tail)).value.cutOff = none)
    (unbroken : rest = [] → (stringToken quote (text ++ tail)).value.token ≠ .badString) :
    stringToken quote (text ++ tail') =
      (stringToken quote (text ++ tail)).leaving (rest ++ tail') := by
  have same : quotedString quote (text ++ tail') =
      (quotedString quote (text ++ tail)).leaving (rest ++ tail') := by
    apply quotedString_tail stays
    · intro cutOff
      simp only [stringToken, Scan.map, after, cutOff] at whole
      contradiction
    · intro atEnd broken
      apply unbroken atEnd
      simp only [stringToken, Scan.map, after, broken]
  rw [stringToken, stringToken, same]
  rfl

/-- The token of an address is an address, sound or broken. -/
theorem isAddress_of_addressToken (text : List Char) :
    (addressToken text).value.token.isAddress = true := by
  simp only [addressToken, Scan.map, after]
  split <;> rfl

/-- An address that leaves something is the same in front of another text; more than blanks
of it stands in the front. -/
theorem addressToken_tail (stays : (addressToken (text ++ tail)).rest = rest ++ tail)
    (more : rest ++ tail ≠ []) :
    (∃ left, left ≠ [] ∧ (text ++ tail).dropWhile isBlank = left ++ tail ∧
      (text ++ tail').dropWhile isBlank = left ++ tail') ∧
    addressToken (text ++ tail') = (addressToken (text ++ tail)).leaving (rest ++ tail') := by
  have stays : (address ((text ++ tail).dropWhile isBlank)).rest = rest ++ tail := stays
  have behind := eq_append_of_part (address_covers _) stays
  have inside := address_source_ne_nil (stays ▸ more)
  have nonempty := List.append_ne_nil_of_left_ne_nil inside rest
  generalize (address ((text ++ tail).dropWhile isBlank)).source ++ rest = left at behind nonempty
  obtain ⟨blanks, behind'⟩ := @dropWhile_tail _ _ _ tail' _ behind fun none => absurd none nonempty
  refine ⟨⟨left, nonempty, behind, behind'⟩, ?_⟩
  rw [behind] at stays
  rw [addressToken, blanks, behind', (address_tail stays more).2, addressToken, behind]
  rfl

/-- Blanks and what follows them are seen in the front of a text that has more than
blanks. -/
theorem blanks_append {member : Char → Bool} (more : text.dropWhile member ≠ [])
    (behind : List Char) :
    (text ++ behind).takeWhile member = text.takeWhile member ∧
      (text ++ behind).dropWhile member = text.dropWhile member ++ behind := by
  have whole := congrArg List.length (List.takeWhile_append_dropWhile (p := member) (l := text))
  have positive := List.length_pos_iff.mpr more
  rw [List.length_append] at whole
  constructor
  · rw [List.takeWhile_append, if_neg (by omega)]
  · rw [List.dropWhile_append, if_neg (by rwa [List.isEmpty_iff])]

theorem dropWhile_ne_nil_of_suffix {member : Char → Bool} {taken : List Char}
    (more : rest.dropWhile member ≠ []) : (taken ++ rest).dropWhile member ≠ [] := by
  rw [List.dropWhile_append]
  split
  · exact more
  · intro none
    rw [(List.append_eq_nil_iff.mp none).2] at more
    exact more rfl

theorem callToken_tail {name : List Char}
    (stays : (callToken name (text ++ tail)).rest = rest ++ tail)
    (address : (callToken name (text ++ tail)).value.token.isAddress = true → rest ++ tail ≠ [])
    (quoted : (callToken name (text ++ tail)).value.token = .function (String.ofList name) →
      name.map Char.toLower = ['u', 'r', 'l'] → rest.dropWhile isBlank ≠ []) :
    callToken name (text ++ tail') =
      (callToken name (text ++ tail)).leaving (rest ++ tail') := by
  have left := (callToken_covers name (text ++ tail)).front_eq stays
  by_cases url : name.map Char.toLower = ['u', 'r', 'l']
  · by_cases quote : ((text ++ tail).dropWhile isBlank).head?.any isQuote = true
    · have function (behind : List Char)
          (quote : ((text ++ behind).dropWhile isBlank).head?.any isQuote = true) :
          callToken name (text ++ behind) = fixed (.function (String.ofList name))
            (((text ++ behind).takeWhile isBlank).length - 1) (text ++ behind) := by
        unfold callToken
        rw [if_pos url, if_pos quote]
      rw [function tail quote] at stays quoted ⊢
      have more : text.dropWhile isBlank ≠ [] := by
        rw [left]
        exact dropWhile_ne_nil_of_suffix (quoted rfl url)
      obtain ⟨blanks, behind⟩ := blanks_append more tail
      obtain ⟨blanks', behind'⟩ := blanks_append more tail'
      have quote' : ((text ++ tail').dropWhile isBlank).head?.any isQuote = true := by
        rw [behind] at quote
        rw [behind']
        cases inside : text.dropWhile isBlank with
        | nil => contradiction
        | cons first others =>
            rw [inside] at quote
            exact quote
      rw [function tail' quote', blanks']
      rw [blanks] at stays ⊢
      refine (fixed_tail stays ?_).2
      have fewer := (List.takeWhile_prefix (p := isBlank) (l := text)).length_le
      rw [List.length_append]
      omega
    · have isAddress (behind : List Char)
          (noQuote : ¬ ((text ++ behind).dropWhile isBlank).head?.any isQuote = true) :
          callToken name (text ++ behind) = addressToken (text ++ behind) := by
        unfold callToken
        rw [if_pos url, if_neg noQuote]
      rw [isAddress tail quote] at stays address ⊢
      obtain ⟨⟨left, nonempty, behind, behind'⟩, same⟩ := @addressToken_tail _ _ _ tail' stays
        (address (isAddress_of_addressToken _))
      have noQuote : ¬ ((text ++ tail').dropWhile isBlank).head?.any isQuote = true := by
        rw [behind] at quote
        rw [behind']
        cases left with
        | nil => contradiction
        | cons first left => exact quote
      rw [isAddress tail' noQuote, same]
  · have function (behind : List Char) :
        callToken name behind = fixed (.function (String.ofList name)) 0 behind := by
      unfold callToken
      rw [if_neg url]
    rw [function] at stays ⊢
    rw [function]
    exact (fixed_tail stays (Nat.zero_le _)).2

theorem nameToken_of_call {name : Scan (List Char)} {behind : List Char}
    (read : Scan.name text = name) (opens : name.rest = '(' :: behind) :
    nameToken text = (callToken name.value behind).after (name.source ++ ['(']) := by
  subst read
  unfold nameToken
  dsimp only
  split
  · rename_i rest isCall
    rw [opens] at isCall
    cases isCall
    rfl
  · rename_i noCall
    exact absurd opens (noCall behind)

theorem nameToken_of_name {name : Scan (List Char)} (read : Scan.name text = name)
    (noCall : name.rest.head? ≠ some '(') :
    nameToken text = name.map fun characters => ⟨.ident (String.ofList characters), none⟩ := by
  subst read
  unfold nameToken
  dsimp only
  split
  · rename_i rest isCall
    rw [isCall] at noCall
    contradiction
  · rfl

/-- A call is a function of that name or an address. -/
theorem callToken_token (name rest : List Char) :
    (callToken name rest).value.token = .function (String.ofList name) ∨
      (callToken name rest).value.token.isAddress = true := by
  unfold callToken
  dsimp only
  split
  · split
    · exact Or.inl rfl
    · exact Or.inr (isAddress_of_addressToken rest)
  · exact Or.inl rfl

/-- What starts with a name calls it or is the name. -/
theorem nameToken_cases (text : List Char) :
    (∃ called, (Scan.name text).rest = '(' :: called ∧
      nameToken text = (callToken (Scan.name text).value called).after
        ((Scan.name text).source ++ ['('])) ∨
      nameToken text = (Scan.name text).map fun characters =>
        ⟨.ident (String.ofList characters), none⟩ := by
  unfold nameToken
  dsimp only
  split
  · rename_i called opens
    exact Or.inl ⟨called, opens, rfl⟩
  · exact Or.inr rfl

/-- A name that is a function is called, and has the name that was read. -/
theorem exists_of_nameToken_function {function : String}
    (isFunction : (nameToken text).value.token = .function function) :
    ∃ called, (Scan.name text).rest = '(' :: called ∧
      nameToken text = (callToken (Scan.name text).value called).after
        ((Scan.name text).source ++ ['(']) ∧
      function = String.ofList (Scan.name text).value := by
  rcases nameToken_cases text with ⟨called, opens, same⟩ | same
  · refine ⟨called, opens, same, ?_⟩
    rw [same] at isFunction
    dsimp only [Scan.after] at isFunction
    rcases callToken_token (Scan.name text).value called with isCall | isAddress
    · exact Token.function.inj (isFunction.symm.trans isCall)
    · rw [isFunction] at isAddress
      contradiction
  · rw [same] at isFunction
    contradiction

/-- A name that is no function is the name that was read. -/
theorem nameToken_of_ident {ident : String}
    (isIdent : (nameToken text).value.token = .ident ident) :
    nameToken text = (Scan.name text).map fun characters =>
      ⟨.ident (String.ofList characters), none⟩ := by
  rcases nameToken_cases text with ⟨called, -, same⟩ | same
  · rw [same] at isIdent
    dsimp only [Scan.after] at isIdent
    rcases callToken_token (Scan.name text).value called with isCall | isAddress
    · rw [isCall] at isIdent
      contradiction
    · rw [isIdent] at isAddress
      contradiction
  · exact same

theorem source_of_nameToken_ident {ident : String}
    (isIdent : (nameToken text).value.token = .ident ident) :
    (nameToken text).source = (Scan.name text).source ∧
      ident = String.ofList (Scan.name text).value := by
  have whole := nameToken_of_ident isIdent
  rw [whole] at isIdent ⊢
  exact ⟨rfl, (Token.ident.inj isIdent).symm⟩

theorem nameToken_tail (stays : (nameToken (text ++ tail)).rest = rest ++ tail)
    (ends : TokenEnds (nameToken (text ++ tail)) rest tail tail') :
    nameToken (text ++ tail') = (nameToken (text ++ tail)).leaving (rest ++ tail') := by
  cases read : name (text ++ tail) with | mk characters source behind =>
  by_cases isCall : behind.head? = some '('
  · cases behind with
    | nil => contradiction
    | cons first called =>
        cases isCall
        rw [nameToken_of_call read rfl] at stays ends ⊢
        dsimp only at stays ends ⊢
        have covers := callToken_covers characters called
        have left := eq_append_of_part covers stays
        generalize inside : (callToken characters called).source ++ rest = calledRest at left
        subst left
        have names : NameEnds (name (text ++ tail)).source ('(' :: calledRest) tail tail' := by
          exact ⟨ends.names.stops, ends.names.visible, nofun, fun _ => nofun, nofun⟩
        have read' := name_tail (congrArg Scan.rest read) names
        rw [read] at read'
        have called' : callToken characters (calledRest ++ tail') =
            (callToken characters (calledRest ++ tail)).leaving (rest ++ tail') := by
          refine callToken_tail stays ends.address ?_
          intro isFunction isUrl
          exact ends.quoted _ isFunction (by rwa [String.toList_ofList])
        rw [nameToken_of_call read' rfl]
        exact congrArg (after (source ++ ['('])) called'
  · rw [nameToken_of_name read isCall] at stays ends ⊢
    have read' := name_tail ((congrArg Scan.rest read).trans stays) (by
      rw [read]
      exact ends.names)
    rw [read] at read'
    refine nameToken_of_name read' ?_
    intro isCall'
    have left : behind = rest ++ tail := stays
    cases rest with
    | nil => exact ends.quiet.head_ne (by decide) isCall'
    | cons first rest =>
        rw [left] at isCall
        exact isCall isCall'

theorem numericToken_of_unit {literal : Scan NumberKind} (read : numberLiteral text = literal)
    (starts : nameStarts literal.rest = true) :
    numericToken text = ((name literal.rest).map fun unit =>
      (⟨.dimension ((Binary64.ofLiteral? literal.source).getD (Binary64.zero false))
        (String.ofList unit), none⟩ : Recognized)).after literal.source := by
  subst read
  unfold numericToken
  rw [if_pos starts]

theorem numericToken_of_percent {literal : Scan NumberKind} (read : numberLiteral text = literal)
    (noUnit : nameStarts literal.rest = false) (percent : literal.rest.head? = some '%') :
    numericToken text = (fixed (.percentage
      ((Binary64.ofLiteral? literal.source).getD (Binary64.zero false))) 1 literal.rest).after
        literal.source := by
  subst read
  unfold numericToken
  rw [if_neg (Bool.eq_false_iff.mp noUnit), if_pos percent]

theorem numericToken_of_number {literal : Scan NumberKind} (read : numberLiteral text = literal)
    (noUnit : nameStarts literal.rest = false) (noPercent : literal.rest.head? ≠ some '%') :
    numericToken text = literal.map fun kind =>
      ⟨.number ((Binary64.ofLiteral? literal.source).getD (Binary64.zero false)) kind, none⟩ := by
  subst read
  unfold numericToken
  rw [if_neg (Bool.eq_false_iff.mp noUnit), if_neg noPercent]

theorem numericToken_tail (stays : (numericToken (text ++ tail)).rest = rest ++ tail)
    (quiet : Quiet tail') (ends : NameEnds (numericToken (text ++ tail)).source rest tail tail') :
    numericToken (text ++ tail') = (numericToken (text ++ tail)).leaving (rest ++ tail') := by
  have literal_tail {left : List Char}
      (stays : (numberLiteral (text ++ tail)).rest = left ++ tail) :=
    (numberLiteral_tail quiet stays).1
  cases read : numberLiteral (text ++ tail) with | mk kind source behind =>
  rw [read] at literal_tail
  by_cases starts : nameStarts behind = true
  · rw [numericToken_of_unit read starts] at stays ends ⊢
    dsimp only at stays ends starts literal_tail ⊢
    have left := eq_append_of_part (name_covers behind) stays
    generalize (name behind).source ++ rest = unit at left
    subst left
    have unit' := name_tail stays (ends.behind source)
    have starts' := nameStarts_congr ends.stops ends.visible (escapes_of_nameStarts starts)
      fun _ => ⟨rest, stays⟩
    rw [numericToken_of_unit (literal_tail rfl) (starts'.trans starts)]
    dsimp only [leaving]
    rw [unit']
    rfl
  rw [Bool.not_eq_true] at starts
  by_cases percent : behind.head? = some '%'
  · rw [numericToken_of_percent read starts percent] at stays ⊢
    cases behind with
    | nil => contradiction
    | cons first behind =>
        cases percent
        have left : behind = rest ++ tail := stays
        subst left
        rw [numericToken_of_percent (@literal_tail ('%' :: rest) rfl) rfl rfl]
        rfl
  · rw [numericToken_of_number read starts percent] at stays ⊢
    have left : behind = rest ++ tail := stays
    subst left
    have starts' := nameStarts_congr ends.stops ends.visible ends.escaping fun unit => by
      rw [starts] at unit
      contradiction
    refine numericToken_of_number (literal_tail rfl) (starts'.trans starts) ?_
    intro percent'
    cases rest with
    | nil => exact quiet.head_ne (by decide) percent'
    | cons first rest => exact percent percent'

/-- What a number sign needs behind it for a hash. -/
def hashStarts (text : List Char) : Prop :=
  text.head?.any continuesName = true ∨ text.head? = some '\\' ∧ escapes (text.drop 1) = true

theorem hashToken_of_name {sign : Char} (starts : hashStarts text) :
    hashToken sign text = ((name text).map fun characters =>
      (⟨.hash (String.ofList characters) (if nameStarts text then .id else .unrestricted), none⟩ :
        Recognized)).after [sign] := by
  unfold hashToken
  exact if_pos starts

theorem hashToken_of_sign {sign : Char} (noName : ¬ hashStarts text) :
    hashToken sign text = fixed (.delim sign) 1 (sign :: text) := by
  unfold hashToken
  exact if_neg noName

theorem name_source_ne_nil_of_hashStarts (starts : hashStarts text) : (name text).source ≠ [] := by
  cases text with
  | nil =>
      rcases starts with continues | escape
      · contradiction
      · exact absurd escape.1 nofun
  | cons first text =>
      exact name_source_ne_nil (starts.imp_right fun escape => ⟨Option.some.inj escape.1, escape.2⟩)

theorem hashStarts_congr (ends : EndsName tail') (escapes' : escapes tail' = true)
    (escaping : text = ['\\'] → escapes tail = true)
    (inside : text = [] → ¬ hashStarts tail) :
    hashStarts (text ++ tail') ↔ hashStarts (text ++ tail) := by
  cases text with
  | nil =>
      refine iff_of_false ?_ (inside rfl)
      intro isHash
      cases tail' with
      | nil => rcases isHash with continues | escape <;> contradiction
      | cons first tail' =>
          obtain ⟨outside, noBackslash⟩ := ends first rfl
          rcases isHash with continues | escape
          · exact Bool.false_ne_true (outside.symm.trans continues)
          · exact noBackslash (Option.some.inj escape.1)
  | cons first text =>
      simp only [hashStarts, List.cons_append, List.head?_cons, List.drop_succ_cons, List.drop_zero]
      refine or_congr Iff.rfl (and_congr_right fun backslash => ?_)
      cases backslash
      rw [escapes_congr escapes' fun empty => escaping (by rw [empty])]

theorem hashToken_tail {sign : Char} (stays : (hashToken sign (text ++ tail)).rest = rest ++ tail)
    (ends : NameEnds (hashToken sign (text ++ tail)).source rest tail tail') :
    hashToken sign (text ++ tail') =
      (hashToken sign (text ++ tail)).leaving (rest ++ tail') := by
  by_cases starts : hashStarts (text ++ tail)
  · rw [hashToken_of_name starts] at stays ends ⊢
    have left := (name_covers (text ++ tail)).front_eq stays
    have escaping (backslash : text = ['\\'] ∨ text = ['-', '\\']) : escapes tail = true := by
      rcases backslash with rfl | rfl
      · exact (starts.resolve_left nofun).2
      · cases escape : escapes tail with
        | true => rfl
        | false =>
            -- The name is the hyphen, so that the rest is the backslash.
            have stray : name ('\\' :: tail) = ⟨[], [], '\\' :: tail⟩ :=
              name_of_stops rfl fun escaped => by
                rw [escape] at escaped
                exact Bool.false_ne_true escaped.2
            have stays : (name ('-' :: '\\' :: tail)).rest = rest ++ tail := stays
            rw [name_of_continues rfl, stray] at stays
            have left : ['\\'] ++ tail = rest ++ tail := stays
            rw [← escape, ends.escaping (Or.inl (List.append_cancel_right left).symm)]
    have inside : text = [] → ¬ hashStarts tail := by
      rintro rfl isHash
      exact name_source_ne_nil_of_hashStarts isHash (List.append_eq_nil_iff.mp left.symm).1
    have starts' := (hashStarts_congr ends.stops ends.visible
      (fun backslash => escaping (Or.inl backslash)) inside).mpr starts
    have kind := nameStarts_congr ends.stops ends.visible escaping fun _ => ⟨rest, stays⟩
    rw [hashToken_of_name starts', name_tail stays (ends.behind [sign]), kind]
    rfl
  · rw [hashToken_of_sign starts] at stays ends ⊢
    have left : text = rest := List.append_cancel_right stays
    subst left
    have noName : ¬ hashStarts (text ++ tail') := by
      refine mt (hashStarts_congr ends.stops ends.visible ?_ ?_).mp starts
      · exact fun backslash => ends.escaping (Or.inl backslash)
      · rintro rfl
        exact starts
    rw [hashToken_of_sign noName]
    rfl

theorem atToken_tail {sign : Char} (stays : (atToken sign (text ++ tail)).rest = rest ++ tail)
    (ends : NameEnds (atToken sign (text ++ tail)).source rest tail tail') :
    atToken sign (text ++ tail') = (atToken sign (text ++ tail)).leaving (rest ++ tail') := by
  cases starts : nameStarts (text ++ tail) with
  | true =>
      have named (behind : List Char) (starts : nameStarts behind = true) :
          atToken sign behind = ((name behind).map fun characters =>
            (⟨.atKeyword (String.ofList characters), none⟩ : Recognized)).after [sign] :=
        if_pos starts
      rw [named _ starts] at stays ends ⊢
      have starts' := nameStarts_congr ends.stops ends.visible (escapes_of_nameStarts starts)
        fun _ => ⟨rest, stays⟩
      rw [named _ (starts'.trans starts), name_tail stays (ends.behind [sign])]
      rfl
  | false =>
      have alone (behind : List Char) (noName : nameStarts behind = false) :
          atToken sign behind = fixed (.delim sign) 1 (sign :: behind) :=
        if_neg (Bool.eq_false_iff.mp noName)
      rw [alone _ starts] at stays ends ⊢
      have left : text = rest := List.append_cancel_right stays
      subst left
      have starts' := nameStarts_congr ends.stops ends.visible ends.escaping fun named => by
        rw [starts] at named
        contradiction
      rw [alone _ (starts'.trans starts)]
      rfl

/-- A mark of characters that are not quiet stands in the front of a text. -/
theorem length_le_of_loud_front {mark : List Char} (quiet : Quiet tail')
    (loud : ∀ character ∈ mark, isQuiet character = false) (found : mark <+: text ++ tail') :
    mark.length ≤ text.length := by
  induction text generalizing mark with
  | nil =>
      cases mark with
      | nil => exact Nat.le_refl _
      | cons first mark =>
          obtain ⟨behind, rfl⟩ := found
          have isQuiet := quiet first rfl
          rw [loud first List.mem_cons_self] at isQuiet
          contradiction
  | cons first text ih =>
      cases mark with
      | nil => exact Nat.zero_le _
      | cons character mark =>
          obtain ⟨rfl, behind⟩ := List.cons_prefix_cons.mp found
          exact Nat.succ_le_succ (ih (fun other member => loud other (.tail _ member)) behind)

theorem take_congr {mark : List Char} (quiet : Quiet tail')
    (allLoud : (mark.all fun character => !isQuiet character) = true)
    (inside : (text ++ tail).take mark.length = mark → mark.length ≤ text.length) :
    (text ++ tail').take mark.length = mark ↔ (text ++ tail).take mark.length = mark := by
  have loud : ∀ character ∈ mark, isQuiet character = false := fun character member =>
    (Bool.not_eq_true' _).mp (List.all_eq_true.mp allLoud character member)
  have visible (enough : mark.length ≤ text.length) :
      (text ++ tail').take mark.length = (text ++ tail).take mark.length := by
    rw [List.take_append_of_le_length enough, List.take_append_of_le_length enough]
  constructor
  · intro found
    have isPrefix := List.prefix_iff_eq_take.mpr found.symm
    rwa [← visible (length_le_of_loud_front quiet loud isPrefix)]
  · intro found
    rwa [visible (inside found)]

/-- A hyphen with the start of a name behind the character behind it starts a name. -/
theorem hyphenToken_of_name (continues : continuesHyphen (text.drop 1) = true) :
    hyphenToken '-' text = nameToken ('-' :: text) := by
  have nonempty : text ≠ [] := by
    rintro rfl
    contradiction
  have noArrow : text.take 2 ≠ ['-', '>'] := by
    intro arrow
    cases text with
    | nil => contradiction
    | cons first text =>
        cases text with
        | nil => contradiction
        | cons second text =>
            cases arrow
            contradiction
  rw [hyphenToken, if_neg noArrow, if_pos ⟨nonempty, continues⟩]

theorem hyphenToken_tail (stays : (hyphenToken '-' (text ++ tail)).rest = rest ++ tail)
    (ends : TokenEnds (hyphenToken '-' (text ++ tail)) rest tail tail')
    (noNumber : numberStarts ('-' :: (text ++ tail)) = false) :
    hyphenToken '-' (text ++ tail') =
      (hyphenToken '-' (text ++ tail)).leaving (rest ++ tail') := by
  have front : '-' :: text = (hyphenToken '-' (text ++ tail)).source ++ rest :=
    (hyphenToken_covers '-' (text ++ tail)).front_eq stays
  have ahead : continuesHyphen ((text ++ tail').drop 1) =
      continuesHyphen ((text ++ tail).drop 1) := by
    have decided := ends.hyphen (by rw [← front]; rfl) (by rw [← front]; exact noNumber)
    rwa [← front] at decided
  have arrow {behind : List Char} (closes : behind.take 2 = ['-', '>']) :
      hyphenToken '-' behind = fixed .commentClose 3 ('-' :: behind) := by
    rw [hyphenToken, if_pos closes]
  have sameArrow := @take_congr text tail tail' ['-', '>'] ends.quiet rfl
  by_cases closes : (text ++ tail).take 2 = ['-', '>']
  · rw [arrow closes] at stays ⊢
    have enough : 3 ≤ ('-' :: text ++ tail).length := by
      have length := congrArg List.length closes
      simp only [List.length_take, List.length_cons, List.length_nil, List.cons_append] at length ⊢
      omega
    obtain ⟨inside, same⟩ := @fixed_tail ('-' :: text) rest tail tail' .commentClose 3 stays enough
    rw [arrow ((sameArrow fun _ => Nat.le_of_succ_le_succ inside).mpr closes)]
    exact same
  have noArrow : (text ++ tail').take 2 ≠ ['-', '>'] :=
    mt (sameArrow fun found => absurd found closes).mp closes
  have alone {behind : List Char} (noArrow : behind.take 2 ≠ ['-', '>'])
      (stops : continuesHyphen (behind.drop 1) = false) :
      hyphenToken '-' behind = fixed (.delim '-') 1 ('-' :: behind) := by
    rw [hyphenToken, if_neg noArrow, if_neg fun name => Bool.eq_false_iff.mp stops name.2]
  cases continues : continuesHyphen ((text ++ tail).drop 1) with
  | true =>
      rw [hyphenToken_of_name continues] at stays ends ⊢
      rw [hyphenToken_of_name (ahead.trans continues)]
      exact @nameToken_tail ('-' :: text) rest tail tail' stays ends
  | false =>
      rw [alone closes continues] at stays ⊢
      rw [alone noArrow (ahead.trans continues)]
      exact (@fixed_tail ('-' :: text) rest tail tail' (.delim '-') 1 stays (by simp)).2

/-- A sign is read alone or with the character behind it, which is not quiet then. -/
theorem symbolToken_cases (first : Char) (head : Option Char) :
    (∀ behind : List Char, behind.head? = head →
        symbolToken first behind = fixed (.delim first) 1 (first :: behind)) ∨
      ∃ second token, head = some second ∧ isQuiet second = false ∧
        ∀ behind : List Char, behind.head? = head →
          symbolToken first behind = fixed token 2 (first :: behind) := by
  by_cases equals : head = some '='
  · subst equals
    cases operator : matchOperator? first with
    | none =>
        left
        intro behind found
        rw [symbolToken, operator]
    | some operator' =>
        right
        refine ⟨'=', .matchOperator operator', rfl, by decide, ?_⟩
        intro behind found
        rw [symbolToken, operator, found]
        rfl
  by_cases column : matchOperator? first = some .dash ∧ head = some '|'
  · obtain ⟨dash, rfl⟩ := column
    right
    refine ⟨'|', .column, rfl, by decide, ?_⟩
    intro behind found
    rw [symbolToken, dash, found]
    rfl
  · left
    intro behind found
    unfold symbolToken
    split
    · exact absurd (found.symm.trans ‹_›) equals
    · exact absurd ⟨‹_›, found.symm.trans ‹_›⟩ column
    · rfl

theorem symbolToken_tail {first : Char}
    (stays : (symbolToken first (text ++ tail)).rest = rest ++ tail) (quiet : Quiet tail') :
    symbolToken first (text ++ tail') =
      (symbolToken first (text ++ tail)).leaving (rest ++ tail') := by
  rcases symbolToken_cases first (text ++ tail).head? with alone | ⟨second, token, head, -, pair⟩
  · rw [alone _ rfl] at stays ⊢
    have left : text = rest := List.append_cancel_right stays
    subst left
    cases text with
    | cons second text =>
        rw [alone (second :: text ++ tail') rfl]
        rfl
    | nil =>
        rcases symbolToken_cases first tail'.head? with alone' | ⟨second, _, head, loud, -⟩
        · exact alone' _ rfl
        · exact absurd head (quiet.head_ne loud)
  · rw [pair _ rfl] at stays ⊢
    have enough : 2 ≤ (first :: text ++ tail).length := by
      cases behind : text ++ tail with
      | nil =>
          rw [behind] at head
          contradiction
      | cons second others =>
          rw [List.cons_append, behind]
          exact Nat.le_add_left 2 others.length
    obtain ⟨inside, same⟩ := @fixed_tail (first :: text) rest tail tail' token 2 stays enough
    cases text with
    | nil => exact absurd inside (Nat.not_succ_le_self 1)
    | cons second text =>
        rw [pair (second :: text ++ tail') rfl]
        exact same

theorem opening_of_blank {first : Char} (blank : isBlank first = true) (behind : List Char) :
    opening first behind = .blank := by
  rw [opening, if_pos blank]

theorem opening_of_quote {first : Char} (noBlank : ¬ isBlank first = true)
    (quote : isQuote first = true) (behind : List Char) : opening first behind = .quote := by
  rw [opening, if_neg noBlank, if_pos quote]

theorem opening_of_number {first : Char} {behind : List Char} (noBlank : ¬ isBlank first = true)
    (noQuote : ¬ isQuote first = true) (number : numberStarts (first :: behind) = true) :
    opening first behind = .number := by
  rw [opening, if_neg noBlank, if_neg noQuote, if_pos number]

theorem numberStarts_of_opening_hyphen {first : Char} {behind : List Char}
    (announced : opening first behind = .hyphen) : numberStarts (first :: behind) = false := by
  cases starts : numberStarts (first :: behind) with
  | false => rfl
  | true =>
      cases opening_hyphen announced
      rw [opening_of_number (by decide) (by decide) starts] at announced
      contradiction

theorem opening_of_markup {behind : List Char} (markup : behind.take 3 = ['!', '-', '-']) :
    opening '<' behind = .markup := by
  unfold opening
  rw [markup]
  rfl

theorem opening_markup {first : Char} {behind : List Char}
    (announced : opening first behind = .markup) :
    first = '<' ∧ behind.take 3 = ['!', '-', '-'] := by
  unfold opening at announced
  repeat' split at announced
  all_goals first | assumption | contradiction

theorem opening_of_stray {behind : List Char} (stray : escapes behind = false) :
    opening '\\' behind = .strayBackslash := by
  unfold opening
  rw [stray]
  rfl

theorem opening_of_escape {behind : List Char} (isEscape : escapes behind = true) :
    opening '\\' behind = .name := by
  unfold opening
  rw [isEscape]
  rfl

theorem opening_of_hyphen {behind : List Char} (noNumber : numberStarts ('-' :: behind) = false) :
    opening '-' behind = .hyphen := by
  unfold opening
  rw [noNumber]
  rfl

/-- What a token is announced as depends on what can be seen of it. -/
theorem opening_congr {first : Char} {behind behind' : List Char}
    (number : ¬ isBlank first = true → ¬ isQuote first = true →
      (numberStarts (first :: behind') = true ↔ numberStarts (first :: behind) = true))
    (markup : first = '<' → (behind'.take 3 = ['!', '-', '-'] ↔ behind.take 3 = ['!', '-', '-']))
    (escape : first = '\\' → escapes behind' = escapes behind) :
    opening first behind' = opening first behind := by
  by_cases blank : isBlank first = true
  · rw [opening_of_blank blank, opening_of_blank blank]
  by_cases quote : isQuote first = true
  · rw [opening_of_quote blank quote, opening_of_quote blank quote]
  unfold opening
  rw [Bool.eq_iff_iff.mpr (number blank quote)]
  by_cases backslash : first = '\\'
  · subst backslash
    rw [escape rfl]
    rfl
  · simp only [backslash, ↓reduceIte, and_congr_right markup]

/-- The literal of a number within the front of a text stays there. -/
theorem numberLiteral_stays_of_numericToken
    (stays : (numericToken (text ++ tail)).rest = rest ++ tail) :
    ∃ left, (numberLiteral (text ++ tail)).rest = left ++ tail := by
  cases read : numberLiteral (text ++ tail) with | mk kind source behind =>
  by_cases starts : nameStarts behind = true
  · rw [numericToken_of_unit read starts] at stays
    exact ⟨_, eq_append_of_part (name_covers behind) stays⟩
  rw [Bool.not_eq_true] at starts
  by_cases percent : behind.head? = some '%'
  · rw [numericToken_of_percent read starts percent] at stays
    exact ⟨behind.take 1 ++ rest, eq_append_of_part (List.take_append_drop 1 behind) stays⟩
  · rw [numericToken_of_number read starts percent] at stays
    exact ⟨rest, stays⟩

/-- A token within the front of a text is announced as it was. -/
theorem opening_tail {first : Char} {scan : Scan Recognized}
    (found : token (first :: (text ++ tail)) = some scan) (stays : scan.rest = rest ++ tail)
    (quiet : Quiet tail') :
    opening first (text ++ tail') = opening first (text ++ tail) := by
  rw [token] at found
  apply opening_congr
  · intro noBlank noQuote
    constructor
    · exact @numberStarts_tail (first :: text) tail tail' quiet
    · intro number
      rw [opening_of_number noBlank noQuote number] at found
      cases found
      obtain ⟨left, inside⟩ :=
        @numberLiteral_stays_of_numericToken (first :: text) rest tail stays
      exact (@numberLiteral_tail (first :: text) left tail tail' quiet inside).2.mpr number
  · rintro rfl
    refine @take_congr text tail tail' ['!', '-', '-'] quiet rfl ?_
    intro markup
    rw [opening_of_markup markup] at found
    cases found
    have enough : 4 ≤ ('<' :: text ++ tail).length := by
      have length := congrArg List.length markup
      simp only [List.length_take, List.length_cons, List.length_nil, List.cons_append] at length ⊢
      omega
    exact Nat.le_of_succ_le_succ
      (@fixed_tail ('<' :: text) rest tail tail' .commentOpen 4 stays enough).1
  · rintro rfl
    apply escapes_congr quiet.escapes_eq
    rintro rfl
    cases escape : escapes tail with
    | true => rfl
    | false =>
        rw [List.nil_append, opening_of_stray escape] at found
        contradiction

/-- **A token within the front of a text does not depend on a quiet text behind it.** -/
theorem token_tail {first : Char} {scan : Scan Recognized}
    (found : token (first :: (text ++ tail)) = some scan) (stays : scan.rest = rest ++ tail)
    (ends : TokenEnds scan rest tail tail') :
    token (first :: (text ++ tail')) = some (scan.leaving (rest ++ tail')) := by
  have same := opening_tail found stays ends.quiet
  rw [token] at found ⊢
  rw [same]
  have fixed_one (token : Token)
      (stays : (fixed token 1 (first :: text ++ tail)).rest = rest ++ tail) :=
    (@fixed_tail (first :: text) rest tail tail' token 1 stays (by simp)).2
  cases announced : opening first (text ++ tail) <;> rw [announced] at found <;> cases found
  case blank =>
    have behind : (text ++ tail).dropWhile isBlank = rest ++ tail := by
      rw [dropWhile_eq_drop]
      exact stays
    have noBlank (atEnd : rest = []) : tail'.head?.any isBlank = false :=
      Bool.eq_false_iff.mpr fun blank => ends.blank atEnd blank rfl
    obtain ⟨blanks, -⟩ := dropWhile_tail behind noBlank
    have shorter := (List.takeWhile_prefix (p := isBlank) (l := text ++ tail)).length_le
    rw [tokenOf, blanks]
    exact congrArg some (@fixed_tail (first :: text) rest tail tail' .whitespace _ stays
      (Nat.succ_le_succ shorter)).2
  case mark mark => exact congrArg some (fixed_one mark stays)
  case quote =>
    refine congrArg some (stringToken_tail stays ends.whole ends.unbroken)
  case number =>
    exact congrArg some
      (@numericToken_tail (first :: text) rest tail tail' stays ends.quiet ends.names)
  case hash => exact congrArg some (hashToken_tail stays ends.names)
  case atSign => exact congrArg some (atToken_tail stays ends.names)
  case hyphen =>
    have noNumber := numberStarts_of_opening_hyphen announced
    cases opening_hyphen announced
    exact congrArg some (hyphenToken_tail stays ends noNumber)
  case markup =>
    have enough : 4 ≤ (first :: text ++ tail).length := by
      have length := congrArg List.length (opening_markup announced).2
      simp only [List.length_take, List.length_cons, List.length_nil, List.cons_append] at length ⊢
      omega
    exact congrArg some
      (@fixed_tail (first :: text) rest tail tail' .commentOpen 4 stays enough).2
  case name => exact congrArg some (@nameToken_tail (first :: text) rest tail tail' stays ends)
  case symbol => exact congrArg some (symbolToken_tail stays ends.quiet)

end Scan

end SelectorLang
