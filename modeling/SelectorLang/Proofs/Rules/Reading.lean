import Mathlib.Data.List.Forall2
import SelectorLang.Proofs.Parsing.SelectorLists
import SelectorLang.Proofs.Rules.Progress

/-! # Reading by the rules is reading by symbols

On every stream, of whatever lexemes, the rules come to an outcome, and it is what the symbol
reader gives (`SelectorLang.RuleReader.read_eq_some`). What is plain of the symbol reader holds
of the rules then: they do not read behind the first end of the text, wherever and however
often it stands there, and they see of a lexeme what the grammar uses
(`SelectorLang.RuleReader.read_stops_at_end`, `SelectorLang.RuleReader.read_eq_of_alike`).
-/

namespace SelectorLang

/-! ## The symbol reader, stage by stage -/

theorem readArguments_eq_bind (selector : String) (lexemes : List Lexeme) :
    readArguments selector lexemes = (checkSupported selector lexemes).bind fun _ =>
      State.start.answer selector (beforeEnd lexemes) := by
  unfold readArguments State.answer
  cases checkSupported selector lexemes with
  | error failure => rfl
  | ok => cases State.start.read ((beforeEnd lexemes).map Lexeme.symbol) <;> rfl

/-- The document of either kind that an argument list of a text is, or the failure that it is
none. -/
def Document.ofRead (kind : Kind) (selector : String) (arguments : List Argument) :
    Except Failure Document :=
  match kind with
  | .argumentList => .ok (.arguments arguments)
  | .selectorList => (SelectorList.ofRead selector arguments).map .selectors

theorem Document.read_eq_bind (kind : Kind) (selector : String) (lexemes : List Lexeme) :
    Document.read kind selector lexemes = (checkSupported selector lexemes).bind fun _ =>
      (State.start.answer selector (beforeEnd lexemes)).bind (ofRead kind selector) := by
  cases kind with
  | argumentList =>
      rw [Document.read, readArguments_eq_bind]
      cases checkSupported selector lexemes with
      | error failure => rfl
      | ok => cases State.start.answer selector (beforeEnd lexemes) <;> rfl
  | selectorList =>
      rw [Document.read, readSelectorList_eq_bind, readArguments_eq_bind]
      cases checkSupported selector lexemes with
      | error failure => rfl
      | ok => cases State.start.answer selector (beforeEnd lexemes) <;> rfl

/-- Lexemes are refused at the first that is not supported. -/
theorem checkSupported_of_unsupported (selector : String) {front rest : List Lexeme}
    {rejected : Lexeme} (supported : ∀ lexeme ∈ front, lexeme.token.isSupported = true)
    (unsupported : rejected.token.isSupported = false) :
    checkSupported selector (front ++ rejected :: rest) =
      .error ⟨.unsupportedToken rejected.source, selector⟩ := by
  have first : (front ++ rejected :: rest).find? (fun lexeme => !lexeme.token.isSupported) =
      some rejected :=
    List.find?_eq_some_iff_append.mpr ⟨by rw [unsupported]; rfl, front, rest, rfl,
      fun lexeme member => by rw [supported lexeme member]; rfl⟩
  rw [checkSupported, first]

/-! ## The end that is put behind a stream -/

namespace RuleReader

variable (selector : String) (lexemes : List Lexeme)

theorem ended_cases : ended selector lexemes = lexemes ∧
      (∃ lexeme ∈ lexemes, lexeme.token = .endOfText) ∨
    ended selector lexemes = lexemes ++ [.endAt selector.length] := by
  unfold ended
  split
  · rename_i ends
    obtain ⟨last, isLast, isEnd⟩ := (Option.any_eq_true ..).mp ends
    exact Or.inl ⟨rfl, last, List.mem_of_getLast? isLast, Token.isEnd_eq_true_iff.mp isEnd⟩
  · exact Or.inr rfl

theorem exists_end_mem_ended :
    ∃ lexeme ∈ ended selector lexemes, lexeme.token = .endOfText := by
  rcases ended_cases selector lexemes with ⟨same, ends⟩ | added
  · rwa [same]
  · rw [added]
    exact ⟨_, List.mem_append_right _ List.mem_cons_self, rfl⟩

/-- The end that is put behind a stream is supported. -/
theorem checkSupported_ended :
    checkSupported selector (ended selector lexemes) = checkSupported selector lexemes := by
  rcases ended_cases selector lexemes with ⟨same, -⟩ | added
  · rw [same]
  · rw [added, checkSupported, checkSupported, List.find?_append]
    cases lexemes.find? (fun lexeme => !lexeme.token.isSupported) <;> rfl

/-- Nothing from an end of the text on is in front of the first one. -/
theorem beforeEnd_append_end {last : Lexeme} (isEnd : last.token = .endOfText)
    (front behind : List Lexeme) : beforeEnd (front ++ last :: behind) = beforeEnd front := by
  induction front with
  | nil => exact List.takeWhile_cons_of_neg (by rw [isEnd]; decide)
  | cons lexeme front ih =>
      rw [List.cons_append, beforeEnd, beforeEnd, List.takeWhile_cons, List.takeWhile_cons]
      split
      · exact congrArg (lexeme :: ·) ih
      · rfl

theorem beforeEnd_ended : beforeEnd (ended selector lexemes) = beforeEnd lexemes := by
  rcases ended_cases selector lexemes with ⟨same, -⟩ | added
  · rw [same]
  · rw [added]
    exact beforeEnd_append_end rfl lexemes []

end RuleReader

/-! ## The rules on whole streams -/

namespace RuleReader

/-- At the top, behind the last argument only the end of the text has a place. -/
theorem refuses_ended {arguments : List Argument} {lexeme : Lexeme} {rest : List Lexeme}
    (noBlank : lexeme.token ≠ .whitespace) (noComma : lexeme.token ≠ .comma) :
    (Frame.ended ⟨[], [], []⟩ arguments).Refuses (lexeme :: rest) := by
  change State.step _ _ = none
  cases letter : lexeme.token.letter <;> simp only [State.step, Frame.ended, Lexeme.symbol, letter]
  case blank => exact absurd ((Token.letter_eq_iff_of_mark rfl).mp letter) noBlank
  case comma => exact absurd ((Token.letter_eq_iff_of_mark rfl).mp letter) noComma
  case closeParen => rfl

/-- An argument list up to the end of the text is what the symbol reader answers. -/
theorem decides_argumentsToEnd (selector : String) (lexemes : List Lexeme) :
    Decides selector (fun reader => reader.argumentsToEnd) lexemes fun outcome _ =>
      outcome = State.start.answer selector lexemes := by
  unfold argumentsToEnd
  refine (readsArguments selector lexemes).bind ?_ ?_
  · rintro failure behind - ⟨follows, -⟩
    exact (follows.answers ⟨[], [], []⟩ _ rfl).symm
  · rintro arguments behind - ⟨follows, stops⟩
    obtain ⟨noBlank, noComma⟩ := stops arguments rfl
    have answers : State.start.answer selector lexemes =
        (Frame.ended ⟨[], [], []⟩ arguments).answer selector behind :=
      follows.answers ⟨[], [], []⟩ _ rfl
    refine .of_endless fun endless => .peek ?_
    cases behind with
    | nil => exact .pure answers.symm
    | cons lexeme rest =>
        rw [tokenAhead, Token.isEnd_eq_false_iff.mpr (endless lexeme List.mem_cons_self)]
        exact .unexpected ((State.answer_of_refuses (refuses_ended noBlank noComma)).symm.trans
          answers.symm)

/-- A document of either kind is made of what the symbol reader answers. -/
theorem decides_document (kind : Kind) (selector : String) (lexemes : List Lexeme) :
    Decides selector (fun reader => reader.document kind) lexemes fun outcome _ =>
      outcome = (State.start.answer selector lexemes).bind (Document.ofRead kind selector) := by
  unfold document
  refine (decides_argumentsToEnd selector lexemes).bind ?_ ?_
  · rintro failure behind - failed
    rw [← failed]
    rfl
  · rintro arguments behind - given
    rw [← given]
    cases kind with
    | argumentList => exact .pure rfl
    | selectorList =>
        cases whole : SelectorList.ofArguments? arguments with
        | some list =>
            refine .pure ?_
            simp only [Except.bind, Document.ofRead, SelectorList.ofRead, whole]
            rfl
        | none =>
            refine .throw ?_
            simp only [Except.bind, Document.ofRead, SelectorList.ofRead, whole]
            rfl

/-- **The rules read what the symbol reader reads**, on every stream of lexemes. -/
theorem read_eq_some (kind : Kind) (selector : String) (lexemes : List Lexeme) :
    read kind selector lexemes = some (Document.read kind selector lexemes) := by
  have ends := exists_end_mem_ended selector lexemes
  rw [Document.read_eq_bind, read, checkSupported_ended, ← beforeEnd_ended selector lexemes]
  cases checkSupported selector lexemes with
  | error failure => rfl
  | ok =>
      obtain ⟨outcome, front, behind, marks, -, rfl, -, comes⟩ := decides_document kind selector
        (beforeEnd (ended selector lexemes)) (endless_beforeEnd _)
      have finds : (clamped selector (ended selector lexemes)).Finds _ 0 :=
        finds_clamped selector ends
      exact congrArg (Option.map Prod.fst)
        (comes _ rfl .start (finds.shows ends (Nat.zero_le _)))

/-! ## The first end of the text -/

theorem mem_of_mem_beforeEnd {lexemes : List Lexeme} {lexeme : Lexeme}
    (member : lexeme ∈ beforeEnd lexemes) : lexeme ∈ lexemes :=
  (List.takeWhile_prefix _).subset member

/-- What is in front of the first end of the text has no end. -/
theorem beforeEnd_beforeEnd (lexemes : List Lexeme) :
    beforeEnd (beforeEnd lexemes) = beforeEnd lexemes :=
  beforeEnd_of_endless (endless_beforeEnd lexemes)

/-- **The first end of the text is a wall.** Supported lexemes are read, by the rules and by
the symbol reader, as those in front of the first end of the text alone, with no end behind
them; and where some lexeme is not supported, also behind an end, the first such lexeme is
refused, whatever failure of the grammar there is besides. -/
theorem read_stops_at_end (kind : Kind) (selector : String) (lexemes : List Lexeme) :
    ((∀ lexeme ∈ lexemes, lexeme.token.isSupported = true) → ∃ result,
      read kind selector lexemes = some result ∧
      read kind selector (beforeEnd lexemes) = some result ∧
      Document.read kind selector lexemes = result ∧
      Document.read kind selector (beforeEnd lexemes) = result) ∧
    ∀ front rejected rest, lexemes = front ++ rejected :: rest →
      (∀ lexeme ∈ front, lexeme.token.isSupported = true) →
      rejected.token.isSupported = false →
        read kind selector lexemes =
          some (.error ⟨.unsupportedToken rejected.source, selector⟩) ∧
        Document.read kind selector lexemes =
          .error ⟨.unsupportedToken rejected.source, selector⟩ := by
  refine ⟨fun supported => ?_, ?_⟩
  · have supportedFront : ∀ lexeme ∈ beforeEnd lexemes, lexeme.token.isSupported = true :=
      fun lexeme member => supported lexeme (mem_of_mem_beforeEnd member)
    have same : Document.read kind selector (beforeEnd lexemes) =
        Document.read kind selector lexemes := by
      rw [Document.read_eq_bind, Document.read_eq_bind, beforeEnd_beforeEnd,
        checkSupported_of_supported selector supported,
        checkSupported_of_supported selector supportedFront]
    exact ⟨_, read_eq_some kind selector lexemes,
      (read_eq_some kind selector (beforeEnd lexemes)).trans (congrArg some same), rfl, same⟩
  · rintro front rejected rest rfl supported unsupported
    have refused : Document.read kind selector (front ++ rejected :: rest) =
        .error ⟨.unsupportedToken rejected.source, selector⟩ := by
      rw [Document.read_eq_bind, checkSupported_of_unsupported selector supported unsupported]
      rfl
    exact ⟨(read_eq_some _ _ _).trans (congrArg some refused), refused⟩

/-- A name, an end of the text that claims a text of its own, and the opening bracket of a
condition behind it. -/
def openBehindEnd : List Lexeme :=
  [⟨.ident "a", "a", 0⟩, ⟨.endOfText, "b", 1⟩, ⟨.openBracket, "[", 2⟩]

theorem openBehindEnd_read :
    (∃ result, read .selectorList "a" openBehindEnd = some result ∧
      read .selectorList "a" [⟨.ident "a", "a", 0⟩] = some result ∧
      Document.read .selectorList "a" openBehindEnd = result ∧
      Document.read .selectorList "a" [⟨.ident "a", "a", 0⟩] = result) ∧
    read .argumentList "a" (openBehindEnd ++ [⟨.semicolon, ";", 3⟩]) =
      some (.error ⟨.unsupportedToken ";", "a"⟩) ∧
    Document.read .argumentList "a" (openBehindEnd ++ [⟨.semicolon, ";", 3⟩]) =
      .error ⟨.unsupportedToken ";", "a"⟩ :=
  ⟨(read_stops_at_end .selectorList "a" openBehindEnd).1 (by decide),
    (read_stops_at_end .argumentList "a" (openBehindEnd ++ [⟨.semicolon, ";", 3⟩])).2
      openBehindEnd ⟨.semicolon, ";", 3⟩ [] rfl (by decide) rfl⟩

end RuleReader

/-! ## What the grammar uses of lexemes -/

/-- Tokens of one kind that agree in what the grammar uses: the character of a delimiter, the
value of a string or number, and a name up to the case of its letters. -/
inductive Token.Alike : Token → Token → Prop
  | same (token : Token) : Alike token token
  | ident {name name' : String} (lowered : name.toLower = name'.toLower) :
      Alike (.ident name) (.ident name')
  | function {name name' : String} (lowered : name.toLower = name'.toLower) :
      Alike (.function name) (.function name')
  | hash (name name' : String) (kind kind' : HashKind) :
      Alike (.hash name kind) (.hash name' kind')
  | number (value : Binary64) (kind kind' : NumberKind) :
      Alike (.number value kind) (.number value kind')
  | dimension (value value' : Binary64) (unit unit' : String) :
      Alike (.dimension value unit) (.dimension value' unit')
  | percentage (value value' : Binary64) : Alike (.percentage value) (.percentage value')
  | atKeyword (name name' : String) : Alike (.atKeyword name) (.atKeyword name')
  | url (value value' : String) : Alike (.url value) (.url value')

namespace Token.Alike

variable {token token' : Token} (alike : token.Alike token')

include alike

theorem letter_eq : token.letter = token'.letter := by
  cases alike with
  | ident lowered => exact congrArg Letter.name lowered
  | function lowered => exact congrArg Letter.call lowered
  | _ => rfl

theorem isSupported_eq : token.isSupported = token'.isSupported := by
  cases alike <;> rfl

theorem isEnd_eq : token.isEnd = token'.isEnd := by
  cases alike <;> rfl

end Token.Alike

/-- Lexemes with the same text and tokens that are alike, at whatever offsets. -/
structure Lexeme.Alike (lexeme lexeme' : Lexeme) : Prop where
  /-- The tokens are alike. -/
  token : lexeme.token.Alike lexeme'.token
  /-- The texts are the same. -/
  source : lexeme.source = lexeme'.source

section

variable {lexemes lexemes' : List Lexeme} (alike : List.Forall₂ Lexeme.Alike lexemes lexemes')

include alike

/-- Streams of such lexemes are refused alike. -/
theorem checkSupported_eq_of_alike (selector : String) :
    checkSupported selector lexemes = checkSupported selector lexemes' := by
  unfold checkSupported
  induction alike with
  | nil => rfl
  | @cons lexeme lexeme' _ _ head _ ih =>
      rw [List.find?_cons, List.find?_cons, head.token.isSupported_eq]
      cases supported : lexeme'.token.isSupported with
      | true => exact ih
      | false =>
          change Except.error _ = Except.error _
          rw [head.source]

/-- Streams of such lexemes have the same symbols in front of the first end of the text. -/
theorem symbols_beforeEnd_eq_of_alike :
    (beforeEnd lexemes).map Lexeme.symbol = (beforeEnd lexemes').map Lexeme.symbol := by
  induction alike with
  | nil => rfl
  | @cons lexeme lexeme' _ _ head _ ih =>
      rw [beforeEnd, beforeEnd, List.takeWhile_cons, List.takeWhile_cons, head.token.isEnd_eq]
      split
      · rw [List.map_cons, List.map_cons]
        have symbol : lexeme.symbol = lexeme'.symbol := by
          rw [Lexeme.symbol, Lexeme.symbol, head.token.letter_eq, head.source]
        exact congrArg₂ List.cons symbol ih
      · rfl

namespace RuleReader

/-- **Reading depends on what the grammar uses alone.** Streams that are alike lexeme by lexeme
come to the same result, a tree or a failure, by the rules and by the symbol reader. -/
theorem read_eq_of_alike (kind : Kind) (selector : String) : ∃ result,
    read kind selector lexemes = some result ∧ read kind selector lexemes' = some result ∧
      Document.read kind selector lexemes = result ∧
      Document.read kind selector lexemes' = result := by
  have answer : State.start.answer selector (beforeEnd lexemes) =
      State.start.answer selector (beforeEnd lexemes') := by
    rw [State.answer, State.answer, symbols_beforeEnd_eq_of_alike alike]
  have same : Document.read kind selector lexemes' = Document.read kind selector lexemes := by
    rw [Document.read_eq_bind, Document.read_eq_bind, checkSupported_eq_of_alike alike, answer]
  exact ⟨_, read_eq_some kind selector lexemes,
    (read_eq_some kind selector lexemes').trans (congrArg some same), rfl, same⟩

end RuleReader

end

/-- A name, a hash and a function. -/
def plainLexemes : List Lexeme :=
  [⟨.ident "a", "a", 0⟩, ⟨.hash "b" .id, "#b", 1⟩, ⟨.colon, ":", 3⟩, ⟨.function "c", "c(", 4⟩,
    ⟨.string "d", "'d'", 6⟩, ⟨.closeParen, ")", 9⟩]

/-- The same texts with names in upper case, another hash and other offsets. -/
def shiftedLexemes : List Lexeme :=
  [⟨.ident "A", "a", 5⟩, ⟨.hash "0" .unrestricted, "#b", 0⟩, ⟨.colon, ":", 0⟩,
    ⟨.function "C", "c(", 0⟩, ⟨.string "d", "'d'", 0⟩, ⟨.closeParen, ")", 0⟩]

theorem plainLexemes_alike : List.Forall₂ Lexeme.Alike plainLexemes shiftedLexemes := by
  have name : "a".toLower = "A".toLower := by simp [toLower_eq_map, ← String.toList_inj]
  have function : "c".toLower = "C".toLower := by simp [toLower_eq_map, ← String.toList_inj]
  exact .cons ⟨.ident name, rfl⟩ (.cons ⟨.hash .., rfl⟩ (.cons ⟨.same _, rfl⟩
    (.cons ⟨.function function, rfl⟩ (.cons ⟨.same _, rfl⟩ (.cons ⟨.same _, rfl⟩ .nil)))))

theorem plainLexemes_read : List.Forall₂ Lexeme.Alike plainLexemes shiftedLexemes ∧ ∃ result,
    RuleReader.read .selectorList "a#b:c('d')" plainLexemes = some result ∧
      RuleReader.read .selectorList "a#b:c('d')" shiftedLexemes = some result ∧
      Document.read .selectorList "a#b:c('d')" plainLexemes = result ∧
      Document.read .selectorList "a#b:c('d')" shiftedLexemes = result :=
  ⟨plainLexemes_alike, RuleReader.read_eq_of_alike plainLexemes_alike .selectorList "a#b:c('d')"⟩

end SelectorLang
