import SelectorLang.Proofs.Reader.Resumed
import SelectorLang.Proofs.Rules.Outcomes

/-! # Rules against the symbol reader

A state of the symbol reader answers the lexemes up to the end of the text with an argument
list or a failure (`SelectorLang.State.answer`). A rule that starts where the state is follows
the state: if it fails, its failure is the state's answer; if it gives a value, the state
answers what is left as the state does that holds the value
(`SelectorLang.RuleReader.Answers`). What lies around the open part is the same in both states,
so that it is named once (`SelectorLang.Frame`).

Here are the rules that call none of the mutually recursive ones.
-/

namespace SelectorLang

theorem Letter.opensItem_ofChar {character : Char} (noAsterisk : character ≠ '*')
    (noDot : character ≠ '.') : (ofChar character).opensItem = false := by
  rcases ofChar_eq character with dot | asterisk | other | ⟨combinator, sign⟩
  · exact absurd (ofChar_eq_dot_iff.mp dot) noDot
  · exact absurd (ofChar_eq_fragment_iff.mp asterisk) noAsterisk
  · rw [other]
    rfl
  · rw [sign]
    rfl

/-! ## Answers of states -/

namespace State

/-- What a state makes of lexemes that the end of the text stands behind. -/
def answer (state : State) (selector : String) (lexemes : List Lexeme) :
    Except Failure (List Argument) :=
  (state.read (lexemes.map Lexeme.symbol)).mapError fun unexpected =>
    ⟨.ofUnexpected unexpected, selector⟩

/-- A state has no use for what is ahead. -/
def Refuses (state : State) : List Lexeme → Prop
  | [] => state.finish = none
  | lexeme :: _ => state.step lexeme.symbol = none

variable {state next : State} {selector : String} {lexeme : Lexeme} {lexemes front : List Lexeme}

theorem answer_of_refuses (refuses : state.Refuses lexemes) :
    state.answer selector lexemes = .error (failureAt selector lexemes) := by
  cases lexemes with
  | nil =>
      rw [Refuses] at refuses
      rw [answer, List.map_nil, read, refuses]
      rfl
  | cons lexeme rest =>
      rw [Refuses] at refuses
      rw [answer, List.map_cons, read, refuses]
      rfl

theorem answer_append (runs : state.run front = some next) (lexemes : List Lexeme) :
    state.answer selector (front ++ lexemes) = next.answer selector lexemes := by
  rw [answer, List.map_append, read_append runs, answer]

theorem answer_cons (steps : state.step lexeme.symbol = some next) (lexemes : List Lexeme) :
    state.answer selector (lexeme :: lexemes) = next.answer selector lexemes := by
  have runs : state.run [lexeme] = some next := run_cons steps []
  exact answer_append runs lexemes

/-- A reading that ends at the top only where an argument may end. -/
theorem finish_eq_none (inside : state.outer = [] → state.argumentEnd? = none) :
    state.finish = none := by
  cases finishes : state.finish with
  | none => rfl
  | some arguments =>
      obtain ⟨top, level, ends, -⟩ := argumentEnd_of_finish finishes
      rw [inside top] at ends
      contradiction

/-- A state that passes over blanks answers alike in front of them and behind. -/
theorem answer_afterBlanks (passes : ∀ source, state.step ⟨.blank, source⟩ = some state)
    (lexemes : List Lexeme) :
    state.answer selector lexemes = state.answer selector (afterBlanks lexemes) := by
  induction lexemes with
  | nil => rfl
  | cons lexeme rest ih =>
      rw [afterBlanks]
      split
      · rename_i blank
        rw [← ih, answer_cons]
        rw [Lexeme.symbol, blank]
        exact passes lexeme.source
      · rfl

/-- No other letter starts a condition. -/
theorem item_eq_none {symbol : Symbol} (other : symbol.letter.opensItem = false) :
    state.item symbol = none := by
  unfold item
  cases letter : symbol.letter <;> rw [letter] at other <;> first | rfl | cases other

end State

/-! ## What lies around an open part -/

/-- What lies around an open part: the lists around the one in progress, and in this one the
arguments and the parts before the open ones. -/
structure Frame where
  /-- The lists around the one in progress. -/
  outer : List Enclosing
  /-- The finished arguments. -/
  arguments : List Argument
  /-- The finished parts of the open complex selector. -/
  parts : List Part

/-- The state with conditions in the open part, at a place in the grammar. -/
def Frame.state (frame : Frame) (draft : Draft) (focus : Focus) : State :=
  ⟨frame.outer, ⟨frame.arguments, frame.parts, draft.rawText, draft.functions⟩, focus⟩

namespace RuleReader

/-- A rule that gives a value has moved over at least one lexeme. -/
def Forward {α : Type} (lexemes : List Lexeme) (outcome : Except Failure α)
    (behind : List Lexeme) : Prop :=
  ∀ value, outcome = .ok value → behind.length < lexemes.length

/-- The states that a rule starts from answer as the rule does: with its failure, or as the
state that holds its value answers the lexemes behind. -/
def Answers {α : Type} (selector : String) (lexemes : List Lexeme)
    (starts : Frame → State → Prop) (next : Frame → α → State) (outcome : Except Failure α)
    (behind : List Lexeme) : Prop :=
  ∀ frame state, starts frame state → state.answer selector lexemes =
    outcome.bind fun value => (next frame value).answer selector behind

/-- A rule follows the states that it starts from: it goes forward, and answers as they do. -/
structure Follows {α : Type} (selector : String) (lexemes : List Lexeme)
    (starts : Frame → State → Prop) (next : Frame → α → State) (outcome : Except Failure α)
    (behind : List Lexeme) : Prop where
  /-- A value is given behind at least one lexeme. -/
  forward : Forward lexemes outcome behind
  /-- The outcome is the answer of each of the states. -/
  answers : Answers selector lexemes starts next outcome behind

section

variable {α β : Type} {selector : String} {lexemes behind final : List Lexeme}
  {starts middle : Frame → State → Prop} {next : Frame → α → State} {outcome : Except Failure α}

theorem Forward.error (lexemes behind : List Lexeme) (failure : Failure) :
    Forward lexemes (.error failure : Except Failure α) behind := by
  rintro value ⟨⟩

/-- A failure of a part is a failure of the whole. -/
theorem Answers.follows_of_error {next' : Frame → β → State} {failure : Failure}
    (answers : Answers selector lexemes starts next (.error failure) behind) :
    Follows selector lexemes starts next' (.error failure) behind :=
  ⟨.error lexemes behind failure, answers⟩

/-- What is behind some of the lexemes is answered for the states that answer in front of all
of them as the states that it starts from. -/
theorem Answers.after {next' : Frame → α → State}
    (later : Answers selector behind middle next' outcome final)
    (reaches : ∀ frame state, starts frame state → ∃ frame' state', middle frame' state' ∧
      state.answer selector lexemes = state'.answer selector behind ∧
        next' frame' = next frame) :
    Answers selector lexemes starts next outcome final := by
  intro frame state begins
  obtain ⟨frame', state', middleBegins, same, sameNext⟩ := reaches frame state begins
  exact same.trans (sameNext ▸ later frame' state' middleBegins)

/-- What follows states behind some of the lexemes follows, in front of all of them, the states
that answer there as these do. -/
theorem Follows.after (later : Follows selector behind middle next outcome final)
    (shorter : behind.length ≤ lexemes.length)
    (reaches : ∀ frame state, starts frame state → ∃ state', middle frame state' ∧
      state.answer selector lexemes = state'.answer selector behind) :
    Follows selector lexemes starts next outcome final := by
  refine ⟨fun value given => Nat.lt_of_lt_of_le (later.forward value given) shorter,
    later.answers.after fun frame state begins => ?_⟩
  obtain ⟨state', middleBegins, same⟩ := reaches frame state begins
  exact ⟨frame, state', middleBegins, same, rfl⟩

theorem Decides.after {rule : RuleReader → RuleReading α} (middle : Frame → State → Prop)
    (shorter : behind.length ≤ lexemes.length)
    (reaches : ∀ frame state, starts frame state → ∃ state', middle frame state' ∧
      state.answer selector lexemes = state'.answer selector behind)
    (decides : Decides selector rule behind (Follows selector behind middle next)) :
    Decides selector rule behind (Follows selector lexemes starts next) :=
  decides.mono fun _ _ _ later => later.after shorter reaches

/-- A rule that skips blanks goes on with some rest in front of which there is none, and the
states that pass over blanks answer it as they answer all the lexemes. -/
theorem Decides.pastBlanks {next : RuleReader → Unit → RuleReading α}
    {described : Except Failure α → List Lexeme → Prop}
    (decides : ∀ rest : List Lexeme, rest.length ≤ lexemes.length →
      tokenAhead rest ≠ .whitespace →
      (∀ state : State, (∀ source, state.step ⟨.blank, source⟩ = some state) →
        state.answer selector lexemes = state.answer selector rest) →
      Decides selector (next · ()) rest described) :
    Decides selector (fun reader => reader.skipBlanks >>= next reader) lexemes described :=
  .skipBlanks (decides _ (length_afterBlanks_le lexemes) (tokenAhead_afterBlanks lexemes)
    fun _ passes => State.answer_afterBlanks passes lexemes)

/-- A lexeme is unexpected where no state has a use for it. -/
theorem decides_unexpected (refuses : ∀ frame state, starts frame state → state.Refuses lexemes) :
    Decides selector (fun reader => reader.unexpected) lexemes
      (Follows selector lexemes starts next) :=
  .unexpected ⟨.error lexemes lexemes _, fun frame state begins =>
    State.answer_of_refuses (refuses frame state begins)⟩

end

/-! ## Conditions copied as they stand -/

open Grammar in
/-- Native arguments are copied up to the end of the text, or to the closing parenthesis that
none of the copied ones is for. -/
theorem decides_nativeArguments (selector : String) (lexemes : List Lexeme) {front : List Lexeme}
    {depth : Nat} (unclosed : Unclosed depth front) :
    Decides selector (fun reader => reader.nativeArguments (sources front) (depth + 1)) lexemes
      fun outcome behind => ∃ skipped left, lexemes = skipped ++ behind ∧
        outcome = .ok (sources (front ++ skipped)) ∧ Unclosed left (front ++ skipped) ∧
          (behind = [] ∨ left = 0 ∧ tokenAhead behind = .closeParen) := by
  induction lexemes generalizing front depth with
  | nil =>
      unfold nativeArguments
      refine .peek (.pure ⟨[], depth, rfl, ?_, ?_, Or.inl rfl⟩)
      · rw [List.append_nil]
      · rwa [List.append_nil]
  | cons lexeme rest ih =>
      have copies {next : Nat} (unclosed : Unclosed next (front ++ [lexeme])) :
          Decides selector
            (fun reader => reader.bumpSource >>= fun source =>
              reader.nativeArguments (sources front ++ source) (next + 1))
            (lexeme :: rest) fun outcome behind => ∃ skipped left,
              lexeme :: rest = skipped ++ behind ∧ outcome = .ok (sources (front ++ skipped)) ∧
                Unclosed left (front ++ skipped) ∧
                  (behind = [] ∨ left = 0 ∧ tokenAhead behind = .closeParen) := by
        have isText : sources (front ++ [lexeme]) = sources front ++ lexeme.source := by
          rw [sources_append, sources_cons, sources_nil, String.append_empty]
        refine .bumpSource ((isText ▸ ih unclosed).mono ?_)
        rintro outcome behind - ⟨skipped, left, cut, copied, unclosed, stops⟩
        rw [List.append_assoc] at copied unclosed
        exact ⟨lexeme :: skipped, left, congrArg (lexeme :: ·) cut, copied, unclosed, stops⟩
      unfold nativeArguments
      refine .of_endless fun endless => .peek ?_
      cases token : lexeme.token <;> simp only [tokenAhead, token]
      case endOfText => exact absurd token (endless lexeme List.mem_cons_self)
      case openParen =>
        exact copies (.opened unclosed (by rw [token]; rfl) .nil)
      case function =>
        exact copies (.opened unclosed (by rw [token]; rfl) .nil)
      case closeParen =>
        cases depth with
        | zero =>
            refine .pure ⟨[], 0, rfl, ?_, ?_, Or.inr ⟨rfl, token⟩⟩
            · rw [List.append_nil]
            · rwa [List.append_nil]
        | succ depth => exact copies (unclosed.close token)
      all_goals
        refine copies (unclosed.append (.plain ?_ ?_ .nil))
        · rw [token]
          rfl
        · simp [token]

open Grammar in
/-- Copying native arguments leaves the state with as many parentheses open as they have. -/
theorem run_unclosed {inner : List Lexeme} {depth : Nat} (unclosed : Unclosed depth inner)
    (outer : List Enclosing) (level : Level) :
    (State.mk outer level (.native 0)).run inner =
      some ⟨outer, level.add (sources inner) [], .native depth⟩ := by
  induction unclosed with
  | balanced balanced => exact run_balanced balanced outer level 0
  | @opened depth front rest opening _ opens balanced ih =>
      rw [State.run_append_of_run ih, State.run_cons (step_of_opensParen opens outer _ depth),
        run_balanced balanced]
      simp only [Level.add_add, List.append_nil, sources_append, sources_cons,
        String.append_assoc]

/-- What a rule may find behind arguments: the parenthesis that closes them ends a condition,
and nothing else has a place. -/
def Closes (draft : Draft) (lexemes : List Lexeme) (frame : Frame) (state : State) : Prop :=
  match lexemes with
  | [] => state.finish = none
  | lexeme :: _ => state.step lexeme.symbol =
      if lexeme.token = .closeParen then some (frame.state draft .item) else none

/-- Behind arguments the parenthesis that closes them is taken, and no other lexeme. -/
theorem decides_closing (selector : String) (draft : Draft) {lexemes : List Lexeme}
    (ahead : tokenAhead lexemes ≠ .whitespace) :
    Decides selector (fun reader => reader.closing draft) lexemes
      (Follows selector lexemes (Closes draft lexemes) fun frame draft =>
        frame.state draft .item) := by
  unfold closing
  refine .skipBlanks (.peek ?_)
  rw [afterBlanks_of_ahead ahead]
  cases lexemes with
  | nil => exact decides_unexpected fun frame state closes => closes
  | cons lexeme rest =>
      by_cases closes : lexeme.token = .closeParen
      · simp only [tokenAhead, closes, ↓reduceIte]
        refine .bump (.pure ⟨fun _ _ => Nat.lt_succ_self _, fun frame state steps => ?_⟩)
        exact State.answer_cons (steps.trans (if_pos closes)) rest
      · simp only [tokenAhead, closes, ↓reduceIte]
        exact decides_unexpected fun frame state steps => steps.trans (if_neg closes)

/-- A native pseudo-class with arguments is copied. -/
theorem decides_nativeCall (selector : String) (draft : Draft) (name : String)
    (lexemes : List Lexeme) :
    Decides selector (fun reader => reader.nativeCall draft name) lexemes
      (Follows selector lexemes
        (fun frame state => state = frame.state (draft.addText (":" ++ name ++ "(")) (.native 0))
        fun frame draft => frame.state draft .item) := by
  unfold nativeCall
  refine (decides_nativeArguments selector lexemes (.balanced .nil)).bind ?_ ?_
  · rintro failure behind - ⟨skipped, left, -, copied, -⟩
    exact nomatch copied
  rintro raw behind - ⟨skipped, left, rfl, ⟨⟩, unclosed, stops⟩
  rw [List.nil_append] at unclosed ⊢
  have ahead : tokenAhead behind ≠ .whitespace := by
    rcases stops with rfl | ⟨-, closes⟩
    · exact nofun
    · rw [closes]
      exact nofun
  refine .after (Closes _ behind) (List.length_append ▸ Nat.le_add_left _ _) ?_
    (decides_closing selector _ ahead)
  rintro frame state rfl
  have runs := run_unclosed unclosed frame.outer
    (frame.state (draft.addText (":" ++ name ++ "(")) .item).level
  refine ⟨_, ?_, State.answer_append runs behind⟩
  rcases stops with rfl | ⟨rfl, closes⟩
  · exact State.finish_eq_none fun _ => rfl
  · cases behind with
    | nil => exact nomatch closes
    | cons lexeme rest =>
        refine Eq.trans ?_ (if_pos closes).symm
        rw [tokenAhead] at closes
        simp only [State.step, State.native, Lexeme.symbol, closes, Token.letter, State.addText,
          State.goOn, Level.addText, Level.add, Frame.state, Draft.addText, String.append_assoc,
          List.append_nil]

open Grammar in
/-- Behind its opening bracket, an attribute condition is copied up to its closing one. -/
theorem decides_attributeRest (selector : String) (draft : Draft) (lexemes : List Lexeme) :
    Decides selector (fun reader => reader.attributeRest draft) lexemes
      (Follows selector lexemes (fun frame state => state = frame.state draft .attribute)
        fun frame draft => frame.state draft .item) := by
  induction lexemes generalizing draft with
  | nil =>
      unfold attributeRest
      refine .peek (decides_unexpected ?_)
      rintro frame state rfl
      exact State.finish_eq_none fun _ => rfl
  | cons lexeme rest ih =>
      unfold attributeRest
      refine .of_endless fun endless => .peek ?_
      by_cases closes : lexeme.token = .closeBracket
      · simp only [tokenAhead, closes]
        refine .bumpSource (.pure ⟨fun _ _ => Nat.lt_succ_self _, ?_⟩)
        rintro frame state rfl
        refine State.answer_cons ?_ rest
        rw [Lexeme.symbol, closes]
        rfl
      · have copies (frame : Frame) : (frame.state draft .attribute).run [lexeme] =
            some (frame.state (draft.addText lexeme.source) .attribute) := by
          refine (run_attribute frame.outer _ [lexeme] (by simpa using closes)).trans ?_
          rw [sources_cons, sources_nil, String.append_empty, ← Level.addText_eq_add]
          rfl
        have goesOn : Decides selector
            (fun reader => reader.bumpSource >>= fun source =>
              reader.attributeRest (draft.addText source)) (lexeme :: rest)
            (Follows selector (lexeme :: rest)
              (fun frame state => state = frame.state draft .attribute)
              fun frame draft => frame.state draft .item) := by
          refine .bumpSource (Decides.after _ (Nat.le_succ _) ?_ (ih (draft.addText lexeme.source)))
          rintro frame state rfl
          exact ⟨_, rfl, State.answer_append (copies frame) rest⟩
        cases token : lexeme.token <;> simp only [tokenAhead, token]
        case endOfText => exact absurd token (endless lexeme List.mem_cons_self)
        case closeBracket => exact absurd token closes
        all_goals exact goesOn

/-- The start of a condition: the first symbol does what it does in the part. -/
def Begins (draft : Draft) (lexemes : List Lexeme) (frame : Frame) (state : State) : Prop :=
  match lexemes with
  | [] => state.finish = none
  | lexeme :: _ => state.step lexeme.symbol = (frame.state draft .item).item lexeme.symbol

/-- An attribute condition is copied with its brackets. -/
theorem decides_attribute (selector : String) (draft : Draft) {opening : Lexeme}
    (opens : opening.token = .openBracket) (rest : List Lexeme) :
    Decides selector (fun reader => reader.attribute draft) (opening :: rest)
      (Follows selector (opening :: rest) (Begins draft (opening :: rest)) fun frame draft =>
        frame.state draft .item) := by
  unfold «attribute»
  refine .bumpSource (Decides.after
    (fun frame state => state = frame.state (draft.addText opening.source) .attribute)
    (Nat.le_succ _) (fun frame state begins => ⟨_, rfl, ?_⟩)
    (decides_attributeRest selector _ rest))
  refine State.answer_cons (Eq.trans begins ?_) rest
  rw [Lexeme.symbol, opens]
  rfl

/-- A class name is copied with its dot. -/
theorem decides_className (selector : String) (draft : Draft) {dot : Lexeme}
    (isDot : dot.token = .delim '.') (rest : List Lexeme) :
    Decides selector (fun reader => reader.className draft) (dot :: rest)
      (Follows selector (dot :: rest) (Begins draft (dot :: rest)) fun frame draft =>
        frame.state draft .item) := by
  unfold className
  refine .bump (Decides.after (fun frame state => state = frame.state draft .dot) (Nat.le_succ _)
    (fun frame state begins => ⟨_, rfl, State.answer_cons (Eq.trans begins ?_) rest⟩) (.peek ?_))
  · rw [Lexeme.symbol, isDot]
    rfl
  cases rest with
  | nil =>
      refine decides_unexpected ?_
      rintro frame state rfl
      exact State.finish_eq_none fun _ => rfl
  | cons lexeme rest =>
      have refuses (other : ∀ name, lexeme.token ≠ .ident name) (frame : Frame) :
          (frame.state draft .dot).step lexeme.symbol = none := by
        cases letter : lexeme.token.letter <;>
          simp only [State.step, Frame.state, Lexeme.symbol, letter]
        case name =>
          obtain ⟨name, token, -⟩ := Token.letter_eq_name_iff.mp letter
          exact absurd token (other name)
      cases token : lexeme.token <;> simp only [tokenAhead, token]
      case ident =>
        refine .bumpSource (.pure ⟨fun _ _ => Nat.lt_succ_self _, ?_⟩)
        rintro frame state rfl
        refine State.answer_cons ?_ rest
        rw [Lexeme.symbol, token]
        rfl
      all_goals
        refine decides_unexpected ?_
        rintro frame state rfl
        exact refuses (by simp [token]) frame

/-- A condition that no colon starts is copied. -/
theorem decides_plainCondition (selector : String) (draft : Draft) (lexemes : List Lexeme)
    (noColon : tokenAhead lexemes ≠ .colon) :
    Decides selector (fun reader => reader.plainCondition draft) lexemes
      (Follows selector lexemes (Begins draft lexemes) fun frame draft =>
        frame.state draft .item) := by
  unfold plainCondition
  refine .peek ?_
  cases lexemes with
  | nil => exact decides_unexpected fun frame state begins => begins
  | cons lexeme rest =>
      have copies (letter : (∃ lowered, lexeme.token.letter = .name lowered) ∨
          lexeme.token.letter = .fragment) : Decides selector
          (fun reader => reader.bumpSource >>= fun source => pure (draft.addText source))
          (lexeme :: rest) (Follows selector (lexeme :: rest) (Begins draft (lexeme :: rest))
            fun frame draft => frame.state draft .item) := by
        refine .bumpSource (.pure ⟨fun _ _ => Nat.lt_succ_self _, fun frame state begins => ?_⟩)
        refine State.answer_cons (Eq.trans begins ?_) rest
        rcases letter with ⟨lowered, letter⟩ | letter <;>
          simp only [State.item, Lexeme.symbol, letter] <;> rfl
      have refused (other : lexeme.token.letter.opensItem = false) : Decides selector
          (fun reader => reader.unexpected) (lexeme :: rest)
          (Follows selector (lexeme :: rest) (Begins draft (lexeme :: rest))
            fun frame draft => frame.state draft .item) :=
        decides_unexpected fun frame state begins =>
          Eq.trans begins (State.item_eq_none other)
      cases token : lexeme.token <;> simp only [tokenAhead, token]
      case ident name => exact copies (Or.inl ⟨name.toLower, by rw [token]; rfl⟩)
      case hash => exact copies (Or.inr (by rw [token]; rfl))
      case delim character =>
        by_cases asterisk : character = '*'
        · subst asterisk
          exact copies (Or.inr (by rw [token]; rfl))
        · by_cases dot : character = '.'
          · subst dot
            exact decides_className selector draft token rest
          · simp only [asterisk, dot, ↓reduceIte]
            exact refused (by rw [token]; exact Letter.opensItem_ofChar asterisk dot)
      case colon => exact absurd token noColon
      case openBracket => exact decides_attribute selector draft token rest
      all_goals exact refused (by rw [token]; rfl)

end RuleReader

end SelectorLang
