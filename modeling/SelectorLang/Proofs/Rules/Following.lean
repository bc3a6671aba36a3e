import SelectorLang.Proofs.Reader.Moves
import SelectorLang.Proofs.Rules.Answers

/-! # Every rule follows the symbol reader

The rules that call each other, one lemma for each: a rule follows the states at its place in
the grammar if argument lists in front of fewer lexemes do. An argument list inside a function
has fewer lexemes in front of it, so that the induction is on their number and closes over all
the rules at once (`SelectorLang.RuleReader.readsArguments`). The loops are inductions of
their own inside of it.

Where a rule goes back to the one that called it, the reader is between conditions, and the
state there is the same whether it came behind an item or behind blanks; this is shown first.
-/

namespace SelectorLang

/-! ## Letters at the ends of clauses -/

/-- The letters behind which nothing more belongs to a simple selector. -/
def Letter.endsClause : Letter → Bool
  | blank | comma | closeParen | combinator _ => true
  | _ => false

namespace Token

variable {token : Token}

theorem letter_eq_combinator_iff_combinator? {combinator : Combinator} :
    token.letter = .combinator combinator ↔ token.combinator? = some combinator := by
  rw [letter_eq_combinator_iff]
  cases token <;> simp [combinator?, Combinator.ofChar?_eq_some_iff]

theorem endsClause_letter (inside : token ≠ .endOfText) :
    token.letter.endsClause = token.endsClause := by
  cases token with
  | delim character =>
      have combines (combinator : Combinator) :
          Letter.ofChar character = .combinator combinator ↔
            Combinator.ofChar? character = some combinator :=
        @letter_eq_combinator_iff_combinator? (.delim character) combinator
      change (Letter.ofChar character).endsClause = (Combinator.ofChar? character).isSome
      cases read : Combinator.ofChar? character with
      | some combinator =>
          rw [(combines combinator).mpr read]
          rfl
      | none =>
          rcases Letter.ofChar_eq character with same | same | same | ⟨combinator, same⟩
          · rw [same]
            rfl
          · rw [same]
            rfl
          · rw [same]
            rfl
          · rw [(combines combinator).mp same] at read
            contradiction
  | endOfText => exact absurd rfl inside
  | _ => rfl

/-- What may stand behind a complex selector and blanks, with the end of the text aside. -/
theorem comma_or_closeParen_of_endsClause (ends : token.endsClause = true)
    (noSign : token.combinator? = none) (noBlank : token ≠ .whitespace)
    (inside : token ≠ .endOfText) : token = .comma ∨ token = .closeParen := by
  cases token <;> simp_all [endsClause]

theorem letter_endsClause (goesOn : token.endsClause = false) :
    token.letter.endsClause = false := by
  rwa [endsClause_letter]
  rintro rfl
  contradiction

end Token

/-! ## Between conditions -/

namespace State

variable {state state' : State} {selector : String} {lexeme : Lexeme} {lexemes : List Lexeme}

/-- States with the same next state answer alike. -/
theorem answer_eq_of_step (same : state.step lexeme.symbol = state'.step lexeme.symbol)
    (lexemes : List Lexeme) :
    state.answer selector (lexeme :: lexemes) = state'.answer selector (lexeme :: lexemes) := by
  rw [answer, answer, List.map_cons, read, read, same]

/-- At the end of an argument, states answer alike that end it alike. -/
theorem answer_eq_of_argumentEnd {level : Level} (outer : state.outer = state'.outer)
    (ends : state.argumentEnd? = some level) (ends' : state'.argumentEnd? = some level)
    (ahead : ∀ lexeme ∈ lexemes.head?, lexeme.token = .comma ∨ lexeme.token = .closeParen) :
    state.answer selector lexemes = state'.answer selector lexemes := by
  cases lexemes with
  | nil =>
      suffices same : state.finish = state'.finish by
        rw [answer, answer, List.map_nil, read, read, same]
      by_cases top : state.outer = []
      · rw [finish_of_argumentEnd top ends, finish_of_argumentEnd (outer ▸ top) ends']
      · rw [finish_eq_none fun top' => absurd top' top,
          finish_eq_none fun top' => absurd (outer.trans top') top]
  | cons lexeme rest =>
      refine answer_eq_of_step ?_ rest
      rcases ahead lexeme rfl with comma | closes
      · have letter : lexeme.symbol.letter = .comma := (Token.letter_eq_iff_of_mark rfl).mpr comma
        rw [step_comma_of_argumentEnd letter ends, step_comma_of_argumentEnd letter ends', outer]
      · have letter : lexeme.symbol.letter = .closeParen :=
          (Token.letter_eq_iff_of_mark rfl).mpr closes
        rw [step_closeParen_of_argumentEnd letter ends, step_closeParen_of_argumentEnd letter ends',
          outer]

end State

/-- The conditions of a simple selector. -/
def Draft.ofSimple (simple : SimpleSelector) : Draft :=
  ⟨simple.rawText.getD "", simple.functions⟩

theorem Draft.eq_ofSimple {draft : Draft} {simple : SimpleSelector}
    (whole : draft.simple? = some simple) : draft = .ofSimple simple := by
  unfold Draft.simple? at whole
  split at whole
  · rename_i noText
    split at whole
    · contradiction
    · cases whole
      exact congrArg (Draft.mk · draft.functions) noText
  · cases whole
    rfl

namespace Frame

variable {selector : String} {frame : Frame} {draft : Draft} {simple : SimpleSelector}
  {lexeme : Lexeme} {lexemes : List Lexeme}

/-- The state behind an argument list so far, its last argument ended. -/
def ended (frame : Frame) (arguments : List Argument) : State :=
  ⟨frame.outer, .fresh arguments [], .literalEnd⟩

/-- The state behind one more argument. -/
def behindArgument (frame : Frame) (argument : Argument) : State :=
  frame.ended (frame.arguments ++ [argument])

/-- One more part in front of the open one. -/
def addPart (frame : Frame) (simple : SimpleSelector) (combinator : Combinator) : Frame :=
  { frame with parts := frame.parts ++ [⟨simple, combinator⟩] }

theorem endPart?_state (whole : draft.simple? = some simple) (combinator : Combinator)
    (focus : Focus) : (frame.state draft focus).level.endPart? combinator =
      some ((frame.addPart simple combinator).state .empty .item).level := by
  have whole' : (frame.state draft focus).level.simple? = some simple := whole
  exact Level.endPart?_of_simple? whole' combinator

/-- The sign of a combinator ends a part. -/
theorem step_combinator (whole : draft.simple? = some simple) {combinator : Combinator}
    (sign : lexeme.token.combinator? = some combinator) :
    (frame.state draft .partEnd).step lexeme.symbol =
      some ((frame.addPart simple combinator).state .empty .partStart) := by
  have letter := Token.letter_eq_combinator_iff_combinator?.mpr sign
  change State.behindPart _ _ = _
  simp only [State.behindPart, Lexeme.symbol, letter, State.boundary,
    endPart?_state whole combinator]
  rfl

/-- A part without conditions may not end. -/
theorem refuses_of_empty (nothing : draft.simple? = none)
    (ends : (tokenAhead lexemes).endsClause = true)
    (endless : ∀ lexeme ∈ lexemes, lexeme.token ≠ .endOfText) :
    (frame.state draft .item).Refuses lexemes := by
  have noPart (combinator : Combinator) :
      (frame.state draft .item).level.endPart? combinator = none :=
    congrArg (Option.map _) nothing
  have noArgument : (frame.state draft .item).level.endArgument? = none :=
    congrArg (Option.map _) (noPart .descendant)
  cases lexemes with
  | nil => exact State.finish_eq_none fun _ => noArgument
  | cons lexeme rest =>
      rw [tokenAhead, ← Token.endsClause_letter (endless lexeme List.mem_cons_self)] at ends
      change State.behindItem _ _ = none
      cases letter : lexeme.token.letter with
      | blank =>
          simp only [State.behindItem, Lexeme.symbol, letter]
          exact congrArg (Option.map _) nothing
      | comma =>
          simp only [State.behindItem, Lexeme.symbol, letter, State.boundary, noArgument,
            Option.map_none]
      | closeParen =>
          simp only [State.behindItem, Lexeme.symbol, letter, State.boundary, noArgument,
            Option.bind_none]
      | combinator combinator =>
          simp only [State.behindItem, Lexeme.symbol, letter, State.boundary, noPart,
            Option.map_none]
      | _ =>
          rw [letter] at ends
          contradiction

/-- Where a part may only start, the end of a clause has no place. -/
theorem refuses_of_begins {state : State} (begins : RuleReader.Begins draft lexemes frame state)
    (ends : (tokenAhead lexemes).endsClause = true)
    (endless : ∀ lexeme ∈ lexemes, lexeme.token ≠ .endOfText) : state.Refuses lexemes := by
  cases lexemes with
  | nil => exact begins
  | cons lexeme rest =>
      rw [tokenAhead, ← Token.endsClause_letter (endless lexeme List.mem_cons_self)] at ends
      refine Eq.trans begins (State.item_eq_none ?_)
      cases letter : lexeme.token.letter <;> rw [letter] at ends <;>
        first | contradiction | simp only [Lexeme.symbol, letter, Letter.opensItem]

/-- At the end of a clause the reader is behind an item as it is behind blanks. -/
theorem answer_item (whole : draft.simple? = some simple)
    (ends : (tokenAhead lexemes).endsClause = true)
    (endless : ∀ lexeme ∈ lexemes, lexeme.token ≠ .endOfText) :
    (frame.state draft .item).answer selector lexemes =
      (frame.state draft .partEnd).answer selector lexemes := by
  cases lexemes with
  | nil =>
      have argumentEnds (focus : Focus) :
          (frame.state draft focus).level.endArgument? = some _ :=
        congrArg (Option.map _) (frame.endPart?_state whole .descendant focus)
      exact State.answer_eq_of_argumentEnd rfl (argumentEnds .item) (argumentEnds .partEnd)
        fun _ member => nomatch member
  | cons lexeme rest =>
      rw [tokenAhead, ← Token.endsClause_letter (endless lexeme List.mem_cons_self)] at ends
      refine State.answer_eq_of_step ?_ rest
      change State.behindItem _ _ = State.behindPart _ _
      cases letter : lexeme.token.letter with
      | blank =>
          simp only [State.behindItem, State.behindPart, Lexeme.symbol, letter]
          exact congrArg (Option.map _) whole
      | comma | closeParen | combinator =>
          simp only [State.behindItem, State.behindPart, Lexeme.symbol, letter]
          rfl
      | _ =>
          rw [letter] at ends
          contradiction

/-- Behind an item, what does not end the clause starts the next condition. -/
theorem begins_item (goesOn : (tokenAhead lexemes).endsClause = false) :
    RuleReader.Begins draft lexemes frame (frame.state draft .item) := by
  cases lexemes with
  | nil => exact nomatch goesOn
  | cons lexeme rest =>
      have goesOn : lexeme.token.letter.endsClause = false := Token.letter_endsClause goesOn
      change State.behindItem _ _ = _
      unfold State.behindItem
      cases letter : lexeme.token.letter <;> rw [letter] at goesOn <;>
        first | contradiction | simp only [Lexeme.symbol, letter]

/-- Behind a part and blanks, what does not end the clause starts the next part, a
descendant. -/
theorem begins_partEnd (whole : draft.simple? = some simple)
    (goesOn : (tokenAhead lexemes).endsClause = false) :
    RuleReader.Begins .empty lexemes (frame.addPart simple .descendant)
      (frame.state draft .partEnd) := by
  cases lexemes with
  | nil => exact nomatch goesOn
  | cons lexeme rest =>
      have goesOn : lexeme.token.letter.endsClause = false := Token.letter_endsClause goesOn
      have ended := frame.endPart?_state whole .descendant .partEnd
      change State.behindPart _ _ = _
      unfold State.behindPart
      cases letter : lexeme.token.letter <;> rw [letter] at goesOn <;>
        first | contradiction | (simp only [Lexeme.symbol, letter, ended]; rfl)

/-- Behind the sign of a combinator and blanks, a part starts. -/
theorem begins_partStart (ahead : tokenAhead lexemes ≠ .whitespace) :
    RuleReader.Begins .empty lexemes frame (frame.state .empty .partStart) := by
  cases lexemes with
  | nil => exact State.finish_eq_none fun _ => rfl
  | cons lexeme rest =>
      change State.step _ _ = _
      unfold State.step
      cases letter : lexeme.token.letter with
      | blank => exact absurd ((Token.letter_eq_iff_of_mark rfl).mp letter) ahead
      | _ =>
          simp only [Frame.state, Lexeme.symbol, letter]
          rfl

/-- At the start of an argument that is neither a number nor a string, a part starts. -/
theorem begins_argumentStart (noBlank : tokenAhead lexemes ≠ .whitespace)
    (noNumber : ∀ value kind, tokenAhead lexemes ≠ .number value kind)
    (noString : ∀ value, tokenAhead lexemes ≠ .string value) :
    RuleReader.Begins .empty lexemes frame (frame.state .empty .argumentStart) := by
  cases lexemes with
  | nil => exact State.finish_eq_none fun _ => rfl
  | cons lexeme rest =>
      change State.argument _ _ = _
      unfold State.argument
      cases letter : lexeme.token.letter with
      | blank => exact absurd ((Token.letter_eq_iff_of_mark rfl).mp letter) noBlank
      | number value =>
          obtain ⟨kind, token⟩ := Token.letter_eq_number_iff.mp letter
          exact absurd token (noNumber value kind)
      | string value => exact absurd (Token.letter_eq_string_iff.mp letter) (noString value)
      | _ =>
          simp only [Lexeme.symbol, letter]
          rfl

/-- Where a complex selector ends, it is the last argument. -/
theorem answer_partEnd (whole : draft.simple? = some simple)
    (ahead : ∀ lexeme ∈ lexemes.head?, lexeme.token = .comma ∨ lexeme.token = .closeParen) :
    (frame.state draft .partEnd).answer selector lexemes =
      (frame.behindArgument (.selector ⟨frame.parts ++ [⟨simple, .descendant⟩]⟩)).answer
        selector lexemes :=
  State.answer_eq_of_argumentEnd rfl
    (congrArg (Option.map _) (frame.endPart?_state whole .descendant .partEnd)) rfl ahead

/-- Behind a colon a name is a native class or a function without arguments. -/
theorem step_name {name : String} (token : lexeme.token = .ident name) :
    (frame.state draft .colon).step lexeme.symbol = some (frame.state
      (if isNativeClass name.toLower then draft.addText (":" ++ lexeme.source)
        else draft.addFunction ⟨name.toLower, []⟩) .item) := by
  change State.pseudo _ _ = _
  rw [State.pseudo, Lexeme.symbol, token]
  simp only [Token.letter]
  split <;> rfl

/-- Behind a colon a name with a parenthesis starts native arguments or an argument list. -/
theorem step_call {name : String} (token : lexeme.token = .function name) :
    (frame.state draft .colon).step lexeme.symbol = some
      (if isNativeFunction name.toLower then
        frame.state (draft.addText (":" ++ name.toLower ++ "(")) (.native 0)
      else
        ⟨⟨(frame.state draft .item).level, name.toLower⟩ :: frame.outer, .empty, .listStart⟩) := by
  change State.pseudo _ _ = _
  rw [State.pseudo, Lexeme.symbol, token]
  simp only [Token.letter]
  split <;> rfl

/-- Behind a colon only a name has a place, with a parenthesis or without. -/
theorem refuses_colon (noName : ∀ name, lexeme.token ≠ .ident name)
    (noCall : ∀ name, lexeme.token ≠ .function name) :
    (frame.state draft .colon).Refuses (lexeme :: lexemes) := by
  change State.pseudo _ _ = none
  unfold State.pseudo
  cases letter : lexeme.token.letter <;> simp only [Lexeme.symbol, letter]
  case name =>
    obtain ⟨name, token, -⟩ := Token.letter_eq_name_iff.mp letter
    exact absurd token (noName name)
  case call =>
    obtain ⟨name, token, -⟩ := Token.letter_eq_call_iff.mp letter
    exact absurd token (noCall name)

/-- Behind the arguments of a function, its parenthesis closes it. -/
theorem closes_ended {name : String} {arguments : List Argument} {parts : List Part}
    {before : List Argument} (noBlank : tokenAhead lexemes ≠ .whitespace)
    (noComma : tokenAhead lexemes ≠ .comma) :
    RuleReader.Closes (draft.addFunction ⟨name, arguments⟩) lexemes frame
      (Frame.ended ⟨⟨(frame.state draft .item).level, name⟩ :: frame.outer, before, parts⟩
        arguments) := by
  cases lexemes with
  | nil => exact State.finish_eq_none fun top => nomatch top
  | cons lexeme rest =>
      by_cases closes : lexeme.token = .closeParen
      · refine Eq.trans ?_ (if_pos closes).symm
        rw [Lexeme.symbol, closes]
        rfl
      · refine Eq.trans ?_ (if_neg closes).symm
        cases letter : lexeme.token.letter <;>
          simp only [State.step, Frame.ended, Lexeme.symbol, letter]
        case blank => exact absurd ((Token.letter_eq_iff_of_mark rfl).mp letter) noBlank
        case comma => exact absurd ((Token.letter_eq_iff_of_mark rfl).mp letter) noComma
        case closeParen => exact absurd ((Token.letter_eq_iff_of_mark rfl).mp letter) closes

end Frame

/-! ## The rules -/

namespace RuleReader

/-- What an argument list does in front of lexemes: it follows the states at the start of one,
and what is behind it is neither a blank nor a comma. -/
def ReadsArguments (selector : String) (lexemes : List Lexeme) : Prop :=
  Decides selector (fun reader => reader.arguments) lexemes fun outcome behind =>
    Follows selector lexemes (fun frame state => state = ⟨frame.outer, .empty, .listStart⟩)
      Frame.ended outcome behind ∧
    ∀ arguments, outcome = .ok arguments →
      tokenAhead behind ≠ .whitespace ∧ tokenAhead behind ≠ .comma

/-- The state at the start of an argument. -/
def ArgumentStarts (frame : Frame) (state : State) : Prop :=
  frame.parts = [] ∧ state = frame.state .empty .argumentStart

/-- The state behind the last of some parts, which has no combinator yet. -/
def PartEnds (parts : List Part) (last : SimpleSelector) (frame : Frame) (state : State) : Prop :=
  frame.parts = parts ∧ state = frame.state (.ofSimple last) .partEnd

/-- At the end of a clause there are no more conditions. -/
theorem decides_conditions_of_endsClause {selector : String} {lexemes : List Lexeme}
    (draft : Draft) (ends : (tokenAhead lexemes).endsClause = true) :
    Decides selector (fun reader => reader.conditions draft) lexemes fun outcome behind =>
      outcome = .ok draft ∧ behind = lexemes := by
  unfold conditions
  refine .peek ?_
  simp only [ends, ↓reduceIte]
  exact .pure ⟨rfl, rfl⟩

/-- A number or a string is an argument. -/
theorem decides_literal {selector : String} {argument : Argument} {lexeme : Lexeme}
    (isLiteral : lexeme.token.letter.literal? = some argument) (rest : List Lexeme) :
    Decides selector (fun reader => reader.bump >>= fun _ => pure argument) (lexeme :: rest)
      (Follows selector (lexeme :: rest) ArgumentStarts Frame.behindArgument) := by
  refine .bump (.pure ⟨fun _ _ => Nat.lt_succ_self _, ?_⟩)
  rintro frame state ⟨noParts, rfl⟩
  refine State.answer_cons ?_ rest
  rw [Lexeme.symbol, Frame.state, noParts]
  cases letter : lexeme.token.letter <;> rw [letter] at isLiteral <;> cases isLiteral <;> rfl

section

variable {selector : String} {bound : Nat} {lexemes : List Lexeme}
  (inner : ∀ shorter : List Lexeme, shorter.length < bound → ReadsArguments selector shorter)

include inner

/-- An engine function with arguments. -/
theorem decides_engineCall (draft : Draft) (name : String) (small : lexemes.length < bound) :
    Decides selector (fun reader => reader.engineCall draft name) lexemes
      (Follows selector lexemes
        (fun frame state => state =
          ⟨⟨(frame.state draft .item).level, name⟩ :: frame.outer, .empty, .listStart⟩)
        fun frame draft => frame.state draft .item) := by
  unfold engineCall
  refine (inner lexemes small).bind ?_ ?_
  · rintro failure behind - ⟨follows, -⟩
    refine ⟨.error _ _ _, ?_⟩
    rintro frame state rfl
    exact follows.answers ⟨_, [], []⟩ _ rfl
  · rintro arguments behind cut ⟨follows, ahead⟩
    obtain ⟨noBlank, noComma⟩ := ahead arguments rfl
    refine .after _ cut.length_le ?_ (decides_closing selector _ noBlank)
    rintro frame state rfl
    exact ⟨_, Frame.closes_ended noBlank noComma, follows.answers ⟨_, [], []⟩ _ rfl⟩

/-- What stands behind a colon. -/
theorem decides_pseudo (draft : Draft) (small : lexemes.length ≤ bound) :
    Decides selector (fun reader => reader.pseudo draft) lexemes
      (Follows selector lexemes (fun frame state => state = frame.state draft .colon)
        fun frame draft => frame.state draft .item) := by
  unfold pseudo
  refine .peek ?_
  cases lexemes with
  | nil =>
      refine decides_unexpected ?_
      rintro frame state rfl
      exact State.finish_eq_none fun _ => rfl
  | cons lexeme rest =>
      cases token : lexeme.token <;> simp only [tokenAhead, token]
      case ident name =>
        have steps (frame : Frame) := @Frame.step_name frame draft lexeme name token
        refine .bumpSource ?_
        cases native : isNativeClass name.toLower <;> simp only [native, ↓reduceIte] at steps ⊢
        all_goals
          refine .pure ⟨fun _ _ => Nat.lt_succ_self _, ?_⟩
          rintro frame state rfl
          exact State.answer_cons (steps frame) rest
      case function name =>
        have steps (frame : Frame) := @Frame.step_call frame draft lexeme name token
        refine .bump ?_
        cases native : isNativeFunction name.toLower with
        | true =>
            simp only [native, ↓reduceIte] at steps ⊢
            refine Decides.after _ (Nat.le_succ _) ?_ (decides_nativeCall selector draft _ rest)
            rintro frame state rfl
            exact ⟨_, rfl, State.answer_cons (steps frame) rest⟩
        | false =>
            simp only [native] at steps ⊢
            refine Decides.after _ (Nat.le_succ _) ?_ (decides_engineCall inner draft _ small)
            rintro frame state rfl
            exact ⟨_, rfl, State.answer_cons (steps frame) rest⟩
      all_goals
        refine decides_unexpected ?_
        rintro frame state rfl
        exact Frame.refuses_colon (by simp [token]) (by simp [token])

/-- A condition, from its first lexeme. -/
theorem decides_condition (draft : Draft) (small : lexemes.length ≤ bound) :
    Decides selector (fun reader => reader.condition draft) lexemes
      (Follows selector lexemes (Begins draft lexemes) fun frame draft =>
        frame.state draft .item) := by
  unfold condition
  refine .peek ?_
  by_cases colon : tokenAhead lexemes = .colon
  · simp only [colon, ↓reduceIte]
    cases lexemes with
    | nil => exact nomatch colon
    | cons lexeme rest =>
        refine .bump (Decides.after _ (Nat.le_succ _) ?_ (decides_pseudo inner draft
          (Nat.le_of_succ_le small)))
        intro frame state begins
        refine ⟨_, rfl, State.answer_cons (Eq.trans begins ?_) rest⟩
        rw [tokenAhead] at colon
        rw [Lexeme.symbol, colon]
        rfl
  · simp only [colon, ↓reduceIte]
    exact decides_plainCondition selector draft lexemes colon

/-- Conditions behind those so far, in front of one more. -/
theorem decides_conditions (draft : Draft) (small : lexemes.length ≤ bound)
    (goesOn : (tokenAhead lexemes).endsClause = false) :
    Decides selector (fun reader => reader.conditions draft) lexemes fun outcome behind =>
      Follows selector lexemes (Begins draft lexemes) (fun frame draft => frame.state draft .item)
        outcome behind ∧ ∀ draft, outcome = .ok draft → (tokenAhead behind).endsClause = true := by
  induction length : lexemes.length using Nat.strongRecOn generalizing lexemes draft with
  | ind length ih =>
      subst length
      unfold conditions
      refine .peek ?_
      simp only [goesOn]
      refine (decides_condition inner draft small).bind ?_ ?_
      · intro failure behind _ follows
        exact ⟨follows.answers.follows_of_error, fun _ given => nomatch given⟩
      · intro draft behind cut follows
        have shorter := follows.forward draft rfl
        cases ends : (tokenAhead behind).endsClause with
        | true =>
            refine (decides_conditions_of_endsClause draft ends).mono ?_
            rintro outcome final - ⟨rfl, rfl⟩
            exact ⟨follows, fun _ _ => ends⟩
        | false =>
            refine (ih _ shorter draft (Nat.le_trans (Nat.le_of_lt shorter) small) ends rfl).mono ?_
            rintro outcome final - ⟨later, stops⟩
            exact ⟨later.after (Nat.le_of_lt shorter) fun frame state begins =>
              ⟨_, Frame.begins_item ends, follows.answers frame state begins⟩, stops⟩

/-- The conditions on one element, up to the end of their clause. -/
theorem decides_simpleSelector (small : lexemes.length ≤ bound) :
    Decides selector (fun reader => reader.simpleSelector) lexemes fun outcome behind =>
      Follows selector lexemes (Begins .empty lexemes)
        (fun frame simple => frame.state (.ofSimple simple) .partEnd) outcome behind ∧
      ∀ simple, outcome = .ok simple → (Draft.ofSimple simple).simple? = some simple := by
  unfold simpleSelector
  refine .traced ?_
  cases ends : (tokenAhead lexemes).endsClause with
  | true =>
      refine (decides_conditions_of_endsClause .empty ends).bind
        (fun _ _ _ failed => nomatch failed.1) ?_
      rintro draft behind - ⟨⟨⟩, rfl⟩
      refine .of_endless fun endless => .unexpected ⟨⟨.error _ _ _, fun frame state begins => ?_⟩,
        fun _ given => nomatch given⟩
      exact State.answer_of_refuses (Frame.refuses_of_begins begins ends endless)
  | false =>
      refine (decides_conditions inner .empty small ends).bind ?_ ?_
      · rintro failure behind - ⟨follows, -⟩
        exact ⟨follows.answers.follows_of_error, fun _ given => nomatch given⟩
      · rintro draft behind - ⟨follows, ends⟩
        refine .of_endless fun endless => ?_
        cases whole : draft.simple? with
        | none =>
            refine .unexpected ⟨⟨.error _ _ _, fun frame state begins => ?_⟩,
              fun _ given => nomatch given⟩
            exact (follows.answers frame state begins).trans
              (State.answer_of_refuses (Frame.refuses_of_empty whole (ends draft rfl) endless))
        | some simple =>
            refine .pure ⟨⟨fun _ _ => follows.forward draft rfl, fun frame state begins => ?_⟩, ?_⟩
            · refine ((follows.answers frame state begins).trans
                (Frame.answer_item whole (ends draft rfl) endless)).trans ?_
              rw [Draft.eq_ofSimple whole]
              rfl
            · rintro simple ⟨⟩
              rwa [← Draft.eq_ofSimple whole]

/-- One more part, and the parts behind it. The lexemes in front of it, which `reaches` is
about, are the sign of a combinator and blanks. -/
theorem decides_nextPart (parts : List Part) {last : SimpleSelector} (combinator : Combinator)
    {rest : List Lexeme} (shorter : rest.length ≤ lexemes.length)
    (small : lexemes.length ≤ bound)
    (reaches : ∀ frame : Frame, ∃ state, Begins .empty rest (frame.addPart last combinator) state ∧
      (frame.state (.ofSimple last) .partEnd).answer selector lexemes = state.answer selector rest)
    (more : ∀ behind : List Lexeme, behind.length < lexemes.length → ∀ simple,
      (Draft.ofSimple simple).simple? = some simple →
      Decides selector (fun reader => reader.moreParts (parts ++ [⟨last, combinator⟩]) simple)
        behind (Answers selector behind (PartEnds (parts ++ [⟨last, combinator⟩]) simple)
          fun frame complex => frame.behindArgument (.selector complex))) :
    Decides selector
      (fun reader => reader.simpleSelector >>= fun simple =>
        reader.moreParts (parts ++ [⟨last, combinator⟩]) simple) rest
      (Answers selector lexemes (PartEnds parts last) fun frame complex =>
        frame.behindArgument (.selector complex)) := by
  refine (decides_simpleSelector inner (Nat.le_trans shorter small)).bind ?_ ?_
  · rintro failure behind - ⟨follows, -⟩ frame state ⟨-, rfl⟩
    obtain ⟨middle, begins, same⟩ := reaches frame
    exact same.trans (follows.answers _ middle begins)
  · rintro simple behind - ⟨follows, whole⟩
    have shorter := Nat.lt_of_lt_of_le (follows.forward simple rfl) shorter
    refine (more behind shorter simple (whole simple rfl)).mono fun _ _ _ later => later.after ?_
    rintro frame state ⟨rfl, rfl⟩
    obtain ⟨middle, begins, same⟩ := reaches frame
    exact ⟨frame.addPart last combinator, _, ⟨rfl, rfl⟩,
      same.trans (follows.answers _ middle begins), rfl⟩

/-- The parts behind the last one read, with what separates them. -/
theorem decides_moreParts (parts : List Part) {last : SimpleSelector}
    (whole : (Draft.ofSimple last).simple? = some last) (small : lexemes.length ≤ bound) :
    Decides selector (fun reader => reader.moreParts parts last) lexemes
      (Answers selector lexemes (PartEnds parts last) fun frame complex =>
        frame.behindArgument (.selector complex)) := by
  induction length : lexemes.length using Nat.strongRecOn generalizing lexemes parts last with
  | ind length ih =>
      subst length
      have more (combinator : Combinator) (behind : List Lexeme)
          (shorter : behind.length < lexemes.length) (simple : SimpleSelector)
          (whole : (Draft.ofSimple simple).simple? = some simple) :=
        ih _ shorter (parts ++ [⟨last, combinator⟩]) whole
          (Nat.le_trans (Nat.le_of_lt shorter) small) rfl
      unfold moreParts
      refine .pastBlanks fun rest notLonger noBlank passed => .peek ?_
      cases sign : (tokenAhead rest).combinator? with
      | some combinator =>
          cases rest with
          | nil => exact nomatch sign
          | cons lexeme rest =>
              refine .bump (Decides.pastBlanks fun behind notLonger' noBlank passed' => ?_)
              refine decides_nextPart inner parts combinator
                (Nat.le_trans notLonger' (Nat.le_of_succ_le notLonger)) small
                (fun frame => ⟨_, Frame.begins_partStart noBlank, ?_⟩) (more combinator)
              rw [passed _ fun _ => rfl, State.answer_cons (Frame.step_combinator whole sign),
                passed' _ fun _ => rfl]
      | none =>
          refine .peek ?_
          cases ends : (tokenAhead rest).endsClause with
          | true =>
              refine .of_endless fun endless => .pure ?_
              rintro frame state ⟨rfl, rfl⟩
              rw [passed _ fun _ => rfl, Frame.answer_partEnd whole]
              · rfl
              · intro lexeme member
                cases rest with
                | nil => exact nomatch member
                | cons head rest =>
                    cases member
                    exact Token.comma_or_closeParen_of_endsClause ends sign noBlank
                      (endless lexeme List.mem_cons_self)
          | false =>
              exact decides_nextPart inner parts .descendant notLonger small
                (fun frame => ⟨_, Frame.begins_partEnd whole ends, passed _ fun _ => rfl⟩)
                (more .descendant)

/-- A chain of parts. -/
theorem decides_complexSelector (small : lexemes.length ≤ bound) :
    Decides selector (fun reader => reader.complexSelector) lexemes
      (Follows selector lexemes
        (fun frame state => frame.parts = [] ∧ Begins .empty lexemes frame state)
        fun frame complex => frame.behindArgument (.selector complex)) := by
  unfold complexSelector
  refine .traced ((decides_simpleSelector inner small).bind ?_ ?_)
  · rintro failure behind - ⟨follows, -⟩
    exact ⟨.error _ _ _, fun frame state begins => follows.answers frame state begins.2⟩
  · rintro simple behind - ⟨follows, whole⟩
    have shorter := follows.forward simple rfl
    refine (decides_moreParts inner [] (whole simple rfl)
      (Nat.le_trans (Nat.le_of_lt shorter) small)).mono fun outcome final cut later => ⟨?_, ?_⟩
    · exact fun _ _ => Nat.lt_of_le_of_lt cut.length_le shorter
    · exact later.after fun frame state ⟨noParts, begins⟩ =>
        ⟨frame, _, ⟨noParts, rfl⟩, follows.answers frame state begins, rfl⟩

/-- A complex selector as an argument. -/
theorem decides_selectorArgument (small : lexemes.length ≤ bound)
    (noBlank : tokenAhead lexemes ≠ .whitespace)
    (noNumber : ∀ value kind, tokenAhead lexemes ≠ .number value kind)
    (noString : ∀ value, tokenAhead lexemes ≠ .string value) :
    Decides selector
      (fun reader => reader.complexSelector >>= fun complex => pure (.selector complex)) lexemes
      (Follows selector lexemes ArgumentStarts Frame.behindArgument) := by
  have begins (frame : Frame) : Begins .empty lexemes frame (frame.state .empty .argumentStart) :=
    Frame.begins_argumentStart noBlank noNumber noString
  refine (decides_complexSelector inner small).bind ?_ ?_
  · refine fun failure behind _ follows => ⟨.error _ _ _, ?_⟩
    rintro frame state ⟨noParts, rfl⟩
    exact follows.answers frame _ ⟨noParts, begins frame⟩
  · intro complex behind _ follows
    refine .pure ⟨fun _ _ => follows.forward complex rfl, ?_⟩
    rintro frame state ⟨noParts, rfl⟩
    exact follows.answers frame _ ⟨noParts, begins frame⟩

/-- An argument. -/
theorem decides_argument (small : lexemes.length ≤ bound) :
    Decides selector (fun reader => reader.argument) lexemes
      (Follows selector lexemes ArgumentStarts Frame.behindArgument) := by
  unfold argument
  refine .pastBlanks fun rest notLonger noBlank passed =>
    Decides.after ArgumentStarts notLonger ?_ ?_
  · rintro frame state ⟨noParts, rfl⟩
    exact ⟨_, ⟨noParts, rfl⟩, passed _ fun _ => rfl⟩
  refine .peek ?_
  have small := Nat.le_trans notLonger small
  cases rest with
  | nil =>
      exact decides_selectorArgument inner small noBlank (by simp [tokenAhead])
        (by simp [tokenAhead])
  | cons lexeme rest =>
      cases token : lexeme.token <;> simp only [tokenAhead, token]
      case number value kind => exact decides_literal (by rw [token]; rfl) rest
      case string value => exact decides_literal (by rw [token]; rfl) rest
      all_goals
        exact decides_selectorArgument inner small noBlank (by simp [tokenAhead, token])
          (by simp [tokenAhead, token])

/-- The arguments behind those read so far. -/
theorem decides_moreArguments (read : List Argument) (small : lexemes.length ≤ bound) :
    Decides selector (fun reader => reader.moreArguments read) lexemes fun outcome behind =>
      Answers selector lexemes (fun frame state => state = frame.ended read) Frame.ended
        outcome behind ∧
      ∀ arguments, outcome = .ok arguments →
        tokenAhead behind ≠ .whitespace ∧ tokenAhead behind ≠ .comma := by
  induction length : lexemes.length using Nat.strongRecOn generalizing lexemes read with
  | ind length ih =>
      subst length
      unfold moreArguments
      refine .pastBlanks fun rest notLonger noBlank passed => .peek ?_
      by_cases comma : tokenAhead rest = .comma
      · simp only [comma, ↓reduceIte]
        cases rest with
        | nil => simp [tokenAhead] at comma
        | cons lexeme rest =>
            have shorter : rest.length < lexemes.length := notLonger
            have starts (frame : Frame) : (frame.ended read).answer selector lexemes =
                (Frame.state ⟨frame.outer, read, []⟩ .empty .argumentStart).answer selector
                  rest := by
              rw [passed _ fun _ => rfl]
              refine State.answer_cons ?_ rest
              rw [tokenAhead] at comma
              rw [Lexeme.symbol, comma]
              rfl
            refine .bump ((decides_argument inner
              (Nat.le_trans (Nat.le_of_lt shorter) small)).bind ?_ ?_)
            · intro failure behind _ follows
              refine ⟨?_, by simp⟩
              rintro frame state rfl
              exact (starts frame).trans (follows.answers _ _ ⟨rfl, rfl⟩)
            · intro argument behind cut follows
              have shorter := Nat.lt_of_le_of_lt cut.length_le shorter
              refine (ih _ shorter (read ++ [argument])
                (Nat.le_trans (Nat.le_of_lt shorter) small) rfl).mono ?_
              rintro outcome final - ⟨later, stops⟩
              refine ⟨later.after ?_, stops⟩
              rintro frame state rfl
              exact ⟨frame, _, rfl, (starts frame).trans (follows.answers _ _ ⟨rfl, rfl⟩), rfl⟩
      · simp only [comma, ↓reduceIte]
        refine .pure ⟨?_, fun _ _ => ⟨noBlank, comma⟩⟩
        rintro frame state rfl
        exact passed _ fun _ => rfl

/-- An argument list in front of as many lexemes. -/
theorem readsArguments_of_inner (small : lexemes.length ≤ bound) :
    ReadsArguments selector lexemes := by
  have starts (frame : Frame) : (State.mk frame.outer .empty .listStart).answer selector lexemes =
      (Frame.state ⟨frame.outer, [], []⟩ .empty .argumentStart).answer selector lexemes :=
    congrArg (Except.mapError _) (State.read_argumentStart _ _ _).symm
  unfold ReadsArguments arguments
  refine .traced ((decides_argument inner small).bind ?_ ?_)
  · intro failure behind _ follows
    refine ⟨⟨.error _ _ _, ?_⟩, fun _ given => nomatch given⟩
    rintro frame state rfl
    exact (starts frame).trans (follows.answers _ _ ⟨rfl, rfl⟩)
  · intro argument behind _ follows
    have shorter := follows.forward argument rfl
    refine (decides_moreArguments inner [argument]
      (Nat.le_trans (Nat.le_of_lt shorter) small)).mono ?_
    rintro outcome final cut ⟨later, stops⟩
    refine ⟨⟨fun _ _ => Nat.lt_of_le_of_lt cut.length_le shorter, later.after ?_⟩, stops⟩
    rintro frame state rfl
    exact ⟨frame, _, rfl, (starts frame).trans (follows.answers _ _ ⟨rfl, rfl⟩), rfl⟩

end

/-- **An argument list follows the symbol reader**, whatever the lexemes in front of it. -/
theorem readsArguments (selector : String) (lexemes : List Lexeme) :
    ReadsArguments selector lexemes := by
  induction length : lexemes.length using Nat.strongRecOn generalizing lexemes with
  | ind bound ih =>
      exact readsArguments_of_inner (fun shorter small => ih _ small shorter rfl)
        (Nat.le_of_eq length)

end RuleReader

end SelectorLang
