import SelectorLang.Proofs.Rules.Reading

/-! # The rules that a reading enters and the tree that it gives

The skeleton of a tree lists the traced rules that it is made of, each with how many are open
around it, every rule in front of those inside it (`SelectorLang.argumentsSkeleton`). A reading
enters rules in blocks: a rule, and behind it the rules that are entered while it is open, one
deeper (`SelectorLang.RuleReader.Blocks`). This is so whether or not the reading succeeds; when
it does, the rules are the skeleton of what was read. One lemma for each rule of the grammar
says both, and the argument lists inside of functions close over all of them
(`SelectorLang.RuleReader.traces_arguments`).
-/

namespace SelectorLang

/-! ## Skeletons of trees -/

mutual

/-- The rules of an argument inside an argument list at a depth; literals have none. -/
def Argument.skeleton (depth : Nat) : Argument → List (Rule × Nat)
  | .selector selector => selector.skeleton depth
  | .number _ | .string _ => []

/-- The rules of some arguments inside an argument list at a depth. -/
def Argument.skeletons (depth : Nat) : List Argument → List (Rule × Nat)
  | [] => []
  | argument :: rest => argument.skeleton depth ++ Argument.skeletons depth rest

/-- The rules of a function at a depth: those of its argument list, if it has one. -/
def EngineFunction.skeleton (depth : Nat) : EngineFunction → List (Rule × Nat)
  | ⟨_, arguments⟩ =>
    if arguments.isEmpty then []
    else (.arguments, depth) :: Argument.skeletons depth arguments

/-- The rules of some functions at a depth. -/
def EngineFunction.skeletons (depth : Nat) : List EngineFunction → List (Rule × Nat)
  | [] => []
  | function :: rest => function.skeleton depth ++ EngineFunction.skeletons depth rest

/-- The rules inside a simple selector, for an argument list at a depth. -/
def SimpleSelector.skeleton (depth : Nat) : SimpleSelector → List (Rule × Nat)
  | ⟨_, functions⟩ => EngineFunction.skeletons (depth + 3) functions

/-- The rules of a part, for an argument list at a depth. -/
def Part.skeleton (depth : Nat) : Part → List (Rule × Nat)
  | ⟨selector, _⟩ => (.simpleSelector, depth + 2) :: selector.skeleton depth

/-- The rules of some parts, for an argument list at a depth. -/
def Part.skeletons (depth : Nat) : List Part → List (Rule × Nat)
  | [] => []
  | part :: rest => part.skeleton depth ++ Part.skeletons depth rest

/-- The rules of a complex selector, for an argument list at a depth. -/
def ComplexSelector.skeleton (depth : Nat) : ComplexSelector → List (Rule × Nat)
  | ⟨parts⟩ => (.complexSelector, depth + 1) :: Part.skeletons depth parts

end

/-- The rules of an argument list at a depth: its own, then those of its arguments. -/
def argumentsSkeleton (depth : Nat) (arguments : List Argument) : List (Rule × Nat) :=
  (.arguments, depth) :: Argument.skeletons depth arguments

theorem Argument.skeletons_append (depth : Nat) (front rest : List Argument) :
    Argument.skeletons depth (front ++ rest) =
      Argument.skeletons depth front ++ Argument.skeletons depth rest := by
  induction front with
  | nil => rfl
  | cons argument front ih => rw [List.cons_append, skeletons, skeletons, ih, List.append_assoc]

theorem EngineFunction.skeletons_append (depth : Nat) (front rest : List EngineFunction) :
    EngineFunction.skeletons depth (front ++ rest) =
      EngineFunction.skeletons depth front ++ EngineFunction.skeletons depth rest := by
  induction front with
  | nil => rfl
  | cons function front ih => rw [List.cons_append, skeletons, skeletons, ih, List.append_assoc]

theorem EngineFunction.skeletons_single (depth : Nat) (function : EngineFunction) :
    EngineFunction.skeletons depth [function] = function.skeleton depth :=
  List.append_nil _

theorem SimpleSelector.skeleton_eq (depth : Nat) (simple : SimpleSelector) :
    simple.skeleton depth = EngineFunction.skeletons (depth + 3) simple.functions := by
  cases simple
  rw [skeleton]

theorem ComplexSelector.skeleton_eq (depth : Nat) (complex : ComplexSelector) :
    complex.skeleton depth =
      (.complexSelector, depth + 1) :: Part.skeletons depth complex.parts := by
  cases complex
  rw [skeleton]

theorem Part.skeletons_append (depth : Nat) (front rest : List Part) :
    Part.skeletons depth (front ++ rest) =
      Part.skeletons depth front ++ Part.skeletons depth rest := by
  induction front with
  | nil => rfl
  | cons part front ih => rw [List.cons_append, skeletons, skeletons, ih, List.append_assoc]

theorem EngineFunction.skeleton_of_arguments (depth : Nat) {function : EngineFunction}
    (nonempty : function.arguments ≠ []) :
    function.skeleton depth = argumentsSkeleton depth function.arguments := by
  obtain ⟨name, arguments⟩ := function
  rw [skeleton, if_neg (by rwa [List.isEmpty_iff])]
  rfl

/-! ## Blocks -/

/-- The rule that is entered while a rule is open. -/
def Rule.inside : Rule → Rule
  | arguments => complexSelector
  | complexSelector => simpleSelector
  | simpleSelector => arguments

/-- How many rules of the same argument list are open around a rule. -/
def Rule.inner : Rule → Nat
  | arguments => 0
  | complexSelector => 1
  | simpleSelector => 2

namespace RuleReader

/-- The rule of a mark and its depth. -/
def Mark.entry (mark : Mark) : Rule × Nat :=
  (mark.rule, mark.depth)

/-- Blocks of a rule at a depth: each starts with a mark of the rule, behind which are the blocks
that are inside of it. The first part of a complex selector is where the selector is. -/
inductive Blocks : Rule → Nat → List Mark → Prop
  | nil (rule : Rule) (depth : Nat) : Blocks rule depth []
  | cons {rule : Rule} {depth left : Nat} {inside behind : List Mark}
      (first : rule = .complexSelector → inside.head? = some ⟨.simpleSelector, depth + 1, left⟩)
      (inner : Blocks rule.inside (depth + 1) inside) (others : Blocks rule depth behind) :
      Blocks rule depth (⟨rule, depth, left⟩ :: (inside ++ behind))

namespace Blocks

variable {rule : Rule} {depth left : Nat} {inside marks more : List Mark}

theorem append (blocks : Blocks rule depth marks) (others : Blocks rule depth more) :
    Blocks rule depth (marks ++ more) := by
  induction blocks with
  | nil => exact others
  | cons first inner _ _ ih =>
      rw [List.cons_append, List.append_assoc]
      exact .cons first inner (ih others)

/-- One block. -/
theorem single
    (first : rule = .complexSelector → inside.head? = some ⟨.simpleSelector, depth + 1, left⟩)
    (inner : Blocks rule.inside (depth + 1) inside) :
    Blocks rule depth (⟨rule, depth, left⟩ :: inside) := by
  have block := cons first inner (.nil rule depth)
  rwa [List.append_nil] at block

end Blocks

/-- What a reading enters: blocks of a rule. If it gives a value, they are what the skeleton of
the value has behind a part of it that was there before. The depth is that of the argument list
that the rule belongs to. -/
structure Enters {α : Type} (rule : Rule) (before : Nat → List (Rule × Nat))
    (skeleton : α → Nat → List (Rule × Nat)) (outcome : Except Failure α)
    (marks : Nat → List Mark) : Prop where
  /-- The blocks. -/
  blocks (depth : Nat) : Blocks rule depth (marks depth)
  /-- The skeleton of a value. -/
  isSkeleton (value : α) (given : outcome = .ok value) (depth : Nat) :
    before depth ++ (marks (depth + rule.inner)).map Mark.entry = skeleton value depth

namespace Enters

variable {α : Type} {rule : Rule} {before middle : Nat → List (Rule × Nat)}
  {skeleton : α → Nat → List (Rule × Nat)} {outcome : Except Failure α}
  {marks more : Nat → List Mark}

/-- A failure may come behind any blocks. -/
theorem failed {failure : Failure} (blocks : ∀ depth, Blocks rule depth (marks depth)) :
    Enters rule before skeleton (.error failure) marks :=
  ⟨blocks, nofun⟩

/-- A failure that no rule was entered in front of. -/
theorem unexpected {failure : Failure} :
    Enters rule before skeleton (.error failure) fun _ => [] :=
  failed fun _ => .nil _ _

/-- A value that no rule was entered for. -/
theorem stays {value : α} (same : ∀ depth, before depth = skeleton value depth) :
    Enters rule before skeleton (.ok value) fun _ => [] := by
  refine ⟨fun _ => .nil _ _, ?_⟩
  rintro _ ⟨⟩ depth
  exact (List.append_nil _).trans (same depth)

/-- Blocks that come to a part of a skeleton, and what is entered behind them. -/
theorem append (blocks : ∀ depth, Blocks rule depth (marks depth))
    (reaches : ∀ depth,
      before depth ++ (marks (depth + rule.inner)).map Mark.entry = middle depth)
    (others : Enters rule middle skeleton outcome more) :
    Enters rule before skeleton outcome fun depth => marks depth ++ more depth := by
  refine ⟨fun depth => (blocks depth).append (others.blocks depth), fun value given depth => ?_⟩
  rw [List.map_append, ← List.append_assoc, reaches, others.isSkeleton value given]

/-- What is entered behind a value that was given. -/
theorem andThen {β : Type} {value : β} {reached : β → Nat → List (Rule × Nat)}
    (enters : Enters rule before reached (.ok value) marks)
    (others : Enters rule (reached value) skeleton outcome more) :
    Enters rule before skeleton outcome fun depth => marks depth ++ more depth :=
  append enters.blocks (enters.isSkeleton value rfl) others

end Enters

/-- What a traced rule enters in front of so many lexemes: itself there first, and in all what
the skeleton of a value has. -/
structure Opens {α : Type} (rule : Rule) (left : Nat) (skeleton : α → Nat → List (Rule × Nat))
    (outcome : Except Failure α) (marks : Nat → List Mark) : Prop
    extends Enters rule (fun _ => []) skeleton outcome marks where
  /-- The first mark. -/
  isFirst (depth : Nat) : (marks depth).head? = some ⟨rule, depth, left⟩

/-- A rule opens in front of what is entered inside of it. The rules inside belong to an
argument list that is `further` deeper. -/
theorem Enters.opens {α : Type} (rule : Rule) {inside : α → Nat → List (Rule × Nat)}
    {outcome : Except Failure α} {marks : Nat → List Mark} {left : Nat}
    (enters : Enters rule.inside (fun _ => []) inside outcome marks)
    (first : rule = .complexSelector →
      ∀ depth, (marks depth).head? = some ⟨.simpleSelector, depth, left⟩)
    (further : Nat) (deeper : rule.inner + 1 = further + rule.inside.inner) :
    Opens rule left
      (fun value depth => (rule, depth + rule.inner) :: inside value (depth + further)) outcome
      fun depth => ⟨rule, depth, left⟩ :: marks (depth + 1) := by
  refine ⟨⟨fun depth => ?_, fun value given depth => ?_⟩, fun _ => rfl⟩
  · exact .single (fun isRule => first isRule (depth + 1)) (enters.blocks (depth + 1))
  · rw [← enters.isSkeleton value given, List.map_cons, List.nil_append, List.nil_append,
      Nat.add_assoc, Nat.add_assoc, deeper]
    rfl

namespace Opens

variable {α β : Type} {rule : Rule} {left : Nat} {middle : Nat → List (Rule × Nat)}
  {reached : β → Nat → List (Rule × Nat)} {skeleton : α → Nat → List (Rule × Nat)}
  {marks more : Nat → List Mark}

/-- A rule that was opened has failed. -/
theorem failed {failure : Failure} (opens : Opens rule left reached (.error failure) marks) :
    Opens rule left skeleton (.error failure) marks :=
  ⟨.failed opens.blocks, opens.isFirst⟩

/-- A rule that was opened, and what is entered behind its value. -/
theorem append {value : β} {outcome : Except Failure α}
    (opens : Opens rule left reached (.ok value) marks)
    (reaches : ∀ depth, reached value depth = middle depth)
    (others : Enters rule middle skeleton outcome more) :
    Opens rule left skeleton outcome fun depth => marks depth ++ more depth := by
  refine ⟨.append opens.blocks (fun depth => ?_) others, fun depth => ?_⟩
  · rw [opens.isSkeleton value rfl, reaches]
  · rw [List.head?_append, opens.isFirst]
    rfl

end Opens

/-- What conditions enter: the argument lists of the functions that they add to some others. -/
abbrev AddsFunctions (functions : List EngineFunction) :
    Except Failure Draft → (Nat → List Mark) → Prop :=
  Enters .arguments (fun depth => EngineFunction.skeletons depth functions)
    fun draft depth => EngineFunction.skeletons depth draft.functions

/-- What the parts behind some enter: themselves. The last of those is not a part yet. -/
abbrev AddsParts (parts : List Part) (last : SimpleSelector) :
    Except Failure ComplexSelector → (Nat → List Mark) → Prop :=
  Enters .simpleSelector (fun depth => Part.skeletons depth (parts ++ [⟨last, .descendant⟩]))
    fun complex depth => Part.skeletons depth complex.parts

/-! ## Conditions that enter no rule -/

section

variable {selector : String} (draft : Draft)

theorem traces_nativeArguments (raw : String) (depth : Nat) (lexemes : List Lexeme) :
    Traces selector (fun reader => reader.nativeArguments raw (depth + 1)) lexemes
      fun _ _ marks => marks = fun _ => [] := by
  induction lexemes generalizing raw depth with
  | nil =>
      unfold nativeArguments
      exact .peek (.pure rfl)
  | cons lexeme rest ih =>
      unfold nativeArguments
      refine .of_endless fun endless => .peek ?_
      cases token : lexeme.token <;> simp only [tokenAhead, token]
      case endOfText => exact absurd token (endless lexeme List.mem_cons_self)
      case closeParen =>
        cases depth with
        | zero => exact .pure rfl
        | succ depth => exact .bumpSource (ih _ depth)
      all_goals exact .bumpSource (ih _ _)

theorem traces_attributeRest (lexemes : List Lexeme) :
    Traces selector (fun reader => reader.attributeRest draft) lexemes
      fun outcome _ marks => AddsFunctions draft.functions outcome marks := by
  induction lexemes generalizing draft with
  | nil =>
      unfold attributeRest
      exact .peek (.unexpected .unexpected)
  | cons lexeme rest ih =>
      unfold attributeRest
      refine .of_endless fun endless => .peek ?_
      cases token : lexeme.token <;> simp only [tokenAhead, token]
      case endOfText => exact absurd token (endless lexeme List.mem_cons_self)
      case closeBracket => exact .bumpSource (.pure (.stays fun _ => rfl))
      all_goals exact .bumpSource (ih (draft.addText lexeme.source))

theorem traces_className (dot : Lexeme) (rest : List Lexeme) :
    Traces selector (fun reader => reader.className draft) (dot :: rest)
      fun outcome _ marks => AddsFunctions draft.functions outcome marks := by
  unfold className
  refine .bump (.peek ?_)
  cases rest with
  | nil => exact .unexpected .unexpected
  | cons lexeme rest =>
      cases token : lexeme.token <;> simp only [tokenAhead, token]
      case ident => exact .bumpSource (.pure (.stays fun _ => rfl))
      all_goals exact .unexpected .unexpected

theorem traces_plainCondition (lexemes : List Lexeme) :
    Traces selector (fun reader => reader.plainCondition draft) lexemes
      fun outcome _ marks => AddsFunctions draft.functions outcome marks := by
  unfold plainCondition
  refine .peek ?_
  cases lexemes with
  | nil => exact .unexpected .unexpected
  | cons lexeme rest =>
      cases token : lexeme.token <;> simp only [tokenAhead, token]
      case ident => exact .bumpSource (.pure (.stays fun _ => rfl))
      case hash => exact .bumpSource (.pure (.stays fun _ => rfl))
      case delim character =>
        split
        · exact .bumpSource (.pure (.stays fun _ => rfl))
        · split
          · exact traces_className draft lexeme rest
          · exact .unexpected .unexpected
      case openBracket =>
        unfold «attribute»
        exact .bumpSource (traces_attributeRest (draft.addText lexeme.source) rest)
      all_goals exact .unexpected .unexpected

theorem traces_closing (lexemes : List Lexeme) :
    Traces selector (fun reader => reader.closing draft) lexemes
      fun outcome _ marks => AddsFunctions draft.functions outcome marks := by
  unfold closing
  refine .skipBlanks (.peek ?_)
  cases afterBlanks lexemes with
  | nil => exact .unexpected .unexpected
  | cons lexeme rest =>
      split
      · exact .bump (.pure (.stays fun _ => rfl))
      · exact .unexpected .unexpected

theorem traces_nativeCall (name : String) (lexemes : List Lexeme) :
    Traces selector (fun reader => reader.nativeCall draft name) lexemes
      fun outcome _ marks => AddsFunctions draft.functions outcome marks := by
  unfold nativeCall
  refine (traces_nativeArguments "" 0 lexemes).bind ?_ ?_
  · rintro failure behind _ - rfl
    exact .unexpected
  · rintro raw behind _ - rfl
    exact traces_closing (draft.addText (":" ++ name ++ "(" ++ raw ++ ")")) behind

end

/-! ## What is known of an outcome besides -/

/-- There is a reader that shows some lexemes. -/
theorem exists_shows (selector : String) {lexemes : List Lexeme}
    (endless : ∀ lexeme ∈ lexemes, lexeme.token ≠ .endOfText) :
    ∃ reader : RuleReader, reader.selector = selector ∧ reader.Shows 0 lexemes := by
  have isFront : beforeEnd (lexemes ++ [.endAt 0]) = lexemes :=
    (beforeEnd_append_end rfl lexemes []).trans (beforeEnd_of_endless endless)
  refine ⟨⟨selector, ((lexemes ++ [.endAt 0])[·]?)⟩, rfl, ?_⟩
  have finds : (RuleReader.mk selector ((lexemes ++ [.endAt 0])[·]?)).Finds
      (lexemes ++ [.endAt 0]) 0 := fun _ _ _ => rfl
  have shown := finds.shows ⟨.endAt 0, List.mem_append_right _ List.mem_cons_self, rfl⟩
    (Nat.zero_le _)
  rwa [isFront] at shown

/-- A rule has one outcome, so that what is known of it in two ways holds together. -/
theorem Traces.and {α : Type} {selector : String} {rule : RuleReader → RuleReading α}
    {lexemes : List Lexeme}
    {described : Except Failure α → List Lexeme → (Nat → List Mark) → Prop}
    {also : Except Failure α → List Lexeme → Prop}
    (traces : Traces selector rule lexemes described)
    (decides : Decides selector rule lexemes also) :
    Traces selector rule lexemes fun outcome behind marks =>
      described outcome behind marks ∧ also outcome behind := by
  intro endless
  obtain ⟨outcome, front, behind, marks, cut, holds, inOrder, comes⟩ := traces endless
  obtain ⟨outcome', front', behind', _, cut', holds', -, comes'⟩ := decides endless
  obtain ⟨reader, isText, shown⟩ := exists_shows selector endless
  have same := (comes reader isText .start shown).symm.trans (comes' reader isText .start shown)
  simp only [Option.some.injEq, Prod.mk.injEq, Course.after, Course.mk.injEq, Course.start,
    Nat.zero_add] at same
  obtain ⟨rfl, length, -⟩ := same
  obtain ⟨rfl, rfl⟩ := List.append_inj (cut.symm.trans cut') length
  exact ⟨outcome, front, behind, marks, cut, ⟨holds, holds'⟩, inOrder, comes⟩

section Forward

variable (selector : String) (lexemes : List Lexeme)

theorem forward_condition (draft : Draft) :
    Decides selector (fun reader => reader.condition draft) lexemes (Forward lexemes) :=
  (decides_condition (fun shorter _ => readsArguments selector shorter) draft
    (Nat.le_refl lexemes.length)).mono fun _ _ _ follows => follows.forward

theorem forward_simpleSelector :
    Decides selector (fun reader => reader.simpleSelector) lexemes (Forward lexemes) :=
  (decides_simpleSelector (fun shorter _ => readsArguments selector shorter)
    (Nat.le_refl lexemes.length)).mono fun _ _ _ follows => follows.1.forward

theorem forward_argument :
    Decides selector (fun reader => reader.argument) lexemes (Forward lexemes) :=
  (decides_argument (fun shorter _ => readsArguments selector shorter)
    (Nat.le_refl lexemes.length)).mono fun _ _ _ follows => follows.forward

end Forward

/-! ## The rules that call each other -/

/-- What an argument list enters: its own rule in front of the lexemes, and in all the rules of
the arguments that are given, of which there is at least one. -/
def EntersArguments (selector : String) (lexemes : List Lexeme) : Prop :=
  Traces selector (fun reader => reader.arguments) lexemes fun outcome _ marks =>
    Opens .arguments lexemes.length (fun arguments depth => argumentsSkeleton depth arguments)
      outcome marks ∧
    ∀ arguments, outcome = .ok arguments → arguments ≠ []

section

variable {selector : String} {bound : Nat} {lexemes : List Lexeme}
  (inner : ∀ shorter : List Lexeme, shorter.length < bound → EntersArguments selector shorter)

include inner

/-- An engine function with arguments. -/
theorem traces_engineCall (draft : Draft) (name : String) (small : lexemes.length < bound) :
    Traces selector (fun reader => reader.engineCall draft name) lexemes
      fun outcome _ marks => AddsFunctions draft.functions outcome marks := by
  unfold engineCall
  refine (inner lexemes small).bind ?_ ?_
  · rintro failure behind marks - ⟨opens, -⟩
    exact .failed opens.blocks
  · rintro arguments behind marks - ⟨opens, nonempty⟩
    refine (traces_closing (draft.addFunction ⟨name, arguments⟩) behind).mono
      fun _ _ _ _ closes => .append opens.blocks (fun depth => ?_) closes
    rw [Draft.addFunction, EngineFunction.skeletons_append, EngineFunction.skeletons_single,
      EngineFunction.skeleton_of_arguments _ (nonempty arguments rfl),
      ← opens.isSkeleton arguments rfl depth, List.nil_append]

/-- What stands behind a colon. -/
theorem traces_pseudo (draft : Draft) (small : lexemes.length ≤ bound) :
    Traces selector (fun reader => reader.pseudo draft) lexemes
      fun outcome _ marks => AddsFunctions draft.functions outcome marks := by
  unfold pseudo
  refine .peek ?_
  cases lexemes with
  | nil => exact .unexpected .unexpected
  | cons lexeme rest =>
      cases token : lexeme.token <;> simp only [tokenAhead, token]
      case ident name =>
        refine .bumpSource ?_
        split
        · exact .pure (.stays fun _ => rfl)
        · refine .pure (.stays fun depth => ?_)
          rw [Draft.addFunction, EngineFunction.skeletons_append, EngineFunction.skeletons_single,
            EngineFunction.skeleton, List.isEmpty_nil, if_pos rfl, List.append_nil]
      case function name =>
        refine .bump ?_
        split
        · exact traces_nativeCall draft _ rest
        · exact traces_engineCall inner draft _ small
      all_goals exact .unexpected .unexpected

/-- A condition. -/
theorem traces_condition (draft : Draft) (small : lexemes.length ≤ bound) :
    Traces selector (fun reader => reader.condition draft) lexemes
      fun outcome _ marks => AddsFunctions draft.functions outcome marks := by
  unfold condition
  refine .peek ?_
  split
  · cases lexemes with
    | nil => contradiction
    | cons lexeme rest => exact .bump (traces_pseudo inner draft (Nat.le_of_succ_le small))
  · exact traces_plainCondition draft lexemes

/-- Conditions behind those so far. -/
theorem traces_conditions (draft : Draft) (small : lexemes.length ≤ bound) :
    Traces selector (fun reader => reader.conditions draft) lexemes
      fun outcome _ marks => AddsFunctions draft.functions outcome marks := by
  induction length : lexemes.length using Nat.strongRecOn generalizing lexemes draft with
  | ind length ih =>
      subst length
      unfold conditions
      refine .peek ?_
      split
      · exact .pure (.stays fun _ => rfl)
      · refine ((traces_condition inner draft small).and
          (forward_condition selector lexemes draft)).bind ?_ ?_
        · rintro failure behind marks - ⟨enters, -⟩
          exact .failed enters.blocks
        · rintro draft behind marks - ⟨enters, shorter⟩
          have shorter := shorter draft rfl
          exact (ih _ shorter draft (Nat.le_trans (Nat.le_of_lt shorter) small) rfl).mono
            fun _ _ _ _ later => enters.andThen later

/-- A simple selector. -/
theorem traces_simpleSelector (small : lexemes.length ≤ bound) :
    Traces selector (fun reader => reader.simpleSelector) lexemes fun outcome _ marks =>
      Opens .simpleSelector lexemes.length
        (fun simple depth => (.simpleSelector, depth + 2) ::
          EngineFunction.skeletons (depth + 3) simple.functions) outcome marks := by
  unfold simpleSelector
  refine .traced (.mono (?_ : Traces selector _ lexemes fun outcome _ marks =>
    Enters .arguments (fun _ => [])
      (fun simple depth => EngineFunction.skeletons depth simple.functions) outcome marks)
    fun _ _ _ _ enters => enters.opens .simpleSelector (by simp) 3 rfl)
  refine (traces_conditions inner .empty small).bind ?_ ?_
  · rintro failure behind marks - enters
    exact .failed enters.blocks
  · rintro draft behind marks - enters
    cases whole : draft.simple? with
    | none => exact .unexpected (enters.andThen .unexpected)
    | some simple =>
        refine .pure (enters.andThen (.stays fun depth => ?_))
        rw [Draft.eq_ofSimple whole]
        rfl

/-- One more part behind some, and the parts behind it. -/
theorem traces_nextPart (parts : List Part) (last : SimpleSelector) (combinator : Combinator)
    {rest : List Lexeme} (small : rest.length ≤ bound)
    (more : ∀ behind : List Lexeme, behind.length < rest.length → ∀ simple,
      Traces selector (fun reader => reader.moreParts (parts ++ [⟨last, combinator⟩]) simple)
        behind fun outcome _ marks =>
          AddsParts (parts ++ [⟨last, combinator⟩]) simple outcome marks) :
    Traces selector
      (fun reader => reader.simpleSelector >>= fun simple =>
        reader.moreParts (parts ++ [⟨last, combinator⟩]) simple) rest
      fun outcome _ marks => AddsParts parts last outcome marks := by
  refine ((traces_simpleSelector inner small).and (forward_simpleSelector selector rest)).bind ?_ ?_
  · rintro failure behind marks - ⟨opens, -⟩
    exact .failed opens.blocks
  · rintro simple behind marks - ⟨opens, shorter⟩
    refine (more behind (shorter simple rfl) simple).mono
      fun _ _ _ _ later => .append opens.blocks (fun depth => ?_) later
    have entered := opens.isSkeleton simple rfl depth
    rw [List.nil_append] at entered
    simp only [Part.skeletons_append, Part.skeletons, Part.skeleton, SimpleSelector.skeleton_eq,
      List.append_nil, entered]

/-- The parts behind some. -/
theorem traces_moreParts (parts : List Part) (last : SimpleSelector)
    (small : lexemes.length ≤ bound) :
    Traces selector (fun reader => reader.moreParts parts last) lexemes
      fun outcome _ marks => AddsParts parts last outcome marks := by
  induction length : lexemes.length using Nat.strongRecOn generalizing lexemes parts last with
  | ind length ih =>
      subst length
      have next (combinator : Combinator) {rest : List Lexeme}
          (notLonger : rest.length ≤ lexemes.length) :=
        traces_nextPart inner parts last combinator (Nat.le_trans notLonger small)
          fun behind shorter simple =>
            have shorter := Nat.lt_of_lt_of_le shorter notLonger
            ih _ shorter (parts ++ [⟨last, combinator⟩]) simple
              (Nat.le_trans (Nat.le_of_lt shorter) small) rfl
      have notLonger := length_afterBlanks_le lexemes
      unfold moreParts
      refine .skipBlanks (.peek ?_)
      generalize afterBlanks lexemes = rest at notLonger ⊢
      cases sign : (tokenAhead rest).combinator? with
      | some combinator =>
          cases rest with
          | nil => contradiction
          | cons lexeme rest =>
              refine .bump (.skipBlanks (next combinator ?_))
              exact Nat.le_trans (length_afterBlanks_le rest) (Nat.le_of_succ_le notLonger)
      | none =>
          refine .peek ?_
          cases (tokenAhead rest).endsClause with
          | true => exact .pure (.stays fun _ => rfl)
          | false => exact next .descendant notLonger

/-- A complex selector. -/
theorem traces_complexSelector (small : lexemes.length ≤ bound) :
    Traces selector (fun reader => reader.complexSelector) lexemes fun outcome _ marks =>
      Opens .complexSelector lexemes.length
        (fun complex depth => (.complexSelector, depth + 1) :: Part.skeletons depth complex.parts)
        outcome marks := by
  unfold complexSelector
  refine .traced (.mono (?_ : Traces selector _ lexemes fun outcome _ marks =>
    Opens .simpleSelector lexemes.length (fun complex depth => Part.skeletons depth complex.parts)
      outcome marks) fun _ _ _ _ parts => ?_)
  · refine ((traces_simpleSelector inner small).and
      (forward_simpleSelector selector lexemes)).bind ?_ ?_
    · rintro failure behind marks - ⟨opens, -⟩
      exact opens.failed
    · rintro simple behind marks - ⟨opens, shorter⟩
      have shorter := shorter simple rfl
      refine (traces_moreParts inner [] simple (Nat.le_trans (Nat.le_of_lt shorter) small)).mono
        fun _ _ _ _ later => opens.append (fun depth => ?_) later
      rw [List.nil_append, Part.skeletons, Part.skeleton, SimpleSelector.skeleton_eq]
      exact (List.append_nil _).symm
  · have opens := parts.toEnters.opens .complexSelector (fun _ => parts.isFirst) 0 rfl
    exact opens

/-- An argument. -/
theorem traces_argument (small : lexemes.length ≤ bound) :
    Traces selector (fun reader => reader.argument) lexemes fun outcome _ marks =>
      Enters .complexSelector (fun _ => []) (fun argument depth => argument.skeleton depth)
        outcome marks := by
  have notLonger := length_afterBlanks_le lexemes
  unfold argument
  refine .skipBlanks (.peek ?_)
  generalize afterBlanks lexemes = rest at notLonger ⊢
  have complex : Traces selector
      (fun reader => reader.complexSelector >>= fun complex => pure (.selector complex)) rest
      fun outcome _ marks => Enters .complexSelector (fun _ => [])
        (fun argument depth => Argument.skeleton depth argument) outcome marks := by
    refine (traces_complexSelector inner (Nat.le_trans notLonger small)).bind ?_ ?_
    · rintro failure behind marks - opens
      exact .failed opens.blocks
    · rintro complex behind marks - opens
      exact .pure (opens.andThen (.stays fun depth => (complex.skeleton_eq depth).symm))
  cases rest with
  | nil => exact complex
  | cons lexeme rest =>
      cases token : lexeme.token <;> simp only [tokenAhead, token]
      case number => exact .bump (.pure (.stays fun _ => rfl))
      case string => exact .bump (.pure (.stays fun _ => rfl))
      all_goals exact complex

/-- The arguments behind some. -/
theorem traces_moreArguments (read : List Argument) (small : lexemes.length ≤ bound) :
    Traces selector (fun reader => reader.moreArguments read) lexemes fun outcome _ marks =>
      Enters .complexSelector (fun depth => Argument.skeletons depth read)
        (fun arguments depth => Argument.skeletons depth arguments) outcome marks ∧
      ∀ arguments, outcome = .ok arguments → read.length ≤ arguments.length := by
  induction length : lexemes.length using Nat.strongRecOn generalizing lexemes read with
  | ind length ih =>
      subst length
      have notLonger := length_afterBlanks_le lexemes
      unfold moreArguments
      refine .skipBlanks (.peek ?_)
      generalize afterBlanks lexemes = rest at notLonger ⊢
      split
      · cases rest with
        | nil => contradiction
        | cons lexeme rest =>
            have shorter : rest.length < lexemes.length := notLonger
            have small := Nat.le_trans (Nat.le_of_lt shorter) small
            refine .bump (((traces_argument inner small).and
              (forward_argument selector rest)).bind ?_ ?_)
            · rintro failure behind marks - ⟨enters, -⟩
              exact ⟨.failed enters.blocks, by simp⟩
            · rintro argument behind marks cut ⟨enters, -⟩
              have shorter := Nat.lt_of_le_of_lt cut.length_le shorter
              refine (ih _ shorter (read ++ [argument])
                (Nat.le_trans cut.length_le small) rfl).mono ?_
              rintro outcome final more - ⟨later, longer⟩
              refine ⟨.append enters.blocks (fun depth => ?_) later, fun arguments given => ?_⟩
              · rw [Argument.skeletons_append, Argument.skeletons, Argument.skeletons,
                  List.append_nil, ← enters.isSkeleton argument rfl depth, List.nil_append]
              · have longer := longer arguments given
                rw [List.length_append] at longer
                exact Nat.le_of_add_right_le longer
      · exact .pure ⟨.stays fun _ => rfl, by simp⟩

/-- An argument list in front of as many lexemes. -/
theorem entersArguments_of_inner (small : lexemes.length ≤ bound) :
    EntersArguments selector lexemes := by
  unfold EntersArguments arguments
  refine .traced (.mono (?_ : Traces selector _ lexemes fun outcome _ marks =>
    Enters .complexSelector (fun _ => [])
      (fun arguments depth => Argument.skeletons depth arguments) outcome marks ∧
      ∀ arguments, outcome = .ok arguments → arguments ≠ []) ?_)
  · refine (traces_argument inner small).bind ?_ ?_
    · rintro failure behind marks - enters
      exact ⟨.failed enters.blocks, by simp⟩
    · rintro argument behind marks cut enters
      refine (traces_moreArguments inner [argument] (Nat.le_trans cut.length_le small)).mono ?_
      rintro outcome final more - ⟨later, longer⟩
      refine ⟨.append enters.blocks (fun depth => ?_) later, fun arguments given => ?_⟩
      · rw [enters.isSkeleton argument rfl depth]
        exact (List.append_nil _).symm
      · exact List.ne_nil_of_length_pos (longer arguments given)
  · rintro outcome behind marks - ⟨enters, nonempty⟩
    exact ⟨enters.opens .arguments (by simp) 0 rfl, nonempty⟩

end

/-- **An argument list enters the rules of its arguments**, whatever the lexemes in front of
it, and whether or not it can be read. -/
theorem traces_arguments (selector : String) (lexemes : List Lexeme) :
    EntersArguments selector lexemes := by
  induction length : lexemes.length using Nat.strongRecOn generalizing lexemes with
  | ind bound ih =>
      exact entersArguments_of_inner (fun shorter small => ih _ small shorter rfl)
        (Nat.le_of_eq length)

/-! ## Whole streams -/

/-- An argument list up to the end of the text. -/
theorem traces_argumentsToEnd (selector : String) (lexemes : List Lexeme) :
    Traces selector (fun reader => reader.argumentsToEnd) lexemes fun outcome _ marks =>
      Opens .arguments lexemes.length (fun arguments depth => argumentsSkeleton depth arguments)
        outcome marks := by
  unfold argumentsToEnd
  refine (traces_arguments selector lexemes).bind ?_ ?_
  · rintro failure behind marks - ⟨opens, -⟩
    exact opens
  · rintro arguments behind marks - ⟨opens, -⟩
    refine .peek ?_
    split
    · exact .pure (opens.append (fun _ => rfl) (.stays fun _ => rfl))
    · exact .unexpected (opens.append (fun _ => rfl) .unexpected)

/-- A document of either kind. -/
theorem traces_document (kind : Kind) (selector : String) (lexemes : List Lexeme) :
    Traces selector (fun reader => reader.document kind) lexemes fun outcome _ marks =>
      Opens .arguments lexemes.length
        (fun document depth => argumentsSkeleton depth document.topArguments) outcome marks := by
  unfold document
  refine (traces_argumentsToEnd selector lexemes).bind ?_ ?_
  · rintro failure behind marks - opens
    exact opens.failed
  · rintro arguments behind marks - opens
    cases kind with
    | argumentList => exact .pure (opens.append (fun _ => rfl) (.stays fun _ => rfl))
    | selectorList =>
        cases whole : SelectorList.ofArguments? arguments with
        | some list =>
            refine .pure (opens.append (fun _ => rfl) (.stays fun depth => ?_))
            rw [SelectorList.ofArguments?_eq_some_iff.mp whole]
            rfl
        | none => exact .throw (opens.append (fun _ => rfl) .unexpected)

end RuleReader

end SelectorLang
