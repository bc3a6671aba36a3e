import SelectorLang.Proofs.Grammar.Completeness
import SelectorLang.Tree.Identity

/-! # What is read is derived by the grammar

Every state of a reading stands for the lexemes in front of it: the lists on its stack
each for lexemes up to a function that was opened (`SelectorLang.Grammar.Stack`), the
list in progress for finished arguments, finished parts and the start of a part
(`SelectorLang.Grammar.InProgress`). One step keeps this
(`SelectorLang.Grammar.Reading.step`), and at the end of the text it is a derivation. A
stream of supported lexemes is therefore read as exactly the argument list that it
derives (`SelectorLang.Grammar.readArguments_eq_ok_iff_derives`).
-/

namespace SelectorLang

theorem Token.opensParen_iff {token : Token} :
    token.opensParen = true ↔
      token.letter = .openParen ∨ ∃ lowered, token.letter = .call lowered := by
  constructor
  · intro opens
    cases token <;> simp only [Token.opensParen, Bool.false_eq_true] at opens
    case openParen => exact Or.inl rfl
    case function name => exact Or.inr ⟨_, rfl⟩
  · rintro (letter | ⟨lowered, letter⟩)
    · rw [(Token.letter_eq_iff_of_mark rfl).mp letter]
      rfl
    · obtain ⟨name, opens, -⟩ := Token.letter_eq_call_iff.mp letter
      rw [opens]
      rfl

namespace Grammar

theorem Blanks.nil : Blanks [] := List.forall_mem_nil _

theorem Blanks.append {front rest : List Lexeme} (first : Blanks front) (second : Blanks rest) :
    Blanks (front ++ rest) :=
  List.forall_mem_append.mpr ⟨first, second⟩

theorem Blanks.singleton {lexeme : Lexeme} (blank : lexeme.token = .whitespace) :
    Blanks [lexeme] :=
  List.forall_mem_singleton.mpr blank

/-! ## Native arguments in progress -/

theorem Balanced.append {front rest : List Lexeme} (first : Balanced front)
    (second : Balanced rest) : Balanced (front ++ rest) := by
  induction first with
  | nil => exact second
  | plain opensNone closesNone _ ih => exact .plain opensNone closesNone ih
  | @nested opening closing inner rest opens balancedInner closes _ _ ih =>
      rw [List.append_assoc, List.cons_append]
      exact .nested opens balancedInner closes ih

/-- Native arguments with a number of parentheses open in them. -/
inductive Unclosed : Nat → List Lexeme → Prop
  | balanced {lexemes : List Lexeme} (balanced : Balanced lexemes) : Unclosed 0 lexemes
  | opened {depth : Nat} {front rest : List Lexeme} {opening : Lexeme}
      (unclosed : Unclosed depth front) (opens : opening.token.opensParen = true)
      (balanced : Balanced rest) : Unclosed (depth + 1) (front ++ opening :: rest)

theorem Unclosed.append {depth : Nat} {front rest : List Lexeme} (unclosed : Unclosed depth front)
    (balanced : Balanced rest) : Unclosed depth (front ++ rest) := by
  cases unclosed with
  | balanced first => exact .balanced (first.append balanced)
  | opened unclosed opens first =>
      rw [List.append_assoc, List.cons_append]
      exact .opened unclosed opens (first.append balanced)

theorem Unclosed.close {depth : Nat} {front : List Lexeme} {closing : Lexeme}
    (unclosed : Unclosed (depth + 1) front) (closes : closing.token = .closeParen) :
    Unclosed depth (front ++ [closing]) := by
  cases unclosed with
  | @opened _ front rest opening unclosed opens balanced =>
      rw [List.append_assoc]
      exact unclosed.append (.nested opens balanced closes .nil)

/-! ## A list in progress -/

/-- Finished arguments, with the comma behind the last of them. -/
inductive Finished : List Lexeme → List Argument → Prop
  | none : Finished [] []
  | some {lexemes : List Lexeme} {comma : Lexeme} {arguments : List Argument}
      (derived : Derives lexemes (.arguments arguments)) (separates : comma.token = .comma) :
      Finished (lexemes ++ [comma]) arguments

/-- The start of a part, or nothing of it yet. -/
inductive Started : List Lexeme → String → List EngineFunction → Prop
  | nothing : Started [] "" []
  | items {lexemes : List Lexeme} {text : String} {functions : List EngineFunction}
      (derived : Derives lexemes (.items text functions)) : Started lexemes text functions

/-- The lexemes behind which an item may be added to a level. -/
inductive Place : List Lexeme → Level → Prop
  | intro {front blanks joined started : List Lexeme} {arguments : List Argument}
      {parts : List Part} {text : String} {functions : List EngineFunction}
      (finished : Finished front arguments) (allBlank : Blanks blanks)
      (derived : Derives joined (.joined parts)) (start : Started started text functions) :
      Place (front ++ blanks ++ joined ++ started) ⟨arguments, parts, text, functions⟩

/-- The lexemes of a list in progress at a place in the grammar. -/
inductive InProgress : List Lexeme → Level → Focus → Prop
  | argumentStart {front blanks : List Lexeme} {arguments : List Argument} {focus : Focus}
      (starts : focus = .listStart ∨ focus = .argumentStart) (finished : Finished front arguments)
      (allBlank : Blanks blanks) :
      InProgress (front ++ blanks) (.fresh arguments []) focus
  | partStart {lexemes before after : List Lexeme} {sign : Lexeme} {level ended : Level}
      {combinator : Combinator} (place : Place lexemes level)
      (ends : level.endPart? combinator = some ended) (blanksBefore : Blanks before)
      (signLetter : sign.token.letter = .combinator combinator) (blanksAfter : Blanks after) :
      InProgress (lexemes ++ (before ++ sign :: after)) ended .partStart
  | item {lexemes : List Lexeme} {level : Level} (place : Place lexemes level) :
      InProgress lexemes level .item
  | partEnd {lexemes blanks : List Lexeme} {level : Level} (place : Place lexemes level)
      (allBlank : Blanks blanks) (nonempty : blanks ≠ []) :
      InProgress (lexemes ++ blanks) level .partEnd
  | literalEnd {front lexemes : List Lexeme} {arguments : List Argument} {argument : Argument}
      (finished : Finished front arguments) (derived : Derives lexemes (.argument argument)) :
      InProgress (front ++ lexemes) (.fresh (arguments ++ [argument]) []) .literalEnd
  | dot {lexemes : List Lexeme} {dot : Lexeme} {level : Level} (place : Place lexemes level)
      (dotToken : dot.token = .delim '.') : InProgress (lexemes ++ [dot]) level .dot
  | colon {lexemes : List Lexeme} {colon : Lexeme} {level : Level} (place : Place lexemes level)
      (colonToken : colon.token = .colon) : InProgress (lexemes ++ [colon]) level .colon
  | bracketed {lexemes inner : List Lexeme} {opening : Lexeme} {level : Level}
      (place : Place lexemes level) (opens : opening.token = .openBracket)
      (inside : ∀ lexeme ∈ inner, lexeme.token ≠ .closeBracket) :
      InProgress (lexemes ++ opening :: inner) (level.add (sources (opening :: inner)) [])
        .attribute
  | native {lexemes inner : List Lexeme} {colon call : Lexeme} {name : String} {level : Level}
      {depth : Nat} (place : Place lexemes level) (colonToken : colon.token = .colon)
      (token : call.token = .function name) (native : name.toLower ∈ nativeFunctions)
      (unclosed : Unclosed depth inner) :
      InProgress (lexemes ++ colon :: call :: inner)
        (level.add (":" ++ name.toLower ++ "(" ++ sources inner) []) (.native depth)

/-- The lexemes of the lists around the one in progress, each up to the function that is
open in it. -/
inductive Stack : List Lexeme → List Enclosing → Prop
  | nil : Stack [] []
  | cons {front lexemes : List Lexeme} {colon call : Lexeme} {name : String} {level : Level}
      {outer : List Enclosing} (below : Stack front outer) (place : Place lexemes level)
      (colonToken : colon.token = .colon) (token : call.token = .function name)
      (engine : name.toLower ∉ nativeFunctions) :
      Stack (front ++ lexemes ++ [colon, call]) (⟨level, name.toLower⟩ :: outer)

/-- The lexemes that a state has read. -/
inductive Reading : List Lexeme → State → Prop
  | intro {below inside : List Lexeme} {outer : List Enclosing} {level : Level} {focus : Focus}
      (stack : Stack below outer) (progress : InProgress inside level focus) :
      Reading (below ++ inside) ⟨outer, level, focus⟩

/-! ## What a place may become -/

theorem Finished.add {front lexemes : List Lexeme} {arguments : List Argument}
    {argument : Argument} (finished : Finished front arguments)
    (derived : Derives lexemes (.argument argument)) :
    Derives (front ++ lexemes) (.arguments (arguments ++ [argument])) := by
  cases finished with
  | none => exact .oneArgument derived
  | some before separates =>
      rw [List.append_assoc, List.singleton_append]
      exact .moreArguments before separates derived

theorem Started.add {front lexemes : List Lexeme} {text added : String}
    {functions addedFunctions : List EngineFunction} (started : Started front text functions)
    (derived : Derives lexemes (.item added addedFunctions)) :
    Started (front ++ lexemes) (text ++ added) (functions ++ addedFunctions) := by
  cases started with
  | nothing =>
      rw [String.empty_append]
      exact .items (.oneItem derived)
  | items before => exact .items (.moreItems before derived)

theorem Started.simple {lexemes : List Lexeme} {text : String} {functions : List EngineFunction}
    {arguments : List Argument} {parts : List Part} {selector : SimpleSelector}
    (started : Started lexemes text functions)
    (whole : Level.simple? ⟨arguments, parts, text, functions⟩ = some selector) :
    Derives lexemes (.simple selector) := by
  rw [Level.simple?] at whole
  split at whole
  · rename_i noText
    simp only at noText
    split at whole
    · contradiction
    · rename_i someFunction
      cases started with
      | nothing => contradiction
      | items derived =>
          cases whole
          subst noText
          rw [List.isEmpty_iff] at someFunction
          exact .engine derived someFunction
  · rename_i someText
    cases started with
    | nothing => contradiction
    | items derived =>
        cases whole
        exact .native derived someText

theorem Place.add {front lexemes : List Lexeme} {level : Level} {text : String}
    {functions : List EngineFunction} (place : Place front level)
    (derived : Derives lexemes (.item text functions)) :
    Place (front ++ lexemes) (level.add text functions) := by
  obtain ⟨finished, allBlank, joined, started⟩ := place
  rw [List.append_assoc]
  exact .intro finished allBlank joined (started.add derived)

/-- Behind finished arguments and blanks the first part may start. -/
theorem Finished.place {front blanks : List Lexeme} {arguments : List Argument}
    (finished : Finished front arguments) (allBlank : Blanks blanks) :
    Place (front ++ blanks) (.fresh arguments []) := by
  have place := Place.intro finished allBlank .noParts .nothing
  rwa [List.append_nil, List.append_nil] at place

/-- A separator behind a part leads to a place in the next part. -/
theorem Place.endPart {front separator : List Lexeme} {level ended : Level}
    {combinator : Combinator} (place : Place front level)
    (ends : level.endPart? combinator = some ended) (separated : Separator separator combinator) :
    Place (front ++ separator) ended := by
  obtain ⟨finished, allBlank, joined, started⟩ := place
  obtain ⟨selector, whole, rfl⟩ := Option.map_eq_some_iff.mp ends
  have next := Place.intro finished allBlank
    (.moreParts joined (started.simple whole) separated) .nothing
  simpa only [List.append_assoc, List.append_nil] using next

/-- Blanks behind a part that may end an argument end the argument. -/
theorem Place.endArgument {front blanks : List Lexeme} {level ended : Level}
    (place : Place front level) (allBlank : Blanks blanks)
    (ends : level.endArgument? = some ended) :
    Derives (front ++ blanks) (.arguments ended.arguments) ∧ ended = .fresh ended.arguments [] := by
  obtain ⟨finished, blanksBefore, joined, started⟩ := place
  obtain ⟨closed, partEnds, rfl⟩ := Option.map_eq_some_iff.mp ends
  obtain ⟨selector, whole, rfl⟩ := Option.map_eq_some_iff.mp partEnds
  refine ⟨?_, rfl⟩
  have derived := finished.add
    (.selector blanksBefore (.complex joined (started.simple whole)) allBlank)
  simpa only [List.append_assoc] using derived

/-- Where an item may start, the lexemes read are a place for it. -/
theorem InProgress.place {lexemes : List Lexeme} {level next : Level} {focus : Focus}
    (progress : InProgress lexemes level focus) (outer : List Enclosing)
    (starts : (State.mk outer level focus).itemLevel? = some next) : Place lexemes next := by
  cases progress with
  | @argumentStart front blanks arguments _ focused finished allBlank =>
      have same : next = .fresh arguments [] := by
        rcases focused with rfl | rfl <;> exact (Option.some.inj starts).symm
      subst same
      exact finished.place allBlank
  | partStart place ends blanksBefore signLetter blanksAfter =>
      cases starts
      obtain ⟨character, token, spelled⟩ := Token.letter_eq_combinator_iff.mp signLetter
      exact place.endPart ends (.sign blanksBefore token spelled blanksAfter)
  | item place =>
      cases starts
      exact place
  | partEnd place allBlank nonempty => exact place.endPart starts (.blanks allBlank nonempty)
  | _ => contradiction

/-- Where an argument may end, the lexemes read are a derived argument list. -/
theorem InProgress.derives {lexemes : List Lexeme} {outer : List Enclosing} {level ended : Level}
    {focus : Focus} (progress : InProgress lexemes level focus)
    (ends : (State.mk outer level focus).argumentEnd? = some ended) :
    Derives lexemes (.arguments ended.arguments) ∧ ended = .fresh ended.arguments [] := by
  cases progress with
  | argumentStart starts => rcases starts with rfl | rfl <;> contradiction
  | item place =>
      have derived := place.endArgument .nil ends
      rwa [List.append_nil] at derived
  | partEnd place allBlank => exact place.endArgument allBlank ends
  | literalEnd finished derived =>
      cases ends
      exact ⟨finished.add derived, rfl⟩
  | _ => contradiction

/-! ## One step -/

theorem Derives.argument_blank {lexemes : List Lexeme} {lexeme : Lexeme} {argument : Argument}
    (derived : Derives lexemes (.argument argument)) (blank : lexeme.token = .whitespace) :
    Derives (lexemes ++ [lexeme]) (.argument argument) := by
  cases derived with
  | number blanksBefore token blanksAfter =>
      rw [List.append_assoc, List.cons_append]
      exact .number blanksBefore token (blanksAfter.append (.singleton blank))
  | string blanksBefore token blanksAfter =>
      rw [List.append_assoc, List.cons_append]
      exact .string blanksBefore token (blanksAfter.append (.singleton blank))
  | selector blanksBefore derived blanksAfter =>
      rw [List.append_assoc]
      exact .selector blanksBefore derived (blanksAfter.append (.singleton blank))

/-- A reading of lexemes that are split in another way. -/
theorem Reading.of_eq {below inside lexemes : List Lexeme} {outer : List Enclosing}
    {level : Level} {focus : Focus} (stack : Stack below outer)
    (progress : InProgress inside level focus) (same : lexemes = below ++ inside) :
    Reading lexemes ⟨outer, level, focus⟩ :=
  same ▸ .intro stack progress

/-- The first lexeme of an item is read where an item may start. -/
theorem Reading.item {below inside : List Lexeme} {lexeme : Lexeme} {outer : List Enclosing}
    {level : Level} {next : State} (stack : Stack below outer) (place : Place inside level)
    (steps : (State.mk outer level .item).item lexeme.symbol = some next) :
    Reading (below ++ inside ++ [lexeme]) next := by
  unfold State.item at steps
  cases letter : lexeme.symbol.letter <;> rw [letter] at steps <;> cases steps
  case name lowered =>
      obtain ⟨name, token, -⟩ := Token.letter_eq_name_iff.mp letter
      have progress := InProgress.item (place.add (.name token))
      rw [← Level.addText_eq_add] at progress
      exact .of_eq stack progress (List.append_assoc ..)
  case fragment =>
      have derived : Derives [lexeme] (.item lexeme.source []) := by
        rcases Token.letter_eq_fragment_iff.mp letter with ⟨name, kind, token⟩ | token
        · exact .hash token
        · exact .asterisk token
      have progress := InProgress.item (place.add derived)
      rw [← Level.addText_eq_add] at progress
      exact .of_eq stack progress (List.append_assoc ..)
  case dot =>
      have dotToken := (Token.letter_eq_iff_of_mark rfl).mp letter
      exact .of_eq stack (.dot place dotToken) (List.append_assoc ..)
  case colon =>
      have colonToken := (Token.letter_eq_iff_of_mark rfl).mp letter
      exact .of_eq stack (.colon place colonToken) (List.append_assoc ..)
  case openBracket =>
      have opens := (Token.letter_eq_iff_of_mark rfl).mp letter
      have progress := InProgress.bracketed place opens (List.forall_mem_nil _)
      rw [sources_cons, sources_nil, String.append_empty, ← Level.addText_eq_add] at progress
      exact .of_eq stack progress (List.append_assoc ..)

/-- A closing parenthesis behind a derived argument list ends the function around it. -/
theorem Reading.closeFunction {below inside : List Lexeme} {lexeme : Lexeme}
    {outer : List Enclosing} {level : Level} {focus : Focus} {next : State}
    (stack : Stack below outer) (derived : Derives inside (.arguments level.arguments))
    (closes : lexeme.token = .closeParen)
    (steps : (State.mk outer level focus).closeFunction = some next) :
    Reading (below ++ inside ++ [lexeme]) next := by
  cases stack with
  | nil => contradiction
  | @cons front lexemes colon call name enclosing outer stack place colonToken token engine =>
      cases steps
      have function := Derives.function colonToken token engine derived closes
      have progress := InProgress.item (place.add function)
      rw [← Level.addFunction_eq_add] at progress
      exact .of_eq stack progress
        (by simp only [List.append_assoc, List.cons_append, List.nil_append])

/-- What ends a part, behind the part or blanks after it. -/
theorem Reading.boundary {below inside blanks : List Lexeme} {lexeme : Lexeme}
    {outer : List Enclosing} {level : Level} {focus : Focus} {next : State}
    (stack : Stack below outer) (place : Place inside level) (allBlank : Blanks blanks)
    (steps : (State.mk outer level focus).boundary lexeme.symbol.letter = some next) :
    Reading (below ++ (inside ++ blanks) ++ [lexeme]) next := by
  unfold State.boundary at steps
  cases letter : lexeme.symbol.letter <;> rw [letter] at steps <;> try contradiction
  case combinator combinator =>
      obtain ⟨ended, ends, rfl⟩ := Option.map_eq_some_iff.mp steps
      exact .of_eq stack (.partStart place ends allBlank letter .nil)
        (by simp only [List.append_assoc])
  case comma =>
      obtain ⟨ended, ends, rfl⟩ := Option.map_eq_some_iff.mp steps
      obtain ⟨derived, same⟩ := place.endArgument allBlank ends
      have comma := (Token.letter_eq_iff_of_mark rfl).mp letter
      have progress := InProgress.argumentStart (Or.inr rfl) (.some derived comma) .nil
      rw [← same] at progress
      exact .of_eq stack progress (by simp only [List.append_assoc, List.append_nil])
  case closeParen =>
      obtain ⟨ended, ends, closed⟩ := Option.bind_eq_some_iff.mp steps
      obtain ⟨derived, -⟩ := place.endArgument allBlank ends
      exact .closeFunction stack derived ((Token.letter_eq_iff_of_mark rfl).mp letter) closed

/-- What stands behind a colon. -/
theorem Reading.pseudo {below inside : List Lexeme} {colon lexeme : Lexeme}
    {outer : List Enclosing} {level : Level} {focus : Focus} {next : State}
    (stack : Stack below outer) (place : Place inside level) (colonToken : colon.token = .colon)
    (steps : (State.mk outer level focus).pseudo lexeme.symbol = some next) :
    Reading (below ++ (inside ++ [colon]) ++ [lexeme]) next := by
  unfold State.pseudo at steps
  cases letter : lexeme.symbol.letter <;> rw [letter] at steps <;> try contradiction
  case name lowered =>
      obtain ⟨name, token, rfl⟩ := Token.letter_eq_name_iff.mp letter
      by_cases native : name.toLower ∈ nativeClasses
      · simp only [isNativeClass_toLower, native, decide_true, ↓reduceIte] at steps
        cases steps
        have progress := InProgress.item (place.add (.nativeClass colonToken token native))
        rw [← Level.addText_eq_add] at progress
        exact .of_eq stack progress
          (by simp only [List.append_assoc, List.cons_append, List.nil_append])
      · simp only [isNativeClass_toLower, native, decide_false, Bool.false_eq_true,
          ↓reduceIte] at steps
        cases steps
        have progress := InProgress.item (place.add (.bareFunction colonToken token native))
        rw [← Level.addFunction_eq_add] at progress
        exact .of_eq stack progress
          (by simp only [List.append_assoc, List.cons_append, List.nil_append])
  case call lowered =>
      obtain ⟨name, token, rfl⟩ := Token.letter_eq_call_iff.mp letter
      by_cases native : name.toLower ∈ nativeFunctions
      · simp only [isNativeFunction_toLower, native, decide_true, ↓reduceIte] at steps
        cases steps
        have progress := InProgress.native place colonToken token native (.balanced .nil)
        rw [sources_nil, String.append_empty, ← Level.addText_eq_add] at progress
        exact .of_eq stack progress
          (by simp only [List.append_assoc, List.cons_append, List.nil_append])
      · simp only [isNativeFunction_toLower, native, decide_false, Bool.false_eq_true,
          ↓reduceIte] at steps
        cases steps
        exact .of_eq (.cons stack place colonToken token native)
          (.argumentStart (Or.inl rfl) .none .nil)
          (by simp only [List.append_assoc, List.cons_append, List.nil_append, List.append_nil])

/-- A number, a string or blanks at the start of an argument, or the first item of a
selector. -/
theorem Reading.argument {below front blanks : List Lexeme} {lexeme : Lexeme}
    {outer : List Enclosing} {arguments : List Argument} {focus : Focus} {next : State}
    (stack : Stack below outer) (finished : Finished front arguments) (allBlank : Blanks blanks)
    (steps : (State.mk outer (.fresh arguments []) focus).argument lexeme.symbol = some next) :
    Reading (below ++ (front ++ blanks) ++ [lexeme]) next := by
  unfold State.argument at steps
  split at steps
  · rename_i letter
    cases steps
    have blank := (Token.letter_eq_iff_of_mark rfl).mp letter
    exact .of_eq stack
      (.argumentStart (Or.inr rfl) finished (allBlank.append (.singleton blank)))
      (by simp only [List.append_assoc])
  · rename_i value letter
    cases steps
    obtain ⟨kind, token⟩ := Token.letter_eq_number_iff.mp letter
    exact .of_eq stack (.literalEnd finished (.number allBlank token .nil))
      (by simp only [List.append_assoc])
  · rename_i value letter
    cases steps
    have token := Token.letter_eq_string_iff.mp letter
    exact .of_eq stack (.literalEnd finished (.string allBlank token .nil))
      (by simp only [List.append_assoc])
  · exact .item stack (finished.place allBlank) steps

/-- A lexeme inside native arguments, the closing parenthesis behind them included. -/
theorem Reading.native {below inside inner : List Lexeme} {colon call lexeme : Lexeme}
    {name : String} {outer : List Enclosing} {level : Level} {depth : Nat}
    (stack : Stack below outer) (place : Place inside level) (colonToken : colon.token = .colon)
    (token : call.token = .function name) (native : name.toLower ∈ nativeFunctions)
    (unclosed : Unclosed depth inner) :
    Reading (below ++ (inside ++ colon :: call :: inner) ++ [lexeme])
      ((State.mk outer (level.add (":" ++ name.toLower ++ "(" ++ sources inner) [])
        (.native depth)).native depth lexeme.symbol) := by
  have copied {next : Nat} (after : Unclosed next (inner ++ [lexeme])) :
      Reading (below ++ (inside ++ colon :: call :: inner) ++ [lexeme])
        ((State.mk outer (level.add (":" ++ name.toLower ++ "(" ++ sources inner) [])
          (.native depth)).addText lexeme.source (.native next)) := by
    have progress := InProgress.native place colonToken token native after
    rw [sources_append, sources_cons, sources_nil, String.append_empty, ← String.append_assoc,
      ← Level.add_addText] at progress
    exact .of_eq stack progress (by simp only [List.append_assoc, List.cons_append])
  unfold State.native
  split
  · rename_i letter
    cases unclosed with
    | balanced balanced =>
        have closes := (Token.letter_eq_iff_of_mark rfl).mp letter
        have progress := InProgress.item
          (place.add (.nativeFunction colonToken token native balanced closes))
        rw [← Level.add_addText] at progress
        exact .of_eq stack progress (by simp only [List.append_assoc, List.cons_append])
  · rename_i letter
    exact copied (unclosed.close ((Token.letter_eq_iff_of_mark rfl).mp letter))
  · rename_i letter
    refine copied (.opened unclosed ?_ .nil)
    exact Token.opensParen_iff.mpr (Or.inl letter)
  · rename_i letter
    refine copied (.opened unclosed ?_ .nil)
    exact Token.opensParen_iff.mpr (Or.inr ⟨_, letter⟩)
  · rename_i notOpen notCall notLast notNested
    refine copied (unclosed.append (.plain ?_ ?_ .nil))
    · apply Bool.eq_false_iff.mpr
      intro opens
      rcases Token.opensParen_iff.mp opens with letter | ⟨lowered, letter⟩
      · exact notOpen letter
      · exact notCall lowered letter
    · intro closes
      have letter : lexeme.symbol.letter = .closeParen :=
        (Token.letter_eq_iff_of_mark rfl).mpr closes
      cases unclosed with
      | balanced => exact notLast letter rfl
      | opened => exact notNested _ letter rfl

/-- Behind an item. -/
theorem Reading.behindItem {below inside : List Lexeme} {lexeme : Lexeme} {outer : List Enclosing}
    {level : Level} {next : State} (stack : Stack below outer) (place : Place inside level)
    (steps : (State.mk outer level .item).behindItem lexeme.symbol = some next) :
    Reading (below ++ inside ++ [lexeme]) next := by
  unfold State.behindItem at steps
  split at steps
  · rename_i letter
    obtain ⟨selector, whole, rfl⟩ := Option.map_eq_some_iff.mp steps
    have blank := (Token.letter_eq_iff_of_mark rfl).mp letter
    exact .of_eq stack (.partEnd place (.singleton blank) (List.cons_ne_nil _ _))
      (List.append_assoc ..)
  · simpa only [List.append_nil] using Reading.boundary stack place .nil steps
  · simpa only [List.append_nil] using Reading.boundary stack place .nil steps
  · simpa only [List.append_nil] using Reading.boundary stack place .nil steps
  · exact .item stack place steps

/-- Behind a part and blanks. -/
theorem Reading.behindPart {below inside blanks : List Lexeme} {lexeme : Lexeme}
    {outer : List Enclosing} {level : Level} {next : State} (stack : Stack below outer)
    (place : Place inside level) (allBlank : Blanks blanks) (nonempty : blanks ≠ [])
    (steps : (State.mk outer level .partEnd).behindPart lexeme.symbol = some next) :
    Reading (below ++ (inside ++ blanks) ++ [lexeme]) next := by
  unfold State.behindPart at steps
  split at steps
  · rename_i letter
    cases steps
    have blank := (Token.letter_eq_iff_of_mark rfl).mp letter
    exact .of_eq stack
      (.partEnd place (allBlank.append (.singleton blank))
        (List.append_ne_nil_of_left_ne_nil nonempty _))
      (by simp only [List.append_assoc])
  · exact .boundary stack place allBlank steps
  · exact .boundary stack place allBlank steps
  · exact .boundary stack place allBlank steps
  · obtain ⟨ended, ends, itemSteps⟩ := Option.bind_eq_some_iff.mp steps
    exact .item stack (place.endPart ends (.blanks allBlank nonempty)) itemSteps

/-- Behind a number or a string. -/
theorem Reading.behindLiteral {below front lexemes : List Lexeme} {lexeme : Lexeme}
    {outer : List Enclosing} {arguments : List Argument} {argument : Argument} {next : State}
    (stack : Stack below outer) (finished : Finished front arguments)
    (derived : Derives lexemes (.argument argument))
    (steps : (State.mk outer (.fresh (arguments ++ [argument]) []) .literalEnd).step
      lexeme.symbol = some next) :
    Reading (below ++ (front ++ lexemes) ++ [lexeme]) next := by
  rw [State.step] at steps
  simp only at steps
  split at steps
  · rename_i letter
    cases steps
    have blank := (Token.letter_eq_iff_of_mark rfl).mp letter
    exact .of_eq stack (.literalEnd finished (derived.argument_blank blank))
      (by simp only [List.append_assoc])
  · rename_i letter
    cases steps
    have comma := (Token.letter_eq_iff_of_mark rfl).mp letter
    exact .of_eq stack
      (.argumentStart (Or.inr rfl) (.some (finished.add derived) comma) .nil)
      (by simp only [List.append_assoc, List.append_nil])
  · rename_i letter
    exact .closeFunction stack (finished.add derived)
      ((Token.letter_eq_iff_of_mark rfl).mp letter) steps
  · contradiction

/-- Inside brackets. -/
theorem Reading.attribute {below inside inner : List Lexeme} {opening lexeme : Lexeme}
    {outer : List Enclosing} {level : Level} {next : State} (stack : Stack below outer)
    (place : Place inside level) (opens : opening.token = .openBracket)
    (bracketed : ∀ lexeme ∈ inner, lexeme.token ≠ .closeBracket)
    (steps : (State.mk outer (level.add (sources (opening :: inner)) []) .attribute).step
      lexeme.symbol = some next) :
    Reading (below ++ (inside ++ opening :: inner) ++ [lexeme]) next := by
  rw [State.step] at steps
  simp only at steps
  split at steps
  · rename_i letter
    cases steps
    have closes := (Token.letter_eq_iff_of_mark rfl).mp letter
    have progress := InProgress.item (place.add (.condition opens bracketed closes))
    rw [sources_append, sources_cons lexeme, sources_nil, String.append_empty,
      ← Level.add_addText] at progress
    exact .of_eq stack progress (by simp only [List.append_assoc])
  · rename_i notClosed
    cases steps
    have other : lexeme.token ≠ .closeBracket := fun closes =>
      notClosed ((Token.letter_eq_iff_of_mark rfl).mpr closes)
    have progress := InProgress.bracketed place opens
      (List.forall_mem_append.mpr ⟨bracketed, List.forall_mem_singleton.mpr other⟩)
    rw [← List.cons_append, sources_append, sources_cons lexeme, sources_nil,
      String.append_empty, ← Level.add_addText] at progress
    exact .of_eq stack progress (by simp only [List.append_assoc, List.cons_append])

/-- **One step of a reading.** The state behind one more lexeme stands for the lexemes
with that one behind them. -/
theorem Reading.step {lexemes : List Lexeme} {lexeme : Lexeme} {state next : State}
    (reading : Reading lexemes state) (steps : state.step lexeme.symbol = some next) :
    Reading (lexemes ++ [lexeme]) next := by
  obtain ⟨stack, progress⟩ := reading
  cases progress with
  | argumentStart starts finished allBlank =>
      rcases starts with rfl | rfl
      · exact .argument stack finished allBlank steps
      · exact .argument stack finished allBlank steps
  | partStart place ends blanksBefore signLetter blanksAfter =>
      rw [State.step] at steps
      simp only at steps
      split at steps
      · rename_i letter
        cases steps
        have blank := (Token.letter_eq_iff_of_mark rfl).mp letter
        exact .of_eq stack
          (.partStart place ends blanksBefore signLetter (blanksAfter.append (.singleton blank)))
          (by simp only [List.append_assoc, List.cons_append])
      · have signed := InProgress.partStart place ends blanksBefore signLetter blanksAfter
        exact .item stack (signed.place [] rfl) steps
  | item place => exact .behindItem stack place steps
  | partEnd place allBlank nonempty => exact .behindPart stack place allBlank nonempty steps
  | literalEnd finished derived => exact .behindLiteral stack finished derived steps
  | dot place dotToken =>
      rw [State.step] at steps
      simp only at steps
      split at steps
      · rename_i letter
        cases steps
        obtain ⟨name, token, -⟩ := Token.letter_eq_name_iff.mp letter
        have progress := InProgress.item (place.add (.className dotToken token))
        rw [← Level.addText_eq_add] at progress
        exact .of_eq stack progress
          (by simp only [List.append_assoc, List.cons_append, List.nil_append])
      · contradiction
  | colon place colonToken => exact .pseudo stack place colonToken steps
  | bracketed place opens inside => exact .attribute stack place opens inside steps
  | native place colonToken token native unclosed =>
      cases steps
      exact .native stack place colonToken token native unclosed

/-- **A whole run.** -/
theorem Reading.run {front rest : List Lexeme} {state last : State}
    (reading : Reading front state) (runs : state.run rest = some last) :
    Reading (front ++ rest) last := by
  induction rest generalizing front state with
  | nil =>
      cases runs
      rwa [List.append_nil]
  | cons lexeme rest ih =>
      obtain ⟨next, steps, runs⟩ := Option.bind_eq_some_iff.mp runs
      have whole := ih (reading.step steps) runs
      rwa [List.append_assoc, List.singleton_append] at whole

theorem Reading.start : Reading [] .start :=
  .intro .nil (.argumentStart (Or.inl rfl) .none .nil)

/-- What a reading finishes with is derived by the lexemes it read. -/
theorem Reading.derives {lexemes : List Lexeme} {state : State} {arguments : List Argument}
    (reading : Reading lexemes state) (finishes : state.finish = some arguments) :
    Derives lexemes (.arguments arguments) := by
  obtain ⟨top, ended, ends, rfl⟩ := State.argumentEnd_of_finish finishes
  obtain ⟨stack, progress⟩ := reading
  cases top
  cases stack
  exact (progress.derives ends).1

/-! ## Reading is deriving -/

/-- Reading lexemes to the end gives the argument lists that they derive. -/
theorem read_eq_ok_iff_derives {lexemes : List Lexeme} {arguments : List Argument} :
    State.start.read (lexemes.map Lexeme.symbol) = .ok arguments ↔
      Derives lexemes (.arguments arguments) := by
  rw [State.read_eq_ok_iff]
  constructor
  · rintro ⟨last, runs, finishes⟩
    exact (Reading.start.run runs).derives finishes
  · intro derived
    exact derived.finish_run

/-- **The reader accepts exactly its grammar.** Supported lexemes without an end of the
text among them are read as an argument list if and only if they derive it. -/
theorem readArguments_eq_ok_iff_derives (selector : String) (lexemes : List Lexeme)
    (supported : ∀ lexeme ∈ lexemes, lexeme.token.isSupported = true)
    (endless : ∀ lexeme ∈ lexemes, lexeme.token ≠ .endOfText) (arguments : List Argument) :
    readArguments selector lexemes = .ok arguments ↔
      Derives lexemes (.arguments arguments) := by
  rw [readArguments_of_supported selector supported, beforeEnd_of_endless endless,
    ← read_eq_ok_iff_derives]
  cases State.start.read (lexemes.map Lexeme.symbol) with
  | error unexpected => simp only [reduceCtorEq]
  | ok read => simp only [Except.ok.injEq]

/-- The lexemes of `* > :lang((x)):Has(b ~c, "x" )`, behind a name without a text. -/
def nestedLexemes : List Lexeme := [
  ⟨.ident "a", "", 0⟩, ⟨.delim '*', "*", 0⟩, ⟨.whitespace, " ", 1⟩, ⟨.delim '>', ">", 2⟩,
  ⟨.whitespace, " ", 3⟩, ⟨.colon, ":", 4⟩, ⟨.function "lang", "lang(", 5⟩,
  ⟨.openParen, "(", 10⟩, ⟨.ident "x", "x", 11⟩, ⟨.closeParen, ")", 12⟩, ⟨.closeParen, ")", 13⟩,
  ⟨.colon, ":", 14⟩, ⟨.function "Has", "Has(", 15⟩, ⟨.ident "b", "b", 19⟩,
  ⟨.whitespace, " ", 20⟩, ⟨.delim '~', "~", 21⟩, ⟨.ident "c", "c", 22⟩, ⟨.comma, ",", 23⟩,
  ⟨.whitespace, " ", 24⟩, ⟨.string "x", "\"x\"", 25⟩, ⟨.whitespace, " ", 28⟩,
  ⟨.closeParen, ")", 29⟩]

theorem nestedLexemes_derive :
    (∀ lexeme ∈ nestedLexemes, lexeme.token.isSupported = true) ∧
      (∀ lexeme ∈ nestedLexemes, lexeme.token ≠ .endOfText) ∧
      Derives nestedLexemes (.arguments [.selector ⟨[⟨⟨some "*", []⟩, .child⟩,
        ⟨⟨some ":lang((x))", [⟨"has", [
          .selector ⟨[⟨⟨some "b", []⟩, .subsequentSibling⟩, ⟨⟨some "c", []⟩, .descendant⟩]⟩,
          .string "x"]⟩]⟩, .descendant⟩]⟩]) :=
  ⟨by decide, by decide,
    (readArguments_eq_ok_iff_derives "" nestedLexemes (by decide) (by decide) _).mp
      (by decide +kernel)⟩

end Grammar

end SelectorLang
