import SelectorLang.Proofs.Reader.Resumed
import SelectorLang.Proofs.RoundTrip.Reading
import SelectorLang.Proofs.Tokenizer.Shift

/-! # The pieces of an argument list

A text is parsed as an argument list, with nothing cut off at its end, exactly when it is
cut into supported pieces that derive it, up to comments at the end
(`SelectorLang.ArgumentPieces`). In front of a comma or a closing parenthesis it is cut into
the same pieces (`SelectorLang.ArgumentPieces.cuts_in_front_of`).
-/

namespace SelectorLang

open Scan CodePoint Grammar

/-! ## Reading does not see where lexemes stand -/

/-- Reading sees of lexemes their tokens and their texts, and names the text of them all
in its failures. -/
theorem readArguments_map {relocate : Lexeme → Lexeme}
    (same : ∀ lexeme, (relocate lexeme).token = lexeme.token ∧
      (relocate lexeme).source = lexeme.source)
    (selector selector' : String) (lexemes : List Lexeme) :
    readArguments selector' (lexemes.map relocate) =
      (readArguments selector lexemes).mapError fun failure => ⟨failure.cause, selector'⟩ := by
  have isSupported : (fun lexeme => !(relocate lexeme).token.isSupported) =
      fun lexeme : Lexeme => !lexeme.token.isSupported :=
    funext fun lexeme => by rw [(same lexeme).1]
  have isEnd : (fun lexeme => !(relocate lexeme).token.isEnd) =
      fun lexeme : Lexeme => !lexeme.token.isEnd :=
    funext fun lexeme => by rw [(same lexeme).1]
  have isSymbol : (fun lexeme => (relocate lexeme).symbol) = Lexeme.symbol :=
    funext fun lexeme => by rw [Lexeme.symbol, (same lexeme).1, (same lexeme).2]; rfl
  have front : (beforeEnd (lexemes.map relocate)).map Lexeme.symbol =
      (beforeEnd lexemes).map Lexeme.symbol := by
    rw [beforeEnd, List.takeWhile_map, List.map_map, beforeEnd]
    simp only [Function.comp_def, isEnd, isSymbol]
  unfold readArguments checkSupported
  rw [front, List.find?_map]
  simp only [Function.comp_def, isSupported]
  cases lexemes.find? fun lexeme => !lexeme.token.isSupported with
  | some lexeme =>
      rw [Option.map_some]
      exact congrArg (fun source => Except.error (Failure.mk (.unsupportedToken source) selector'))
        (same lexeme).2
  | none =>
      cases State.start.read ((beforeEnd lexemes).map Lexeme.symbol) <;> rfl

theorem derives_place_congr {pieces : List Piece} {arguments : List Argument} {offset : Nat}
    (derived : Derives (place offset pieces) (.arguments arguments)) (offset' : Nat) :
    Derives (place offset' pieces) (.arguments arguments) := by
  rw [← read_eq_ok_iff_derives, map_symbol_place] at derived ⊢
  exact derived

/-! ## Hyphens at the end -/

/-- A character that selectors have no use for stands in brackets or native arguments, so
that something is open behind it. -/
theorem State.finish_of_other {state next : State} {symbol : Symbol}
    (other : symbol.letter = .other) (steps : state.step symbol = some next) :
    next.finish = none := by
  obtain ⟨outer, level, focus⟩ := state
  have unfinished {outer : List Enclosing} {level : Level} {focus : Focus}
      (isOpen : focus = .attribute ∨ ∃ depth, focus = .native depth) :
      (State.mk outer level focus).finish = none := by
    rcases isOpen with rfl | ⟨depth, rfl⟩ <;> cases outer <;> rfl
  cases focus <;>
    simp only [step, argument, item, behindItem, behindPart, pseudo, native, other, reduceCtorEq,
      Option.bind_eq_some_iff, and_false, exists_false, Option.some.injEq] at steps
  all_goals
    subst steps
    refine unfinished ?_
    first | exact Or.inl rfl | exact Or.inr ⟨_, rfl⟩

theorem Grammar.Derives.last_ne_other {front : List Lexeme} {last : Lexeme}
    {arguments : List Argument} (derived : Derives (front ++ [last]) (.arguments arguments)) :
    last.token.letter ≠ .other := by
  intro other
  obtain ⟨final, runs, finishes⟩ := derived.finish_run
  rw [State.run_append] at runs
  obtain ⟨state, -, steps⟩ := Option.bind_eq_some_iff.mp runs
  obtain ⟨next, steps, isFinal⟩ := Option.bind_eq_some_iff.mp steps
  cases isFinal
  rw [State.finish_of_other other steps] at finishes
  contradiction

/-! ## Texts that are parsed as argument lists -/

/-- A text that is cut into pieces, up to comments at its end, which derive an argument
list. -/
structure ArgumentPieces (text : String) (arguments : List Argument) (pieces : List Piece)
    (trail : List Char) : Prop where
  /-- The text is cut into the pieces. -/
  cuts : Cuts text.toList pieces trail
  /-- Nothing but comments stands behind them. -/
  comments : AreComments trail
  /-- The pieces are supported. -/
  supported : ∀ piece ∈ pieces, piece.token.isSupported = true
  /-- They derive the argument list. -/
  derived : Derives (place 0 pieces) (.arguments arguments)

/-- What is parsed, with nothing cut off at the end, is derived from pieces. -/
theorem exists_argumentPieces {text : String} {arguments : List Argument}
    (parses : parseArguments text = .ok arguments) (quiet : tokenizeWarnings text = []) :
    ∃ pieces trail, ArgumentPieces text arguments pieces trail := by
  unfold parseArguments lexemesOf at parses
  cases cut : tokenize text with
  | error error =>
      rw [cut] at parses
      contradiction
  | ok lexemes =>
      rw [cut] at parses
      obtain ⟨noFailure, isRun⟩ := tokenize_eq_ok_iff.mp cut
      obtain ⟨pieces, trail, cuts, atEnd, placed⟩ := exists_cuts 0 text.toList noFailure quiet
      rw [isRun] at placed
      subst placed
      have endless : ∀ lexeme ∈ place 0 pieces, lexeme.token ≠ .endOfText := fun lexeme member =>
        (cuts.wide 0 lexeme member).1
      have supported := supported_of_accepts ⟨arguments, parses⟩
      exact ⟨pieces, trail, cuts, (areComments_of_comments atEnd).1,
        (forall_mem_place (·.isSupported = true) 0).mp fun lexeme member =>
          supported lexeme (List.mem_append_left _ member),
        derives_of_readArguments endless parses⟩

namespace ArgumentPieces

variable {text : String} {arguments : List Argument} {pieces : List Piece} {trail : List Char}

/-- What is derived from the pieces of a text is parsed. -/
theorem readArguments_eq (parsed : ArgumentPieces text arguments pieces trail) :
    ∃ lexemes, lexemesOf text = .ok lexemes ∧ readArguments text lexemes = .ok arguments := by
  have endless : ∀ lexeme ∈ place 0 pieces, lexeme.token ≠ .endOfText := fun lexeme member =>
    (parsed.cuts.wide 0 lexeme member).1
  have supported : ∀ lexeme ∈ place 0 pieces ++ [Lexeme.endAt text.length],
      lexeme.token.isSupported = true :=
    List.forall_mem_append.mpr ⟨(forall_mem_place (·.isSupported = true) 0).mpr parsed.supported,
      List.forall_mem_singleton.mpr rfl⟩
  have nothing : beforeEnd [Lexeme.endAt text.length] = [] := rfl
  refine ⟨_, by rw [lexemesOf, tokenize_of_cuts parsed.cuts parsed.comments.comments_self], ?_⟩
  rw [readArguments_of_supported text supported, beforeEnd_append endless, nothing,
    List.append_nil, read_eq_ok_iff_derives.mpr parsed.derived]

/-- No hyphen ends an argument list. -/
theorem source_ne_hyphen (parsed : ArgumentPieces text arguments pieces trail) :
    ∀ piece ∈ pieces.getLast?, piece.source ≠ ['-'] := by
  intro last isLast hyphen
  have isDelim := parsed.cuts.token_of_hyphen parsed.comments isLast hyphen
  obtain ⟨front, rfl⟩ := List.getLast?_eq_some_iff.mp isLast
  have derived := parsed.derived
  rw [place_append] at derived
  exact derived.last_ne_other (by rw [isDelim]; rfl)

/-- In front of a mark, the text is cut into the same pieces, and the mark behind them. -/
theorem cuts_in_front_of (parsed : ArgumentPieces text arguments pieces trail)
    (escaped : text.toList.getLast? ≠ some '\\') {mark : Char} {token : Token}
    (isMark : mark = ',' ∧ token = .comma ∨ mark = ')' ∧ token = .closeParen)
    (behind : List Char) :
    Cuts (text.toList ++ mark :: behind) (pieces ++ [⟨trail, token, [mark]⟩]) behind := by
  have quiet : isQuiet mark = true ∧ isBlank mark = false := by
    rcases isMark with ⟨rfl, -⟩ | ⟨rfl, -⟩ <;> decide
  have separable : Separable text.toList pieces (mark :: behind) := by
    refine ⟨fun first head => ?_, parsed.supported, escaped, fun blank => ?_, ?_⟩
    · cases head
      exact quiet.1
    · rw [List.head?_cons, Option.any_some, quiet.2] at blank
      contradiction
    · exact fun last isLast hyphen => absurd hyphen (parsed.source_ne_hyphen last isLast)
  have found : Scan.token (mark :: behind) = some ⟨⟨token, none⟩, [mark], behind⟩ := by
    rcases isMark with ⟨rfl, rfl⟩ | ⟨rfl, rfl⟩ <;> rfl
  have noComment : commentStarts (mark :: behind) = false := by
    rcases isMark with ⟨rfl, -⟩ | ⟨rfl, -⟩ <;> rfl
  have skipped := parsed.comments.comments_eq noComment
  exact (parsed.cuts.in_front_of separable).append (.piece skipped found rfl (.done behind))

end ArgumentPieces

end SelectorLang
