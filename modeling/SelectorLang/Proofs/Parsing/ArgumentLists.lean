import SelectorLang.Proofs.Parsing.Pieces
import SelectorLang.Tree.Identity

/-! # Argument lists within other texts

An argument list can be parsed on its own: in front of a comma its arguments are those of
the whole, and what is wrong behind the comma is wrong with the whole in the same way, only
further on (`SelectorLang.parseArguments_append_comma`). Between the parentheses of an engine
function it gives the arguments of the function
(`SelectorLang.parseSelector_function`). Only what the end of a text cuts off or leaves to be
escaped could join with what stands behind it.
-/

namespace SelectorLang

open Scan Grammar

/-! ## Joined by a comma -/

/-- Lexemes behind an argument list and a comma are read as on their own. -/
theorem readArguments_append_comma {selector : String} {front : List Lexeme} {comma : Lexeme}
    {arguments : List Argument} (derived : Derives front (.arguments arguments))
    (isComma : comma.token = .comma)
    (supported : ∀ lexeme ∈ front, lexeme.token.isSupported = true)
    (endless : ∀ lexeme ∈ front, lexeme.token ≠ .endOfText) (lexemes : List Lexeme) :
    readArguments selector (front ++ comma :: lexemes) =
      (readArguments selector lexemes).map (arguments ++ ·) := by
  have reads := read_eq_ok_iff_derives.mpr derived
  have refused : (front ++ comma :: lexemes).find? (fun lexeme => !lexeme.token.isSupported) =
      lexemes.find? fun lexeme => !lexeme.token.isSupported := by
    have none : front.find? (fun lexeme => !lexeme.token.isSupported) = none := by
      rw [List.find?_eq_none]
      intro lexeme member
      rw [supported lexeme member]
      exact Bool.false_ne_true
    rw [List.find?_append, none, Option.none_or, List.find?_cons, isComma]
    rfl
  have symbols : (beforeEnd (front ++ comma :: lexemes)).map Lexeme.symbol =
      front.map Lexeme.symbol ++ comma.symbol :: (beforeEnd lexemes).map Lexeme.symbol := by
    have behind : beforeEnd (comma :: lexemes) = comma :: beforeEnd lexemes := by
      rw [beforeEnd, List.takeWhile_cons, isComma]
      rfl
    rw [beforeEnd_append endless, behind, List.map_append, List.map_cons]
  have letter : comma.symbol.letter = .comma := by rw [Lexeme.symbol, isComma, Token.letter]
  unfold readArguments checkSupported
  rw [refused, symbols, State.read_append_comma reads letter]
  cases lexemes.find? fun lexeme => !lexeme.token.isSupported with
  | some lexeme => rfl
  | none => cases State.start.read ((beforeEnd lexemes).map Lexeme.symbol) <;> rfl

/-- No failure of reading tells where it is. -/
theorem shift_cause_of_readArguments {selector : String} {lexemes : List Lexeme}
    {failure : Failure} (fails : readArguments selector lexemes = .error failure)
    (distance : Nat) : failure.cause.shift distance = failure.cause := by
  unfold readArguments checkSupported at fails
  cases found : lexemes.find? (fun lexeme => !lexeme.token.isSupported) with
  | some lexeme =>
      rw [found] at fails
      cases fails
      rfl
  | none =>
      rw [found] at fails
      dsimp only at fails
      cases reads : State.start.read ((beforeEnd lexemes).map Lexeme.symbol) with
      | error unexpected =>
          rw [reads] at fails
          cases fails
          cases unexpected <;> rfl
      | ok arguments =>
          rw [reads] at fails
          contradiction

/-- **A comma joins argument lists.** Behind an argument list that can be parsed and a
comma, another one adds its arguments, and what is no argument list fails as it does alone,
only further on. -/
theorem parseArguments_append_comma {front behind : String} {arguments : List Argument}
    (parses : parseArguments front = .ok arguments)
    (escaped : front.toList.getLast? ≠ some '\\') (whole : tokenizeWarnings front = []) :
    parseArguments (front ++ "," ++ behind) =
      match parseArguments behind with
      | .ok more => .ok (arguments ++ more)
      | .error failure =>
        .error ⟨failure.cause.shift (front.length + 1), front ++ "," ++ behind⟩ := by
  obtain ⟨pieces, trail, parsed⟩ := exists_argumentPieces parses whole
  have isText : (front ++ "," ++ behind).toList = front.toList ++ ',' :: behind.toList := by
    rw [String.toList_append, String.toList_append, List.append_assoc]
    rfl
  have cuts := parsed.cuts_in_front_of escaped (Or.inl ⟨rfl, rfl⟩) behind.toList
  have length : extent (pieces ++ [⟨trail, .comma, [',']⟩]) = front.length + 1 := by
    have total := cuts.length_eq
    rw [List.length_append, List.length_cons, String.length_toList] at total
    omega
  rw [← isText] at cuts
  have cut := tokenize_append_of_cuts cuts
  rw [length, place_append] at cut
  unfold parseArguments lexemesOf
  rw [cut]
  cases tokenize behind with
  | error error => rfl
  | ok lexemes =>
      have supported := (forall_mem_place (·.isSupported = true) 0).mpr parsed.supported
      have endless : ∀ lexeme ∈ place 0 pieces, lexeme.token ≠ .endOfText :=
        fun lexeme member => (parsed.cuts.wide 0 lexeme member).1
      have joined := @readArguments_append_comma (front ++ "," ++ behind) _
        ⟨.comma, ",", 0 + extent pieces + trail.length⟩ arguments parsed.derived rfl supported
        endless (lexemes.map (.shift (front.length + 1)))
      have further := @readArguments_map (.shift (front.length + 1)) (fun _ => ⟨rfl, rfl⟩)
        behind (front ++ "," ++ behind) lexemes
      have whole : place 0 pieces ++ place (0 + extent pieces) [⟨trail, .comma, [',']⟩] ++
            lexemes.map (.shift (front.length + 1)) =
          place 0 pieces ++ ⟨.comma, ",", 0 + extent pieces + trail.length⟩ ::
            lexemes.map (.shift (front.length + 1)) := by
        rw [List.append_assoc]
        rfl
      dsimp only
      rw [whole, joined, further]
      cases reads : readArguments behind lexemes with
      | error failure =>
          dsimp only [Except.mapError, Except.map]
          rw [shift_cause_of_readArguments reads]
      | ok more => rfl

/-- The first of two lists is read alike, whether the second one is read or cannot be
cut. -/
theorem listsOfTwo_parsed :
    parseArguments "a/**/,\"b\"" =
        .ok [.selector ⟨[⟨⟨some "a", []⟩, .descendant⟩]⟩, .string "b"] ∧
      parseArguments "a/**/,b/*" =
        .error ⟨.lexical (.unterminatedComment 7), "a/**/,b/*"⟩ := by
  have parses : parseArguments "a/**/" = .ok [.selector ⟨[⟨⟨some "a", []⟩, .descendant⟩]⟩] := by
    decide +kernel
  have quiet : tokenizeWarnings "a/**/" = [] := by decide +kernel
  have isString : parseArguments "\"b\"" = .ok [.string "b"] := by decide +kernel
  have fails : parseArguments "b/*" = .error ⟨.lexical (.unterminatedComment 1), "b/*"⟩ := by
    decide +kernel
  have joined := @parseArguments_append_comma "a/**/" "\"b\"" _ parses (by decide) quiet
  have failed := @parseArguments_append_comma "a/**/" "b/*" _ parses (by decide) quiet
  rw [isString] at joined
  rw [fails] at failed
  exact ⟨joined, failed⟩

/-! ## Inside a function -/

/-- A function alone is an argument. -/
theorem derives_function {colon call closing : Lexeme} {name : String} {inner : List Lexeme}
    {arguments : List Argument} (lowered : name.toLower = name)
    (notNative : isNativeFunction name = false) (colonToken : colon.token = .colon)
    (token : call.token = .function name) (derived : Derives inner (.arguments arguments))
    (closes : closing.token = .closeParen) :
    Derives (colon :: call :: inner ++ [closing])
      (.arguments [.selector ⟨[⟨⟨none, [⟨name, arguments⟩]⟩, .descendant⟩]⟩]) := by
  have engine : name.toLower ∉ nativeFunctions := by
    rw [isNativeFunction, List.contains_eq_mem] at notNative
    exact of_decide_eq_false notNative
  have item := Derives.function colonToken token engine derived closes
  rw [lowered] at item
  have simple := Derives.engine (.oneItem item) (List.cons_ne_nil _ _)
  have argument := Derives.selector Blanks.nil (.complex .noParts simple) Blanks.nil
  rw [List.nil_append, List.nil_append, List.append_nil] at argument
  exact .oneArgument argument

/-- The arguments of an engine function are cut as alone, and derive the function. -/
theorem ArgumentPieces.function {text name : String} {arguments : List Argument}
    {pieces : List Piece} {trail : List Char}
    (parsed : ArgumentPieces text arguments pieces trail) (isName : IsFunctionName name)
    (escaped : text.toList.getLast? ≠ some '\\') :
    ArgumentPieces (":" ++ name ++ "(" ++ text ++ ")")
      [.selector ⟨[⟨⟨none, [⟨name, arguments⟩]⟩, .descendant⟩]⟩]
      (colonPiece :: callPiece name :: (pieces ++ [⟨trail, .closeParen, [')']⟩])) [] where
  cuts := by
    have isText : (":" ++ name ++ "(" ++ text ++ ")").toList =
        ':' :: (name.toList ++ '(' :: (text.toList ++ [')'])) := by
      simp only [String.toList_append, List.append_assoc]
      rfl
    have inside := parsed.cuts_in_front_of escaped (Or.inr ⟨rfl, rfl⟩) []
    have colon : Cuts (':' :: (name.toList ++ '(' :: (text.toList ++ [')']))) [colonPiece]
        (name.toList ++ '(' :: (text.toList ++ [')'])) := .one rfl (by decide)
    rw [isText]
    exact colon.append (inside.behindCall isName.isCallName)
  comments := areComments_nil
  supported := by
    refine List.forall_mem_cons.mpr ⟨rfl, List.forall_mem_cons.mpr ⟨rfl, ?_⟩⟩
    exact List.forall_mem_append.mpr ⟨parsed.supported, List.forall_mem_singleton.mpr rfl⟩
  derived := by
    rw [place, place, place_append]
    exact derives_function isName.isCallName.lowered isName.2.1 rfl rfl
      (derives_place_congr parsed.derived _) rfl

/-- **The arguments of an engine function are those of their text alone.** -/
theorem parseSelector_function {text name : String} {arguments : List Argument}
    (parses : parseArguments text = .ok arguments)
    (escaped : text.toList.getLast? ≠ some '\\') (whole : tokenizeWarnings text = [])
    (isName : IsFunctionName name) :
    parseSelector (":" ++ name ++ "(" ++ text ++ ")") =
      .ok ⟨[⟨[⟨⟨none, [⟨name, arguments⟩]⟩, .descendant⟩]⟩]⟩ := by
  obtain ⟨pieces, trail, parsed⟩ := exists_argumentPieces parses whole
  obtain ⟨lexemes, cut, reads⟩ := (parsed.function isName escaped).readArguments_eq
  rw [parseSelector, cut]
  dsimp only
  rw [readSelectorList, reads]
  rfl

/-- A nested function, with blanks and a comment at the end. -/
theorem nestedFunction_parsed :
    parseSelector ":x(a, :y(\"b\") /**/)" =
      .ok ⟨[⟨[⟨⟨none, [⟨"x", [.selector ⟨[⟨⟨some "a", []⟩, .descendant⟩]⟩,
        .selector ⟨[⟨⟨none, [⟨"y", [.string "b"]⟩]⟩, .descendant⟩]⟩]⟩]⟩, .descendant⟩]⟩]⟩ := by
  have parses : parseArguments "a, :y(\"b\") /**/" =
      .ok [.selector ⟨[⟨⟨some "a", []⟩, .descendant⟩]⟩,
        .selector ⟨[⟨⟨none, [⟨"y", [.string "b"]⟩]⟩, .descendant⟩]⟩] := by
    decide +kernel
  have quiet : tokenizeWarnings "a, :y(\"b\") /**/" = [] := by decide +kernel
  have nested := parseSelector_function parses (by decide) quiet isFunctionName_x
  exact nested

end SelectorLang
