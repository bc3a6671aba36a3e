import SelectorLang.Proofs.Number.Spelling
import SelectorLang.Proofs.RoundTrip.WellFormed
import SelectorLang.Proofs.Tokenizer.Cuts

/-! # What is written, and what it is cut into

A piece of a tree stands in a text in front of a blank, a comma, a closing parenthesis or
a colon. A text is written from some pieces when it is cut into them in front of each of
these (`SelectorLang.Written`). The marks that join the pieces of a tree, names of
functions, strings and numbers are.
-/

namespace SelectorLang

open Scan CodePoint

/-- What may stand behind a piece of a tree. -/
def Boundary (tail : List Char) : Prop :=
  ∀ first ∈ tail.head?, first ∈ [' ', ',', ')', ':']

theorem Boundary.quiet {tail : List Char} (boundary : Boundary tail) : Quiet tail := by
  intro first head
  have among := boundary first head
  simp only [List.mem_cons, List.not_mem_nil, or_false] at among
  rcases among with rfl | rfl | rfl | rfl <;> decide

theorem boundary_nil : Boundary [] :=
  nofun

theorem boundary_cons {first : Char} (among : first ∈ [' ', ',', ')', ':']) (rest : List Char) :
    Boundary (first :: rest) := by
  intro other head
  cases head
  exact among

/-- A text that is cut into some pieces in front of every boundary, with nothing among
them that cannot be read. -/
structure Written (text : List Char) (pieces : List Piece) : Prop where
  /-- The text is cut into the pieces. -/
  cuts : ∀ tail, Boundary tail → Cuts (text ++ tail) pieces tail
  /-- The pieces are supported. -/
  supported : ∀ piece ∈ pieces, piece.token.isSupported = true
  /-- None of them ends the text. -/
  endless : ∀ piece ∈ pieces, piece.token ≠ .endOfText

/-- A text with a first character that is seen. -/
def StartsVisibly (text : List Char) : Prop :=
  ∃ first rest, text = first :: rest ∧ isBlank first = false

theorem StartsVisibly.append {text : List Char} (starts : StartsVisibly text)
    (behind : List Char) : StartsVisibly (text ++ behind) := by
  obtain ⟨first, rest, rfl, visible⟩ := starts
  exact ⟨first, rest ++ behind, rfl, visible⟩

/-- A token in front of which nothing is skipped is a piece. -/
theorem Cuts.one {first : Char} {behind source rest : List Char} {token : Token}
    (found : Scan.token (first :: behind) = some ⟨⟨token, none⟩, source, rest⟩)
    (noComment : first ≠ '/') :
    Cuts (first :: behind) [⟨[], token, source⟩] rest := by
  refine .piece (comments_of_none (commentStarts_of_head ?_)) found rfl (.done rest)
  exact fun slash => noComment (Option.some.inj slash)

namespace Written

theorem nil : Written [] [] where
  cuts tail _ := .done tail
  supported _ member := absurd member List.not_mem_nil
  endless _ member := absurd member List.not_mem_nil

theorem append {text behind : List Char} {pieces others : List Piece}
    (written : Written text pieces) (behindWritten : Written behind others)
    (boundary : ∀ tail, Boundary tail → Boundary (behind ++ tail)) :
    Written (text ++ behind) (pieces ++ others) where
  cuts tail isBoundary := by
    rw [List.append_assoc]
    exact (written.cuts _ (boundary tail isBoundary)).append (behindWritten.cuts tail isBoundary)
  supported piece member :=
    (List.mem_append.mp member).elim (written.supported piece) (behindWritten.supported piece)
  endless piece member :=
    (List.mem_append.mp member).elim (written.endless piece) (behindWritten.endless piece)

/-- A token that is the same in front of every text stands in front of what is written. -/
theorem behindToken {first : Char} {source text : List Char} {token : Token}
    {pieces : List Piece} (written : Written text pieces)
    (found : ∀ tail, Scan.token (first :: (source ++ (text ++ tail))) =
      some ⟨⟨token, none⟩, first :: source, text ++ tail⟩)
    (noComment : first ≠ '/') (supported : token.isSupported = true)
    (endless : token ≠ .endOfText) :
    Written (first :: (source ++ text)) (⟨[], token, first :: source⟩ :: pieces) where
  cuts tail isBoundary := by
    rw [List.cons_append, List.append_assoc]
    exact (Cuts.one (found tail) noComment).append (written.cuts tail isBoundary)
  supported := List.forall_mem_cons.mpr ⟨supported, written.supported⟩
  endless := List.forall_mem_cons.mpr ⟨endless, written.endless⟩

end Written

/-! ## Marks -/

/-- The piece that a comma is. -/
def commaPiece : Piece := ⟨[], .comma, [',']⟩

/-- The piece that a colon is. -/
def colonPiece : Piece := ⟨[], .colon, [':']⟩

/-- The piece that a closing parenthesis is. -/
def closingPiece : Piece := ⟨[], .closeParen, [')']⟩

/-- The piece that a single blank is. -/
def blankPiece : Piece := ⟨[], .whitespace, [' ']⟩

/-- The piece that a sign is. -/
def signPiece (sign : Char) : Piece := ⟨[], .delim sign, [sign]⟩

namespace Written

variable {text : List Char} {pieces : List Piece}

theorem behindComma (written : Written text pieces) :
    Written (',' :: text) (commaPiece :: pieces) :=
  @behindToken ',' [] _ _ _ written (fun _ => rfl) (by decide) rfl nofun

theorem behindColon (written : Written text pieces) :
    Written (':' :: text) (colonPiece :: pieces) :=
  @behindToken ':' [] _ _ _ written (fun _ => rfl) (by decide) rfl nofun

theorem closing : Written [')'] [closingPiece] :=
  @behindToken ')' [] _ _ _ nil (fun _ => rfl) (by decide) rfl nofun

theorem behindBlank (written : Written text pieces) (starts : StartsVisibly text) :
    Written (' ' :: text) (blankPiece :: pieces) := by
  obtain ⟨first, rest, rfl, visible⟩ := starts
  refine @behindToken ' ' [] _ _ _ written (fun tail => ?_) (by decide) rfl nofun
  have found : token (' ' :: first :: (rest ++ tail)) = some (fixed .whitespace
      (((first :: (rest ++ tail)).takeWhile isBlank).length + 1)
      (' ' :: first :: (rest ++ tail))) := rfl
  rw [List.takeWhile_cons_of_neg (by rw [visible]; exact Bool.false_ne_true)] at found
  exact found

/-- The sign of a combinator with a blank behind it. -/
theorem behindSign {sign : Char} {combinator : Combinator} (written : Written (' ' :: text) pieces)
    (spelled : combinator.sign = String.singleton sign) :
    Written (sign :: ' ' :: text) (signPiece sign :: pieces) := by
  have read := Combinator.ofChar?_eq_some_iff.mpr spelled
  unfold Combinator.ofChar? at read
  split at read
  case h_4 => contradiction
  all_goals exact @behindToken _ [] _ _ _ written (fun _ => rfl) (by decide) rfl nofun

end Written

/-! ## Strings -/

/-- Plain characters between quotes are the string. -/
theorem quotedString_of_plain {characters : List Char}
    (plain : ∀ character ∈ characters,
      character ≠ '"' ∧ character ≠ '\\' ∧ character ≠ '\n') (tail : List Char) :
    quotedString '"' (characters ++ '"' :: tail) =
      ⟨⟨characters, .closed⟩, characters ++ ['"'], tail⟩ := by
  induction characters with
  | nil => exact quotedString_of_quote
  | cons first rest ih =>
      obtain ⟨⟨noQuote, noBackslash, noBreak⟩, plain⟩ := List.forall_mem_cons.mp plain
      rw [List.cons_append, quotedString_of_character noQuote noBreak noBackslash, ih plain]
      rfl

/-- The piece that a quoted string is. -/
def stringPiece (value : String) : Piece :=
  ⟨[], .string value, '"' :: (value.toList ++ ['"'])⟩

theorem Written.string {value : String} (plain : IsPlainString value) :
    Written ('"' :: (value.toList ++ ['"'])) [stringPiece value] := by
  have written := @Written.behindToken '"' (value.toList ++ ['"']) [] (.string value) [] .nil
    (fun tail => ?_) (by decide) rfl nofun
  · rwa [List.append_nil] at written
  · have body := quotedString_of_plain plain tail
    have found : token ('"' :: (value.toList ++ '"' :: tail)) =
      some (stringToken '"' (value.toList ++ '"' :: tail)) := rfl
    rw [List.nil_append, List.append_assoc, List.singleton_append, found, stringToken, body]
    simp only [Scan.map, Scan.after, String.ofList_toList, List.singleton_append]

/-! ## Names of functions -/

/-- A name in lower case that calls a function in front of any text. -/
structure IsCallName (name : String) : Prop where
  plain : IsPlainName name.toList
  lowered : name.toLower = name
  noAddress : name ≠ "url"

instance (name : String) : Decidable (IsCallName name) :=
  decidable_of_iff (IsPlainName name.toList ∧ name.toLower = name ∧ name ≠ "url")
    ⟨fun isName => ⟨isName.1, isName.2.1, isName.2.2⟩,
      fun isName => ⟨isName.plain, isName.lowered, isName.noAddress⟩⟩

/-- The piece that the name of a function and its parenthesis are. -/
def callPiece (name : String) : Piece :=
  ⟨[], .function name, name.toList ++ ['(']⟩

section Name

variable {name : String} (isName : IsCallName name)

include isName

theorem IsCallName.token_eq (behind : List Char) :
    token (name.toList ++ '(' :: behind) =
      some ⟨⟨.function name, none⟩, name.toList ++ ['('], behind⟩ := by
  have same : name.toList.map Char.toLower = name.toList := by
    rw [← String.toList_map, ← toLower_eq_map, isName.lowered]
  have call := isName.plain.token_call behind fun isUrl =>
    absurd (String.toList_injective (same ▸ isUrl)) isName.noAddress
  rwa [String.ofList_toList] at call

/-- What is written stands behind the name of a function and its parenthesis. -/
theorem Cuts.behindCall {behind rest : List Char} {pieces : List Piece}
    (cuts : Cuts behind pieces rest) :
    Cuts (name.toList ++ '(' :: behind) (callPiece name :: pieces) rest := by
  have found := isName.token_eq behind
  obtain ⟨first, others, isCons⟩ := List.exists_cons_of_ne_nil isName.plain.ne_nil
  have noComment : first ≠ '/' := by
    rintro rfl
    have continues := isName.plain.continues '/' (by rw [isCons]; exact List.mem_cons_self)
    contradiction
  unfold callPiece
  rw [isCons] at found ⊢
  exact (Cuts.one found noComment).append cuts

theorem Written.behindCall {text : List Char} {pieces : List Piece}
    (written : Written text pieces) :
    Written (name.toList ++ '(' :: text) (callPiece name :: pieces) where
  cuts tail isBoundary := by
    rw [List.append_assoc, List.cons_append]
    exact (written.cuts tail isBoundary).behindCall isName
  supported := List.forall_mem_cons.mpr ⟨rfl, written.supported⟩
  endless := List.forall_mem_cons.mpr ⟨nofun, written.endless⟩

end Name

theorem startsName_of_startsLowered {character : Char} (starts : startsLowered character = true) :
    startsName character = true := by
  simp only [startsLowered, startsName, isAlpha_eq, Bool.or_eq_true] at *
  rcases starts with (lower | line) | beyond
  · exact Or.inl (Or.inl (Or.inr lower))
  · exact Or.inl (Or.inr line)
  · exact Or.inr beyond

theorem isUpper_of_startsLowered {character : Char} (starts : startsLowered character = true) :
    character.isUpper = false := by
  cases upper : character.isUpper with
  | false => rfl
  | true =>
      simp only [startsLowered, isUpper_eq, isLower_eq, Bool.or_eq_true, Bool.and_eq_true,
        decide_eq_true_eq, beq_iff_eq, UInt32.le_iff_toNat_le, Char.reduceVal,
        UInt32.reduceToNat, Char.toNat] at starts upper
      rcases starts with (lower | rfl) | beyond
      · omega
      · contradiction
      · omega

/-- The names of engine functions in a tree are called in front of any text. -/
theorem IsFunctionName.isCallName {name : String} (isName : IsFunctionName name) :
    IsCallName name := by
  obtain ⟨⟨first, rest, isCons, starts, others⟩, -, noAddress⟩ := isName
  have startsFirst := startsName_of_startsLowered starts
  have lower : ∀ character ∈ first :: rest, character.toLower = character := by
    refine List.forall_mem_cons.mpr
      ⟨toLower_of_not_isUpper (isUpper_of_startsLowered starts), fun character member => ?_⟩
    have among := others character member
    rw [Bool.or_eq_true, Bool.or_eq_true, beq_iff_eq] at among
    apply toLower_of_not_isUpper
    rcases among with (lowered | digit) | rfl
    · exact isUpper_of_startsLowered lowered
    · exact isUpper_of_isDigit digit
    · rfl
  refine ⟨⟨?_, ?_⟩, ?_, noAddress⟩
  · rw [isCons]
    refine List.forall_mem_cons.mpr
      ⟨continuesName_of_startsName startsFirst, fun character member => ?_⟩
    have among := others character member
    simp only [continuesName, Bool.or_eq_true] at among ⊢
    exact among.imp_left (Or.imp_left startsName_of_startsLowered)
  · rw [isCons]
    exact Or.inl startsFirst
  · apply String.toList_injective
    rw [toLower_eq_map, String.toList_map, isCons, List.map_congr_left lower, List.map_id']

/-! ## Numbers -/

namespace Spelling

variable (spelling : Spelling)

/-- The piece that a spelled number is. -/
def piece (kind : NumberKind) : Piece :=
  ⟨[], .number spelling.literal.value kind, spelling.text⟩

theorem continues_or_point {character : Char} (member : character ∈ spelling.text) :
    continuesName character = true ∨ character = '.' := by
  have digit {character : Char} (isDigit : character.isDigit = true) :
      continuesName character = true := by
    rw [continuesName, isDigit, Bool.or_true, Bool.true_or]
  rcases List.mem_append.mp member with inSign | inDigits
  · left
    rw [sign] at inSign
    split at inSign
    · cases List.mem_singleton.mp inSign
      rfl
    · exact absurd inSign List.not_mem_nil
  rcases List.mem_append.mp inDigits with inWhole | behindPoint
  · exact Or.inl (digit (spelling.wholeDigits character inWhole))
  · have areDigits := spelling.fractionDigits
    generalize spelling.fraction = fraction at behindPoint areDigits
    cases fraction with
    | nil => exact absurd behindPoint List.not_mem_nil
    | cons first rest =>
        rcases List.mem_cons.mp behindPoint with point | inFraction
        · exact Or.inr point
        · exact Or.inl (digit (areDigits character inFraction))

theorem separable {kind : NumberKind} {tail : List Char} (boundary : Boundary tail) :
    Separable spelling.text [spelling.piece kind] tail where
  quiet := boundary.quiet
  supported := by
    intro piece member
    cases List.mem_singleton.mp member
    rfl
  escaped last := by
    have member := List.mem_of_getLast? last
    rcases spelling.continues_or_point member with continues | point
    · contradiction
    · contradiction
  blank _ := by
    constructor
    · refine endsOpen_of_noBackslash fun member => ?_
      rcases spelling.continues_or_point member with continues | point
      · contradiction
      · contradiction
    · intro piece last
      cases last
      nofun
  hyphen piece last isHyphen := by
    cases last
    have isHyphen : spelling.text = ['-'] := isHyphen
    obtain ⟨first, rest, isCons, digit⟩ := spelling.exists_first_digit
    have member : first ∈ spelling.text := by
      rw [text, isCons]
      exact List.mem_append_right _ (List.mem_append_left _ List.mem_cons_self)
    rw [isHyphen, List.mem_singleton] at member
    subst member
    contradiction

theorem written : ∃ kind, Written spelling.text [spelling.piece kind] := by
  obtain ⟨kind, found⟩ := spelling.token_text
  refine ⟨kind, ⟨fun tail boundary => ?_, ?_, ?_⟩⟩
  · obtain ⟨first, rest, isCons, continues⟩ := spelling.exists_text_eq_cons
    have noComment : first ≠ '/' := by
      rintro rfl
      contradiction
    rw [isCons] at found
    have cuts := Cuts.one found noComment
    rw [← isCons] at cuts
    exact cuts.in_front_of (spelling.separable boundary)
  · intro piece member
    cases List.mem_singleton.mp member
    rfl
  · intro piece member
    cases List.mem_singleton.mp member
    nofun

end Spelling

end SelectorLang
