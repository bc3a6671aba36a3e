import SelectorLang.Proofs.RoundTrip.Reading
import SelectorLang.Proofs.Tokenizer.Tails

/-! # Lexemes with nothing between them

Lexemes stand in a text when it is cut into them in front of a rest, with no comments
between them (`SelectorLang.Stands`). The lexemes behind the first one of a row do when each
starts where the one in front of it stops (`SelectorLang.AreCut.exists_stands`), wherever the
row was cut from.
-/

namespace SelectorLang

open Scan CodePoint Grammar

/-! ## Lexemes of some text -/

/-- The piece that a lexeme is with nothing in front of it. -/
def Lexeme.piece (lexeme : Lexeme) : Piece :=
  ⟨[], lexeme.token, lexeme.source.toList⟩

theorem Lexeme.symbol_piece (lexeme : Lexeme) : lexeme.piece.symbol = lexeme.symbol := by
  rw [Piece.symbol, piece, String.ofList_toList]
  rfl

/-- A lexeme that is the first token of some text with no backslash at its end. -/
def Lexeme.IsFirst (lexeme : Lexeme) : Prop :=
  ∃ first behind scan, Scan.token (first :: behind) = some scan ∧
    scan.value.token = lexeme.token ∧ scan.source = lexeme.source.toList ∧
      (first :: behind).getLast? ≠ some '\\'

/-- Lexemes that some text with no backslash at its end is cut into, with comments between
them or not. -/
def AreCut (lexemes : List Lexeme) : Prop :=
  ∃ text pieces rest offset, Cuts text pieces rest ∧ place offset pieces = lexemes ∧
    text.getLast? ≠ some '\\'

namespace Cuts

variable {text rest : List Char} {pieces : List Piece}

theorem exists_of_cons {piece : Piece} (cuts : Cuts text (piece :: pieces) rest) :
    ∃ first behind scan, comments text = ⟨true, piece.gap, first :: behind⟩ ∧
      token (first :: behind) = some scan ∧ scan.value = ⟨piece.token, none⟩ ∧
      scan.source = piece.source ∧ Cuts scan.rest pieces rest := by
  cases cuts with
  | @piece _ gap behind _ first scan _ skipped found whole others =>
      refine ⟨first, behind, scan, skipped, found, ?_, rfl, others⟩
      rw [← whole]

theorem split {front : List Piece} (cuts : Cuts text (front ++ pieces) rest) :
    ∃ middle, Cuts text front middle ∧ Cuts middle pieces rest := by
  induction front generalizing text with
  | nil => exact ⟨text, .done text, cuts⟩
  | cons piece front ih =>
      cases cuts with
      | piece skipped found whole others =>
          obtain ⟨middle, cutsFront, cutsBehind⟩ := ih others
          exact ⟨middle, .piece skipped found whole cutsFront, cutsBehind⟩

/-- Lexemes that a text is cut into with nothing between them make it up. -/
theorem eq_sources {lexemes : List Lexeme} (cuts : Cuts text (lexemes.map Lexeme.piece) rest) :
    text = (sources lexemes).toList ++ rest := by
  induction lexemes generalizing text with
  | nil =>
      cases cuts
      rw [sources_nil]
      rfl
  | cons lexeme lexemes ih =>
      obtain ⟨first, behind, scan, skipped, found, -, source, others⟩ := cuts.exists_of_cons
      have covers := comments_covers text
      have tokenCovers : scan.source ++ scan.rest = first :: behind := token_covers found
      rw [skipped] at covers
      have whole : first :: behind = text := covers
      rw [← whole, ← tokenCovers, source, ih others, sources_cons, String.toList_append,
        List.append_assoc]
      rfl

end Cuts

theorem exists_of_place_eq_append {offset : Nat} {pieces : List Piece}
    {front lexemes : List Lexeme} (placed : place offset pieces = front ++ lexemes) :
    ∃ before behind middle, pieces = before ++ behind ∧ place offset before = front ∧
      place middle behind = lexemes := by
  induction front generalizing offset pieces with
  | nil => exact ⟨[], pieces, offset, rfl, rfl, placed⟩
  | cons lexeme front ih =>
      cases pieces with
      | nil => contradiction
      | cons piece pieces =>
          rw [place, List.cons_append] at placed
          obtain ⟨same, placed⟩ := List.cons.inj placed
          obtain ⟨before, behind, middle, rfl, isFront, isBehind⟩ := ih placed
          exact ⟨piece :: before, behind, middle, rfl, by rw [place, same, isFront], isBehind⟩

namespace AreCut

variable {lexemes : List Lexeme}

/-- What stands among lexemes of a text is lexemes of a text. -/
theorem within {part : List Lexeme} (cut : AreCut lexemes) (inside : part <:+: lexemes) :
    AreCut part := by
  obtain ⟨text, pieces, rest, offset, cuts, rfl, escaped⟩ := cut
  obtain ⟨front, behind, whole⟩ := inside
  obtain ⟨others, _, _, rfl, isFront, -⟩ := exists_of_place_eq_append whole.symm
  obtain ⟨_, inner, middle, rfl, -, isPart⟩ := exists_of_place_eq_append isFront
  obtain ⟨behindPart, cuts, -⟩ := Cuts.split cuts
  obtain ⟨start, cutsFront, cuts⟩ := Cuts.split cuts
  obtain ⟨taken, isText⟩ := cutsFront.exists_front
  rw [isText] at escaped
  exact ⟨start, inner, behindPart, middle, cuts, isPart, getLast?_append_ne escaped⟩

theorem isFirst {lexeme : Lexeme} (cut : AreCut lexemes) (member : lexeme ∈ lexemes) :
    lexeme.IsFirst := by
  obtain ⟨front, behind, rfl⟩ := List.append_of_mem member
  obtain ⟨text, pieces, rest, offset, cuts, placed, escaped⟩ : AreCut [lexeme] :=
    cut.within ⟨front, behind, by rw [List.append_assoc]; rfl⟩
  cases pieces with
  | nil => contradiction
  | cons piece pieces =>
      obtain ⟨first, behind, scan, skipped, found, value, source, -⟩ := cuts.exists_of_cons
      obtain ⟨rfl, -⟩ := List.cons.inj placed
      have covers : piece.gap ++ first :: behind = text := by
        have covers := comments_covers text
        rwa [skipped] at covers
      rw [← covers] at escaped
      exact ⟨first, behind, scan, found, congrArg Recognized.token value,
        source.trans String.toList_ofList.symm, getLast?_append_ne escaped⟩

end AreCut

/-! ## Nothing between lexemes -/

/-- A text is cut into lexemes in front of a rest, with nothing between them. -/
def Stands (lexemes : List Lexeme) (rest : List Char) : Prop :=
  Cuts ((sources lexemes).toList ++ rest) (lexemes.map Lexeme.piece) rest

/-- The front of a row of lexemes stands in front of what is behind it. -/
theorem Stands.front {front lexemes : List Lexeme} {rest : List Char}
    (stands : Stands (front ++ lexemes) rest) :
    Stands front ((sources lexemes).toList ++ rest) := by
  unfold Stands at stands ⊢
  rw [List.map_append, sources_append, String.toList_append, List.append_assoc] at stands
  obtain ⟨middle, cutsFront, cutsBehind⟩ := Cuts.split stands
  have same := cutsBehind.eq_sources
  subst same
  exact cutsFront

theorem Stands.behind {front lexemes : List Lexeme} {rest : List Char}
    (stands : Stands (front ++ lexemes) rest) : Stands lexemes rest := by
  unfold Stands at stands
  rw [List.map_append] at stands
  obtain ⟨middle, -, cutsBehind⟩ := Cuts.split stands
  have same := cutsBehind.eq_sources
  subst same
  exact cutsBehind

/-- Each lexeme of a row starts where the one in front of it stops. -/
def Gapless (lexemes : List Lexeme) : Prop :=
  ∀ left right, [left, right] <:+: lexemes → right.offset = left.stop

theorem map_piece_of_gapless {first : Lexeme} {offset : Nat} {pieces : List Piece}
    (stop : first.stop = offset) (gapless : Gapless (first :: place offset pieces)) :
    (place offset pieces).map Lexeme.piece = pieces := by
  induction pieces generalizing first offset with
  | nil => rfl
  | cons piece pieces ih =>
      have starts := gapless first ⟨piece.token, String.ofList piece.source,
        offset + piece.gap.length⟩ ⟨[], _, rfl⟩
      rw [stop] at starts
      have starts : offset + piece.gap.length = offset := starts
      have none : piece.gap = [] := List.eq_nil_of_length_eq_zero (by omega)
      have stop : (Lexeme.mk piece.token (String.ofList piece.source)
          (offset + piece.gap.length)).stop = offset + piece.gap.length + piece.source.length := by
        rw [Lexeme.stop, String.length_ofList]
      rw [place, List.map_cons, ih stop fun left right inside =>
        gapless left right (List.infix_cons inside), Lexeme.piece, String.toList_ofList, ← none]

/-- Behind the first one of lexemes with nothing between them, the others stand. -/
theorem AreCut.exists_stands {first : Lexeme} {lexemes : List Lexeme}
    (cut : AreCut (first :: lexemes)) (gapless : Gapless (first :: lexemes)) :
    ∃ rest, Stands lexemes rest := by
  obtain ⟨text, pieces, rest, offset, cuts, placed, -⟩ := cut
  cases pieces with
  | nil => contradiction
  | cons piece pieces =>
      obtain ⟨_, _, scan, -, -, -, -, others⟩ := cuts.exists_of_cons
      rw [place] at placed
      obtain ⟨same, rfl⟩ := List.cons.inj placed
      have stop : first.stop = offset + piece.gap.length + piece.source.length := by
        rw [← same, Lexeme.stop, String.length_ofList]
      have isPieces := map_piece_of_gapless stop gapless
      refine ⟨rest, ?_⟩
      unfold Stands
      rw [isPieces]
      have isRest := (isPieces.symm ▸ others).eq_sources
      rwa [← isRest]

end SelectorLang
