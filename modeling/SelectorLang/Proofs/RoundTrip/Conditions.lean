import SelectorLang.Proofs.RoundTrip.Gapless
import SelectorLang.Proofs.Scan.NamesInFront

/-! # Conditions written in a row

A native text stands in a text not only in front of a boundary, but also in front of the mark
that another condition starts with, and some in front of a name (`SelectorLang.MayFollow`,
`SelectorLang.NativePieces`). Such texts can be written one behind the other
(`SelectorLang.NativePieces.append`), and each kind of native condition is one.
-/

namespace SelectorLang

open Scan CodePoint Grammar

/-! ## Behind a condition -/

/-- What may stand behind a condition: a boundary, or the mark of another condition. -/
def EndsCondition (tail : List Char) : Prop :=
  ∀ first ∈ tail.head?, first ∈ [' ', ',', ')', ':', '.', '#', '[', '*']

theorem endsCondition_cons {first : Char}
    (among : first ∈ [' ', ',', ')', ':', '.', '#', '[', '*']) (rest : List Char) :
    EndsCondition (first :: rest) := by
  intro other head
  cases head
  exact among

theorem Boundary.endsCondition {tail : List Char} (boundary : Boundary tail) :
    EndsCondition tail := by
  intro first head
  have among := boundary first head
  simp only [List.mem_cons, List.not_mem_nil, or_false] at among ⊢
  rcases among with rfl | rfl | rfl | rfl <;> decide

namespace EndsCondition

variable {tail : List Char} (ends : EndsCondition tail)

include ends

theorem endsName : EndsName tail := by
  intro first head
  have among := ends first head
  simp only [List.mem_cons, List.not_mem_nil, or_false] at among
  rcases among with rfl | rfl | rfl | rfl | rfl | rfl | rfl | rfl <;> decide

theorem head_ne {character : Char}
    (outside : character ∉ [' ', ',', ')', ':', '.', '#', '[', '*']) :
    tail.head? ≠ some character :=
  fun head => outside (ends character head)

theorem escapes_eq : escapes tail = true :=
  bne_iff_ne.mpr (ends.head_ne (by decide))

end EndsCondition

/-- What may stand behind a native text: the end of a condition, where no escape takes a blank
of it, or, behind a mark that ends a condition, whatever does not go on with that mark. -/
def MayFollow (text tail : List Char) : Prop :=
  EndsCondition tail ∧ (tail.head?.any isBlank = true → endsOpen text = false) ∨
    takesName text = true ∧ tail.head? ≠ some '='

namespace MayFollow

variable {front text tail : List Char}

/-- What may stand behind a text may stand behind what it ends with. -/
theorem behind (follows : MayFollow (front ++ text) tail) (nonempty : text ≠ []) :
    MayFollow text tail :=
  follows.imp (And.imp_right fun closed isBlank => endsOpen_of_append (closed isBlank))
    (And.imp_left fun takes => takesName_of_append takes nonempty)

theorem head_ne (follows : MayFollow text tail) : tail.head? ≠ some '=' :=
  follows.elim (fun ends => ends.1.head_ne (by decide)) And.right

/-- Behind a hyphen and a mark, no name starts. -/
theorem getLast?_ne {inner : List Char} {mark : Char}
    (follows : MayFollow (front ++ (inner ++ [mark])) tail)
    (continues : continuesHyphen tail = true) : inner.getLast? ≠ some '-' := by
  intro hyphen
  obtain ⟨before, rfl⟩ := List.getLast?_eq_some_iff.mp hyphen
  rcases follows with ⟨ends, -⟩ | ⟨takes, -⟩
  · rw [ends.endsName.continuesHyphen_eq] at continues
    contradiction
  · rw [List.append_assoc, List.singleton_append, ← List.append_assoc] at takes
    have takes := takesName_of_append takes (List.cons_ne_nil _ _)
    rw [takesName, bne_self_eq_false, Bool.and_false, Bool.false_and] at takes
    contradiction

end MayFollow

/-! ## Words -/

/-- A text that is one token in front of all that may follow it. -/
structure IsWord (text : List Char) (token : Token) : Prop where
  found : ∀ tail, MayFollow text tail →
    Scan.token (text ++ tail) = some ⟨⟨token, none⟩, text, tail⟩
  starts : ∃ first rest, text = first :: rest ∧ isBlank first = false ∧
    first.isDigit = false ∧ first ≠ '/' ∧ first ≠ '='

namespace IsWord

variable {text tail : List Char} {token : Token} (word : IsWord text token)

include word

theorem ne_nil : text ≠ [] := by
  obtain ⟨first, rest, rfl, -⟩ := word.starts
  exact List.cons_ne_nil _ _

theorem cuts (follows : MayFollow text tail) : Cuts (text ++ tail) [⟨[], token, text⟩] tail := by
  have found := word.found tail follows
  obtain ⟨first, rest, rfl, -, -, noComment, -⟩ := word.starts
  exact .one found noComment

end IsWord

/-- An asterisk is a word. -/
theorem isWord_asterisk : IsWord ['*'] (.delim '*') where
  found tail follows := by
    have announced : token ('*' :: tail) = some (symbolToken '*' tail) := rfl
    have noOperator := follows.head_ne
    rw [List.singleton_append, announced]
    unfold symbolToken
    split
    · exact absurd ‹_› noOperator
    · contradiction
    · rfl
  starts := ⟨'*', [], rfl, by decide⟩

/-- Whether a name in a lexeme is no hyphen alone. That one is a name because of what stands
behind it. -/
def Lexeme.isSteady (lexeme : Lexeme) : Bool :=
  match lexeme.token with
  | .ident _ => lexeme.source != "-"
  | _ => true

namespace Lexeme.IsFirst

variable {lexeme : Lexeme} (isFirst : lexeme.IsFirst)

include isFirst

/-- A steady name is a word. -/
theorem isWord_of_ident {name : String} (isIdent : lexeme.token = .ident name)
    (steady : lexeme.isSteady = true) : IsWord lexeme.source.toList (.ident name) := by
  obtain ⟨first, behind, scan, found, isToken, source, escaped⟩ := isFirst
  rw [isSteady, isIdent, bne_iff_ne] at steady
  rw [← source]
  have noHyphen : scan.source ≠ ['-'] := fun hyphen =>
    steady (String.toList_injective (source.symm.trans hyphen))
  obtain ⟨⟨rest, isCons⟩, starts, noName⟩ := starts_of_ident found (isToken.trans isIdent)
  refine ⟨fun tail follows => ?_, ⟨first, rest, isCons, ?_⟩⟩
  · obtain ⟨ends, closed⟩ := follows.resolve_right fun behind => by
      rw [noName] at behind
      exact Bool.false_ne_true behind.1
    exact token_ident_in_front ends.endsName ends.escapes_eq found (isToken.trans isIdent) noHyphen
      escaped (ends.head_ne (by decide)) closed
  · rcases starts with starts | rfl | rfl
    · have continues := continuesName_of_startsName starts
      refine ⟨isBlank_of_continuesName continues, isDigit_of_startsName starts, ?_, ?_⟩
      · rintro rfl
        contradiction
      · rintro rfl
        contradiction
    · decide
    · decide

/-- A hash is a word that starts with a mark. -/
theorem isWord_of_hash {value : String} {kind : HashKind}
    (isHash : lexeme.token = .hash value kind) :
    IsWord lexeme.source.toList (.hash value kind) ∧ EndsCondition lexeme.source.toList := by
  obtain ⟨first, behind, scan, found, isToken, source, escaped⟩ := isFirst
  rw [← source]
  obtain ⟨⟨rest, isCons⟩, noName⟩ := starts_of_hash found (isToken.trans isHash)
  refine ⟨⟨fun tail follows => ?_, ⟨'#', rest, isCons, by decide⟩⟩,
    by rw [isCons]; exact endsCondition_cons (by decide) rest⟩
  obtain ⟨ends, closed⟩ := follows.resolve_right fun behind => by
    rw [noName] at behind
    exact Bool.false_ne_true behind.1
  exact token_hash_in_front ends.endsName ends.escapes_eq found (isToken.trans isHash) escaped
    closed

/-- A mark is written with its character. -/
theorem mark {character : Char} {token : Token} (isToken : lexeme.token = token)
    (isMark : punctuation? character = some token) : lexeme.source.toList = [character] := by
  obtain ⟨first, behind, scan, found, scanned, source, -⟩ := isFirst
  rw [← source]
  have single := family_of_punctuation isMark
  rw [← isToken, ← scanned] at single isMark
  obtain ⟨isSource, isDelim | isFirst⟩ := source_of_single found single
  · rw [isDelim] at isMark
    unfold punctuation? at isMark
    split at isMark <;> cases isMark
  · rw [isSource, eq_of_punctuation isFirst isMark]

/-- A delimiter is written with its character. -/
theorem delim {character : Char} (isDelim : lexeme.token = .delim character) :
    lexeme.source.toList = [character] := by
  obtain ⟨first, behind, scan, found, scanned, source, -⟩ := isFirst
  rw [← source]
  rw [isDelim] at scanned
  obtain ⟨isSource, isFirst | isMark⟩ := source_of_single found (by rw [scanned]; rfl)
  · cases scanned.symm.trans isFirst
    exact isSource
  · rw [scanned] at isMark
    unfold punctuation? at isMark
    split at isMark <;> cases isMark

end Lexeme.IsFirst

/-! ## Native texts -/

/-- A native text that stands as some pieces in front of all that may follow it, and is read
from them as conditions. -/
structure NativePieces (text : String) (pieces : List Piece) : Prop where
  cuts : ∀ tail, MayFollow text.toList tail → Cuts (text.toList ++ tail) pieces tail
  supported : ∀ piece ∈ pieces, piece.token.isSupported = true
  starts : ∃ first rest, text.toList = first :: rest ∧ isBlank first = false ∧ first ≠ '='
  reads : ∀ offset, (Phrase.items text []).IsRead (place offset pieces)

namespace NativePieces

variable {text added : String} {pieces others : List Piece}

/-- What is derived from lexemes is read from pieces that look like them. -/
theorem of_derived {lexemes : List Lexeme} (derived : Derives lexemes (.item text []))
    (same : pieces.map Piece.symbol = lexemes.map Lexeme.symbol)
    (cuts : ∀ tail, MayFollow text.toList tail → Cuts (text.toList ++ tail) pieces tail)
    (supported : ∀ piece ∈ pieces, piece.token.isSupported = true)
    (starts : ∃ first rest, text.toList = first :: rest ∧ isBlank first = false ∧ first ≠ '=') :
    NativePieces text pieces where
  cuts := cuts
  supported := supported
  starts := starts
  reads offset state level isPlace := by
    rw [State.run_congr ((map_symbol_place offset pieces).trans same)]
    exact derived.isRead state level isPlace

/-- **Native texts stand one behind the other** when the second one starts with a mark or the
first one takes a name. -/
theorem append (native : NativePieces text pieces) (behind : NativePieces added others)
    (joins : EndsCondition added.toList ∨ takesName text.toList = true) :
    NativePieces (text ++ added) (pieces ++ others) where
  cuts tail follows := by
    obtain ⟨first, rest, isCons, visible, noOperator⟩ := behind.starts
    rw [String.toList_append] at follows ⊢
    rw [List.append_assoc]
    refine (native.cuts _ ?_).append (behind.cuts tail (follows.behind ?_))
    · rw [isCons] at joins ⊢
      refine joins.imp (fun ends => ⟨endsCondition_cons (ends first rfl) _, fun blank => ?_⟩)
        fun takes => ⟨takes, fun operator => noOperator (Option.some.inj operator)⟩
      exact absurd (visible.symm.trans blank) Bool.false_ne_true
    · rw [isCons]
      exact List.cons_ne_nil _ _
  supported := List.forall_mem_append.mpr ⟨native.supported, behind.supported⟩
  starts := by
    obtain ⟨first, rest, isCons, seen⟩ := native.starts
    rw [String.toList_append, isCons]
    exact ⟨first, _, rfl, seen⟩
  reads offset state level isPlace := by
    rw [place_append, State.run_append_of_run (native.reads offset state level isPlace),
      behind.reads _ _ _ rfl, Level.add_add, List.append_nil]

theorem fragment (native : NativePieces text pieces) (closed : endsOpen text.toList = false) :
    FragmentPieces text pieces where
  written := by
    have cuts (tail : List Char) (boundary : Boundary tail) :=
      native.cuts tail (Or.inl ⟨boundary.endsCondition, fun _ => closed⟩)
    refine ⟨cuts, native.supported, ?_⟩
    exact (forall_mem_place (· ≠ .endOfText) 0).mp fun lexeme member =>
      ((cuts [] boundary_nil).wide 0 lexeme member).1
  starts := by
    obtain ⟨first, rest, isCons, visible, -⟩ := native.starts
    exact ⟨first, rest, isCons, visible⟩
  nonempty := by
    rintro rfl
    obtain ⟨first, rest, isCons, -⟩ := native.starts
    contradiction
  reads := native.reads

end NativePieces

/-! ## Kinds of conditions -/

/-- A mark is a token of its own in front of any text. -/
theorem token_mark {mark : Char} {token : Token} (isMark : punctuation? mark = some token)
    (behind : List Char) :
    Scan.token (mark :: behind) = some ⟨⟨token, none⟩, [mark], behind⟩ := by
  unfold punctuation? at isMark
  split at isMark <;> cases isMark <;> rfl

theorem Cuts.behindMark {text rest : List Char} {pieces : List Piece} {mark : Char}
    {token : Token} (cuts : Cuts text pieces rest) (isMark : punctuation? mark = some token) :
    Cuts (mark :: text) (⟨[], token, [mark]⟩ :: pieces) rest := by
  refine (Cuts.one (token_mark isMark text) ?_).append cuts
  rintro rfl
  contradiction

/-- A point in front of something that is no digit is a delimiter. -/
theorem token_dot {first : Char} (noDigit : first.isDigit = false) (behind : List Char) :
    token ('.' :: first :: behind) =
      some ⟨⟨.delim '.', none⟩, ['.'], first :: behind⟩ := by
  have noNumber : numberStarts ('.' :: first :: behind) = false := by
    have sign : signPart ('.' :: first :: behind) = ([], '.' :: first :: behind) := rfl
    rw [numberStarts_eq, sign, unsignedStarts, digitFirst, List.head?_cons, Option.any_some,
      noDigit]
    rfl
  rw [token, opening, noNumber]
  rfl

theorem map_symbol_piece (lexemes : List Lexeme) :
    (lexemes.map Lexeme.piece).map Piece.symbol = lexemes.map Lexeme.symbol := by
  rw [List.map_map]
  exact List.map_congr_left fun lexeme _ => lexeme.symbol_piece

section Word

variable {lexeme : Lexeme} (word : IsWord lexeme.source.toList lexeme.token)
  (supported : lexeme.token.isSupported = true)

include word supported

/-- A word alone. -/
theorem nativePieces_word (derived : Derives [lexeme] (.item lexeme.source [])) :
    NativePieces lexeme.source [lexeme.piece] := by
  refine .of_derived derived (map_symbol_piece [lexeme]) (fun tail follows => word.cuts follows)
    (List.forall_mem_singleton.mpr supported) ?_
  obtain ⟨first, rest, isCons, visible, -, -, noOperator⟩ := word.starts
  exact ⟨first, rest, isCons, visible, noOperator⟩

/-- The name of a class. -/
theorem nativePieces_className {dot : Lexeme}
    (derived : Derives [dot, lexeme] (.item ("." ++ lexeme.source) []))
    (isDot : dot.symbol = (signPiece '.').symbol) :
    NativePieces ("." ++ lexeme.source) [signPiece '.', lexeme.piece] := by
  have isText : ("." ++ lexeme.source).toList = '.' :: lexeme.source.toList :=
    String.toList_append
  refine .of_derived derived ?_ (fun tail follows => ?_)
    (List.forall_mem_cons.mpr ⟨rfl, List.forall_mem_singleton.mpr supported⟩)
    ⟨_, _, isText, by decide⟩
  · rw [List.map_cons, List.map_singleton, ← isDot, lexeme.symbol_piece]
    rfl
  · rw [isText] at follows ⊢
    have cuts := word.cuts (@MayFollow.behind ['.'] _ _ follows word.ne_nil)
    obtain ⟨first, rest, isCons, -, noDigit, -⟩ := word.starts
    have found : token ('.' :: (lexeme.source.toList ++ tail)) =
        some ⟨⟨.delim '.', none⟩, ['.'], lexeme.source.toList ++ tail⟩ := by
      rw [isCons]
      exact token_dot noDigit _
    exact (Cuts.one found (by decide)).append cuts

/-- A native class. -/
theorem nativePieces_nativeClass {colon : Lexeme}
    (derived : Derives [colon, lexeme] (.item (":" ++ lexeme.source) []))
    (isColon : colon.symbol = colonPiece.symbol) :
    NativePieces (":" ++ lexeme.source) [colonPiece, lexeme.piece] := by
  have isText : (":" ++ lexeme.source).toList = ':' :: lexeme.source.toList :=
    String.toList_append
  refine .of_derived derived ?_ (fun tail follows => ?_)
    (List.forall_mem_cons.mpr ⟨rfl, List.forall_mem_singleton.mpr supported⟩)
    ⟨_, _, isText, by decide⟩
  · rw [List.map_cons, List.map_singleton, ← isColon, lexeme.symbol_piece]
    rfl
  · rw [isText] at follows ⊢
    exact (word.cuts (@MayFollow.behind [':'] _ _ follows word.ne_nil)).behindMark rfl

end Word

/-! ## Conditions with lexemes inside -/

/-- Lexemes that are cut alike in front of a mark, whatever may follow the condition that it
closes. -/
def IsInside (inner : List Lexeme) (mark : Char) : Prop :=
  ∀ tail, (continuesHyphen tail = true → (sources inner).toList.getLast? ≠ some '-') →
    Cuts ((sources inner).toList ++ mark :: tail) (inner.map Lexeme.piece) (mark :: tail)

/-- What stands in front of a closing mark does not see what is behind it. -/
theorem Stands.isInside {inner : List Lexeme} {mark : Char} {rest : List Char}
    (stands : Stands inner (mark :: rest)) (isMark : mark = ')' ∨ mark = ']')
    (supported : ∀ lexeme ∈ inner, lexeme.token.isSupported = true)
    (steady : ∀ lexeme ∈ inner, lexeme.isSteady = true) : IsInside inner mark := by
  intro tail noHyphen
  have isPiece {piece : Piece} (member : piece ∈ inner.map Lexeme.piece) :
      ∃ lexeme ∈ inner, piece = lexeme.piece := by
    obtain ⟨lexeme, among, same⟩ := List.mem_map.mp member
    exact ⟨lexeme, among, same.symm⟩
  apply Cuts.detach stands rfl
  constructor
  case goesOn => exact List.cons_ne_nil _ _
  case quiet =>
    intro first head
    cases head
    rcases isMark with rfl | rfl <;> decide
  case visible => rcases isMark with rfl | rfl <;> rfl
  case ahead =>
    intro piece last hyphen
    rw [List.drop_succ_cons, List.drop_zero, ← Bool.not_eq_true]
    intro continues
    refine noHyphen continues ?_
    rw [List.getLast?_map] at last
    obtain ⟨lexeme, isLast, rfl⟩ := Option.map_eq_some_iff.mp last
    obtain ⟨front, rfl⟩ := List.getLast?_eq_some_iff.mp isLast
    have isSource : lexeme.source.toList = ['-'] := hyphen
    rw [sources_append, sources_single, String.toList_append, isSource, List.getLast?_concat]
  case unbroken =>
    intro piece member isBroken
    obtain ⟨lexeme, among, rfl⟩ := isPiece member
    have isBroken : lexeme.token = .badString := isBroken
    have allowed := supported lexeme among
    rw [isBroken] at allowed
    contradiction
  case quoted =>
    intro piece member name isFunction isUrl
    rcases isMark with rfl | rfl <;> rfl
  case noName =>
    intro piece member name isIdent hyphen
    obtain ⟨lexeme, among, rfl⟩ := isPiece member
    have isIdent : lexeme.token = .ident name := isIdent
    have isHyphen : lexeme.source = "-" := String.toList_injective hyphen
    have steady := steady lexeme among
    rw [Lexeme.isSteady, isIdent, isHyphen] at steady
    contradiction
  case noCall =>
    intro continues
    rcases isMark with rfl | rfl <;> contradiction
  case escaped =>
    intro stray
    rcases isMark with rfl | rfl <;> contradiction

/-- A native function. -/
theorem nativePieces_nativeFunction {name : String} {inner : List Lexeme}
    (isName : IsCallName name) (native : name ∈ nativeFunctions) (balanced : Balanced inner)
    (inside : IsInside inner ')')
    (supported : ∀ lexeme ∈ inner, lexeme.token.isSupported = true) :
    NativePieces (":" ++ name ++ "(" ++ sources inner ++ ")")
      (colonPiece :: callPiece name :: inner.map Lexeme.piece ++ [closingPiece]) := by
  have derived : Derives (⟨.colon, ":", 0⟩ :: ⟨.function name, name ++ "(", 0⟩ :: inner ++
      [⟨.closeParen, ")", 0⟩]) (.item (":" ++ name.toLower ++ "(" ++ sources inner ++ ")") []) :=
    .nativeFunction rfl rfl (by rwa [isName.lowered]) balanced rfl
  rw [isName.lowered] at derived
  have isText : (":" ++ name ++ "(" ++ sources inner ++ ")").toList =
      ':' :: (name.toList ++ '(' :: ((sources inner).toList ++ [')'])) := by
    simp only [String.toList_append, List.append_assoc]
    rfl
  refine .of_derived derived ?_ (fun tail follows => ?_) ?_ ⟨_, _, isText, by decide⟩
  · have call : (callPiece name).symbol = ⟨.call name.toLower, name ++ "("⟩ := by
      rw [Piece.symbol, callPiece, String.ofList_append, String.ofList_toList]
      rfl
    rw [List.cons_append, List.cons_append, List.map_cons, List.map_cons, List.map_append,
      map_symbol_piece, call, List.map_append]
    rfl
  · rw [isText] at follows ⊢
    have closing := (Cuts.done tail).behindMark (show punctuation? ')' = _ from rfl)
    have noHyphen := @MayFollow.getLast?_ne (':' :: (name.toList ++ ['('])) _ _ _
      (by simpa only [List.cons_append, List.append_assoc, List.nil_append] using follows)
    have cuts := (((inside tail noHyphen).append closing).behindCall isName).behindMark
      (show punctuation? ':' = _ from rfl)
    rw [List.cons_append, List.append_assoc, List.cons_append, List.append_assoc]
    exact cuts
  · refine List.forall_mem_append.mpr ⟨?_, List.forall_mem_singleton.mpr rfl⟩
    exact List.forall_mem_cons.mpr ⟨rfl, List.forall_mem_cons.mpr
      ⟨rfl, List.forall_mem_map.mpr supported⟩⟩

/-- A condition in brackets. -/
theorem nativePieces_condition {inner : List Lexeme}
    (closesNone : ∀ lexeme ∈ inner, lexeme.token ≠ .closeBracket) (inside : IsInside inner ']')
    (supported : ∀ lexeme ∈ inner, lexeme.token.isSupported = true) :
    NativePieces ("[" ++ sources inner ++ "]")
      (⟨[], .openBracket, ['[']⟩ :: inner.map Lexeme.piece ++ [⟨[], .closeBracket, [']']⟩]) := by
  have derived : Derives (⟨.openBracket, "[", 0⟩ :: inner ++ [⟨.closeBracket, "]", 0⟩])
      (.item (sources (⟨.openBracket, "[", 0⟩ :: inner ++ [⟨.closeBracket, "]", 0⟩])) []) :=
    .condition rfl closesNone rfl
  rw [sources_append, sources_cons, sources_single] at derived
  have isText : ("[" ++ sources inner ++ "]").toList =
      '[' :: ((sources inner).toList ++ [']']) := by
    simp only [String.toList_append, List.append_assoc]
    rfl
  refine .of_derived derived ?_ (fun tail follows => ?_) ?_ ⟨_, _, isText, by decide⟩
  · rw [List.cons_append, List.map_cons, List.map_append, map_symbol_piece, List.map_append]
    rfl
  · rw [isText] at follows ⊢
    have closing := (Cuts.done tail).behindMark (show punctuation? ']' = _ from rfl)
    have noHyphen := @MayFollow.getLast?_ne ['['] _ _ _ follows
    have cuts := ((inside tail noHyphen).append closing).behindMark
      (show punctuation? '[' = _ from rfl)
    rw [List.cons_append, List.append_assoc]
    exact cuts
  · refine List.forall_mem_append.mpr ⟨?_, List.forall_mem_singleton.mpr rfl⟩
    exact List.forall_mem_cons.mpr ⟨rfl, List.forall_mem_map.mpr supported⟩

end SelectorLang
