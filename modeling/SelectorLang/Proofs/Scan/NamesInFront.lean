import SelectorLang.Proofs.Scan.PlainName

/-! # Names and hashes in front of another text

A name, or a hash, is the same in front of every text in front of which a name ends
(`SelectorLang.Scan.token_ident_in_front`, `SelectorLang.Scan.token_hash_in_front`), as long as
no escape at its end takes a blank of that text. The other way round, a name starts anew
behind some texts, but never behind another name (`SelectorLang.Scan.takesName_name`).
-/

namespace SelectorLang.Scan

open CodePoint

/-! ## In front of what ends a name -/

section InFront

variable {text tail : List Char} (ends : EndsName tail) (visible : escapes tail = true)

include ends visible

theorem nameEnds_of_last {taken behind : List Char}
    (escaped : (taken ++ behind).getLast? ≠ some '\\')
    (closed : tail.head?.any isBlank = true → endsOpen taken = false) :
    NameEnds taken [] behind tail := by
  refine ⟨ends, visible, fun _ => closed, fun atEnd _ => ?_, ?_⟩
  · rwa [atEnd, List.append_nil] at escaped
  · rintro (same | same) <;> cases same

theorem name_in_front (escaped : text.getLast? ≠ some '\\')
    (closed : tail.head?.any isBlank = true → endsOpen (name text).source = false) :
    name ((name text).source ++ tail) = ⟨(name text).value, (name text).source, tail⟩ := by
  have covers : (name text).source ++ (name text).rest = text := name_covers text
  have read := @name_tail (name text).source [] (name text).rest tail
  rw [covers] at read
  exact read rfl (nameEnds_of_last ends visible (by rwa [covers]) closed)

/-- A hyphen that sees the start of a name sees it wherever the name ends. -/
theorem token_hyphen_in_front {second third : Char} {source rest : List Char}
    (announced : opening '-' (second :: third :: source ++ rest) = .hyphen)
    (continues : continuesHyphen (third :: source ++ rest) = true) :
    token ('-' :: (second :: third :: source ++ tail)) =
      some (nameToken ('-' :: (second :: third :: source ++ tail))) := by
  have noNumber : numberStarts ('-' :: (second :: third :: source ++ tail)) = false := by
    have noNumber := numberStarts_of_opening_hyphen announced
    rw [numberStarts_eq] at noNumber ⊢
    exact noNumber
  have goesOn : continuesHyphen ((second :: third :: source ++ tail).drop 1) = true := by
    have same := @continuesHyphen_congr (third :: source) rest tail ends visible
      (fun stray => by cases stray; exact continues) fun none => absurd none (List.cons_ne_nil _ _)
    exact same.trans continues
  rw [token, opening_of_hyphen noNumber, tokenOf, hyphenToken_of_name goesOn]

/-- What is announced as a name is announced as one wherever the name ends. -/
theorem token_in_front {first : Char} {source rest : List Char}
    (announced : opening first (source ++ rest) = .name ∨
      opening first (source ++ rest) = .hyphen ∧
        continuesHyphen ((source ++ rest).drop 1) = true)
    (isSource : (name (first :: (source ++ rest))).source = first :: source)
    (noHyphen : first :: source ≠ ['-']) :
    token (first :: (source ++ tail)) = some (nameToken (first :: (source ++ tail))) := by
  rcases announced with isName | ⟨isHyphen, continues⟩
  · rcases opening_name isName with starts | ⟨rfl, isEscape⟩
    · rw [token, opening_of_startsName starts]
      rfl
    · have escape : escapes (source ++ tail) = true := by
        rwa [escapes_congr visible fun none => by rwa [none] at isEscape]
      rw [token, opening_of_escape escape]
      rfl
  · cases opening_hyphen isHyphen
    cases source with
    | nil => contradiction
    | cons second source =>
        cases source with
        | nil =>
            -- The name would go on into the text behind it.
            have hyphen : (name ('-' :: second :: rest)).source =
                '-' :: (name (second :: rest)).source := by
              rw [name_of_continues rfl]
              rfl
            have alone := (List.cons.inj (hyphen.symm.trans isSource)).2
            rcases @name_source_of_continuesHyphen second rest continues with none | more
            · rw [none] at alone
              contradiction
            · rw [alone] at more
              contradiction
        | cons third source => exact token_hyphen_in_front ends visible isHyphen continues

/-- **A name is the same name in front of what ends it.** -/
theorem token_ident_in_front {first : Char} {scan : Scan Recognized} {ident : String}
    (found : token (first :: text) = some scan) (isIdent : scan.value.token = .ident ident)
    (noHyphen : scan.source ≠ ['-']) (escaped : (first :: text).getLast? ≠ some '\\')
    (noCall : tail.head? ≠ some '(')
    (closed : tail.head?.any isBlank = true → endsOpen scan.source = false) :
    token (scan.source ++ tail) = some ⟨⟨.ident ident, none⟩, scan.source, tail⟩ := by
  have nonempty := token_source_ne_nil found
  obtain ⟨rfl, announced⟩ := nameToken_of_named found (by rw [isIdent]; rfl)
  obtain ⟨source, rfl⟩ := source_of_nameToken_ident isIdent
  rw [source] at nonempty noHyphen closed ⊢
  have read := name_in_front ends visible escaped closed
  have covers : (name (first :: text)).source ++ (name (first :: text)).rest = first :: text :=
    name_covers (first :: text)
  cases isSource : (name (first :: text)).source with
  | nil => contradiction
  | cons character others =>
      rw [isSource] at covers noHyphen read
      rw [List.cons_append] at covers read ⊢
      obtain ⟨rfl, isText⟩ := List.cons.inj covers
      rw [← isText] at announced
      have whole := @token_in_front tail ends visible character others _ announced
        (by rwa [isText]) noHyphen
      rw [whole, nameToken_of_name read noCall]
      rfl

/-- **A hash is the same hash in front of what ends it.** -/
theorem token_hash_in_front {first : Char} {scan : Scan Recognized} {value : String}
    {kind : HashKind} (found : token (first :: text) = some scan)
    (isHash : scan.value.token = .hash value kind)
    (escaped : (first :: text).getLast? ≠ some '\\')
    (closed : tail.head?.any isBlank = true → endsOpen scan.source = false) :
    token (scan.source ++ tail) = some ⟨⟨.hash value kind, none⟩, scan.source, tail⟩ := by
  obtain ⟨rfl, rfl⟩ := hashToken_of_hash found (by rw [isHash]; rfl)
  by_cases starts : hashStarts text
  · have covers : (name text).source ++ (name text).rest = text := name_covers text
    have isSource : (hashToken '#' text).source = '#' :: (name text).source := by
      rw [hashToken_of_name starts]
      rfl
    have isRest : (hashToken '#' text).rest = (name text).rest := by
      rw [hashToken_of_name starts]
      rfl
    have isValue : (hashToken '#' text).value = ⟨.hash value kind, none⟩ := by
      rw [hashToken_of_name starts] at isHash ⊢
      exact congrArg (Recognized.mk · none) isHash
    have last : ((hashToken '#' text).source ++ (name text).rest).getLast? ≠ some '\\' := by
      rwa [isSource, List.cons_append, covers]
    have read := @hashToken_tail (name text).source [] (name text).rest tail '#'
    rw [covers] at read
    replace read := read isRest (nameEnds_of_last ends visible last closed)
    have announced (behind : List Char) : token ('#' :: behind) = some (hashToken '#' behind) := rfl
    rw [isSource, List.cons_append, announced, read, leaving, isValue, isSource]
    rfl
  · rw [hashToken_of_sign starts] at isHash
    contradiction

end InFront

/-! ## Behind a text -/

/-- Whether a text ends with a mark that a name can stand behind: one that neither a hyphen
nor a backslash stands in front of. -/
def takesName : List Char → Bool
  | [] => false
  | [last] => [']', ')', '*'].contains last
  | [before, last] => [']', ')', '*'].contains last && before != '-' && before != '\\'
  | _ :: second :: third :: rest => takesName (second :: third :: rest)

theorem takesName_of_append {front taken : List Char}
    (takes : takesName (front ++ taken) = true) (nonempty : taken ≠ []) :
    takesName taken = true := by
  induction front with
  | nil => exact takes
  | cons first front ih =>
      apply ih
      rw [List.cons_append] at takes
      cases behind : front ++ taken with
      | nil => exact absurd (List.append_eq_nil_iff.mp behind).2 nonempty
      | cons second rest =>
          rw [behind] at takes
          cases rest with
          | nil =>
              rw [takesName, Bool.and_eq_true, Bool.and_eq_true] at takes
              exact takes.1.1
          | cons third rest => exact takes

theorem exists_mem_of_takesName {text : List Char} (takes : takesName text = true) :
    ∃ mark ∈ text, mark ∈ [']', ')', '*'] := by
  fun_induction takesName text with
  | case1 => contradiction
  | case2 last => exact ⟨last, List.mem_cons_self, List.contains_iff_mem.mp takes⟩
  | case3 before last =>
      rw [Bool.and_eq_true, Bool.and_eq_true] at takes
      exact ⟨last, .tail _ List.mem_cons_self, List.contains_iff_mem.mp takes.1.1⟩
  | case4 first second third rest ih =>
      obtain ⟨mark, among, isMark⟩ := ih takes
      exact ⟨mark, .tail _ among, isMark⟩

theorem takesName_of_none {text : List Char}
    (none : ∀ character ∈ text, character ∉ [']', ')', '*']) : takesName text = false := by
  refine Bool.eq_false_iff.mpr fun takes => ?_
  obtain ⟨mark, among, isMark⟩ := exists_mem_of_takesName takes
  exact none mark among isMark

/-- No name starts behind an escape. -/
theorem takesName_escape (text : List Char) : takesName ('\\' :: (escape text).source) = false := by
  cases text with
  | nil => rfl
  | cons first text =>
      rw [escape]
      split
      · -- Neither digits nor blanks are marks.
        refine takesName_of_none (List.forall_mem_cons.mpr ⟨by decide, fun character member => ?_⟩)
        have noMark {character : Char} (isMark : character ∈ [']', ')', '*']) :
            isHexDigit character = false ∧ isBlank character = false := by
          simp only [List.mem_cons, List.not_mem_nil, or_false] at isMark
          rcases isMark with rfl | rfl | rfl <;> decide
        intro isMark
        obtain ⟨noDigit, noBlank⟩ := noMark isMark
        rcases List.mem_append.mp member with isDigit | isEnding
        · have digits := @all_takeRun isHexDigit 6 (first :: text)
          exact Bool.false_ne_true (noDigit.symm.trans (List.all_eq_true.mp digits _ isDigit))
        · have blanks := @all_takeRun isBlank 1 (takeRun 6 isHexDigit (first :: text)).2
          exact Bool.false_ne_true (noBlank.symm.trans (List.all_eq_true.mp blanks _ isEnding))
      · rw [takesName, bne_self_eq_false, Bool.and_false]

/-- Behind two texts no name starts when none starts behind either. -/
theorem takesName_append {front inner : List Char} (alone : takesName front = false)
    (inside : takesName inner = false) : takesName (front ++ inner) = false := by
  refine Bool.eq_false_iff.mpr fun takes => ?_
  by_cases none : inner = []
  · rw [none, List.append_nil, alone] at takes
    contradiction
  · rw [takesName_of_append takes none] at inside
    contradiction

/-- No name starts behind a name: it would go on with it. -/
theorem takesName_name (text : List Char) : takesName (name text).source = false := by
  fun_induction name text with
  | case1 => rfl
  | case2 first rest continues ih =>
      refine @takesName_append [first] _ (takesName_of_none ?_) ih
      refine List.forall_mem_singleton.mpr fun isMark => ?_
      simp only [List.mem_cons, List.not_mem_nil, or_false] at isMark
      rcases isMark with rfl | rfl | rfl <;> contradiction
  | case3 first rest outside escape escaped ih =>
      obtain ⟨rfl, -⟩ := escape
      exact takesName_append (takesName_escape rest) ih
  | case4 => rfl

/-! ## What names and hashes start with -/

section Found

variable {first : Char} {text : List Char} {scan : Scan Recognized}
  (found : token (first :: text) = some scan)

include found

/-- A name starts with what starts one, and no name starts behind it. -/
theorem starts_of_ident {ident : String} (isIdent : scan.value.token = .ident ident) :
    (∃ rest, scan.source = first :: rest) ∧
      (startsName first = true ∨ first = '-' ∨ first = '\\') ∧
        takesName scan.source = false := by
  have nonempty := token_source_ne_nil found
  have covers : scan.source ++ scan.rest = first :: text := token_covers found
  obtain ⟨rfl, announced⟩ := nameToken_of_named found (by rw [isIdent]; rfl)
  refine ⟨?_, ?_, ?_⟩
  · obtain ⟨character, rest, isCons⟩ := List.exists_cons_of_ne_nil nonempty
    rw [isCons, List.cons_append] at covers
    exact ⟨rest, by rw [isCons, (List.cons.inj covers).1]⟩
  · rcases announced with isName | ⟨isHyphen, -⟩
    · exact (opening_name isName).imp_right fun escape => Or.inr escape.1
    · exact Or.inr (Or.inl (opening_hyphen isHyphen))
  · rw [(source_of_nameToken_ident isIdent).1]
    exact takesName_name _

/-- A hash starts with a number sign, and no name starts behind it. -/
theorem starts_of_hash {value : String} {kind : HashKind}
    (isHash : scan.value.token = .hash value kind) :
    (∃ rest, scan.source = '#' :: rest) ∧ takesName scan.source = false := by
  obtain ⟨rfl, rfl⟩ := hashToken_of_hash found (by rw [isHash]; rfl)
  by_cases starts : hashStarts text
  · rw [hashToken_of_name starts]
    refine ⟨⟨_, rfl⟩, Bool.eq_false_iff.mpr fun takes => ?_⟩
    have behind : takesName (name text).source = true :=
      @takesName_of_append ['#'] _ takes (name_source_ne_nil_of_hashStarts starts)
    rw [takesName_name] at behind
    contradiction
  · rw [hashToken_of_sign starts] at isHash
    contradiction

end Found

end SelectorLang.Scan
