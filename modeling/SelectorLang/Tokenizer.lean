import SelectorLang.Error
import SelectorLang.Scan.Comment
import SelectorLang.Scan.Token
import SelectorLang.Warning

/-! # Cutting a text into lexemes

A run of the tokenizer goes on from where the tokenizer stands to the end of the
text or to the first place that starts no token, skipping comments. After a stray
backslash it stands behind the backslash, after a comment without an end at the end
of the text; from either a further run goes on. `tokenize` is one run over a whole
text.
-/

namespace SelectorLang

/-- A text that is being cut: what is left of it, how much came before, and the
lexemes cut so far. -/
structure Tokenizer where
  /-- The characters that are left. -/
  remaining : List Char
  /-- How many characters came before them. -/
  offset : Nat
  /-- The lexemes so far, in the order of the text. -/
  lexemes : List Lexeme
deriving DecidableEq

/-- What a run of the tokenizer comes to. -/
structure Run where
  /-- Why it stopped before the end of the text, if it did. -/
  failure : Option LexicalError
  /-- The lexemes it cut. -/
  lexemes : List Lexeme
  /-- What it warned of. -/
  warnings : List Warning
  /-- The characters it left. -/
  remaining : List Char
  /-- How many characters came before those. -/
  offset : Nat
deriving DecidableEq

/-- The warning that the end of the text cut off a construct. -/
def CutOff.warning (start : Nat) : CutOff → Warning
  | .string => ⟨"Tokenizer", "unterminated string at offset " ++ toString start⟩
  | .address => ⟨"Tokenizer", "unterminated url at offset " ++ toString start⟩

namespace Run

/-- The run that stops at a place. -/
def stop (failure : Option LexicalError) (lexemes : List Lexeme) (remaining : List Char)
    (offset : Nat) : Run :=
  ⟨failure, lexemes, [], remaining, offset⟩

/-- The run that cuts one lexeme and then goes on as another run. -/
def cons (lexeme : Lexeme) (cutOff : Option CutOff) (run : Run) : Run where
  failure := run.failure
  lexemes := lexeme :: run.lexemes
  warnings := (cutOff.map (CutOff.warning lexeme.offset)).toList ++ run.warnings
  remaining := run.remaining
  offset := run.offset

/-- The run over a text at an offset. -/
def ofText (offset : Nat) (text : List Char) : Run :=
  let skipped := Scan.comments text
  let start := offset + skipped.source.length
  if skipped.value = false then
    stop (some (.unterminatedComment start)) [] [] (start + skipped.rest.length)
  else
    match _place : skipped.rest with
    | [] => stop none [Lexeme.endAt start] [] start
    | first :: rest =>
      match _found : Scan.token (first :: rest) with
      | none => stop (some (.invalidEscape start)) [] rest (start + 1)
      | some scan =>
        (ofText (start + scan.source.length) scan.rest).cons
          ⟨scan.value.token, String.ofList scan.source, start⟩ scan.value.cutOff
termination_by text.length
decreasing_by
  have shorter := Scan.token_length_rest_lt _found
  have left := (Scan.comments_covers text).length_rest_le
  rw [_place] at left
  omega

end Run

namespace Tokenizer

/-- The tokenizer in front of a text. -/
def ofText (text : String) : Tokenizer :=
  ⟨text.toList, 0, []⟩

/-- What a run from here comes to. -/
def nextRun (tokenizer : Tokenizer) : Run :=
  Run.ofText tokenizer.offset tokenizer.remaining

/-- The tokenizer after a run from here. -/
def advance (tokenizer : Tokenizer) : Tokenizer :=
  let run := tokenizer.nextRun
  ⟨run.remaining, run.offset, tokenizer.lexemes ++ run.lexemes⟩

end Tokenizer

/-- The lexemes of a whole text, the end of the text the last of them. -/
def tokenize (text : String) : Except LexicalError (List Lexeme) :=
  let run := (Tokenizer.ofText text).nextRun
  match run.failure with
  | some error => .error error
  | none => .ok run.lexemes

/-- What cutting a whole text warns of. -/
def tokenizeWarnings (text : String) : List Warning :=
  (Tokenizer.ofText text).nextRun.warnings

end SelectorLang
