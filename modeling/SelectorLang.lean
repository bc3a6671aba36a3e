import SelectorLang.Main
import SelectorLang.Proofs.Grammar.Soundness
import SelectorLang.Proofs.Reader.FirstViolation
import SelectorLang.Proofs.Number.Spelling
import SelectorLang.Proofs.Parsing.ArgumentLists
import SelectorLang.Proofs.Parsing.CommentInsertion
import SelectorLang.Proofs.Tokenizer.Cuts
import SelectorLang.Proofs.Tokenizer.Failures
import SelectorLang.Proofs.Tokenizer.Lossless
import SelectorLang.Proofs.Tokenizer.NameStarts
import SelectorLang.Proofs.Tokenizer.OneToken
import SelectorLang.Proofs.Tokenizer.Shift
import SelectorLang.Proofs.Tokenizer.WrittenNames
import SelectorLang.Tree.Identity
import SelectorLang.Tree.Pieces
import SelectorLang.Proofs.RoundTrip.ParsedText
import SelectorLang.Proofs.RoundTrip.ParseText
import SelectorLang.Proofs.Reader.Proper
import SelectorLang.Proofs.Parsing.Traces
import SelectorLang.Proofs.CommandLine.Modes
import SelectorLang.Proofs.Cursor.Basic
import SelectorLang.Proofs.Cursor.Readings
import SelectorLang.Proofs.Cursor.Restart
import SelectorLang.Proofs.Tokenizer.NumericTokens
import SelectorLang.Proofs.Rules.Reading
import SelectorLang.Proofs.Tree.Names
import SelectorLang.Proofs.Tree.Warnings
import SelectorLang.Proofs.CommandLine.Listing
import SelectorLang.Proofs.Tree.Json
import SelectorLang.Proofs.Registry
