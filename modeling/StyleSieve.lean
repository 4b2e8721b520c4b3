import StyleSieve.Text.LowerCase
import StyleSieve.Text.Blank
import StyleSieve.Text.Width
import StyleSieve.Decimal.Written
import StyleSieve.Text.Quoted
import StyleSieve.Css.Token
import StyleSieve.Css.Lexer
import StyleSieve.Css.Tree
import StyleSieve.Css.Sheet
import StyleSieve.Selector.Parse
import StyleSieve.Purge.Sheet
import StyleSieve.Usage.Corpus
import StyleSieve.Report.Format
import StyleSieve.Files.Discovery
import StyleSieve.Config.Load
import StyleSieve.Main
import StyleSieve.Proofs.Css.Grammar
import StyleSieve.Proofs.Css.Lexing
import StyleSieve.Proofs.Css.Forest
import StyleSieve.Proofs.Css.Origin
import StyleSieve.Proofs.Run.Schedule
import StyleSieve.Proofs.Purge.Fixpoint
import StyleSieve.Proofs.Purge.Fonts
import StyleSieve.Proofs.Usage.Elements
import StyleSieve.Proofs.Files.Write
import StyleSieve.Proofs.Run.Output
import StyleSieve.Proofs.Css.Concat
import StyleSieve.Proofs.Text.Slice
import StyleSieve.Proofs.Purge.Concat
import StyleSieve.Proofs.Purge.Sequence
import StyleSieve.Proofs.Purge.Tally
import StyleSieve.Proofs.Purge.Widening
import StyleSieve.Proofs.Usage.Attribution
import StyleSieve.Proofs.Purge.Refusal
import StyleSieve.Proofs.Run.Faults
import StyleSieve.Proofs.Usage.Growth
import StyleSieve.Proofs.Selector.Grammar
import StyleSieve.Proofs.Markup.Construct
import StyleSieve.Proofs.Markup.RawText
import StyleSieve.Proofs.Usage.Extraction
import StyleSieve.Proofs.Purge.Animations
import StyleSieve.Proofs.Purge.Groups
import StyleSieve.Proofs.Css.Places
import StyleSieve.Proofs.Usage.Presets
import StyleSieve.Proofs.Purge.Granted
import StyleSieve.Proofs.Usage.Lists
import StyleSieve.Proofs.Text.LetterCase
import StyleSieve.Proofs.Text.Runs
import StyleSieve.Proofs.Css.LetterCase
import StyleSieve.Proofs.Selector.LetterCase
import StyleSieve.Proofs.Selector.Names
import StyleSieve.Proofs.Usage.Members
import StyleSieve.Proofs.Usage.Words
import StyleSieve.Proofs.Css.Components
import StyleSieve.Proofs.Files.Discovery
import StyleSieve.Proofs.Purge.Separators
import StyleSieve.Proofs.Css.Unfinished
import StyleSieve.Proofs.Purge.Coherence
import StyleSieve.Proofs.Css.Parsing
