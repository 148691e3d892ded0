import Restate.Main
import Restate.Proofs.Lexing.Spelling
import Restate.Proofs.Lexing.Trimming
import Restate.Proofs.Batch
import Restate.Proofs.Sqlite.Reading
import Restate.Proofs.Schema.AddedColumn
import Restate.Proofs.Install.Atomicity
import Restate.Proofs.Install.Closing
import Restate.Proofs.Rows.Blindness
import Restate.Proofs.Sqlite.Placeholders
import Restate.Proofs.Lexing.Silence
import Restate.Proofs.Rows.Parts
import Restate.Proofs.Rows.Placeholders
import Restate.Proofs.Script
import Restate.Proofs.WholeScript
import Restate.Proofs.Rows.Comments
import Restate.Proofs.Accounts
import Restate.Proofs.Separation
import Restate.Proofs.Rows.Nesting
import Restate.Proofs.Schema.DeclaredNames
import Restate.Proofs.Schema.AddedSpans
import Restate.Proofs.Rows.Numbering
import Restate.Proofs.Schema.Spacing
import Restate.Proofs.Lexing.LiteralUnits
import Restate.Proofs.Schema.MarkedDefault
import Restate.Proofs.Rows.Calls
import Restate.Proofs.Install.Retries
import Restate.Proofs.Classification
import Restate.Proofs.Schema.BareNames
import Restate.Proofs.Schema.ColumnFields
import Restate.Proofs.Lexing.Numerals
import Restate.Proofs.Settings.TypeOverrides
import Restate.Proofs.Schema.Rendering
import Restate.Proofs.Lexing.QuotedNames
import Restate.Proofs.Install.Ledger
import Restate.Proofs.Schema.ForwardOnly
import Restate.Proofs.Schema.Repetition
