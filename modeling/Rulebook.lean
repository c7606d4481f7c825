import Rulebook.Catalogue.Basic
import Rulebook.Catalogue.Document
import Rulebook.Catalogue.Folder
import Rulebook.Demo.Login
import Rulebook.Error
import Rulebook.Format.Basic
import Rulebook.Format.Json.Document
import Rulebook.Format.Json.Text
import Rulebook.Format.Ron.Document
import Rulebook.Format.Ron.Group
import Rulebook.Format.Ron.Number
import Rulebook.Format.Ron.Text
import Rulebook.Format.Ron.Token
import Rulebook.Format.Ron.Unknown
import Rulebook.Format.Ron.Value
import Rulebook.Format.Timestamp
import Rulebook.History.Archive
import Rulebook.History.Listing
import Rulebook.History.Playback
import Rulebook.History.Report
import Rulebook.Keyword
import Rulebook.Main
import Rulebook.Number
import Rulebook.Proofs.Catalogue.Folders
import Rulebook.Proofs.Catalogue.Merging
import Rulebook.Proofs.Catalogue.Reloading
import Rulebook.Proofs.Comparison
import Rulebook.Proofs.Format.Csv
import Rulebook.Proofs.Format.Json
import Rulebook.Proofs.Format.Ron
import Rulebook.Proofs.Format.Written
import Rulebook.Proofs.History.Archive
import Rulebook.Proofs.History.Audit
import Rulebook.Proofs.History.Calls
import Rulebook.Proofs.History.Changes
import Rulebook.Proofs.History.Figures
import Rulebook.Proofs.History.Listing
import Rulebook.Proofs.History.Playback
import Rulebook.Proofs.History.Rewinding
import Rulebook.Proofs.History.Sheet
import Rulebook.Proofs.History.Stepping
import Rulebook.Proofs.Outcome
import Rulebook.Proofs.Sentence.Arrangement
import Rulebook.Proofs.Sentence.Assembly
import Rulebook.Proofs.Sentence.Blocks
import Rulebook.Proofs.Sentence.Chunks
import Rulebook.Proofs.Sentence.Effects
import Rulebook.Proofs.Sentence.Fences
import Rulebook.Proofs.Sentence.Grammar
import Rulebook.Proofs.Sentence.Naming
import Rulebook.Proofs.Sentence.Operators
import Rulebook.Proofs.Sentence.Parse
import Rulebook.Proofs.Sentence.Pass
import Rulebook.Proofs.Sentence.Precedence
import Rulebook.Proofs.Sentence.Reuse
import Rulebook.Proofs.Sentence.Rounds
import Rulebook.Proofs.Sentence.Segments
import Rulebook.Proofs.Sentence.WellFormed
import Rulebook.Proofs.Store.Asking
import Rulebook.Proofs.Store.Build
import Rulebook.Proofs.Store.Consistent
import Rulebook.Proofs.Store.Extension
import Rulebook.Proofs.Store.Folding
import Rulebook.Proofs.Store.Growth
import Rulebook.Proofs.Store.Keywords
import Rulebook.Proofs.Store.Names
import Rulebook.Proofs.Store.Reachable
import Rulebook.Proofs.Store.Reordering
import Rulebook.Proofs.Store.Snapshot
import Rulebook.Proofs.Store.Steps
import Rulebook.Proofs.Store.Turns
import Rulebook.Proofs.Store.Update
import Rulebook.Proofs.Table
import Rulebook.Proofs.Text.ByteOrder
import Rulebook.Proofs.Text.Lowercase
import Rulebook.Proofs.Tree.Basic
import Rulebook.Proofs.Tree.Evaluation
import Rulebook.Proofs.Tree.Locality
import Rulebook.Proofs.Tree.Previous
import Rulebook.Proofs.Words
import Rulebook.Sentence.Assembly
import Rulebook.Sentence.Chunk
import Rulebook.Sentence.Item
import Rulebook.Sentence.Vocabulary
import Rulebook.Store.Cycle
import Rulebook.Store.Script
import Rulebook.Store.State
import Rulebook.Table
import Rulebook.Text.Alphanumeric
import Rulebook.Text.Basic
import Rulebook.Text.Identifier
import Rulebook.Text.Lowercase
import Rulebook.Text.Printable
import Rulebook.Tree.Basic
import Rulebook.Tree.Eval
import Rulebook.Value
