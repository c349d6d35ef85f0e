import ShellQuery.Main
import ShellQuery.Proofs.Entries
import ShellQuery.Proofs.Text.Names
import ShellQuery.Proofs.Text.LetterCase
import ShellQuery.Proofs.Text.Digits
import ShellQuery.Proofs.Number.Rounding
import ShellQuery.Proofs.Number.Shortest
import ShellQuery.Proofs.Json.Grammar
import ShellQuery.Proofs.Json.Lexing
import ShellQuery.Proofs.Json.Reading
import ShellQuery.Proofs.Json.WellFormed
import ShellQuery.Proofs.Json.Printing
import ShellQuery.Proofs.Json.Writing
import ShellQuery.Proofs.Json.Numerals
import ShellQuery.Proofs.Json.Exact
import ShellQuery.Proofs.Bson.Documents
import ShellQuery.Proofs.Bson.Readable
import ShellQuery.Proofs.Bson.Base64
import ShellQuery.Proofs.Bson.Calendar
import ShellQuery.Proofs.Bson.Decimal128
import ShellQuery.Proofs.Bson.RoundTrip
import ShellQuery.Proofs.Bson.Updates
import ShellQuery.Proofs.Bson.Operators
import ShellQuery.Proofs.Toml.Grammar
import ShellQuery.Proofs.Toml.Reading
import ShellQuery.Proofs.Toml.Writing
import ShellQuery.Proofs.Query.Balance
import ShellQuery.Proofs.Query.Block
import ShellQuery.Proofs.Query.Call
import ShellQuery.Proofs.Query.Script
import ShellQuery.Proofs.Query.Head
import ShellQuery.Proofs.Query.Spacing
import ShellQuery.Proofs.Query.Rendering
import ShellQuery.Proofs.Query.ScriptText
import ShellQuery.Proofs.Query.Literals
import ShellQuery.Proofs.Query.Replacing
import ShellQuery.Proofs.Query.Sliced
import ShellQuery.Proofs.Query.Groups
import ShellQuery.Proofs.Query.Chains
import ShellQuery.Proofs.Query.Modifiers
import ShellQuery.Proofs.Resolver.Remove
import ShellQuery.Proofs.Resolver.Update
import ShellQuery.Proofs.Resolver.FindAndModify
import ShellQuery.Proofs.Resolver.Targets
import ShellQuery.Proofs.Resolver.Scripts
import ShellQuery.Proofs.Resolver.Cursors
import ShellQuery.Proofs.Resolver.Insertions
import ShellQuery.Proofs.Backend.Results
import ShellQuery.Proofs.Backend.InsertedIds
import ShellQuery.Proofs.Backend.Failures
import ShellQuery.Proofs.Result.Summary
import ShellQuery.Proofs.Result.Places
import ShellQuery.Proofs.Result.PlainIds
import ShellQuery.Proofs.Result.HiddenIds
import ShellQuery.Proofs.Result.Wrappers
import ShellQuery.Proofs.Result.Passes
import ShellQuery.Proofs.Result.Modes
import ShellQuery.Proofs.Result.Reordering
import ShellQuery.Proofs.Controller.Writes
import ShellQuery.Proofs.Controller.Reads
import ShellQuery.Proofs.Controller.InsertedKeys
import ShellQuery.Proofs.Controller.Rejections
import ShellQuery.Proofs.Controller.Calls
import ShellQuery.Proofs.Controller.Interleaving
import ShellQuery.Proofs.Controller.Closing
import ShellQuery.Proofs.Connection.Sharing
import ShellQuery.Proofs.Resolver.ListForm
import ShellQuery.Proofs.CommandLine.Overrides
import ShellQuery.Proofs.Settings.Written
import ShellQuery.Proofs.Resolver.Specifications
import ShellQuery.Proofs.Connection.Options
import ShellQuery.Proofs.Resolver.Translations
