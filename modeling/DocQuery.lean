import DocQuery.Bag.Basic
import DocQuery.Bag.Names
import DocQuery.Bag.Reader
import DocQuery.Bag.Tree
import DocQuery.Bag.Writer
import DocQuery.Calendar.Date
import DocQuery.Calendar.Instant
import DocQuery.CommandLine.Arguments
import DocQuery.CommandLine.Command
import DocQuery.CommandLine.Program
import DocQuery.CommandLine.Sink
import DocQuery.Dialect
import DocQuery.Environment
import DocQuery.Failure
import DocQuery.Files
import DocQuery.Filter.Basic
import DocQuery.Filter.Check
import DocQuery.Filter.Compile
import DocQuery.Filter.Operator
import DocQuery.Journal.Capture
import DocQuery.Journal.Record
import DocQuery.Journal.Routing
import DocQuery.Journal.Threshold
import DocQuery.Json.Bag
import DocQuery.Json.Basic
import DocQuery.Json.Reader
import DocQuery.Json.Sorted
import DocQuery.Json.Writer
import DocQuery.Main
import DocQuery.Number.Binary64
import DocQuery.Number.Decimal128
import DocQuery.Number.Numeral
import DocQuery.Number.Shortest
import DocQuery.Proofs.Bag.Acceptance
import DocQuery.Proofs.Bag.Conversion
import DocQuery.Proofs.Chain
import DocQuery.Proofs.Filter.Literal
import DocQuery.Proofs.Filter.Rendering
import DocQuery.Proofs.Filter.Shape
import DocQuery.Proofs.Filter.UniqueReading
import DocQuery.Proofs.Json.Bag
import DocQuery.Proofs.Number.Bare
import DocQuery.Proofs.Store.Action
import DocQuery.Proofs.Store.History
import DocQuery.Proofs.Store.Operations
import DocQuery.Proofs.Store.Pages
import DocQuery.Proofs.Store.Selection
import DocQuery.Proofs.Text.Quoted
import DocQuery.Proofs.Text.Solid
import DocQuery.Proofs.Update.Aim
import DocQuery.Proofs.Update.Reading
import DocQuery.Settings.Basic
import DocQuery.Settings.Format
import DocQuery.Settings.Load
import DocQuery.Sort.Clause
import DocQuery.Sort.Field
import DocQuery.Sort.Spec
import DocQuery.Store.Deferred
import DocQuery.Store.Driver
import DocQuery.Store.Entity
import DocQuery.Store.FindOptions
import DocQuery.Store.Repository
import DocQuery.Text.Alphanumeric
import DocQuery.Text.Base64
import DocQuery.Text.Blank
import DocQuery.Text.Bytes
import DocQuery.Text.Decimal
import DocQuery.Text.Front
import DocQuery.Text.Hex
import DocQuery.Text.Order
import DocQuery.Text.Quoted
import DocQuery.Toml.Basic
import DocQuery.Toml.Reader
import DocQuery.Toml.Scalar
import DocQuery.Toml.Writer
import DocQuery.Update.Basic
import DocQuery.Update.Builder
import DocQuery.Value.Basic
import DocQuery.Value.ObjectId
import DocQuery.Value.OfJson
import DocQuery.Value.Text
import DocQuery.Value.ToJson
import DocQuery.World
import DocQuery.Proofs.Number.Digits
import DocQuery.Proofs.Json.Numeral
import DocQuery.Proofs.Json.Double
import DocQuery.Proofs.Json.Line
import DocQuery.Proofs.CommandLine.Output
import DocQuery.Proofs.Json.Sorted
import DocQuery.Proofs.Sort.Clause
import DocQuery.Proofs.CommandLine.Modes
import DocQuery.Proofs.Settings.Document
import DocQuery.Proofs.Settings.Precedence
import DocQuery.Proofs.Toml.OneLine
import DocQuery.Proofs.Toml.SeveralLines
import DocQuery.Proofs.Toml.Strings
import DocQuery.Proofs.Toml.Document
import DocQuery.Proofs.Settings.Copy
import DocQuery.Proofs.Bag.Written
import DocQuery.Proofs.Bag.RoundTrip
import DocQuery.Proofs.Update.Building
import DocQuery.Proofs.Sort.Precedence
import DocQuery.Proofs.Sort.Spec
import DocQuery.Proofs.CommandLine.Room
import DocQuery.Proofs.CommandLine.Sorting
import DocQuery.Proofs.Store.Coincidence
import DocQuery.Proofs.Text.Hex
import DocQuery.Proofs.Store.Keys
import DocQuery.Proofs.Value.Alike
import DocQuery.Proofs.Bag.Nodes
import DocQuery.Proofs.Filter.Membership
import DocQuery.Proofs.Calendar.Date
import DocQuery.Proofs.Number.Padded
import DocQuery.Proofs.Calendar.Instant
import DocQuery.Proofs.Filter.Dates
import DocQuery.Proofs.Store.Paging
import DocQuery.Proofs.Environment
import DocQuery.Proofs.Files
import DocQuery.Proofs.Journal.Capturing
import DocQuery.Proofs.Journal.Guards
import DocQuery.Proofs.Journal.LogFiles
import DocQuery.Proofs.Journal.Routing
import DocQuery.Proofs.Json.StringLiteral
import DocQuery.Proofs.Filter.Quotation
