import FuzzLedger.Cell.Basic
import FuzzLedger.Cell.Numeral
import FuzzLedger.Codec.Image
import FuzzLedger.Codec.Report
import FuzzLedger.Codec.Row
import FuzzLedger.Command.Open
import FuzzLedger.Command.Output
import FuzzLedger.Command.Run
import FuzzLedger.Command.Verdict
import FuzzLedger.CommandLine.Basic
import FuzzLedger.CommandLine.Parse
import FuzzLedger.CommandLine.Written
import FuzzLedger.Config
import FuzzLedger.Decimal.Binary64
import FuzzLedger.Decimal.Shortest
import FuzzLedger.Directory
import FuzzLedger.Entity
import FuzzLedger.Fault
import FuzzLedger.Json.Decode
import FuzzLedger.Json.Fault
import FuzzLedger.Json.Lexeme
import FuzzLedger.Json.Tree
import FuzzLedger.Json.Value
import FuzzLedger.Limit
import FuzzLedger.Location
import FuzzLedger.Main
import FuzzLedger.Report.Basic
import FuzzLedger.Report.Record
import FuzzLedger.Row
import FuzzLedger.Session.Basic
import FuzzLedger.Session.Call
import FuzzLedger.Session.Request
import FuzzLedger.Settings
import FuzzLedger.Store.Basic
import FuzzLedger.Store.Create
import FuzzLedger.Store.Delete
import FuzzLedger.Store.Direct
import FuzzLedger.Store.Insert
import FuzzLedger.Store.Query
import FuzzLedger.Text.Hex
import FuzzLedger.Text.Quoted
import FuzzLedger.Text.Shown
import FuzzLedger.Timestamp.Basic
import FuzzLedger.Timestamp.Clock
import FuzzLedger.Timestamp.Text
import FuzzLedger.Timestamp.Zoned
import FuzzLedger.Workspace
import FuzzLedger.Yaml.Cursor
import FuzzLedger.Yaml.Node
import FuzzLedger.Yaml.Property
import FuzzLedger.Yaml.Scalar
import FuzzLedger.Yaml.Token
import FuzzLedger.Proofs.Addition
import FuzzLedger.Proofs.Arguments
import FuzzLedger.Proofs.Atomicity
import FuzzLedger.Proofs.Attachment
import FuzzLedger.Proofs.Cascade
import FuzzLedger.Proofs.Change
import FuzzLedger.Proofs.Chronology
import FuzzLedger.Proofs.ClockText
import FuzzLedger.Proofs.Coherence
import FuzzLedger.Proofs.Content
import FuzzLedger.Proofs.Contract
import FuzzLedger.Proofs.Creation
import FuzzLedger.Proofs.DeletionOrder
import FuzzLedger.Proofs.Ensuring
import FuzzLedger.Proofs.Grouping
import FuzzLedger.Proofs.Identifiers
import FuzzLedger.Proofs.IngestCommand
import FuzzLedger.Proofs.Ingestion
import FuzzLedger.Proofs.Invocations
import FuzzLedger.Proofs.JsonGrammar
import FuzzLedger.Proofs.JsonLexeme
import FuzzLedger.Proofs.JsonObject
import FuzzLedger.Proofs.JsonOutput
import FuzzLedger.Proofs.JsonRecord
import FuzzLedger.Proofs.Lifetime
import FuzzLedger.Proofs.NormalForm
import FuzzLedger.Proofs.Offence
import FuzzLedger.Proofs.OpcodeCache
import FuzzLedger.Proofs.Opcodes
import FuzzLedger.Proofs.Opening
import FuzzLedger.Proofs.Order
import FuzzLedger.Proofs.ReadBack
import FuzzLedger.Proofs.ReadForm
import FuzzLedger.Proofs.Reading
import FuzzLedger.Proofs.Recording
import FuzzLedger.Proofs.ReportFormat
import FuzzLedger.Proofs.Retraction
import FuzzLedger.Proofs.RoundTrip
import FuzzLedger.Proofs.Run
import FuzzLedger.Proofs.TextLimits
import FuzzLedger.Proofs.Transaction
