import Tariff.Charge.Decimal
import Tariff.Charge.FromFloat
import Tariff.Charge.Quota
import Tariff.Command.Context
import Tariff.Command.Exchange
import Tariff.Command.Grammar
import Tariff.Command.Line
import Tariff.Command.Outcome
import Tariff.Command.Output
import Tariff.Command.Prices
import Tariff.Command.Run
import Tariff.Command.Setup
import Tariff.Command.Tiers
import Tariff.Document.Basic
import Tariff.Document.Fault
import Tariff.Document.Record
import Tariff.Edit.Audit
import Tariff.Edit.Draft
import Tariff.Edit.Fields
import Tariff.Edit.Operation
import Tariff.Files.Disk
import Tariff.Files.Path
import Tariff.Files.Stored
import Tariff.Json.Basic
import Tariff.Json.Lexer
import Tariff.Json.Reader
import Tariff.Json.Writer
import Tariff.Main
import Tariff.Number.Binary
import Tariff.Number.Fixed
import Tariff.Number.Layout
import Tariff.Number.Reading
import Tariff.Number.Rounding
import Tariff.Number.Scientific
import Tariff.Price.Basis
import Tariff.Price.Conversion
import Tariff.Price.Model
import Tariff.Price.Query
import Tariff.Price.Quote
import Tariff.Price.Stored
import Tariff.Price.Unit
import Tariff.Proofs.Agreement
import Tariff.Proofs.Arithmetic
import Tariff.Proofs.Charge
import Tariff.Proofs.Commute
import Tariff.Proofs.Decimal
import Tariff.Proofs.Digits
import Tariff.Proofs.Disk
import Tariff.Proofs.Division
import Tariff.Proofs.Document
import Tariff.Proofs.Edit
import Tariff.Proofs.Exact
import Tariff.Proofs.Fields
import Tariff.Proofs.Float.Nearest
import Tariff.Proofs.Float.Numeral
import Tariff.Proofs.Float.Operations
import Tariff.Proofs.Float.Shape
import Tariff.Proofs.FromFloat
import Tariff.Proofs.Json.Finite
import Tariff.Proofs.Json.Number
import Tariff.Proofs.Json.ReadBack
import Tariff.Proofs.Json.Tokens
import Tariff.Proofs.Json.Values
import Tariff.Proofs.Locality
import Tariff.Proofs.Overflow
import Tariff.Proofs.Pattern
import Tariff.Proofs.Quote
import Tariff.Proofs.Reload
import Tariff.Proofs.Results
import Tariff.Proofs.Rounding
import Tariff.Proofs.Search
import Tariff.Proofs.Selection
import Tariff.Proofs.Session
import Tariff.Proofs.Shortfall
import Tariff.Proofs.Stored
import Tariff.Proofs.Table
import Tariff.Proofs.Takeover
import Tariff.Proofs.Tidy
import Tariff.Proofs.Unlisted
import Tariff.Remote.Client
import Tariff.Remote.Endpoint
import Tariff.Remote.Options
import Tariff.Report.Amount
import Tariff.Report.Answers
import Tariff.Report.Columns
import Tariff.Report.Page
import Tariff.Report.Prices
import Tariff.Report.Tiers
import Tariff.Setup.Audit
import Tariff.Setup.Basic
import Tariff.Setup.Stored
import Tariff.Table
import Tariff.Text.Blank
import Tariff.Text.Digits
import Tariff.Text.Pieces
import Tariff.Tier.Bounds
import Tariff.Tier.Pattern
import Tariff.Tier.Rule
import Tariff.Tier.Snapshot
import Tariff.Tier.Stored
import Tariff.Toml.Lexer
import Tariff.Toml.Reader
import Tariff.Toml.Tree
import Tariff.Toml.Word
import Tariff.Toml.Writer
import Tariff.Url.Basic
import Tariff.Url.Host
import Tariff.Url.Letters
import Tariff.Url.Octets
import Tariff.Url.Punycode
import Tariff.Proofs.Options
import Tariff.Proofs.Toml.Word
import Tariff.Proofs.Toml.Quoted
import Tariff.Proofs.Toml.Run
import Tariff.Proofs.Toml.Sections
import Tariff.Proofs.Toml.Tree
import Tariff.Proofs.Toml.Bounded
import Tariff.Proofs.Setup
import Tariff.Proofs.Groups
import Tariff.Proofs.Minimum
import Tariff.Proofs.Sound
import Tariff.Proofs.Wildcard
import Tariff.Proofs.Put
import Tariff.Proofs.Move
import Tariff.Proofs.Ungiven
import Tariff.Proofs.Repeat
import Tariff.Proofs.Idle
import Tariff.Proofs.Listing
import Tariff.Proofs.Undo
import Tariff.Proofs.Template
import Tariff.Proofs.OptionValues
import Tariff.Proofs.SoundSetup
import Tariff.Proofs.Report.NoEscape
import Tariff.Proofs.Report.Color
import Tariff.Proofs.Conversion
import Tariff.Proofs.Report.Columns
import Tariff.Proofs.Report.Range
