import DocQuery.Backend
import DocQuery.Composition.Build
import DocQuery.Composition.Conditions
import DocQuery.Composition.Node
import DocQuery.Condition.Check
import DocQuery.Condition.Disjuncts
import DocQuery.Condition.Flat
import DocQuery.Condition.Json
import DocQuery.Condition.OperandError
import DocQuery.Condition.Operator
import DocQuery.Condition.Predicate
import DocQuery.Condition.Symbol
import DocQuery.Condition.Tree
import DocQuery.Fault
import DocQuery.Fault.Code
import DocQuery.Json
import DocQuery.Json.Form
import DocQuery.Json.Reader
import DocQuery.Json.Writer
import DocQuery.Metrics.Counters
import DocQuery.Metrics.Event
import DocQuery.Metrics.Json
import DocQuery.Number.Binary64
import DocQuery.Number.Shortest
import DocQuery.Operation.Clause
import DocQuery.Operation.Command
import DocQuery.Operation.Draft
import DocQuery.Operation.Editing
import DocQuery.Operation.Freeze
import DocQuery.Operation.Json
import DocQuery.Operation.Statement
import DocQuery.Parameter
import DocQuery.Parameter.Json
import DocQuery.Registry
import DocQuery.Schema.Document
import DocQuery.Schema.Json
import DocQuery.Schema.Kind
import DocQuery.Schema.Path
import DocQuery.Sql.Compile
import DocQuery.Sql.Dialect
import DocQuery.Sql.Settings
import DocQuery.Sql.Settings.File
import DocQuery.Sql.Settings.Json
import DocQuery.Sql.Term
import DocQuery.Text.Alphanumeric
import DocQuery.Text.Blank
import DocQuery.Text.CaseTable
import DocQuery.Text.CharClass
import DocQuery.Text.Crockford
import DocQuery.Text.Digits
import DocQuery.Text.Escaped
import DocQuery.Text.LowerCase
import DocQuery.Text.Printable
import DocQuery.Time.Calendar
import DocQuery.Time.Instant
import DocQuery.Toml
import DocQuery.Toml.Quoted
import DocQuery.Toml.Reader
import DocQuery.Value
import DocQuery.Value.Display
import DocQuery.Value.Json
import DocQuery.Value.Mask
import DocQuery.Proofs.NormalForm
import DocQuery.Proofs.Reading
import DocQuery.Proofs.Sequence
import DocQuery.Proofs.FlatDecode
import DocQuery.Proofs.FlatEncode
import DocQuery.Proofs.Implied
import DocQuery.Proofs.FlatRoundTrip
import DocQuery.Proofs.CompiledReading
import DocQuery.Proofs.Disjuncts
import DocQuery.Proofs.Choices
import DocQuery.Proofs.Rejoining
import DocQuery.Proofs.Places
import DocQuery.Proofs.Slots
import DocQuery.Proofs.Leafwise
import DocQuery.Proofs.Parentheses
import DocQuery.Proofs.CompiledLeaves
import DocQuery.Proofs.ThreeValued
import DocQuery.Proofs.Nulls
import DocQuery.Proofs.Meaning
import DocQuery.Proofs.Complements
import DocQuery.Proofs.Masks
import DocQuery.Proofs.Pieces
import DocQuery.Proofs.Alignment
import DocQuery.Proofs.Freezing
import DocQuery.Proofs.Expressions
import DocQuery.Proofs.Accepting
import DocQuery.Proofs.Grouping
import DocQuery.Proofs.Checked
import DocQuery.Proofs.Declared
import DocQuery.Proofs.RequestFaults
import DocQuery.Proofs.Interchange
import DocQuery.Proofs.Statements
import DocQuery.Proofs.Resolving
import DocQuery.Proofs.Execution
import DocQuery.Proofs.Borrowing
import DocQuery.Proofs.Reachable
import DocQuery.Proofs.Keys
import DocQuery.Proofs.Refusals
import DocQuery.Proofs.Growth
import DocQuery.Proofs.WellFormed
import DocQuery.Proofs.Retained
import DocQuery.Proofs.Leftovers
import DocQuery.Proofs.Connecting
import DocQuery.Proofs.Registering
import DocQuery.Proofs.Agreement
import DocQuery.Proofs.Canonical
import DocQuery.Proofs.Quoting
import DocQuery.Proofs.Walking
import DocQuery.Proofs.Binding
import DocQuery.Proofs.Handles
import DocQuery.Proofs.FieldPairs
import DocQuery.Proofs.Tallies
import DocQuery.Proofs.Sessions
import DocQuery.Proofs.Reports
import DocQuery.Proofs.StringForms
import DocQuery.Proofs.EntryLines
import DocQuery.Proofs.SettingsFile
import DocQuery.Proofs.Asked
