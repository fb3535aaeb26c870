import TreeStore.Cli.Arguments
import TreeStore.Cli.Command
import TreeStore.Cli.Run
import TreeStore.Cli.Session
import TreeStore.Config
import TreeStore.Document.Fault
import TreeStore.Document.Format
import TreeStore.Document.Node
import TreeStore.Document.Reading
import TreeStore.Document.Record
import TreeStore.Document.Source
import TreeStore.Files.Fault
import TreeStore.Files.Folder
import TreeStore.Files.Path
import TreeStore.Files.Workspace
import TreeStore.Hierarchy
import TreeStore.Ident
import TreeStore.Infer
import TreeStore.InputError
import TreeStore.Json.Number
import TreeStore.Json.Reader
import TreeStore.Json.Token
import TreeStore.Json.Value
import TreeStore.Load.Check
import TreeStore.Load.Error
import TreeStore.Load.Loader
import TreeStore.Load.Path
import TreeStore.Main
import TreeStore.Model.Basic
import TreeStore.Model.Document
import TreeStore.Model.Xml
import TreeStore.Name
import TreeStore.Number.Binary64
import TreeStore.Number.Notation
import TreeStore.Number.Numeral
import TreeStore.Number.Shortest
import TreeStore.Proofs.Cli.Loaders
import TreeStore.Proofs.Cli.Session
import TreeStore.Proofs.Document.Integers
import TreeStore.Proofs.Document.Places
import TreeStore.Proofs.Document.ReadBack
import TreeStore.Proofs.Document.RoundTrip
import TreeStore.Proofs.Document.XmlModels
import TreeStore.Proofs.Hierarchy
import TreeStore.Proofs.Infer.Loading
import TreeStore.Proofs.Infer.Summary
import TreeStore.Proofs.Infer.Visit
import TreeStore.Proofs.Json.Literals
import TreeStore.Proofs.Kinds
import TreeStore.Proofs.Load.Balance
import TreeStore.Proofs.Load.BoundValues
import TreeStore.Proofs.Load.ColumnCache
import TreeStore.Proofs.Load.Conformity
import TreeStore.Proofs.Load.Consistent
import TreeStore.Proofs.Load.Contents
import TreeStore.Proofs.Load.Coupling
import TreeStore.Proofs.Load.Declared
import TreeStore.Proofs.Load.EntityContents
import TreeStore.Proofs.Load.EntityRows
import TreeStore.Proofs.Load.Errors
import TreeStore.Proofs.Load.Gains
import TreeStore.Proofs.Load.Interruption
import TreeStore.Proofs.Load.Keeping
import TreeStore.Proofs.Load.Lockstep
import TreeStore.Proofs.Load.Matching
import TreeStore.Proofs.Load.Misspelled
import TreeStore.Proofs.Load.NewEntity
import TreeStore.Proofs.Load.Node
import TreeStore.Proofs.Load.Numbers
import TreeStore.Proofs.Load.Origin
import TreeStore.Proofs.Load.Pairs
import TreeStore.Proofs.Load.Permuted
import TreeStore.Proofs.Load.Reapplied
import TreeStore.Proofs.Load.Recorded
import TreeStore.Proofs.Load.Recording
import TreeStore.Proofs.Load.References
import TreeStore.Proofs.Load.RegistryRefinement
import TreeStore.Proofs.Load.Rejection
import TreeStore.Proofs.Load.RelationColumns
import TreeStore.Proofs.Load.Reload
import TreeStore.Proofs.Load.Renaming
import TreeStore.Proofs.Load.Run
import TreeStore.Proofs.Load.Sent
import TreeStore.Proofs.Load.Session
import TreeStore.Proofs.Load.Settled
import TreeStore.Proofs.Load.Steps
import TreeStore.Proofs.Load.Stopping
import TreeStore.Proofs.Load.Surroundings
import TreeStore.Proofs.Load.Trail
import TreeStore.Proofs.Load.Twins
import TreeStore.Proofs.Load.Uniqueness
import TreeStore.Proofs.Load.Upsert
import TreeStore.Proofs.Load.Violations
import TreeStore.Proofs.Load.Walk
import TreeStore.Proofs.Names
import TreeStore.Proofs.Numerals
import TreeStore.Proofs.Outcome
import TreeStore.Proofs.Schema.Compiled
import TreeStore.Proofs.Schema.Creatable
import TreeStore.Proofs.Schema.CreationOrder
import TreeStore.Proofs.Schema.Diagram
import TreeStore.Proofs.Schema.DiagramText
import TreeStore.Proofs.Schema.ForeignKeys
import TreeStore.Proofs.Schema.GeneratedNames
import TreeStore.Proofs.Schema.Leaves
import TreeStore.Proofs.Schema.Tables
import TreeStore.Proofs.Schema.TargetsFirst
import TreeStore.Proofs.Schema.WellFormed
import TreeStore.Proofs.Sql.Command
import TreeStore.Proofs.Sql.Placeholders
import TreeStore.Proofs.Sql.Printed
import TreeStore.Proofs.Sql.ReadBack
import TreeStore.Proofs.Sql.Requests
import TreeStore.Proofs.Sql.Run
import TreeStore.Proofs.Sql.Token
import TreeStore.Proofs.Store.Applied
import TreeStore.Proofs.Store.Create
import TreeStore.Proofs.Store.Founding
import TreeStore.Proofs.Store.Growth
import TreeStore.Proofs.Store.IdRows
import TreeStore.Proofs.Store.Query
import TreeStore.Proofs.Store.Recovery
import TreeStore.Proofs.Store.Registry
import TreeStore.Proofs.Store.Table
import TreeStore.Proofs.Store.Values
import TreeStore.Proofs.TextMap
import TreeStore.Proofs.Xml.Attributes
import TreeStore.Proofs.Xml.Nesting
import TreeStore.ScalarKind
import TreeStore.Schema.Basic
import TreeStore.Schema.Compile
import TreeStore.Schema.Diagram
import TreeStore.Schema.Order
import TreeStore.Schema.Sql
import TreeStore.Schema.Table
import TreeStore.Store.Apply
import TreeStore.Store.ColumnValue
import TreeStore.Store.Database
import TreeStore.Store.Error
import TreeStore.Store.Recorder
import TreeStore.Store.Registry
import TreeStore.Store.Request
import TreeStore.Store.Snapshot
import TreeStore.Text.Aligned
import TreeStore.Text.Blank
import TreeStore.Text.Case
import TreeStore.Text.CaseTable
import TreeStore.Text.Map
import TreeStore.Text.Shown
import TreeStore.Tree.Basic
import TreeStore.Tree.Document
import TreeStore.Xml.Element
import TreeStore.Xml.Event
import TreeStore.Xml.Fault
import TreeStore.Xml.Tag
import TreeStore.Yaml.Cursor
import TreeStore.Yaml.Lexer
import TreeStore.Yaml.Plain
import TreeStore.Yaml.Printer
import TreeStore.Yaml.Raw
import TreeStore.Yaml.Reader
import TreeStore.Yaml.ScalarText
import TreeStore.Yaml.Style
import TreeStore.Yaml.Tag
import TreeStore.Yaml.Token
