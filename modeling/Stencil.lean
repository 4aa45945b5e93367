import Stencil.Argument
import Stencil.Config
import Stencil.Config.Partial
import Stencil.Decimal.Binary
import Stencil.Decimal.Layout
import Stencil.Decimal.Reader
import Stencil.Decimal.Shortest
import Stencil.Directive
import Stencil.Engine
import Stencil.Engine.History
import Stencil.Entries
import Stencil.Error
import Stencil.Generator
import Stencil.Generator.Additions
import Stencil.Json.Draft
import Stencil.Json.Number
import Stencil.Json.Settings
import Stencil.Json.Text
import Stencil.Json.Token
import Stencil.Json.Tree
import Stencil.Log
import Stencil.Proofs.Agreement
import Stencil.Proofs.Ambiguity
import Stencil.Proofs.Argument
import Stencil.Proofs.Assembly
import Stencil.Proofs.Becoming
import Stencil.Proofs.Blame
import Stencil.Proofs.Command
import Stencil.Proofs.Concatenation
import Stencil.Proofs.Counting
import Stencil.Proofs.Descent
import Stencil.Proofs.Digits
import Stencil.Proofs.Failure
import Stencil.Proofs.Forms
import Stencil.Proofs.Guards
import Stencil.Proofs.History
import Stencil.Proofs.JsonLoading
import Stencil.Proofs.JsonNumbers
import Stencil.Proofs.JsonWritten
import Stencil.Proofs.Layout
import Stencil.Proofs.Lexed
import Stencil.Proofs.Loops
import Stencil.Proofs.Nesting
import Stencil.Proofs.OneLine
import Stencil.Proofs.Outputs
import Stencil.Proofs.Positions
import Stencil.Proofs.Predicates
import Stencil.Proofs.Printed
import Stencil.Proofs.Reading
import Stencil.Proofs.Renaming
import Stencil.Proofs.Rendering
import Stencil.Proofs.Reuse
import Stencil.Proofs.Role
import Stencil.Proofs.RoundTrip
import Stencil.Proofs.Searching
import Stencil.Proofs.Segments
import Stencil.Proofs.Shortest
import Stencil.Proofs.Sites
import Stencil.Proofs.Spelling
import Stencil.Proofs.Tables
import Stencil.Proofs.TokenStream
import Stencil.Proofs.WellFormed
import Stencil.Proofs.Written
import Stencil.Proofs.YamlEvents
import Stencil.Proofs.YamlLoading
import Stencil.Proofs.YamlTokens
import Stencil.Render.Evaluation
import Stencil.Render.Machine
import Stencil.Render.Scope
import Stencil.Render.Task
import Stencil.Segment
import Stencil.Segment.Grammar
import Stencil.Template.Assembly
import Stencil.Template.Basic
import Stencil.Template.Descent
import Stencil.Template.Equality
import Stencil.Template.Names
import Stencil.Template.Nesting
import Stencil.Template.Printer
import Stencil.Template.Site
import Stencil.Template.WellFormed
import Stencil.Text.Bytes
import Stencil.Text.Escape
import Stencil.Text.Printable
import Stencil.Text.Quoted
import Stencil.Text.Ranges
import Stencil.Text.Word
import Stencil.Token
import Stencil.Toml.Date
import Stencil.Toml.Scalar
import Stencil.Toml.Settings
import Stencil.Toml.Statement
import Stencil.Toml.Table
import Stencil.Toml.Text
import Stencil.Value.Alike
import Stencil.Value.Basic
import Stencil.Value.Becoming
import Stencil.Value.Composition
import Stencil.Value.Datum
import Stencil.Value.Json
import Stencil.Value.Loading
import Stencil.Value.Yaml
import Stencil.Yaml.Cursor
import Stencil.Yaml.Document
import Stencil.Yaml.Event
import Stencil.Yaml.Scalar
import Stencil.Yaml.Schema
import Stencil.Yaml.Token
