import ComponentLoader.CommandLine.Arguments
import ComponentLoader.CommandLine.Run
import ComponentLoader.Component.Basic
import ComponentLoader.Component.Candidate
import ComponentLoader.Component.Fragments
import ComponentLoader.Component.HotReload
import ComponentLoader.Component.Node
import ComponentLoader.Component.Resource
import ComponentLoader.Component.Styles
import ComponentLoader.Dict
import ComponentLoader.Digest.Blake3
import ComponentLoader.Digest.Short
import ComponentLoader.Edit
import ComponentLoader.Files.Listing
import ComponentLoader.Files.Tree
import ComponentLoader.Files.Write
import ComponentLoader.Json.Basic
import ComponentLoader.Literal.Basic
import ComponentLoader.Literal.Draft
import ComponentLoader.Literal.Value
import ComponentLoader.Loader
import ComponentLoader.Main
import ComponentLoader.Path
import ComponentLoader.Proofs.CommandLine.Account
import ComponentLoader.Proofs.CommandLine.Collection
import ComponentLoader.Proofs.CommandLine.Collisions
import ComponentLoader.Proofs.CommandLine.Execution
import ComponentLoader.Proofs.CommandLine.Targets
import ComponentLoader.Proofs.Component.Classification
import ComponentLoader.Proofs.Component.Entries
import ComponentLoader.Proofs.Component.Fields
import ComponentLoader.Proofs.Component.Reading
import ComponentLoader.Proofs.Component.Retention
import ComponentLoader.Proofs.Component.Scoping
import ComponentLoader.Proofs.Component.Styles
import ComponentLoader.Proofs.Edit.Splicing
import ComponentLoader.Proofs.Literal.Comments
import ComponentLoader.Proofs.Literal.Draft
import ComponentLoader.Proofs.Literal.Separator
import ComponentLoader.Proofs.Literal.Values
import ComponentLoader.Proofs.Loader.FastPath
import ComponentLoader.Proofs.Loader.Mark
import ComponentLoader.Proofs.Loader.Naming
import ComponentLoader.Proofs.Loader.Numbering
import ComponentLoader.Proofs.Loader.Outcomes
import ComponentLoader.Proofs.Loader.Preservation
import ComponentLoader.Proofs.Query.Contents
import ComponentLoader.Proofs.Query.Groups
import ComponentLoader.Proofs.Query.Merge
import ComponentLoader.Proofs.Query.Nested
import ComponentLoader.Proofs.Query.Roots
import ComponentLoader.Proofs.Query.RoundTrip
import ComponentLoader.Proofs.Query.Sessions
import ComponentLoader.Proofs.Query.Shape
import ComponentLoader.Proofs.Query.Unescape
import ComponentLoader.Proofs.Settings.ShortPath
import ComponentLoader.Proofs.Text.Search
import ComponentLoader.Query.Basic
import ComponentLoader.Query.Escape
import ComponentLoader.Query.Key
import ComponentLoader.Query.Parser
import ComponentLoader.Query.Printer
import ComponentLoader.Query.Request
import ComponentLoader.Script.Binary64
import ComponentLoader.Script.Cursor
import ComponentLoader.Script.Dialect
import ComponentLoader.Script.Grammar.Arrows
import ComponentLoader.Script.Grammar.Classes
import ComponentLoader.Script.Grammar.Declarations
import ComponentLoader.Script.Grammar.Expressions
import ComponentLoader.Script.Grammar.Functions
import ComponentLoader.Script.Grammar.Markup
import ComponentLoader.Script.Grammar.Modules
import ComponentLoader.Script.Grammar.Objects
import ComponentLoader.Script.Grammar.Operands
import ComponentLoader.Script.Grammar.Operators
import ComponentLoader.Script.Grammar.Patterns
import ComponentLoader.Script.Grammar.Rules
import ComponentLoader.Script.Grammar.Statements
import ComponentLoader.Script.Grammar.Types
import ComponentLoader.Script.Lexer
import ComponentLoader.Script.Parser
import ComponentLoader.Script.Token
import ComponentLoader.Script.Tree
import ComponentLoader.Settings.Context
import ComponentLoader.Settings.Options
import ComponentLoader.Source
import ComponentLoader.Text.Basic
import ComponentLoader.Text.Blank
import ComponentLoader.Text.Identifier
import ComponentLoader.Text.Keyword
import ComponentLoader.Text.Letters
import ComponentLoader.Text.Marks
import ComponentLoader.Text.Quoted
import ComponentLoader.Text.Range
import ComponentLoader.Text.Shown
import ComponentLoader.Text.Unprinted
import ComponentLoader.Text.Utf8
