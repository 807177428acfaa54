import BlockTree.Calendar
import BlockTree.CommandLine.Arguments
import BlockTree.CommandLine.Disk
import BlockTree.CommandLine.Program
import BlockTree.ContentModel
import BlockTree.Decimal.Binary64
import BlockTree.Decimal.Layout
import BlockTree.Decimal.Numeral
import BlockTree.Decimal.Shortest
import BlockTree.Definition
import BlockTree.Export
import BlockTree.Failure
import BlockTree.Graph
import BlockTree.Graph.Exported
import BlockTree.Graph.Unfolded
import BlockTree.Json.Dialect
import BlockTree.Json.Reader
import BlockTree.Json.Writer
import BlockTree.Loading
import BlockTree.Main
import BlockTree.Proofs.CommandLine.Inspected
import BlockTree.Proofs.ContentModel
import BlockTree.Proofs.Definition.Attributes
import BlockTree.Proofs.Definition.Building
import BlockTree.Proofs.Definition.Check
import BlockTree.Proofs.Definition.Document
import BlockTree.Proofs.Definition.Escape
import BlockTree.Proofs.Definition.Fault
import BlockTree.Proofs.Definition.Location
import BlockTree.Proofs.Definition.Mirror
import BlockTree.Proofs.Definition.Place
import BlockTree.Proofs.Definition.Reason
import BlockTree.Proofs.Definition.StoredLines
import BlockTree.Proofs.Definition.Unrendered
import BlockTree.Proofs.Export.Agreement
import BlockTree.Proofs.Export.Calls
import BlockTree.Proofs.Export.Composed
import BlockTree.Proofs.Export.Rebuilt
import BlockTree.Proofs.Export.Written
import BlockTree.Proofs.Failure
import BlockTree.Proofs.Json.Admitted
import BlockTree.Proofs.Json.Numeral
import BlockTree.Proofs.Json.Portable
import BlockTree.Proofs.Json.Reading
import BlockTree.Proofs.Json.RoundTrip
import BlockTree.Proofs.Json.Spelling
import BlockTree.Proofs.Json.Text
import BlockTree.Proofs.Rendering.Bare
import BlockTree.Proofs.Rendering.Calls
import BlockTree.Proofs.Rendering.Flat
import BlockTree.Proofs.Rendering.LineContent
import BlockTree.Proofs.Rendering.Visit
import BlockTree.Proofs.Rendering.Wrapping
import BlockTree.Proofs.Run
import BlockTree.Proofs.Substitutor
import BlockTree.Proofs.Substitutor.Fold
import BlockTree.Proofs.Substitutor.History
import BlockTree.Proofs.Substitutor.Lines
import BlockTree.Proofs.Substitutor.Modules
import BlockTree.Proofs.Substitutor.NameLists
import BlockTree.Proofs.Substitutor.Registry
import BlockTree.Proofs.Substitutor.Uses
import BlockTree.Proofs.Text.Breaks
import BlockTree.Proofs.Text.Feeds
import BlockTree.Proofs.Text.Lines
import BlockTree.Proofs.Text.LowerCase
import BlockTree.Proofs.Text.Printable
import BlockTree.Proofs.Text.Trimmed
import BlockTree.Proofs.Tree.Branches
import BlockTree.Proofs.Tree.Labelled
import BlockTree.Proofs.Tree.Place
import BlockTree.Proofs.Tree.Rose
import BlockTree.Proofs.Value.Marked
import BlockTree.Proofs.Value.Present
import BlockTree.Proofs.Workspace.Assembly
import BlockTree.Proofs.Workspace.Attachment
import BlockTree.Proofs.Workspace.Canonical
import BlockTree.Proofs.Workspace.Carried
import BlockTree.Proofs.Workspace.Changing
import BlockTree.Proofs.Workspace.Extension
import BlockTree.Proofs.Workspace.Forest
import BlockTree.Proofs.Workspace.Frame
import BlockTree.Proofs.Workspace.Grown
import BlockTree.Proofs.Workspace.Held
import BlockTree.Proofs.Workspace.Holding
import BlockTree.Proofs.Workspace.Known
import BlockTree.Proofs.Workspace.Link
import BlockTree.Proofs.Workspace.Live
import BlockTree.Proofs.Workspace.Making
import BlockTree.Proofs.Workspace.Outline
import BlockTree.Proofs.Workspace.OwnContent
import BlockTree.Proofs.Workspace.Ownership
import BlockTree.Proofs.Workspace.Proper
import BlockTree.Proofs.Workspace.Sharing
import BlockTree.Proofs.Workspace.Shown
import BlockTree.Proofs.Workspace.Spanning
import BlockTree.Proofs.Workspace.Standing
import BlockTree.Proofs.Workspace.Store
import BlockTree.Proofs.Workspace.Walk
import BlockTree.Render
import BlockTree.Run
import BlockTree.Substitutor
import BlockTree.Substitutor.Plugin
import BlockTree.Substitutor.Stock
import BlockTree.Summary
import BlockTree.Text.Base64
import BlockTree.Text.Characters
import BlockTree.Text.Lines
import BlockTree.Text.LowerCase
import BlockTree.Text.LowerCase.Table
import BlockTree.Text.Printable
import BlockTree.Text.Quoted
import BlockTree.Text.Rewriting
import BlockTree.Tree
import BlockTree.Value
import BlockTree.Workspace.Assembly
import BlockTree.Workspace.Basic
import BlockTree.Workspace.Datum
import BlockTree.Workspace.Edit
import BlockTree.Workspace.Growth
import BlockTree.Workspace.Live
import BlockTree.Workspace.Live.Change
import BlockTree.Workspace.Move
import BlockTree.Workspace.Options
import BlockTree.Workspace.Query
import BlockTree.Workspace.Render
import BlockTree.Workspace.Step
import BlockTree.Yaml.BlockText
import BlockTree.Yaml.Chars
import BlockTree.Yaml.Node
import BlockTree.Yaml.Node.Grammar
import BlockTree.Yaml.Node.Graph
import BlockTree.Yaml.Pen
import BlockTree.Yaml.Plain
import BlockTree.Yaml.Quoted
import BlockTree.Yaml.Style
import BlockTree.Yaml.Tag
import BlockTree.Yaml.Timestamp
import BlockTree.Yaml.Token
import BlockTree.Yaml.Token.Lexer
import BlockTree.Yaml.Token.Marker
import BlockTree.Yaml.Writer
