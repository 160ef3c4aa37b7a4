import BlockScript.Archive.Checksum
import BlockScript.Archive.Huffman
import BlockScript.Archive.Inflate
import BlockScript.Archive.Zip
import BlockScript.Call
import BlockScript.Catalog.Basic
import BlockScript.Catalog.Builtin
import BlockScript.Catalog.Reader
import BlockScript.CommandLine.Folder
import BlockScript.CommandLine.Host
import BlockScript.CommandLine.Options
import BlockScript.CommandLine.Run
import BlockScript.Compile
import BlockScript.Costume.Basic
import BlockScript.Costume.DataUrl
import BlockScript.Costume.Drawing
import BlockScript.Diagnostic
import BlockScript.Dict
import BlockScript.Graph.Block
import BlockScript.Graph.Target
import BlockScript.Json.Basic
import BlockScript.Json.Parser
import BlockScript.Json.Printer
import BlockScript.Listing
import BlockScript.Listing.Expression
import BlockScript.Listing.Statement
import BlockScript.Listing.Words
import BlockScript.Main
import BlockScript.Markup.Declaration
import BlockScript.Markup.Document
import BlockScript.Markup.Machine
import BlockScript.Markup.Name
import BlockScript.Markup.Step
import BlockScript.Number.Binary64
import BlockScript.Number.Decimal
import BlockScript.Number.Text
import BlockScript.Number.Total
import BlockScript.Outline
import BlockScript.Project.Decode
import BlockScript.Project.Encode
import BlockScript.Project.Package
import BlockScript.Script.Arguments
import BlockScript.Script.Draft
import BlockScript.Script.Expression
import BlockScript.Script.Line
import BlockScript.Symbols
import BlockScript.Text.Base64
import BlockScript.Text.Basic
import BlockScript.Text.Case
import BlockScript.Text.CaseTable
import BlockScript.Text.Digest
import BlockScript.Text.Hex
import BlockScript.Text.Percent
import BlockScript.Text.Utf8
import BlockScript.Text.WordTable
import BlockScript.Token.Basic
import BlockScript.Token.Scan
import BlockScript.Proofs.Dictionary
import BlockScript.Proofs.Identifier
import BlockScript.Proofs.Symbol
import BlockScript.Proofs.Tree
import BlockScript.Proofs.Held
import BlockScript.Proofs.Reading
import BlockScript.Proofs.Growth
import BlockScript.Proofs.Planting
import BlockScript.Proofs.Drafting
import BlockScript.Proofs.Lines
import BlockScript.Proofs.Forest
import BlockScript.Proofs.Exact
import BlockScript.Proofs.JsonText
import BlockScript.Proofs.JsonOrder
import BlockScript.Proofs.Phrase
import BlockScript.Proofs.Project
import BlockScript.Proofs.Written
import BlockScript.Proofs.Regular
import BlockScript.Proofs.Shape
import BlockScript.Proofs.Spelling
import BlockScript.Proofs.Walk
import BlockScript.Proofs.Roots
import BlockScript.Proofs.Renaming
import BlockScript.Proofs.Inline
import BlockScript.Proofs.Remarks
import BlockScript.Proofs.Bond
import BlockScript.Proofs.Walking
import BlockScript.Proofs.Evolution
import BlockScript.Proofs.Capability
import BlockScript.Proofs.Numbering
import BlockScript.Proofs.Persistence
import BlockScript.Proofs.Binding
import BlockScript.Proofs.Grammar
import BlockScript.Proofs.Parse
import BlockScript.Proofs.Acceptance
import BlockScript.Proofs.Nesting
import BlockScript.Proofs.Legible
import BlockScript.Proofs.Listed
import BlockScript.Proofs.Recall
import BlockScript.Proofs.Headline
import BlockScript.Proofs.Rereading
import BlockScript.Proofs.RoundTrip
import BlockScript.Proofs.Tour
import BlockScript.Proofs.Parallel
import BlockScript.Proofs.Independence
import BlockScript.Proofs.InlineTarget
import BlockScript.Proofs.Layout
import BlockScript.Proofs.Header
import BlockScript.Proofs.Sections
import BlockScript.Proofs.Outlined
import BlockScript.Proofs.Division
import BlockScript.Proofs.Adding
import BlockScript.Proofs.Cursor
import BlockScript.Proofs.AppendOnly
import BlockScript.Proofs.Stack
import BlockScript.Proofs.Plain
import BlockScript.Proofs.Boundary
import BlockScript.Proofs.Accounting
import BlockScript.Proofs.Coverage
import BlockScript.Proofs.Newlines
import BlockScript.Proofs.Rendering
import BlockScript.Proofs.Roster
import BlockScript.Proofs.Descent
import BlockScript.Proofs.Escapes
import BlockScript.Proofs.Base64
import BlockScript.Proofs.Costumes
import BlockScript.Proofs.Primitives
import BlockScript.Proofs.Parts
import BlockScript.Proofs.Fillings
import BlockScript.Proofs.Defaults
import BlockScript.Proofs.Signature
import BlockScript.Proofs.Digits
import BlockScript.Proofs.Digest
import BlockScript.Proofs.Unescaping
import BlockScript.Proofs.Scanning
