import CrossModel.Text.Position
import CrossModel.Text.LineIndex
import CrossModel.Text.Segments
import CrossModel.Text.Quoted
import CrossModel.Text.Escaped
import CrossModel.Token.Kind
import CrossModel.Token.Scan
import CrossModel.Document.Import
import CrossModel.Document.Condition
import CrossModel.Document.Basic
import CrossModel.Document.ParseError
import CrossModel.Document.Cursor
import CrossModel.Document.Parser
import CrossModel.OrderedMap
import CrossModel.Definition
import CrossModel.Catalog
import CrossModel.Files.Path
import CrossModel.Files.Tree
import CrossModel.Files.System
import CrossModel.Files.Indirections
import CrossModel.Files.Settings
import CrossModel.Log
import CrossModel.Link.ResolveError
import CrossModel.Link.QualifiedName
import CrossModel.Link.Basic
import CrossModel.Link.Diagnostic
import CrossModel.Link.Scope
import CrossModel.Link.Execution
import CrossModel.Link.Definitions
import CrossModel.Session.Bundle
import CrossModel.Session.Basic
import CrossModel.Session.Resolve
import CrossModel.Session.Link
import CrossModel.Proofs.Since
import CrossModel.Proofs.Catalog
import CrossModel.Proofs.CatalogHistory
import CrossModel.Proofs.Text.Positions
import CrossModel.Proofs.Text.Lines
import CrossModel.Proofs.Token.Tiling
import CrossModel.Proofs.Token.Literals
import CrossModel.Proofs.Document.Grammar
import CrossModel.Proofs.Document.Reading
import CrossModel.Proofs.Document.Acceptance
import CrossModel.Proofs.Document.Layout
import CrossModel.Proofs.Document.Spelling
import CrossModel.Proofs.Document.Parts
import CrossModel.Proofs.Document.Spans
import CrossModel.Proofs.Document.Stopping
import CrossModel.Proofs.Document.FirstFault
import CrossModel.Proofs.Document.Provenance
import CrossModel.Proofs.Document.Imports
import CrossModel.Proofs.Document.Accesses
import CrossModel.Proofs.Document.Nesting
import CrossModel.Proofs.Files.Canonical
import CrossModel.Proofs.Files.AliasLocations
import CrossModel.Proofs.Files.Below
import CrossModel.Proofs.Files.Locate
import CrossModel.Proofs.Link.Instances
import CrossModel.Proofs.Link.Reports
import CrossModel.Proofs.Link.Follows
import CrossModel.Proofs.Link.QualifiedNames
import CrossModel.Proofs.Link.Events
import CrossModel.Proofs.Session.Loading
import CrossModel.Proofs.Session.Run
import CrossModel.Proofs.Session.CacheTransparency
import CrossModel.Proofs.Session.Refresh
import CrossModel.Proofs.Session.LoadHistory
import CrossModel.Proofs.Session.FailedImport
import CrossModel.Proofs.Session.Stability
import CrossModel.Proofs.Session.RefreshOrder
import CrossModel.Proofs.Session.Update
import CrossModel.Proofs.Session.ExecutionReports
import CrossModel.Proofs.Session.SourceOrder
import CrossModel.Proofs.Session.AliasBindings
import CrossModel.Proofs.Session.FrozenBundle
import CrossModel.Proofs.Session.BundleEntries
import CrossModel.Proofs.Session.BundleContents
import CrossModel.Proofs.Session.AliasedImport
import CrossModel.Proofs.Session.BundledImports
import CrossModel.Proofs.Session.ScopeContents
