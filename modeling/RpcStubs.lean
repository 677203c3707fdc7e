import RpcStubs.Artifact.Basic
import RpcStubs.Artifact.Build
import RpcStubs.Artifact.Client
import RpcStubs.Artifact.Line
import RpcStubs.Artifact.Pagination
import RpcStubs.Artifact.Proto
import RpcStubs.Artifact.Render
import RpcStubs.Artifact.Server
import RpcStubs.Artifact.Service
import RpcStubs.Catalog
import RpcStubs.Command.Basic
import RpcStubs.Command.Run
import RpcStubs.Command.Script
import RpcStubs.Command.Utility
import RpcStubs.CommandLine.Arguments
import RpcStubs.CommandLine.Help
import RpcStubs.CommandLine.Order
import RpcStubs.CommandLine.Program
import RpcStubs.Configuration
import RpcStubs.Configuration.Resolve
import RpcStubs.Convention
import RpcStubs.Data.Decimal
import RpcStubs.Data.Json
import RpcStubs.Data.Node
import RpcStubs.Data.Toml
import RpcStubs.Data.Yaml
import RpcStubs.Data.Yaml.Block
import RpcStubs.Data.Yaml.Core
import RpcStubs.Data.Yaml.Cursor
import RpcStubs.Data.Yaml.Flow
import RpcStubs.Data.Yaml.Layout
import RpcStubs.Data.Yaml.Tag
import RpcStubs.Data.Yaml.Token
import RpcStubs.Data.Yaml.Tree
import RpcStubs.Document.Basic
import RpcStubs.Document.Decode
import RpcStubs.Document.Load
import RpcStubs.Document.Lookup
import RpcStubs.Document.Shape
import RpcStubs.Document.Spelled
import RpcStubs.Event
import RpcStubs.Extraction
import RpcStubs.Failure
import RpcStubs.Files.Access
import RpcStubs.Files.Change
import RpcStubs.Files.Fault
import RpcStubs.Files.Path
import RpcStubs.Files.Tree
import RpcStubs.ImportPath
import RpcStubs.Instant
import RpcStubs.Listing
import RpcStubs.Main
import RpcStubs.Manifest
import RpcStubs.Model
import RpcStubs.Operation
import RpcStubs.Package
import RpcStubs.Proofs.Artifact.Balance
import RpcStubs.Proofs.Artifact.Declarations
import RpcStubs.Proofs.Artifact.Header
import RpcStubs.Proofs.Artifact.Messages
import RpcStubs.Proofs.Artifact.Names
import RpcStubs.Proofs.Artifact.Templates
import RpcStubs.Proofs.CommandLine.Formatters
import RpcStubs.Proofs.Configuration.Geometry
import RpcStubs.Proofs.Configuration.ImportPath
import RpcStubs.Proofs.Configuration.ProtoPath
import RpcStubs.Proofs.Configuration.Targets
import RpcStubs.Proofs.Convention.Accepted
import RpcStubs.Proofs.Convention.Checks
import RpcStubs.Proofs.Convention.Collisions
import RpcStubs.Proofs.Convention.Followed
import RpcStubs.Proofs.Convention.Inline
import RpcStubs.Proofs.Convention.References
import RpcStubs.Proofs.Document.PlainNames
import RpcStubs.Proofs.Document.Selection
import RpcStubs.Proofs.Extraction.Kept
import RpcStubs.Proofs.Extraction.Outcome
import RpcStubs.Proofs.Extraction.Texts
import RpcStubs.Proofs.Files.Additions
import RpcStubs.Proofs.Files.Canonical
import RpcStubs.Proofs.Files.Components
import RpcStubs.Proofs.Files.Effects
import RpcStubs.Proofs.Files.LinkFree
import RpcStubs.Proofs.Files.Names
import RpcStubs.Proofs.Files.Plain
import RpcStubs.Proofs.Files.Sound
import RpcStubs.Proofs.Files.Upward
import RpcStubs.Proofs.Listing.Fetchers
import RpcStubs.Proofs.Model.Distinct
import RpcStubs.Proofs.Model.Fits
import RpcStubs.Proofs.Run.Accepted
import RpcStubs.Proofs.Run.Again
import RpcStubs.Proofs.Run.Alike
import RpcStubs.Proofs.Run.Footprint
import RpcStubs.Proofs.Run.FreeText
import RpcStubs.Proofs.Run.Plan
import RpcStubs.Proofs.Run.Prediction
import RpcStubs.Proofs.Run.Prefix
import RpcStubs.Proofs.Run.Protected
import RpcStubs.Proofs.Run.Spelling
import RpcStubs.Proofs.Run.Timestamps
import RpcStubs.Proofs.Run.Writing
import RpcStubs.Proofs.Source.Balance
import RpcStubs.Proofs.Source.Comments
import RpcStubs.Proofs.Source.Layout
import RpcStubs.Proofs.Source.Nesting
import RpcStubs.Proofs.Template
import RpcStubs.Proofs.Text.Joined
import RpcStubs.Proofs.Text.Pieces
import RpcStubs.Route
import RpcStubs.Run.Plan
import RpcStubs.Run.Request
import RpcStubs.Run.Writing
import RpcStubs.Settings.Load
import RpcStubs.Settings.Read
import RpcStubs.Source.Brackets
import RpcStubs.Source.Format
import RpcStubs.Source.Layout
import RpcStubs.Summary
import RpcStubs.Template
import RpcStubs.Text.Blank
import RpcStubs.Text.Capital
import RpcStubs.Text.Pieces
import RpcStubs.Text.Utf8
import RpcStubs.Proofs.Document.Aliases
import RpcStubs.Proofs.Listing.Classified
import RpcStubs.Proofs.Source.Spacing
import RpcStubs.Proofs.Source.WellNested
import RpcStubs.Proofs.Source.Acceptance
import RpcStubs.Proofs.Run.History
import RpcStubs.Proofs.Document.AliasChains
import RpcStubs.Proofs.Route.Grammar
import RpcStubs.Proofs.Route.Identifiers
import RpcStubs.Proofs.Summary
import RpcStubs.Proofs.Extraction.Log
import RpcStubs.Proofs.Artifact.CallLines
import RpcStubs.Proofs.Artifact.Calls
import RpcStubs.Proofs.Artifact.DescribedCalls
import RpcStubs.Proofs.Artifact.Makefile
import RpcStubs.Proofs.Text.Stripped
import RpcStubs.Proofs.Manifest
import RpcStubs.Proofs.Artifact.MessageFile
import RpcStubs.Proofs.Configuration.JoinedImports
import RpcStubs.Proofs.Source.Passages
import RpcStubs.Proofs.Artifact.Imports
import RpcStubs.Proofs.Source.Places
