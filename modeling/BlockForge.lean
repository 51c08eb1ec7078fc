import BlockForge.Block.Default
import BlockForge.Block.Message
import BlockForge.Block.Mutation
import BlockForge.Block.Option
import BlockForge.Block.Slot
import BlockForge.BlockFile.Load
import BlockForge.Command.FileTree
import BlockForge.Command.Run
import BlockForge.Diagnostic.Layout
import BlockForge.Fixture.Category
import BlockForge.Fixture.Verdict
import BlockForge.Generation.Artifact
import BlockForge.Host
import BlockForge.Json.Reader
import BlockForge.Json.Text
import BlockForge.Main
import BlockForge.Number.Shortest
import BlockForge.Text.Blank
import BlockForge.Text.Hidden
import BlockForge.Text.Lines
import BlockForge.Text.Name
import BlockForge.Text.Quoted
import BlockForge.Text.Width
import BlockForge.Toml.Document
import BlockForge.Workspace.Edit
import BlockForge.Proofs.Workspace.Lookup
import BlockForge.Proofs.Workspace.Arrangement
import BlockForge.Proofs.Workspace.Attachment
import BlockForge.Proofs.Workspace.Links
import BlockForge.Proofs.Tree.Coherent
import BlockForge.Proofs.Tree.Guarded
import BlockForge.Proofs.Number.Plain
import BlockForge.Proofs.Json.StringLiteral
import BlockForge.Proofs.Json.NumberText
import BlockForge.Proofs.Json.Token
import BlockForge.Proofs.Json.Nesting
import BlockForge.Proofs.Json.Grammar
import BlockForge.Proofs.Json.LineFeeds
import BlockForge.Proofs.Json.Assembly
import BlockForge.Proofs.Json.Layout
import BlockForge.Proofs.Generation.Arguments
import BlockForge.Proofs.Generation.Walk
import BlockForge.Proofs.Generation.Description
import BlockForge.Proofs.Generation.Fragment
import BlockForge.Proofs.Generation.Calls
import BlockForge.Proofs.Generation.Document
import BlockForge.Proofs.Generation.Definition
import BlockForge.Proofs.Generation.Glue
import BlockForge.Proofs.Generation.Agreement
import BlockForge.Proofs.Workspace.Forest
import BlockForge.Proofs.Workspace.Admission
import BlockForge.Proofs.Workspace.Effect
import BlockForge.Proofs.Workspace.Exchange
import BlockForge.Proofs.Workspace.SlotGrowth
import BlockForge.Proofs.Generation.Sharing
import BlockForge.Proofs.Generation.Isolation
import BlockForge.Proofs.Generation.Roots
import BlockForge.Proofs.BlockFile.Growth
import BlockForge.Proofs.BlockFile.Loading
import BlockForge.Proofs.BlockFile.Depiction
import BlockForge.Proofs.Generation.Naming
import BlockForge.Proofs.Generation.GlueText
import BlockForge.Proofs.Generation.NameDependence
import BlockForge.Proofs.Generation.Warnings
import BlockForge.Proofs.BlockFile.Reachable
import BlockForge.Proofs.Command.CombinedGlue
import BlockForge.Proofs.Generation.BlockNames
import BlockForge.Proofs.Generation.Artifact
import BlockForge.Proofs.Text.Lowering
import BlockForge.Proofs.Text.Runs
import BlockForge.Proofs.Text.Indentation
import BlockForge.Proofs.Generation.Locals
import BlockForge.Proofs.Generation.TypeGroups
import BlockForge.Proofs.Generation.Infinities
import BlockForge.Proofs.Number.ReadBack
import BlockForge.Proofs.Generation.Siblings
import BlockForge.Proofs.Workspace.OutlineLines
import BlockForge.Proofs.BlockFile.Steps
import BlockForge.Proofs.BlockFile.SlotNotes
import BlockForge.Proofs.BlockFile.Options
import BlockForge.Proofs.Generation.Bundle
import BlockForge.Proofs.Fixture.Selection
import BlockForge.Proofs.Fixture.Exactness
