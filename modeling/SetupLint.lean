import SetupLint.Catalog
import SetupLint.Cli.Arguments
import SetupLint.Cli.Files
import SetupLint.Cli.Glob
import SetupLint.Cli.IgnoreRule
import SetupLint.Cli.Log
import SetupLint.Cli.Run
import SetupLint.Cli.Walk
import SetupLint.Component
import SetupLint.Config
import SetupLint.ConfigSchema
import SetupLint.Diagnostic
import SetupLint.Json.Basic
import SetupLint.Json.Decode
import SetupLint.Json.Message
import SetupLint.Json.Printer
import SetupLint.Json.Reader
import SetupLint.Json.Record
import SetupLint.Json.Word
import SetupLint.Linter
import SetupLint.Main
import SetupLint.Number.Double
import SetupLint.Number.Numeral
import SetupLint.Number.Shortest
import SetupLint.Proofs.AddedMembers
import SetupLint.Proofs.Boundary
import SetupLint.Proofs.BuilderContent
import SetupLint.Proofs.BuilderPlace
import SetupLint.Proofs.BuiltNodes
import SetupLint.Proofs.CarriedSpans
import SetupLint.Proofs.CatalogGrowth
import SetupLint.Proofs.ChangedRules
import SetupLint.Proofs.ChangedSetup
import SetupLint.Proofs.Changes
import SetupLint.Proofs.CollidingKeys
import SetupLint.Proofs.ConditionalCalls
import SetupLint.Proofs.DecodedDepth
import SetupLint.Proofs.DecoderMatch
import SetupLint.Proofs.DecoderSteps
import SetupLint.Proofs.DeliveredDocuments
import SetupLint.Proofs.DirectReads
import SetupLint.Proofs.DirectiveText
import SetupLint.Proofs.DirectiveWords
import SetupLint.Proofs.DistinctFindings
import SetupLint.Proofs.DocumentOrder
import SetupLint.Proofs.EditOrder
import SetupLint.Proofs.EditorPositions
import SetupLint.Proofs.FreshSpans
import SetupLint.Proofs.HeldValues
import SetupLint.Proofs.JsonNesting
import SetupLint.Proofs.LeakOrder
import SetupLint.Proofs.LineNumber
import SetupLint.Proofs.LinePosition
import SetupLint.Proofs.LostResolutions
import SetupLint.Proofs.MemberOrder
import SetupLint.Proofs.NameDecoding
import SetupLint.Proofs.NodeSpans
import SetupLint.Proofs.Parens
import SetupLint.Proofs.Part
import SetupLint.Proofs.PhraseDecoding
import SetupLint.Proofs.PhraseMatch
import SetupLint.Proofs.PlacedNodes
import SetupLint.Proofs.PlacedReads
import SetupLint.Proofs.ReadingDepth
import SetupLint.Proofs.RearrangedUnits
import SetupLint.Proofs.Reencoding
import SetupLint.Proofs.RelocatedRules
import SetupLint.Proofs.ReorderedRules
import SetupLint.Proofs.ReorderedSetup
import SetupLint.Proofs.ReportedPlaces
import SetupLint.Proofs.ResourceLeaks
import SetupLint.Proofs.Roots
import SetupLint.Proofs.RuleFindings
import SetupLint.Proofs.RuleSelection
import SetupLint.Proofs.SeparateDeclarations
import SetupLint.Proofs.SetupHooks
import SetupLint.Proofs.SetupPieces
import SetupLint.Proofs.SetupPlaces
import SetupLint.Proofs.SetupWalk
import SetupLint.Proofs.ShownFindings
import SetupLint.Proofs.SimultaneousEdits
import SetupLint.Proofs.StatementOrder
import SetupLint.Proofs.SuppressionFilter
import SetupLint.Proofs.TextSplit
import SetupLint.Proofs.TypeText
import SetupLint.Proofs.UnitDecoding
import SetupLint.Proofs.Unresolved
import SetupLint.Proofs.VariantMatch
import SetupLint.Proofs.WrappedValues
import SetupLint.Proofs.WrittenDepth
import SetupLint.Report.Editor
import SetupLint.Report.Emitter
import SetupLint.Report.Machine
import SetupLint.Report.Text
import SetupLint.Rule.Async
import SetupLint.Rule.Basic
import SetupLint.Rule.Builder
import SetupLint.Rule.Composition
import SetupLint.Rule.Dependency
import SetupLint.Rule.HeldValue
import SetupLint.Rule.Lifecycle
import SetupLint.Rule.Mutable
import SetupLint.Rule.Props
import SetupLint.Scope
import SetupLint.Setup
import SetupLint.Suppression
import SetupLint.Text.Blank
import SetupLint.Text.Line
import SetupLint.Text.Offset
import SetupLint.Text.Quoted
import SetupLint.Text.Split
import SetupLint.Text.Unprintable
import SetupLint.Text.Wildcard
import SetupLint.Tree.Declaration
import SetupLint.Tree.Decoding
import SetupLint.Tree.Draft
import SetupLint.Tree.Encoding
import SetupLint.Tree.Name
import SetupLint.Tree.Part
import SetupLint.Tree.Phrase
import SetupLint.Tree.Resolution
import SetupLint.Tree.Span
import SetupLint.Tree.View
import SetupLint.Tree.Visit
import SetupLint.Tree.Walk
import SetupLint.Tree.Word
