import RankMetric.Builtin
import RankMetric.CommandLine.Arguments
import RankMetric.CommandLine.Response
import RankMetric.Contribution
import RankMetric.Declaration
import RankMetric.Declaration.Line
import RankMetric.Description
import RankMetric.DescriptionError
import RankMetric.Dump
import RankMetric.Emission
import RankMetric.Files
import RankMetric.Generation
import RankMetric.Header
import RankMetric.Json
import RankMetric.Level
import RankMetric.Levelling
import RankMetric.Main
import RankMetric.Marker
import RankMetric.Metric
import RankMetric.Name
import RankMetric.Outline
import RankMetric.Path
import RankMetric.Proofs.AccumulatorReads
import RankMetric.Proofs.AlikeMetrics
import RankMetric.Proofs.AlikeReadings
import RankMetric.Proofs.AssignmentExtent
import RankMetric.Proofs.BalancedOutline
import RankMetric.Proofs.BlankLines
import RankMetric.Proofs.BlockComments
import RankMetric.Proofs.BodyHistory
import RankMetric.Proofs.CivilDates
import RankMetric.Proofs.ClosedComments
import RankMetric.Proofs.ComparedStrategies
import RankMetric.Proofs.Compilation
import RankMetric.Proofs.CompileCalls
import RankMetric.Proofs.CompleteEmission
import RankMetric.Proofs.ContributionClosure
import RankMetric.Proofs.DeclarationLines
import RankMetric.Proofs.DeclarationOrder
import RankMetric.Proofs.DeclarationVerdicts
import RankMetric.Proofs.DeclaredNames
import RankMetric.Proofs.DeclaringCalls
import RankMetric.Proofs.DescriptionLines
import RankMetric.Proofs.DumpedStatements
import RankMetric.Proofs.EarlierStatements
import RankMetric.Proofs.EmissionOrder
import RankMetric.Proofs.ErrorPlaces
import RankMetric.Proofs.GluedOperators
import RankMetric.Proofs.GrowingTables
import RankMetric.Proofs.IncrementalReading
import RankMetric.Proofs.InsertedRemarks
import RankMetric.Proofs.LeadingComments
import RankMetric.Proofs.LevelOrder
import RankMetric.Proofs.LexicalLocations
import RankMetric.Proofs.LineBreaks
import RankMetric.Proofs.LineGroups
import RankMetric.Proofs.LineNumbers
import RankMetric.Proofs.ListNesting
import RankMetric.Proofs.LoopDepth
import RankMetric.Proofs.MarkerGrammar
import RankMetric.Proofs.NativeInitializers
import RankMetric.Proofs.NestedEmission
import RankMetric.Proofs.OneLineAssignments
import RankMetric.Proofs.OutermostBlocks
import RankMetric.Proofs.ParameterCopies
import RankMetric.Proofs.PlainLines
import RankMetric.Proofs.PropagationClosure
import RankMetric.Proofs.PropagationLevels
import RankMetric.Proofs.Provision
import RankMetric.Proofs.QuantityOrigins
import RankMetric.Proofs.ReadTimestamps
import RankMetric.Proofs.ReaderRun
import RankMetric.Proofs.ReaderSteps
import RankMetric.Proofs.ReferenceLevels
import RankMetric.Proofs.Relevelling
import RankMetric.Proofs.RenderedDeclarations
import RankMetric.Proofs.SeparateRoutines
import RankMetric.Proofs.SharedIndentation
import RankMetric.Proofs.StatementReading
import RankMetric.Proofs.StatementSteps
import RankMetric.Proofs.TargetLevels
import RankMetric.Proofs.TokenBorders
import RankMetric.Proofs.TokenOffsets
import RankMetric.Proofs.TokenSegments
import RankMetric.Proofs.TokenTexts
import RankMetric.Proofs.UnbrokenTexts
import RankMetric.Proofs.UsedNames
import RankMetric.Proofs.WovenTemplates
import RankMetric.Propagation
import RankMetric.Quantity
import RankMetric.Report
import RankMetric.Statement
import RankMetric.Substitution
import RankMetric.Tables
import RankMetric.Text.Basic
import RankMetric.Text.Blank
import RankMetric.Text.CaseTable
import RankMetric.Text.Indentation
import RankMetric.Text.Lines
import RankMetric.Text.Lowercase
import RankMetric.Text.Search
import RankMetric.Text.Token
import RankMetric.Timestamp
import RankMetric.Weave
