import Uncomment.Main
import Uncomment.Proofs.Acceptance
import Uncomment.Proofs.Agreement
import Uncomment.Proofs.CheckMode
import Uncomment.Proofs.CodeLines
import Uncomment.Proofs.DirectiveLines
import Uncomment.Proofs.DisabledText
import Uncomment.Proofs.Encodings
import Uncomment.Proofs.FileIsolation
import Uncomment.Proofs.Idempotence
import Uncomment.Proofs.Interleaving
import Uncomment.Proofs.Lookahead
import Uncomment.Proofs.NestedBranches
import Uncomment.Proofs.Pieces
import Uncomment.Proofs.Removal
import Uncomment.Proofs.Replay
import Uncomment.Proofs.Reproduction
import Uncomment.Proofs.Rereading
import Uncomment.Proofs.ResolvedPaths
import Uncomment.Proofs.Rules
import Uncomment.Proofs.SameCode
import Uncomment.Proofs.SameLine
import Uncomment.Proofs.Scheduling
import Uncomment.Proofs.SelectedPaths
import Uncomment.Proofs.Shape
import Uncomment.Proofs.Shrinking
import Uncomment.Proofs.SpanCuts
import Uncomment.Proofs.SpanEdits
import Uncomment.Proofs.StrippedSpans
import Uncomment.Proofs.TriviaSplit
import Uncomment.Proofs.UnrelatedBreaks
import Uncomment.Proofs.WritingBack
import Uncomment.Proofs.CommentLines
import Uncomment.Proofs.ConditionGrammar
import Uncomment.Proofs.OpenGroups
import Uncomment.Proofs.PrintedConditions
import Uncomment.Proofs.StringForms
import Uncomment.Proofs.InterpolatedForms
import Uncomment.Proofs.BalancedBrackets
import Uncomment.Proofs.FaultyPieces
import Uncomment.Proofs.LineStarts
import Uncomment.Proofs.SafeReports
import Uncomment.Proofs.PositionOrder
import Uncomment.Proofs.SolutionLines
import Uncomment.Proofs.TextCuts
import Uncomment.Proofs.ReplacedItems
import Uncomment.Proofs.SourceSets
import Uncomment.Proofs.SpelledPaths
import Uncomment.Proofs.LastNames
import Uncomment.Proofs.NormalForms
