import ScriptStrip.Main
import ScriptStrip.Tree.Edit
import ScriptStrip.Visitor.Edit
import ScriptStrip.Proofs.Counted
import ScriptStrip.Proofs.Reduction
import ScriptStrip.Proofs.ReductionWalk
import ScriptStrip.Proofs.Leftover
import ScriptStrip.Proofs.Placeless
import ScriptStrip.Proofs.SecondPass
import ScriptStrip.Proofs.Reading
import ScriptStrip.Proofs.Spelling
import ScriptStrip.Proofs.WellShaped
import ScriptStrip.Proofs.SpellingLaws
import ScriptStrip.Proofs.GrammarReading
import ScriptStrip.Proofs.ParserSound
import ScriptStrip.Proofs.ParserComplete
import ScriptStrip.Proofs.Legible
import ScriptStrip.Proofs.Rendering
import ScriptStrip.Proofs.Lookahead
import ScriptStrip.Proofs.Scanned
import ScriptStrip.Proofs.TokenPlaces
import ScriptStrip.Proofs.StatementBody
import ScriptStrip.Proofs.Transplant
import ScriptStrip.Tree.Parts
import ScriptStrip.Proofs.NodeParts
import ScriptStrip.Proofs.ParserPlaces
import ScriptStrip.Proofs.NodeSlices
import ScriptStrip.Proofs.SpansExact
import ScriptStrip.Proofs.Formed
import ScriptStrip.Proofs.Erased
import ScriptStrip.Proofs.FormedReduction
import ScriptStrip.Proofs.Regrouped
import ScriptStrip.Proofs.Reprinting
import ScriptStrip.Proofs.PrintedSpelling
import ScriptStrip.Proofs.PrintedSpacing
import ScriptStrip.Proofs.RoundTrip
import ScriptStrip.Tree.Outline
import ScriptStrip.Proofs.Tidied
import ScriptStrip.Proofs.PrintedTokens
import ScriptStrip.Proofs.Refusing
import ScriptStrip.Proofs.Retracing
import ScriptStrip.Proofs.GrammarRetracing
import ScriptStrip.Proofs.Completing
import ScriptStrip.Proofs.GrammarCompleting
import ScriptStrip.Proofs.FirstImpossible
import ScriptStrip.Proofs.Inventory
import ScriptStrip.Proofs.Remaining
import ScriptStrip.Proofs.Built
import ScriptStrip.Proofs.VisitPlaces
import ScriptStrip.Proofs.NeededPairs
import ScriptStrip.Proofs.Constants
import ScriptStrip.Proofs.LineBreaks
import ScriptStrip.Proofs.NodeInduction
import ScriptStrip.Proofs.Neighbours
import ScriptStrip.Proofs.Layouts
import ScriptStrip.Proofs.MergedSigns
import ScriptStrip.Proofs.BareReduction
import ScriptStrip.Proofs.Stricter
import ScriptStrip.Proofs.Shrinking
import ScriptStrip.Proofs.ElseBinding
import ScriptStrip.Proofs.DottedSuffixes
import ScriptStrip.Proofs.BuildRuns
import ScriptStrip.Proofs.FoldedModes
import ScriptStrip.Proofs.Cursor
import ScriptStrip.Proofs.Following
import ScriptStrip.Proofs.GrammarFollowing
import ScriptStrip.Proofs.ReaderCalls
