import StructuralTyping.Main
import StructuralTyping.NameTable
import StructuralTyping.Tree.Build
import StructuralTyping.Tree.Encode
import StructuralTyping.Proofs.PlainTypes
import StructuralTyping.Proofs.IdentifierRun
import StructuralTyping.Proofs.EndlessComparison
import StructuralTyping.Proofs.ExpandedComparisons
import StructuralTyping.Proofs.DeclarationOrder
import StructuralTyping.Proofs.TableIntegrity
import StructuralTyping.Proofs.RunsOnce
import StructuralTyping.Proofs.ReportLevels
import StructuralTyping.Proofs.RevealedParameters
import StructuralTyping.Proofs.JoinedFiles
import StructuralTyping.Proofs.PrintedNumbers
import StructuralTyping.Proofs.PrintedText
import StructuralTyping.Proofs.ReportedPlaces
import StructuralTyping.Proofs.DecodedTrees
import StructuralTyping.Proofs.TreeText
import StructuralTyping.Proofs.RunLookups
import StructuralTyping.Proofs.ResolvedInstances
import StructuralTyping.Proofs.InferenceScope
import StructuralTyping.Proofs.MemberConstraints
import StructuralTyping.Proofs.EqualInterchange
import StructuralTyping.Proofs.ParallelSubstitutions
import StructuralTyping.Proofs.LabelledTables
import StructuralTyping.Proofs.AcceptedPairs
import StructuralTyping.Proofs.CorrespondingEntries
import StructuralTyping.Proofs.ParallelComparisons
import StructuralTyping.Proofs.RelatedInstances
import StructuralTyping.Proofs.GenericSources
import StructuralTyping.Proofs.ConstraintChains
import StructuralTyping.Proofs.FilledTemplates
import StructuralTyping.Proofs.AscendingEntries
import StructuralTyping.Proofs.MismatchEvidence
import StructuralTyping.Proofs.ElaboratedLiterals
import StructuralTyping.Proofs.BalancedChecks
import StructuralTyping.Proofs.StableNames
import StructuralTyping.Proofs.EndingEquality
import StructuralTyping.Proofs.InferredBindings
import StructuralTyping.Proofs.RestoredSessions
import StructuralTyping.Proofs.FilledReservations
