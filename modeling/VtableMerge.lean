import VtableMerge.FileSystem.Tree
import VtableMerge.Main
import VtableMerge.Proofs.Agreement
import VtableMerge.Proofs.Contributions
import VtableMerge.Proofs.Accord
import VtableMerge.Proofs.Reordering
import VtableMerge.Proofs.Confluence
import VtableMerge.Proofs.InputSurvival
import VtableMerge.Proofs.OutputPlacement
import VtableMerge.Proofs.ConflictFree
import VtableMerge.Proofs.FailedAncestry
import VtableMerge.Proofs.Owners
import VtableMerge.Proofs.ShownMerges
import VtableMerge.Proofs.JsonGrammar
import VtableMerge.Proofs.Utf8Decoding
import VtableMerge.Proofs.Parsing
import VtableMerge.Proofs.ReadingBack
import VtableMerge.Proofs.ExportedDocuments
import VtableMerge.Proofs.ShownDocuments
import VtableMerge.Proofs.Traversal
import VtableMerge.Proofs.FailedObservations
import VtableMerge.Proofs.Balance
import VtableMerge.Proofs.Unlabelled
import VtableMerge.Proofs.DocumentPairs
import VtableMerge.Proofs.RefusedInputs
import VtableMerge.Proofs.StoreHistories
import VtableMerge.Proofs.Precedence
import VtableMerge.Proofs.RepeatedMerges
import VtableMerge.Proofs.DocumentTypes
import VtableMerge.Proofs.UntoldParameters
import VtableMerge.Proofs.EffectiveVtables
import VtableMerge.Proofs.DocumentOrder
import VtableMerge.Proofs.PlaceholderSymbols
import VtableMerge.Proofs.LoadedDirectories
import VtableMerge.Proofs.Presentations
import VtableMerge.Proofs.Circles
import VtableMerge.Proofs.BlankDeclarations
import VtableMerge.Proofs.LabelGrammar
