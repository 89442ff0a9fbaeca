import DocTemplate.Main
import DocTemplate.Directory
import DocTemplate.Proofs.Collections
import DocTemplate.Proofs.NestedWrites
import DocTemplate.Proofs.NestedFrame
import DocTemplate.Proofs.ReadBack
import DocTemplate.Proofs.WriteOrder
import DocTemplate.Proofs.FlatLookup
import DocTemplate.Proofs.FlatCollision
import DocTemplate.Proofs.UsedVariables
import DocTemplate.Proofs.LeafWrites
import DocTemplate.Proofs.StrictVariables
import DocTemplate.Proofs.TemplatePieces
import DocTemplate.Proofs.NearestDouble
import DocTemplate.Proofs.ShortestDigits
import DocTemplate.Proofs.NumberText
import DocTemplate.Proofs.JsonText
import DocTemplate.Proofs.ContainerEquality
import DocTemplate.Proofs.TemplateCuts
import DocTemplate.Proofs.PathParts
import DocTemplate.Proofs.BlockedPaths
import DocTemplate.Proofs.RawRoundTrip
import DocTemplate.Proofs.TextRoundTrip
import DocTemplate.Proofs.WrittenBack
import DocTemplate.Proofs.DirectoryWrites
import DocTemplate.Proofs.CommandEffects
import DocTemplate.Proofs.RenderCommand
import DocTemplate.Proofs.DocumentMarks
import DocTemplate.Proofs.DocumentGrowth
import DocTemplate.Proofs.FlatNormalForm
import DocTemplate.Proofs.TextForms
import DocTemplate.Proofs.VariableLimits
import DocTemplate.Proofs.StrategyDispatch
import DocTemplate.Proofs.BytePositions
import DocTemplate.Proofs.CommandAgreement
import DocTemplate.Proofs.InsertionOrder
