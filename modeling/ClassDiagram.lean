import ClassDiagram.Diagram.Fuse
import ClassDiagram.Pipeline
import ClassDiagram.RenderPlan
import ClassDiagram.Proofs.AnnotationReading
import ClassDiagram.Proofs.Atomicity
import ClassDiagram.Proofs.Edges
import ClassDiagram.Proofs.FusionOrder
import ClassDiagram.Proofs.InferenceOrder
import ClassDiagram.Proofs.Operations
import ClassDiagram.Proofs.Description
import ClassDiagram.Proofs.Rendering
import ClassDiagram.Proofs.Blocks
import ClassDiagram.Proofs.PackageTree
import ClassDiagram.Proofs.RenderPlan
import ClassDiagram.Proofs.PassOrder
import ClassDiagram.Proofs.Absorption
import ClassDiagram.Proofs.Outdated
import ClassDiagram.Proofs.ResolutionEffect
import ClassDiagram.Proofs.FusedInference
import ClassDiagram.Proofs.AnnotationOutcomes
import ClassDiagram.Proofs.Merging
import ClassDiagram.Proofs.PlaceholderOrder
import ClassDiagram.Proofs.Signatures
import ClassDiagram.Proofs.MergedInference
import ClassDiagram.Proofs.AccessorEffect
import ClassDiagram.Proofs.RunEffect
import ClassDiagram.Proofs.BlockFaults
import ClassDiagram.Proofs.Wrapping
import ClassDiagram.Proofs.Multiplicity
import ClassDiagram.Proofs.RenderedNames
import ClassDiagram.Proofs.PackageRoot
import ClassDiagram.Proofs.MemberPlaces
import ClassDiagram.Proofs.SourceNames
import ClassDiagram.Proofs.SettingsSearch
