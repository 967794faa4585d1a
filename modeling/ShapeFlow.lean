import ShapeFlow.CaseTable
import ShapeFlow.Inference.Run
import ShapeFlow.Proofs.Inlining
import ShapeFlow.Proofs.Layers
import ShapeFlow.Proofs.Progress
import ShapeFlow.Proofs.SingleAssignment
import ShapeFlow.Proofs.ProperRun
import ShapeFlow.Proofs.Reordering
import ShapeFlow.Proofs.Appending
import ShapeFlow.Proofs.Ancestry
import ShapeFlow.Proofs.Boundary
import ShapeFlow.Proofs.Failure
import ShapeFlow.Proofs.Outline
import ShapeFlow.Proofs.Rule.Words
import ShapeFlow.Proofs.Registration
import ShapeFlow.Proofs.Settings
import ShapeFlow.Proofs.Traversal
import ShapeFlow.Proofs.Production
import ShapeFlow.Proofs.Rule.Chunk
import ShapeFlow.Proofs.Rule.Rejoin
import ShapeFlow.Proofs.Rule.Elements
import ShapeFlow.Proofs.Rule.Cut
import ShapeFlow.Proofs.Rule.Merge
import ShapeFlow.Proofs.Rule.Shortcut
import ShapeFlow.Proofs.Rule.Transposition
import ShapeFlow.Proofs.Rule.Stacking
import ShapeFlow.Proofs.Rule.Reading
import ShapeFlow.Proofs.Rule.Stride
import ShapeFlow.Proofs.Attributes
