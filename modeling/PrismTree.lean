import PrismTree.Load
import PrismTree.Node.Equality
import PrismTree.Proofs.Constants.Memoisation
import PrismTree.Proofs.Count.Load
import PrismTree.Proofs.Load.Rewriting
import PrismTree.Proofs.Load.Unread
import PrismTree.Proofs.Constants.Bounds
import PrismTree.Proofs.Load.Depth
import PrismTree.Proofs.Wire.Placement
import PrismTree.Proofs.Wire.DefLength
import PrismTree.Proofs.Load.DefLength
import PrismTree.Proofs.Load.Structure
import PrismTree.Proofs.Load.Records
import PrismTree.Proofs.Load.Truncation
import PrismTree.Proofs.Failure.Load
import PrismTree.Proofs.Cursor.Program
import PrismTree.Proofs.Trace.Load
import PrismTree.Proofs.Number.Codec
import PrismTree.Proofs.Source.Lines
import PrismTree.Proofs.Load.Bounds
import PrismTree.Proofs.Wire.Order
import PrismTree.Proofs.Node.Update
import PrismTree.Proofs.Node.Path
import PrismTree.Proofs.Source.Slices
import PrismTree.Proofs.Newline.Walk
