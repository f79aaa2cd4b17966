import SparseProduct.Matrix.Triplets
import SparseProduct.Matrix.Text
import SparseProduct.Parallel
import SparseProduct.Reference
import SparseProduct.Block.Registry
import SparseProduct.Block.Multiply
import SparseProduct.Block.Custom
import SparseProduct.Block.Text
import SparseProduct.Exchange
import SparseProduct.Semiring.Custom
import SparseProduct.Proofs.Pattern.Checked
import SparseProduct.Proofs.Pattern.Layout
import SparseProduct.Proofs.Window
import SparseProduct.Proofs.ColumnWalk
import SparseProduct.Proofs.Mask
import SparseProduct.Proofs.Kernel.Script
import SparseProduct.Proofs.ColumnValues
import SparseProduct.Proofs.Kernel.Typed
import SparseProduct.Proofs.Multiply.Accepted
import SparseProduct.Proofs.Reference
import SparseProduct.Proofs.Multiply.Reference
import SparseProduct.Proofs.Multiply.Masked
import SparseProduct.Proofs.Parallel.Cut
import SparseProduct.Proofs.Parallel.Reports
import SparseProduct.Proofs.Parallel.Run
import SparseProduct.Proofs.Refusals
import SparseProduct.Proofs.Parallel.Refinement
import SparseProduct.Proofs.Pattern.Convert
import SparseProduct.Proofs.Multiply.Call
import SparseProduct.Proofs.Multiply.Outcome
import SparseProduct.Proofs.Multiply.Overwrite
import SparseProduct.Proofs.Multiply.Ranges
import SparseProduct.Proofs.Multiply.Storage
import SparseProduct.Proofs.Block.Codec
import SparseProduct.Proofs.Block.Refinement
import SparseProduct.Proofs.Window.Requests
import SparseProduct.Proofs.ColumnWalk.Requests
import SparseProduct.Proofs.Multiply.Arithmetic
import SparseProduct.Proofs.Multiply.Workspace
import SparseProduct.Proofs.Entries
import SparseProduct.Proofs.Terms
import SparseProduct.Proofs.Columns
import SparseProduct.Proofs.Triplets
import SparseProduct.Proofs.Reference.InPlace
import SparseProduct.Proofs.Reference.Product
import SparseProduct.Proofs.Deletion
import SparseProduct.Proofs.StoredIdentities
import SparseProduct.Proofs.Multiply.Counters
import SparseProduct.Proofs.Pattern.RoundTrip
import SparseProduct.Proofs.Parallel.Tiling
import SparseProduct.Proofs.Views
import SparseProduct.Proofs.Triplets.Scatter
import SparseProduct.Proofs.Triplets.RoundTrip
import SparseProduct.Proofs.Block.RoundTrip
import SparseProduct.Proofs.Block.Reachability
import SparseProduct.Proofs.Identity
import SparseProduct.Proofs.Multiply.Identity
import SparseProduct.Proofs.Parallel.TaskSize
import SparseProduct.Proofs.Block.Registry
import SparseProduct.Proofs.Exchange
