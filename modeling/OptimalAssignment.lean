import OptimalAssignment.Cost.TableReading
import OptimalAssignment.Main
import OptimalAssignment.Package.Manifest
import OptimalAssignment.Settings.Attribute
import OptimalAssignment.Solver.Columns
import OptimalAssignment.Solver.ErrorFamily
import OptimalAssignment.Workbench
import OptimalAssignment.Proofs.Cost.Cell
import OptimalAssignment.Proofs.Cost.Order
import OptimalAssignment.Proofs.Cost.Reduction
import OptimalAssignment.Proofs.Coverage
import OptimalAssignment.Proofs.Cost.Adjustment
import OptimalAssignment.Proofs.Matching.Greedy
import OptimalAssignment.Proofs.Matching.Selection
import OptimalAssignment.Proofs.Matching.Recounting
import OptimalAssignment.Proofs.Matching.Chain
import OptimalAssignment.Proofs.Matching.Flip
import OptimalAssignment.Proofs.Matching.Signed
import OptimalAssignment.Proofs.Solver.Invariant
import OptimalAssignment.Proofs.Solver.Pass
import OptimalAssignment.Proofs.Solver.Alignment
import OptimalAssignment.Proofs.Solver.Progress
import OptimalAssignment.Proofs.Solver.Columns
import OptimalAssignment.Proofs.Cost.Table
import OptimalAssignment.Proofs.Solver.Course
import OptimalAssignment.Proofs.Solver.Session
import OptimalAssignment.Proofs.Solver.Completion
import OptimalAssignment.Proofs.Solver.Snapshots
import OptimalAssignment.Proofs.Cost.Exact
import OptimalAssignment.Proofs.Workbench
import OptimalAssignment.Proofs.Matching.History
import OptimalAssignment.Proofs.Solver.Duality
import OptimalAssignment.Proofs.Solver.Optimality
import OptimalAssignment.Proofs.Solver.Trace
import OptimalAssignment.Proofs.Solver.Reporting
import OptimalAssignment.Proofs.Solver.Objection
import OptimalAssignment.Proofs.Solver.Interruption
import OptimalAssignment.Proofs.Cost.Conversion
import OptimalAssignment.Proofs.Solver.Conversion
import OptimalAssignment.Proofs.Cost.Extended
import OptimalAssignment.Proofs.Solver.Nonfinite
import OptimalAssignment.Proofs.Solver.Forbidden
import OptimalAssignment.Proofs.Solver.Overflow
import OptimalAssignment.Proofs.Solver.Reuse
import OptimalAssignment.Proofs.Solver.Equivariance
import OptimalAssignment.Proofs.Solver.Reduced
import OptimalAssignment.Proofs.Settings.Merging
import OptimalAssignment.Proofs.Settings.Layers
import OptimalAssignment.Proofs.Settings.Inheritance
import OptimalAssignment.Proofs.Settings.Assigning
import OptimalAssignment.Proofs.Settings.Overrides
import OptimalAssignment.Proofs.Settings.Lookup
import OptimalAssignment.Proofs.Settings.Saving
import OptimalAssignment.Proofs.Cost.Validation
import OptimalAssignment.Proofs.Picture.Costs
import OptimalAssignment.Proofs.Picture.Scheduling
