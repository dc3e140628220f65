import SketchSolver.Affine
import SketchSolver.Arena
import SketchSolver.Cluster
import SketchSolver.Cluster.Build
import SketchSolver.Cluster.Propagate
import SketchSolver.Command
import SketchSolver.Command.File
import SketchSolver.Command.Options
import SketchSolver.Constraint
import SketchSolver.Constraint.AngleResidual
import SketchSolver.Constraint.Residual
import SketchSolver.Decimal.Double
import SketchSolver.Decimal.Layout
import SketchSolver.Decimal.Literal
import SketchSolver.Decimal.Ratio
import SketchSolver.Decimal.Shortest
import SketchSolver.Document
import SketchSolver.Document.Read
import SketchSolver.Document.Write
import SketchSolver.Failure
import SketchSolver.Handle
import SketchSolver.Ident
import SketchSolver.Json
import SketchSolver.Json.Number
import SketchSolver.Json.Read
import SketchSolver.Known
import SketchSolver.Main
import SketchSolver.Ordered.Map
import SketchSolver.Ordered.Set
import SketchSolver.Plane
import SketchSolver.Proofs.AngleResidual
import SketchSolver.Proofs.Arena.Affine
import SketchSolver.Proofs.Arena.Alike
import SketchSolver.Proofs.Arena.Bound
import SketchSolver.Proofs.Arena.Change
import SketchSolver.Proofs.Arena.Forest
import SketchSolver.Proofs.Arena.Label
import SketchSolver.Proofs.Arena.Part
import SketchSolver.Proofs.Arena.Request
import SketchSolver.Proofs.Arena.Restore
import SketchSolver.Proofs.Arena.Rewrite
import SketchSolver.Proofs.Arena.Step
import SketchSolver.Proofs.Arena.Total
import SketchSolver.Proofs.Arena.Twins
import SketchSolver.Proofs.Arena.Unify
import SketchSolver.Proofs.Arena.View
import SketchSolver.Proofs.Arena.WellFormed
import SketchSolver.Proofs.Cluster.Alike
import SketchSolver.Proofs.Cluster.Apart
import SketchSolver.Proofs.Cluster.Build
import SketchSolver.Proofs.Cluster.Closure
import SketchSolver.Proofs.Cluster.Distinct
import SketchSolver.Proofs.Cluster.Measured
import SketchSolver.Proofs.Cluster.Merge
import SketchSolver.Proofs.Cluster.Requests
import SketchSolver.Proofs.Cluster.Unifies
import SketchSolver.Proofs.Constraint
import SketchSolver.Proofs.Decimal.Literal
import SketchSolver.Proofs.Document.Accept
import SketchSolver.Proofs.Document.Describe
import SketchSolver.Proofs.Document.Load
import SketchSolver.Proofs.Document.Settle
import SketchSolver.Proofs.Document.WellFormed
import SketchSolver.Proofs.Double
import SketchSolver.Proofs.Double.Product
import SketchSolver.Proofs.Exact
import SketchSolver.Proofs.Handle
import SketchSolver.Proofs.Handle.Flat
import SketchSolver.Proofs.Handle.Mirror
import SketchSolver.Proofs.Known
import SketchSolver.Proofs.Lawful
import SketchSolver.Proofs.Ordered
import SketchSolver.Proofs.Plane
import SketchSolver.Proofs.Residual
import SketchSolver.Proofs.Script.Execute
import SketchSolver.Proofs.Script.Grammar
import SketchSolver.Proofs.Script.Label
import SketchSolver.Proofs.Script.Lines
import SketchSolver.Proofs.Script.Name
import SketchSolver.Proofs.Script.Parse
import SketchSolver.Proofs.Script.Progress
import SketchSolver.Proofs.Script.Run
import SketchSolver.Proofs.Script.Scope
import SketchSolver.Proofs.Search.Always
import SketchSolver.Proofs.Search.Converged
import SketchSolver.Proofs.Search.Descent
import SketchSolver.Proofs.Search.Ending
import SketchSolver.Proofs.Search.Iteration
import SketchSolver.Proofs.Search.Update
import SketchSolver.Proofs.Sketch.Atomic
import SketchSolver.Proofs.Sketch.BreakOff
import SketchSolver.Proofs.Sketch.Change
import SketchSolver.Proofs.Sketch.Clustering
import SketchSolver.Proofs.Sketch.Coherent
import SketchSolver.Proofs.Sketch.Consistent
import SketchSolver.Proofs.Sketch.Constant
import SketchSolver.Proofs.Sketch.Dependency
import SketchSolver.Proofs.Sketch.Determined
import SketchSolver.Proofs.Sketch.Distinct
import SketchSolver.Proofs.Sketch.Duplicate
import SketchSolver.Proofs.Sketch.Ensures
import SketchSolver.Proofs.Sketch.Epoch
import SketchSolver.Proofs.Sketch.Equals
import SketchSolver.Proofs.Sketch.GroupLock
import SketchSolver.Proofs.Sketch.Grown
import SketchSolver.Proofs.Sketch.Insert
import SketchSolver.Proofs.Sketch.Intact
import SketchSolver.Proofs.Sketch.Integrity
import SketchSolver.Proofs.Sketch.Known
import SketchSolver.Proofs.Sketch.Lock
import SketchSolver.Proofs.Sketch.Merge
import SketchSolver.Proofs.Sketch.Mirrored
import SketchSolver.Proofs.Sketch.Operation
import SketchSolver.Proofs.Sketch.Probing
import SketchSolver.Proofs.Sketch.PutBack
import SketchSolver.Proofs.Sketch.Reachable
import SketchSolver.Proofs.Sketch.Rearrange
import SketchSolver.Proofs.Sketch.Rebuild
import SketchSolver.Proofs.Sketch.Registered
import SketchSolver.Proofs.Sketch.Relationship
import SketchSolver.Proofs.Sketch.Remove
import SketchSolver.Proofs.Sketch.Reporting
import SketchSolver.Proofs.Sketch.Saved
import SketchSolver.Proofs.Sketch.Solving
import SketchSolver.Proofs.Sketch.Spent
import SketchSolver.Proofs.Sketch.Twice
import SketchSolver.Proofs.Solve.Calls
import SketchSolver.Proofs.Solve.Clusters
import SketchSolver.Proofs.Solve.Converge
import SketchSolver.Proofs.Solve.Free
import SketchSolver.Proofs.Solve.Known
import SketchSolver.Proofs.Solve.Objective
import SketchSolver.Proofs.Solve.Prepare
import SketchSolver.Proofs.Solve.Replay
import SketchSolver.Proofs.Solve.Search
import SketchSolver.Proofs.Solve.Visits
import SketchSolver.Proofs.Text.Lines
import SketchSolver.Proofs.Text.Parser
import SketchSolver.Proofs.Tolerance
import SketchSolver.Proofs.Traversal
import SketchSolver.Scalar
import SketchSolver.Scalar.Double
import SketchSolver.Script
import SketchSolver.Script.Grammar
import SketchSolver.Script.Instruction
import SketchSolver.Script.Run
import SketchSolver.Search
import SketchSolver.Search.Bfgs
import SketchSolver.Sketch
import SketchSolver.Sketch.Edit
import SketchSolver.Sketch.Lock
import SketchSolver.Sketch.Operation
import SketchSolver.Sketch.Remove
import SketchSolver.Sketch.Solve
import SketchSolver.Solve
import SketchSolver.Text.Alphanumeric
import SketchSolver.Text.Blank
import SketchSolver.Text.Parser
import SketchSolver.Variable
