import SketchSolver.Cluster

/-!
# Building clusters

Clustering starts from scratch: every unification is taken apart and made again from the present
constraints, and then the constraints are sorted into clusters one by one.  A constraint joins all
clusters it overlaps, the earliest of which takes over the others.

Merging may unify further variables, because residuals that relate the same points become one.
Clusters that were found disjoint before may overlap afterwards, so `consolidate` merges until no
two clusters do.
-/

namespace SketchSolver

namespace Cluster

variable {α : Type} [Scalar α]

/-- Takes all unifications apart and makes those that the constraints imply. -/
def relateAll (constraints : ConstraintTable α) (arena : Arena α) (table : HandleTable) :
    Except SolverError (Arena α × HandleTable) :=
  constraints.values.foldlM (fun (arena, table) c => c.relate arena table)
    (arena.reset, table.reset)

/-- Sorts a new cluster into a list of clusters.  The first one it overlaps takes over the other
ones it overlaps, last to first, and then the new one. -/
def join (arena : Arena α) (clusters : List (Cluster α)) (new : Cluster α) :
    Except SolverError (List (Cluster α) × Arena α) :=
  match clusters.span fun c => !c.overlaps new with
  | (_, []) => .ok (clusters ++ [new], arena)
  | (before, first :: after) => do
    let (joining, apart) := after.partition (·.overlaps new)
    let (merged, arena) ← mergeAll arena first (joining.reverse ++ [new])
    return (before ++ merged :: apart, arena)

/-- The first cluster that overlaps a later one, merged with the first such: what stands before
it, the two clusters, what stands between them, and what stands after them. -/
def firstOverlap : List (Cluster α) →
    Option (List (Cluster α) × Cluster α × List (Cluster α) × Cluster α × List (Cluster α))
  | [] => none
  | c :: rest =>
    match rest.span fun d => !c.overlaps d with
    | (between, d :: after) => some ([], c, between, d, after)
    | (_, []) =>
      (firstOverlap rest).map fun (before, found) => (c :: before, found)

/-- Merges overlapping clusters until there are none, at most `limit` times. -/
def consolidateWithin : Nat → Arena α → List (Cluster α) →
    Except SolverError (List (Cluster α) × Arena α)
  | 0, arena, clusters => .ok (clusters, arena)
  | limit + 1, arena, clusters =>
    let clusters := clusters.map (recompute arena)
    match firstOverlap clusters with
    | none => .ok (clusters, arena)
    | some (before, c, between, d, after) => do
      let (merged, arena) ← merge arena c d
      consolidateWithin limit arena (before ++ merged :: between ++ after)

/-- Merges overlapping clusters until there are none.  Each merge leaves one cluster less, so
there are fewer merges than clusters. -/
def consolidate (arena : Arena α) (clusters : List (Cluster α)) :
    Except SolverError (List (Cluster α) × Arena α) :=
  consolidateWithin (clusters.length + 1) arena clusters

/-- Sorts one constraint into the clusters of the earlier ones. -/
def sortIn (table : HandleTable) (clusters : List (Cluster α)) (arena : Arena α)
    (id : ConstraintId) (c : Constraint α) : Except SolverError (List (Cluster α) × Arena α) := do
  let (new, arena) ← ofConstraint table arena id c
  join arena clusters new

/-- The clusters of a set of constraints, with all unifications made anew. -/
def build (constraints : ConstraintTable α) (arena : Arena α) (table : HandleTable) :
    Except SolverError (List (Cluster α) × Arena α × HandleTable) := do
  let (arena, table) ← relateAll constraints arena table
  let (clusters, arena) ← constraints.entries.foldlM
    (fun (clusters, arena) (id, c) => sortIn table clusters arena id c) ([], arena)
  let (clusters, arena) ← consolidate arena clusters
  return (clusters, arena, table)

end Cluster

end SketchSolver
