import SketchSolver.Scalar
import SketchSolver.Search

/-!
# Quasi-Newton search

Minimization by the update of Broyden, Fletcher, Goldfarb and Shanno.  An approximation of the
inverse Hessian turns the gradient into a step; the step is halved until it descends far enough;
and the change of the gradient over the step improves the approximation.

* `gradient` takes central differences.
* `lineSearch` halves the step until the objective falls by a tenth of what the slope promises.
  It stops as soon as the step is shorter than the tolerance, so with a positive tolerance it ends
  for every objective; otherwise its halvings may run out.
* `updateEntry` is the update, entry by entry.
* `minimize` repeats this until the gradient or the step is within its tolerance.
-/

namespace SketchSolver

/-- The tuning of the quasi-Newton search. -/
structure Config (α : Type) where
  /-- Iterations after which a cluster is given up. -/
  maxIterations : Nat
  /-- A gradient with all components below this is that of a minimum. -/
  gradientTolerance : α
  /-- A step with all components below this has arrived. -/
  stepTolerance : α
  /-- The distance at which central differences look to either side. -/
  finiteDifferenceStep : α
deriving Repr

namespace Config

variable {α : Type} [Scalar α]

/-- The tuning of a sketch that was told nothing else. -/
def standard : Config α :=
  ⟨1000, 1e-8, 1e-8, 1e-6⟩

instance : Inhabited (Config α) := ⟨standard⟩

end Config

namespace Bfgs

variable {α : Type} [Scalar α]

/-! ## Vectors and matrices -/

/-- Inner product. -/
def dot (v w : List α) : α :=
  (List.zipWith (· * ·) v w).foldl (· + ·) 0

/-- The greatest absolute value of a component. -/
def maxNorm (v : List α) : α :=
  (v.map Scalar.abs).foldl Scalar.greatest 0

/-- Are all components finite? -/
def allFinite (v : List α) : Bool :=
  v.all Scalar.isFinite

/-- The unit matrix, row by row. -/
def unitMatrix (n : Nat) : List (List α) :=
  (List.range n).map fun i => (List.range n).map fun j => if i = j then 1 else 0

/-- A matrix applied to a vector. -/
def mulVec (m : List (List α)) (v : List α) : List α :=
  m.map (dot · v)

/-! ## Gradient -/

/-- Central differences along the axes of `after`, where `before` are the components of the point
in front of them. -/
def differences (h : α) (before : List α) : List α → Search α (List α)
  | [] => return []
  | x :: after => do
    let forward ← .eval (before ++ (x + h) :: after)
    let backward ← .eval (before ++ (x - h) :: after)
    let rest ← differences h (before ++ [x]) after
    return (forward - backward) / (2.0 * h) :: rest

/-- The gradient at a point, by central differences of step `h`. -/
def gradient (h : α) (point : List α) : Search α (List α) :=
  differences h [] point

/-! ## Line search -/

/-- Where a line search stands. -/
structure Trial (α : Type) where
  /-- The factor the step is shortened by. -/
  factor : α
  /-- The shortened step that was tried last. -/
  step : List α
  /-- The point it led to. -/
  point : List α
  /-- The objective there. -/
  value : α

/-- Halves the step until the objective is finite and falls by more than a tenth of what the
slope promises, or until the step is shorter than the tolerance.  No answer if more than `limit`
points had to be tried. -/
def lineSearch (tolerance : α) (start step : List α) (norm value slope : α) :
    Nat → Trial α → Search α (Option (Trial α))
  | limit, trial =>
    if tolerance ≤ trial.factor * norm then
      match limit with
      | 0 => return none
      | limit + 1 => do
        let shortened := step.map (· * trial.factor)
        let point := List.zipWith (· + ·) start shortened
        let reached ← .eval point
        let tried : Trial α := ⟨trial.factor, shortened, point, reached⟩
        if Scalar.isFinite reached && decide (reached - value < 0.1 * trial.factor * slope) then
          return some tried
        else
          lineSearch tolerance start step norm value slope limit
            { tried with factor := trial.factor * 0.5 }
    else
      return some trial

/-- How often a step is halved at most.  A double that was halved this often is zero, so a line
search that needs more does not end. -/
def halvings : Nat := 1100

/-! ## Update -/

/-- One entry of the improved approximation: from the entry `h` in row `i` and column `j`, the
components of the step `s` and of the approximation applied to the change `y` of the gradient,
and the products `y · s` and `y · hy`. -/
def updateEntry (ys yhy h si sj hyi hyj : α) : α :=
  h + (ys + yhy) / (ys * ys) * si * sj - (hyi * sj + si * hyj) / ys

/-- The improved approximation of the inverse Hessian after a step `s` over which the gradient
changed by `y`. -/
def update (h : List (List α)) (s y : List α) : List (List α) :=
  let ys := dot y s
  if Scalar.unitGap < Scalar.abs ys then
    let hy := mulVec h y
    let yhy := dot y hy
    let pairs := s.zip hy
    List.zipWith
      (fun row (si, hyi) =>
        List.zipWith (fun entry (sj, hyj) => updateEntry ys yhy entry si sj hyi hyj) row pairs)
      h pairs
  else
    h

/-! ## Iterations -/

/-- What one iteration hands to the next. -/
structure State (α : Type) where
  /-- The present point. -/
  point : List α
  /-- The objective there. -/
  value : α
  /-- The gradient there. -/
  gradient : List α
  /-- The approximation of the inverse Hessian. -/
  inverseHessian : List (List α)

/-- What an iteration comes to. -/
inductive Progress (α : Type) where
  /-- The present point is a minimum, up to the tolerances. -/
  | arrived
  /-- The search cannot go on. -/
  | stuck (error : MinimizerError)
  /-- The search goes on elsewhere. -/
  | moved (next : State α)

/-- One iteration. -/
def iteration (config : Config α) (s : State α) : Search α (Progress α) := do
  if !allFinite s.gradient then
    return .stuck .nonFiniteGradient
  if maxNorm s.gradient < config.gradientTolerance then
    return .arrived
  let step := (mulVec s.inverseHessian s.gradient).map (- ·)
  if !allFinite step then
    return .stuck .nonFiniteStep
  let norm := maxNorm step
  if norm < config.stepTolerance then
    return .arrived
  let found ← lineSearch config.stepTolerance s.point step norm s.value (dot s.gradient step)
    halvings ⟨1, step, s.point, s.value⟩
  match found with
  | none => return .stuck .endlessLineSearch
  | some trial =>
    if trial.factor * norm < config.stepTolerance then
      return .arrived
    let gradient ← gradient config.finiteDifferenceStep trial.point
    let change := List.zipWith (· - ·) gradient s.gradient
    return .moved
      ⟨trial.point, trial.value, gradient, update s.inverseHessian trial.step change⟩

/-- Iterates at most `left` times more, after `taken` iterations. -/
def iterate (config : Config α) :
    Nat → Nat → State α → Search α (Except MinimizerError (Minimum α))
  | 0, taken, s => return .ok ⟨s.point, .iterationLimit, .ofNat _ taken⟩
  | left + 1, taken, s => do
    match ← iteration config s with
    | .arrived => return .ok ⟨s.point, .converged, .ofNat _ taken⟩
    | .stuck error => return .error error
    | .moved next => iterate config left (taken + 1) next

/-- Searches for a minimum from a starting point. -/
def minimize (config : Config α) (start : List α) :
    Search α (Except MinimizerError (Minimum α)) := do
  let value ← .eval start
  if !Scalar.isFinite value then
    return .error .nonFiniteStart
  let gradient ← gradient config.finiteDifferenceStep start
  iterate config config.maxIterations 0 ⟨start, value, gradient, unitMatrix start.length⟩

/-- The minimizer a sketch uses unless it is given another one.  It remembers nothing. -/
def minimizer (config : Config α) : Minimizer Unit α where
  minimize _ start := (fun answer => (answer, ())) <$> minimize config start

end Bfgs

end SketchSolver
