import Mathlib
import SketchSolver.Proofs.Sketch.Consistent
import SketchSolver.Proofs.Solve.Known

/-!
# Searches that come to nothing

If the minimizer runs out of iterations on a cluster, or fails on it, parameters and free variables
get back the values they had when it was called.  By then the direct consequences have been drawn.
So whatever is not known is left as it was before the solve, and whatever is known stays where a
constant, a pin or what follows from them has put it (`reachable_put_back`).

A cluster that is given up is therefore not left unchanged: a lock takes effect on one coordinate
of a point while the other one stays behind (`pulled_moved`).
-/

namespace SketchSolver

namespace Sketch

variable {α σ : Type} [Scalar α] {s : Sketch α} {c : Cluster α} {p : Problem α} {a : Arena α}
  {m : Minimizer σ α} {memory : σ} {answer : Except MinimizerError (Minimum α)}

/-- The minimizer is asked in the turn of a cluster: the clusters before it have been solved, its
direct consequences are drawn, which leaves this problem and these values, and this is what the
minimizer answers. -/
inductive Asked (s : Sketch α) (m : Minimizer σ α) (memory : σ) (c : Cluster α) (p : Problem α)
    (a : Arena α) (answer : Except MinimizerError (Minimum α)) : Prop
  | intro {before after : List (Cluster α)} {s' : Sketch α} {outcomes : List Outcome}
      {memory₁ memory₂ : σ} {a₁ : Arena α} {start : List α}
      {probed : Arena α × Option SolverError} :
      s.clustered = .ok (before ++ c :: after, s') →
      solveClusters s'.solveContext m before memory s'.arena = .ok (outcomes, memory₁, a₁) →
      Problem.prepare s'.solveContext c a₁ = .ok (p, a) → p.parameters ≠ [] →
      p.parameters.mapM a.value = .ok start →
      (m.minimize memory₁ start).run (p.objective s'.fingerOfGod) (a, none) =
        ((answer, memory₂), probed) →
      Asked s m memory c p a answer

/-- The minimizer has run out of iterations or failed. -/
def GivesUp (answer : Except MinimizerError (Minimum α)) : Prop :=
  ∀ solution iterations, answer ≠ .ok ⟨solution, .converged, iterations⟩

omit [Scalar α] in
/-- After such an answer every value is what it was when the minimizer was called. -/
lemma GivesUp.value? {b : Arena α} (h : GivesUp answer) (hconcludes : p.Concludes a answer b)
    (v : VarId) : b.value? v = a.value? v := by
  rcases answer with e | ⟨solution, stop, iterations⟩
  · exact hconcludes v
  · cases stop with
    | converged => exact absurd rfl (h solution iterations)
    | iterationLimit => exact hconcludes v

/-- **What is put back.**  In a solve of a reachable sketch with its clusters, let the minimizer run
out of iterations on a cluster or fail on it.  After the solve, whatever was not known of the
cluster has the value that it had before the solve, and whatever was known has the value that it had
when the minimizer was called. -/
theorem reachable_put_back (h : Reachable s) {cs : List (Cluster α)} (hcs : s.clusters = some cs)
    (hasked : s.Asked m memory c p a answer) (hanswer : GivesUp answer) {v : VarId}
    (hv : s.arena.canonical v ∈ c.vars) :
    (¬ s.arena.canonical v ∈ p.knowns →
      (s.solveWith m memory).2.2.arena.value? v = s.arena.value? v) ∧
    (s.arena.canonical v ∈ p.knowns →
      (s.solveWith m memory).2.2.arena.value? v = a.value? v) := by
  obtain @⟨before, after, s', outcomes, memory₁, memory₂, a₁, start, probed, hclustered, hbefore,
    hprepare, hparameters, hstart, hrun⟩ := hasked
  rw [clustered, hcs] at hclustered
  cases hclustered
  obtain ⟨_, _, _, outcome, _, b, hbefore', ha₁, hshape, hready, hsolve, hturn⟩ :=
    h.intact.turn hcs m memory
  rw [hbefore] at hbefore'
  cases hbefore'
  obtain ⟨held, n, k, -, hpasses, -, hprepare'⟩ := hready.prepare_spec ha₁
  rw [hprepare] at hprepare'
  cases hprepare'
  have hwithin := (hpasses.marks ha₁).within ha₁
  have hready₂ := hready.congr hwithin.shape
  -- what the search leaves is what it found
  obtain ⟨start', answer', _, _, outcome', b', hstart', hrun', hsearch, -, hconcludes⟩ :=
    Problem.search_spec hready₂ hready₂.fits_problem m memory₁ hwithin.wellFormed s.fingerOfGod
  rw [hstart] at hstart'
  cases hstart'
  rw [hrun] at hrun'
  cases hrun'
  rw [solveCluster, hprepare] at hsolve
  simp only [ok_bind, List.isEmpty_iff, hparameters, if_false] at hsolve
  rw [show s.solveContext.fingerOfGod = s.fingerOfGod from rfl, hsearch] at hsolve
  cases hsolve
  obtain ⟨hfound, hleft⟩ := hturn v hv
  rw [hleft, hanswer.value? hconcludes]
  refine ⟨fun hunknown => ?_, fun _ => rfl⟩
  rw [← hfound]
  refine hwithin.frame v fun hnew => hunknown ?_
  rw [← Arena.canonical_congr hshape]
  exact hnew.1

/-- A handle that a finger drags, with a lock on its abscissa that has not taken effect yet. -/
def pulled : Sketch Float :=
  (Operation.constant ⟨1⟩ 5).perform.after <| (Operation.finger ⟨0⟩ ⟨3, 4⟩).perform.after <|
    (Operation.addHandle ⟨1, 2⟩).perform.after empty

/-- The sketch with its clusters. -/
def pulledClusters : Sketch Float :=
  Operation.cluster.perform.after pulled

lemma reachable_pulledClusters : Reachable pulledClusters :=
  .perform _ (.perform _ (.perform _ (.perform _ (.withConfig _))))

/-- Its only cluster. -/
def pulledCluster : Cluster Float where
  constraints := [⟨3⟩, ⟨4⟩]
  residuals := [.finger ⟨⟨1⟩, ⟨2⟩⟩ ⟨3, 4⟩]
  referenced := [⟨1⟩, ⟨2⟩, ⟨1⟩]
  vars := .ofList [⟨1⟩, ⟨2⟩]

/-- The ordinate is left to search for. -/
def pulledProblem : Problem Float where
  residuals := pulledCluster.residuals
  knowns := .ofList [⟨1⟩]
  free := .empty
  parameters := [⟨2⟩]

/-- A minimizer that runs out of iterations before it has looked at anything. -/
def exhausted {α : Type} : Minimizer Unit α where
  minimize _ start := .done (.ok ⟨start, .iterationLimit, 0⟩, ())

lemma asked_pulled : ∃ a, pulledClusters.Asked exhausted () pulledCluster pulledProblem a
    (.ok ⟨[2], .iterationLimit, 0⟩) := by
  have hprepare : (Problem.prepare pulledClusters.solveContext pulledCluster
      pulledClusters.arena).toOption.map Prod.fst = some pulledProblem := by decide +kernel
  have hstart : (do
      let (_, a) ← Problem.prepare pulledClusters.solveContext pulledCluster pulledClusters.arena
      pulledProblem.parameters.mapM a.value) = .ok [2] := by decide +kernel
  obtain ⟨a, hprepare⟩ := exists_eq_ok hprepare
  rw [hprepare, ok_bind] at hstart
  have hclustered : pulledClusters.clustered = .ok ([] ++ pulledCluster :: [], pulledClusters) :=
    rfl
  exact ⟨a, .intro hclustered rfl hprepare (by decide) hstart rfl⟩

omit [Scalar α] in
lemma givesUp_iterationLimit (solution : List α) (iterations : Count) :
    GivesUp (.ok ⟨solution, .iterationLimit, iterations⟩ :
      Except MinimizerError (Minimum α)) := by
  rintro _ _ ⟨⟩

/-- The ordinate of the handle is left as it was. -/
theorem put_back_pulled :
    (pulledClusters.solveWith exhausted ()).2.2.arena.value? ⟨2⟩ =
      pulledClusters.arena.value? ⟨2⟩ := by
  obtain ⟨a, hasked⟩ := asked_pulled
  exact (reachable_put_back reachable_pulledClusters rfl hasked (givesUp_iterationLimit _ _)
    (by decide)).1 (by decide)

/-- **Not all is put back.**  The abscissa of the handle was 1 before the solve, and it is 5
afterwards, although the minimizer gave the cluster up. -/
theorem pulled_moved :
    ¬ ∀ (s : Sketch Float) (cs : List (Cluster Float)) (m : Minimizer Unit Float)
        (c : Cluster Float) (p : Problem Float) (a : Arena Float)
        (answer : Except MinimizerError (Minimum Float)),
      Reachable s → s.clusters = some cs → s.Asked m () c p a answer → GivesUp answer →
      ∀ v, s.arena.canonical v ∈ c.vars →
        (s.solveWith m ()).2.2.arena.value? v = s.arena.value? v := by
  intro halways
  obtain ⟨a, hasked⟩ := asked_pulled
  have hsame := halways pulledClusters _ exhausted _ _ a _ reachable_pulledClusters rfl hasked
    (givesUp_iterationLimit _ _) ⟨1⟩ (by decide)
  have hbefore : pulledClusters.arena.value? ⟨1⟩ = some 1 := by decide +kernel
  have hafter : (pulledClusters.solveWith exhausted ()).2.2.arena.value? ⟨1⟩ = some 5 := by
    decide +kernel
  rw [hbefore, hafter] at hsame
  exact absurd hsame (by decide +kernel)

end Sketch

end SketchSolver
