import Mathlib
import SketchSolver.Proofs.Sketch.Consistent
import SketchSolver.Proofs.Solve.Replay

/-!
# Solving twice

A frame in which nothing moves should move nothing.  Where the minimizer has nothing to search for,
this is so exactly, with exact numbers: a second solve becomes aware of the same things in the same
order, and each of them has its value already (`reachable_solve_twice`).

What it takes is that an angle does not depend on whether it has been measured before, and that no
residual reads the group of the variable it owns.
-/

namespace SketchSolver

variable {α σ : Type} [Scalar α]

/-- Clusters that leave the arena as it is, one after the other. -/
lemma solveClusters_idle {ctx : SolveContext α} {m : Minimizer σ α} {a : Arena α}
    {cs : List (Cluster α)}
    (h : ∀ c ∈ cs, ∀ memory, solveCluster ctx m memory c a = .ok (.determined, memory, a))
    (memory : σ) :
    solveClusters ctx m cs memory a = .ok (cs.map fun _ => .determined, memory, a) := by
  induction cs with
  | nil => rfl
  | cons c cs ih =>
      rw [solveClusters, h c List.mem_cons_self]
      simp only [ok_bind, ih fun d hd => h d (List.mem_cons_of_mem _ hd)]
      rfl

namespace Sketch

variable {s s' : Sketch α}

/-- **Solving twice.**  Let numbers be exact, and let an angle that is measured twice be the same
angle.  If a solve of a reachable sketch finds nothing to search for in any of its clusters, and no
residual reads the group of the variable it owns, then a second solve changes nothing at all.  It
does not call its minimizer, and it succeeds. -/
theorem reachable_solve_twice (h : Reachable s) {cs : List (Cluster α)}
    (hclustered : s.clustered = .ok (cs, s')) (hexact : Scalar.IsExact α)
    (hangle : ∀ (p q : Point α) (y : α),
      angleBetween p q (angleBetween p q y) = angleBetween p q y)
    (hunlooped : ∀ c ∈ cs, c.Unlooped s'.arena) {m : Minimizer σ α} {memory : σ}
    (hdetermined : ∀ c p outcome, s.Turn m memory c p outcome → p.parameters = [])
    {τ : Type} (m' : Minimizer τ α) (memory' : τ) :
    let t := (s.solveWith m memory).2.2
    ∃ r, t.solveWith m' memory' = (.ok r, memory', t) := by
  obtain ⟨hs', hcs⟩ := h.intact.of_clustered hclustered
  obtain ⟨_, _, outcomes, after, f, hclustered', -, -, -, hwithin, hsolve⟩ :=
    h.intact.solveWith_spec m memory
  rw [hclustered] at hclustered'
  cases hclustered'
  have hreachable : Reachable { s' with arena := f } := by
    have := h.solveWith m memory
    rwa [hsolve] at this
  have hundo : ∀ v x, f.lower v (f.lift v x) = x := fun v x =>
    hreachable.lower_lift (v := v) (Or.inr hexact) x
  -- every cluster stays as the first solve has left it
  have hidle : ∀ c ∈ cs, ∀ memory',
      solveCluster s'.solveContext m' memory' c f = .ok (.determined, memory', f) := by
    intro c hc memory'
    obtain ⟨before, rest, rfl⟩ := List.append_of_mem hc
    obtain ⟨_, memory₁, a, outcome, _, b, hbefore, ha, hshape, hready, hturn, hleft⟩ :=
      hs'.turn hcs m memory
    obtain ⟨_, _, k, -, -, -, hprepare⟩ := hready.prepare_spec ha
    have hempty := hdetermined c _ _ (.intro hclustered hbefore hprepare hturn)
    have hunlooped' : c.Unlooped a := by
      rw [Cluster.Unlooped, Arena.canonical_congr hshape]
      exact hunlooped c hc
    have hknown := hready.all_known ha hunlooped' hprepare hempty
    rw [hready.solveCluster_known ha hprepare hknown m memory₁] at hturn
    cases hturn
    refine hready.solveCluster_again ha hunlooped' hprepare hempty hwithin.wellFormed
      (hwithin.shape.trans hshape.symm) hundo hangle (fun v hv => ?_) m' memory'
    rw [Arena.canonical_congr hshape] at hv
    have hend := (hleft v hv).2
    rwa [h.intact.solveWith_clustered hclustered, hsolve] at hend
  rw [hsolve]
  intro t
  have hagain : t.clustered = .ok (cs, t) := by
    rw [clustered, show t.clusters = some cs from hcs]
  refine ⟨Report.ofOutcomes (cs.map fun _ => .determined), ?_⟩
  have hnone : Report.firstFailure (cs.map fun _ => Outcome.determined) = none := by
    simp [Report.firstFailure_eq_none_iff]
  simp only [solveWith, hagain]
  rw [show t.solveContext = s'.solveContext from rfl, show t.arena = f from rfl,
    solveClusters_idle hidle memory']
  simp only [Report.conclude, hnone]
  rfl

/-- A rod one end of which is pinned, with locks on its length and on its angle that have not taken
effect yet. -/
def locked : Sketch ℚ :=
  (Operation.constant ⟨9⟩ 0).perform.after <| (Operation.constant ⟨8⟩ 5).perform.after <|
    (Operation.polar ⟨0⟩ ⟨3⟩).perform.after <| (Operation.pin ⟨0⟩ ⟨1, 2⟩).perform.after <|
      (Operation.addHandle ⟨3, 4⟩).perform.after <|
        (Operation.addHandle ⟨1, 2⟩).perform.after empty

lemma reachable_locked : Reachable locked :=
  .perform _ (.perform _ (.perform _ (.perform _ (.perform _ (.perform _ (.withConfig _))))))

/-- Its only cluster. -/
def lockedCluster : Cluster ℚ where
  constraints := [⟨6⟩, ⟨7⟩, ⟨10⟩, ⟨11⟩]
  residuals := [.distance ⟨⟨1⟩, ⟨2⟩⟩ ⟨⟨4⟩, ⟨5⟩⟩ ⟨8⟩, .angle ⟨⟨1⟩, ⟨2⟩⟩ ⟨⟨4⟩, ⟨5⟩⟩ ⟨9⟩]
  referenced := [⟨1⟩, ⟨2⟩, ⟨1⟩, ⟨2⟩, ⟨4⟩, ⟨5⟩, ⟨8⟩, ⟨9⟩, ⟨8⟩, ⟨9⟩]
  vars := .ofList [⟨1⟩, ⟨2⟩, ⟨4⟩, ⟨5⟩, ⟨8⟩, ⟨9⟩]

lemma clustered_locked : locked.clustered =
    .ok ([lockedCluster], Operation.cluster.perform.after locked) :=
  (reachable_locked.intact.clustered_eq (by decide +kernel)).1

lemma unlooped_locked : ∀ c ∈ [lockedCluster],
    c.Unlooped (Operation.cluster.perform.after locked).arena := by
  intro c hc r hr v hv
  obtain rfl := List.mem_singleton.1 hc
  rcases List.mem_pair.1 hr with rfl | rfl
  all_goals
    cases hv
    decide +kernel

/-- The locks decide where the other end of the rod is. -/
lemma determined_locked {c : Cluster ℚ} {p : Problem ℚ} {outcome : Outcome}
    (hturn : locked.Turn stay () c p outcome) : p.parameters = [] := by
  obtain @⟨before, after, s', outcomes, _, _, a₁, a₂, a₃, hclustered, hbefore, hprepare, -⟩ := hturn
  have hparameters : (do
      let (p, _) ← Problem.prepare (Operation.cluster.perform.after locked).solveContext
        lockedCluster (Operation.cluster.perform.after locked).arena
      return p.parameters) = .ok [] := by decide +kernel
  rw [clustered_locked] at hclustered
  obtain ⟨hsplit, rfl⟩ := Prod.mk.inj (Except.ok.inj hclustered)
  obtain ⟨rfl, hrest⟩ | ⟨-, hrest⟩ := List.append_eq_singleton_iff.1 hsplit.symm
  · obtain ⟨rfl, rfl⟩ := List.cons.inj hrest
    cases hbefore
    rw [hprepare, ok_bind] at hparameters
    exact Except.ok.inj hparameters
  · cases hrest

/-- An angle of the rough geometry over the rational numbers is the same when it is measured
again. -/
lemma angleBetween_twice (p q : Point ℚ) (y : ℚ) :
    angleBetween p q (angleBetween p q y) = angleBetween p q y := by
  have hwrap : ∀ δ : ℚ, wrapAngle δ = δ := fun δ => by
    rw [wrapAngle]
    split <;> rfl
  rw [angleBetween, angleBetween]
  split
  · rfl
  · simp only [hwrap]
    ring

/-- The first solve moves the other end of the rod, and the second one does not. -/
theorem solve_twice_locked :
    let t := (locked.solveWith stay ()).2.2
    t.arena.value? ⟨4⟩ = some 6 ∧ locked.arena.value? ⟨4⟩ = some 3 ∧
      ∃ r, t.solveWith stay () = (.ok r, (), t) := by
  exact ⟨by decide +kernel, by decide +kernel,
    reachable_solve_twice reachable_locked clustered_locked ⟨inferInstance, rfl⟩ angleBetween_twice
      unlooped_locked (fun _ _ _ hturn => determined_locked hturn) stay ()⟩

end Sketch

end SketchSolver
