import Mathlib
import SketchSolver.Scalar.Double
import SketchSolver.Sketch.Operation
import SketchSolver.Proofs.Arena.Rewrite
import SketchSolver.Proofs.Sketch.Operation
import SketchSolver.Proofs.Solve.Clusters

/-!
# Reachable sketches

A sketch is reachable if a history of operations and solves leads to it from an empty one.  The
history may contain operations that fail, and solves with minimizers that do anything at all.

* `Sketch.Reachable` — the histories.
* `Reachable.invariant` — what every change keeps, by induction on the history.
* `Reachable.intact` — every reachable sketch is intact.
* `reachable_arena_wellFormed` — so its arena is well-formed, and requests are rewritten twice at
  most.
* `Intact.clustered_eq`, `Intact.solveWith_spec` — what clustering and solving an intact sketch come
  to.
-/

namespace SketchSolver

namespace Sketch

variable {α σ : Type} [Scalar α] {s s' : Sketch α}

/-- The sketches that operations and solves lead to from an empty one. -/
inductive Reachable : Sketch α → Prop where
  | withConfig (config : Config α) : Reachable (withConfig config)
  | perform {s : Sketch α} (op : Operation α) : Reachable s → Reachable (op.perform.after s)
  | solveWith {s : Sketch α} {σ : Type} (m : Minimizer σ α) (memory : σ) :
      Reachable s → Reachable (s.solveWith m memory).2.2

/-- An operation leads from reachable sketches to reachable ones. -/
lemma Reachable.ensures_perform (h : Reachable s) (op : Operation α) :
    Edit.Ensures Reachable op.perform (fun _ => Reachable) s := by
  have hafter := Reachable.perform op h
  rw [Edit.after] at hafter
  rw [Edit.Ensures]
  split <;> simp_all only

/-! ## Clustering an intact sketch -/

/-- What is left after clustering. -/
lemma after_cluster {cs : List (Cluster α)} (hclustered : s.clustered = .ok (cs, s')) :
    Operation.cluster.perform.after s = s' := by
  have hrun : Operation.cluster.perform.after s =
      (Answer.clusters <$> (Edit.ofExcept s.clustered >>= fun r =>
        set r.2 >>= fun _ => pure r.1) : Edit α (Answer α)).after s := rfl
  rw [hrun, hclustered]
  rfl

/-- Clustering leads from reachable sketches to reachable ones. -/
lemma Reachable.clustered (h : Reachable s) {cs : List (Cluster α)}
    (hclustered : s.clustered = .ok (cs, s')) : Reachable s' :=
  after_cluster hclustered ▸ .perform .cluster h

/-- The clusters of an intact sketch can be read off after clustering. -/
lemma Intact.clustered_eq (h : s.Intact) {cs : List (Cluster α)} :
    (Operation.cluster.perform.after s).clusters = some cs →
      s.clustered = .ok (cs, Operation.cluster.perform.after s) ∧
        (Operation.cluster.perform.after s).constraints = s.constraints := by
  obtain ⟨cs', s₁, hclustered, -, hcs', hconstraints, -⟩ := h.clustered_spec
  rw [after_cluster hclustered, hcs']
  rintro ⟨⟩
  exact ⟨hclustered, hconstraints⟩

/-- A solve clusters first, so it makes no difference to cluster before. -/
lemma Intact.solveWith_clustered (h : s.Intact) {cs : List (Cluster α)}
    (hclustered : s.clustered = .ok (cs, s')) (m : Minimizer σ α) (memory : σ) :
    s'.solveWith m memory = s.solveWith m memory := by
  have hagain : s'.clustered = .ok (cs, s') := by
    rw [clustered, (h.of_clustered hclustered).2]
  simp only [solveWith, hclustered, hagain]

/-! ## Solving an intact sketch -/

/-- The clusters of an intact sketch are ready to be solved. -/
lemma Intact.ready (h : s.Intact) {cs : List (Cluster α)} (hcs : s.clusters = some cs) :
    ∀ c ∈ cs, c.Ready s.solveContext.constraints s.solveContext.handles s.arena := by
  have hclustering := h.current hcs
  intro c hc
  have hsound := hclustering.sound c hc
  have hinside : ∀ v ∈ c.referenced, Arena.Inside (· ∈ c.vars) s.arena v := by
    intro v hv
    exact ⟨hsound.live v hv, (hclustering.exact c hc _).2 ⟨v, hv, rfl⟩⟩
  refine ⟨fun id hid => ?_, fun r hr v hv => hinside v (hsound.residuals r hr v hv), fun v hv => ?_⟩
  · obtain ⟨k, hget⟩ := (s.constraints.mem_keys_iff_exists id).1 (hclustering.mem_done hc hid)
    exact ⟨k, hget, h.live hget not_false, fun v hv =>
      hinside v ((hsound.referenced v).2 ⟨id, hid, k, hget, hv⟩)⟩
  · obtain ⟨w, hw, rfl⟩ := (hclustering.exact c hc v).1 hv
    exact ⟨h.arena.contains_canonical (hsound.live w hw), h.arena.canonical_canonical w⟩

/-- **Solving** an intact sketch solves all its clusters, and what changes are values in their
groups. -/
theorem Intact.solveWith_spec (h : s.Intact) (m : Minimizer σ α) (memory : σ) :
    ∃ cs s' outcomes after b, s.clustered = .ok (cs, s') ∧ s'.Intact ∧ s'.clusters = some cs ∧
      solveClusters s'.solveContext m cs memory s'.arena = .ok (outcomes, after, b) ∧
      Arena.Within (Covers cs) s'.arena b ∧
      s.solveWith m memory = (Report.conclude outcomes, after, { s' with arena := b }) := by
  obtain ⟨cs, s', hclustered, hs', hcs, -⟩ := h.clustered_spec
  obtain ⟨outcomes, after, b, hsolve, hwithin⟩ :=
    solveClusters_spec m memory hs'.arena (hs'.ready hcs)
  refine ⟨cs, s', outcomes, after, b, hclustered, hs', hcs, hsolve, hwithin, ?_⟩
  simp only [solveWith, hclustered, hsolve]

/-- Once there are clusters, a solve unifies nothing. -/
lemma Intact.shape_solveWith (h : s.Intact) {cs : List (Cluster α)}
    (hclustered : s.clustered = .ok (cs, s')) (m : Minimizer σ α) (memory : σ) :
    (s.solveWith m memory).2.2.arena.shape = s'.arena.shape := by
  obtain ⟨_, _, _, _, _, hclustered', -, -, -, hwithin, hsolve⟩ := h.solveWith_spec m memory
  rw [hclustered] at hclustered'
  cases hclustered'
  rw [hsolve]
  exact hwithin.shape

/-- **What every change keeps holds of every reachable sketch**, if it holds of the empty ones. -/
theorem Reachable.invariant {I : Sketch α → Prop} (hI : Invariant I)
    (hempty : ∀ config, I (Sketch.withConfig config)) (h : Reachable s) : I s := by
  induction h with
  | withConfig config => exact hempty config
  | perform op _ ih => exact (op.ensures_perform hI ih).after
  | solveWith m memory _ ih =>
      obtain ⟨cs, s', outcomes, after, b, hclustered, -, -, -, hwithin, hsolve⟩ :=
        (hI.intact ih).solveWith_spec m memory
      rw [hsolve]
      exact hI.step (hI.clustered ih hclustered) (.revalue hwithin.wellFormed hwithin.shape)

/-- **Every reachable sketch is intact.** -/
theorem Reachable.intact (h : Reachable s) : s.Intact :=
  h.invariant invariant_intact intact_withConfig

/-- **The arena of a reachable sketch.**  Both records of the unifications agree, every absorbed
variable has the value that follows from its canonical variable, no trail has more than one step, no
unification is rewritten more than twice, and no write more than once. -/
theorem reachable_arena_wellFormed (h : Reachable s) :
    s.arena.WellFormed ∧
      (∀ id, (s.arena.trail id).2.length ≤ 1) ∧
      (∀ {this that offset n t u f}, s.arena.UnifyRequest this that offset n t u f →
        n ≤ 2 ∧ (s.arena.contains this = true → s.arena.contains that = true →
          s.arena.unify t u f = s.arena.unify this that offset)) ∧
      ∀ {id x n k y}, s.arena.WriteRequest id x n k y →
        n ≤ 1 ∧ (s.arena.contains id = true → s.arena.setValue k y = s.arena.setValue id x) := by
  have hwf := h.intact.arena
  refine ⟨hwf, hwf.length_trail_le,
    fun hrequest => ⟨hwf.unifyRequest_depth hrequest, fun hthis hthat => ?_⟩,
    fun hrequest => ⟨hwf.writeRequest_depth hrequest, fun hid => ?_⟩⟩
  · exact hwf.unify_rewritten hthis hthat hrequest
  · exact hwf.setValue_rewritten hid hrequest

/-! ## Two handles under a finger each -/

/-- Two handles, each dragged by a finger of its own. -/
def dragged : Sketch Float :=
  (Operation.finger ⟨3⟩ ⟨8, 9⟩).perform.after <|
    (Operation.finger ⟨0⟩ ⟨6, 7⟩).perform.after <|
      (Operation.addHandle ⟨2, 3⟩).perform.after <| (Operation.addHandle ⟨0, 1⟩).perform.after empty

lemma reachable_dragged : Reachable dragged :=
  .perform _ (.perform _ (.perform _ (.perform _ (.withConfig _))))

/-- The first handle is moved along with the second one. -/
theorem arena_wellFormed_dragged :
    let tied := (Operation.linear ⟨1⟩ 2 ⟨4⟩ 1).perform.after dragged
    tied.arena.WellFormed ∧
      ∀ {n t u f}, tied.arena.UnifyRequest ⟨4⟩ ⟨1⟩ .identity n t u f → n ≤ 2 := by
  intro tied
  obtain ⟨hwf, -, hunify, -⟩ :=
    reachable_arena_wellFormed (s := tied) (.perform _ reachable_dragged)
  exact ⟨hwf, fun hrequest => (hunify hrequest).1⟩

end Sketch

end SketchSolver
