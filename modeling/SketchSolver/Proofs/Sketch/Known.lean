import Mathlib
import SketchSolver.Proofs.Cluster.Closure
import SketchSolver.Proofs.Sketch.Consistent
import SketchSolver.Proofs.Solve.Visits

/-!
# What is known when a sketch is solved

* `reachable_knowns_least` — what is known of a cluster before the search is a closure: it depends
  on what was known at first and on the rules of the cluster, but neither on any value nor on the
  order of its constraints and residuals.
* `reachable_known_kept` — what is known once keeps its value until the end of the solve.
-/

namespace SketchSolver

namespace Sketch

variable {α σ : Type} [Scalar α] {s s' : Sketch α}

/-! ## The closure -/

/-- **What is known is a closure.**  For every cluster of a reachable sketch, whatever the values
are and whichever of its variables are known at first, propagation ends after one pass more than
the cluster has variables at most.  What is known then is the least set of groups that contains
what was known at first and to which no rule of the cluster has anything to add.  If constraints and
residuals take their turns in any other order, it is the same set. -/
theorem reachable_knowns_least (h : Reachable s) {cs : List (Cluster α)}
    (hclustered : s.clustered = .ok (cs, s')) {c : Cluster α} (hc : c ∈ cs) {a : Arena α}
    (ha : a.WellFormed) (hshape : a.shape = s'.arena.shape) {preset : Knowns}
    (hpreset : ∀ v ∈ preset, v ∈ c.vars) (fingerOfGod : Bool) :
    ∃ n k, n ≤ c.vars.size + 1 ∧
      c.Passes s'.constraints s'.handles fingerOfGod n ⟨a, preset⟩ k ∧
      c.propagate s'.constraints s'.handles fingerOfGod ⟨a, preset⟩ = .ok k ∧
      Rule.Least (c.rules s'.constraints s'.handles fingerOfGod) a (· ∈ preset) (· ∈ k.knowns) ∧
      ∀ constraints residuals, constraints.Perm c.constraints → residuals.Perm c.residuals →
        ∃ k', Cluster.propagate { c with constraints, residuals } s'.constraints s'.handles
            fingerOfGod ⟨a, preset⟩ = .ok k' ∧
          ∀ v, v ∈ k'.knowns ↔ v ∈ k.knowns := by
  obtain ⟨hs', hcs⟩ := h.intact.of_clustered hclustered
  have hready : c.Ready s'.constraints s'.handles a := (hs'.ready hcs c hc).congr hshape
  obtain ⟨n, k, hn, hpasses, hpropagate⟩ :=
    hready.propagate_spec (k := ⟨a, preset⟩) ha hpreset fingerOfGod
  refine ⟨n, k, hn, hpasses, hpropagate, hpasses.least ha, ?_⟩
  intro constraints residuals hconstraints hresiduals
  let c' : Cluster α := { c with constraints, residuals }
  have hready' : c'.Ready s'.constraints s'.handles a :=
    ⟨fun id hid => hready.constraint id (hconstraints.mem_iff.1 hid),
      fun r hr => hready.residual r (hresiduals.mem_iff.1 hr), hready.root⟩
  obtain ⟨_, k', -, hpasses', hpropagate'⟩ :=
    hready'.propagate_spec (k := ⟨a, preset⟩) ha hpreset fingerOfGod
  refine ⟨k', hpropagate', (hpasses.least ha).unique (hpasses'.least ha) ?_⟩
  exact (hconstraints.flatMap_right _).append (hresiduals.flatMap_right _)

/-- A rod with one end pinned, whose length and angle were locked after it was made. -/
def rod : Sketch Float :=
  (Operation.constant ⟨9⟩ 0).perform.after <| (Operation.constant ⟨8⟩ 5).perform.after <|
    (Operation.polar ⟨0⟩ ⟨3⟩).perform.after <| (Operation.pin ⟨0⟩ ⟨1, 2⟩).perform.after <|
      (Operation.addHandle ⟨3, 4⟩).perform.after <|
        (Operation.addHandle ⟨1, 2⟩).perform.after empty

lemma reachable_rod : Reachable rod :=
  .perform _ (.perform _ (.perform _ (.perform _ (.perform _ (.perform _ (.withConfig _))))))

/-- The only cluster of the rod. -/
def rodCluster : Cluster Float where
  constraints := [⟨6⟩, ⟨7⟩, ⟨10⟩, ⟨11⟩]
  residuals := [.distance ⟨⟨1⟩, ⟨2⟩⟩ ⟨⟨4⟩, ⟨5⟩⟩ ⟨8⟩, .angle ⟨⟨1⟩, ⟨2⟩⟩ ⟨⟨4⟩, ⟨5⟩⟩ ⟨9⟩]
  referenced := [⟨1⟩, ⟨2⟩, ⟨1⟩, ⟨2⟩, ⟨4⟩, ⟨5⟩, ⟨8⟩, ⟨9⟩, ⟨8⟩, ⟨9⟩]
  vars := .ofList [⟨1⟩, ⟨2⟩, ⟨4⟩, ⟨5⟩, ⟨8⟩, ⟨9⟩]

/-- The other end of the rod becomes known, whenever the locks take their turns. -/
theorem knowns_least_rod :
    let s' := Operation.cluster.perform.after rod
    ∃ n k, n ≤ 7 ∧ rodCluster.Passes s'.constraints s'.handles false n ⟨s'.arena, .empty⟩ k ∧
      ⟨4⟩ ∈ k.knowns ∧
      ∃ k', Cluster.propagate { rodCluster with constraints := [⟨10⟩, ⟨11⟩, ⟨6⟩, ⟨7⟩] }
          s'.constraints s'.handles false ⟨s'.arena, .empty⟩ = .ok k' ∧ ⟨4⟩ ∈ k'.knowns := by
  intro s'
  have hclustered : rod.clustered = .ok ([rodCluster], s') := rfl
  have hs' : Reachable s' := .perform _ reachable_rod
  obtain ⟨n, k, hn, hpasses, hpropagate, -, hany⟩ :=
    reachable_knowns_least reachable_rod hclustered List.mem_cons_self hs'.intact.arena rfl
      (show ∀ v ∈ OrderedSet.empty, v ∈ rodCluster.vars by simp) false
  obtain ⟨k', hpropagate', hsame⟩ :=
    hany [⟨10⟩, ⟨11⟩, ⟨6⟩, ⟨7⟩] rodCluster.residuals (by decide) (.refl _)
  have hknowns : (rodCluster.propagate s'.constraints s'.handles false
      ⟨s'.arena, .empty⟩).toOption.map (·.knowns.contains ⟨4⟩) = some true := by decide +kernel
  have hend : ⟨4⟩ ∈ k.knowns := by simpa [hpropagate, Except.toOption] using hknowns
  exact ⟨n, k, hn, hpasses, hend, k', hpropagate', (hsame _).2 hend⟩

/-! ## What is known is kept -/

/-- The turn of a cluster of an intact sketch: what is known from the start, and what is kept. -/
lemma Intact.kept (h : s.Intact) {before after : List (Cluster α)} {c : Cluster α}
    (hcs : s.clusters = some (before ++ c :: after)) (m : Minimizer σ α) (memory : σ) :
    ∃ outcomes memory₁ a held,
      solveClusters s.solveContext m before memory s.arena = .ok (outcomes, memory₁, a) ∧
      Arena.Within (Covers before) s.arena a ∧
      c.Ready s.solveContext.constraints s.solveContext.handles a ∧
      c.preset s.solveContext a = .ok held ∧
      ∀ k, c.Learning s.constraints s.handles s.fingerOfGod ⟨a, held⟩ k →
        ∀ v, k.isKnown v = true →
          (∀ b, c.Later s.solveContext m memory₁ after a k b → b.value? v = k.arena.value? v) ∧
          (s.solveWith m memory).2.2.arena.value? v = k.arena.value? v := by
  obtain ⟨outcomes, memory₁, a, _, _, b, hbefore, hwithin, hready, hrest, -, hwhole⟩ :=
    h.solveWith_append hcs m memory
  have hready₁ := hready c List.mem_cons_self
  obtain ⟨held, hheld, -⟩ := hready₁.preset_spec
  refine ⟨outcomes, memory₁, a, held, hbefore, hwithin, hready₁, hheld, fun k hlearning v hv => ?_⟩
  have hapart := List.pairwise_cons.1 (List.pairwise_append.1 (h.disjoint hcs)).2.1
  obtain ⟨hlater, hend⟩ := hready₁.kept (fun d hd => hready d (List.mem_cons_of_mem _ hd)) hapart.1
    hwithin.wellFormed hheld hlearning hv
  refine ⟨hlater, ?_⟩
  rw [hwhole]
  exact hend _ _ _ hrest

/-- **What is known is kept.**  In a solve of a reachable sketch with its clusters, every cluster
has its turn.  Whatever becomes known in its turn — held from the start, or marked by a constraint
or a residual — has the same value in everything the solve passes through from then on, and after
it.  So, if gizmos are stabilised, the lengths and the angles of all rods are what they were. -/
theorem reachable_known_kept (h : Reachable s) {before after : List (Cluster α)} {c : Cluster α}
    (hcs : s.clusters = some (before ++ c :: after)) (m : Minimizer σ α) (memory : σ) :
    ∃ outcomes memory₁ a held,
      solveClusters s.solveContext m before memory s.arena = .ok (outcomes, memory₁, a) ∧
      c.preset s.solveContext a = .ok held ∧
      (∀ k, c.Learning s.constraints s.handles s.fingerOfGod ⟨a, held⟩ k →
        ∀ v, k.isKnown v = true →
          (∀ b, c.Later s.solveContext m memory₁ after a k b → b.value? v = k.arena.value? v) ∧
          (s.solveWith m memory).2.2.arena.value? v = k.arena.value? v) ∧
      (s.stabilizeGizmos = true → ∀ length bearing,
        c.Rod s.constraints s.handles s.arena length bearing → ∀ v ∈ [length, bearing],
          (s.solveWith m memory).2.2.arena.value? v = s.arena.value? v) := by
  obtain ⟨outcomes, memory₁, a, held, hbefore, hwithin, hready, hheld, hkept⟩ :=
    h.intact.kept hcs m memory
  refine ⟨outcomes, memory₁, a, held, hbefore, hheld, hkept, ?_⟩
  intro hstabilize length bearing hrod v hv
  obtain ⟨held', hheld', hinside, hmem⟩ := hready.preset_spec
  rw [hheld] at hheld'
  cases hheld'
  have hknown : a.canonical v ∈ held := by
    refine (hmem _).2 ⟨hstabilize, length, bearing, ?_, ?_⟩
    · rw [Cluster.rod_congr hwithin.shape]
      exact hrod
    · rcases List.mem_pair.1 hv with rfl | rfl
      · exact Or.inl rfl
      · exact Or.inr rfl
  rw [(hkept ⟨a, held⟩ (.start _) v ((KnownArena.isKnown_iff _ v).2 hknown)).2]
  -- the clusters before have other groups
  refine hwithin.frame v ?_
  rintro ⟨d, hd, hgroup⟩
  have hvars := hinside _ hknown
  rw [hwithin.canonical] at hvars
  exact (List.pairwise_append.1 (h.intact.disjoint hcs)).2.2 d hd c List.mem_cons_self _ hgroup
    hvars

/-- The rod keeps its length, although it is locked to another one. -/
theorem known_kept_rod :
    let s := Operation.cluster.perform.after ((Operation.setStabilizeGizmos true).perform.after rod)
    s.constraints.get? ⟨10⟩ = some (.constant ⟨8⟩ 5) ∧ s.arena.value? ⟨8⟩ ≠ some 5 ∧
      (s.solveWith stay ()).2.2.arena.value? ⟨8⟩ = s.arena.value? ⟨8⟩ := by
  intro s
  have hs : Reachable s := .perform _ (.perform _ reachable_rod)
  have hcs : s.clusters = some ([] ++ rodCluster :: []) := rfl
  obtain ⟨-, -, -, -, -, -, -, hrods⟩ := reachable_known_kept hs hcs stay ()
  have hrod : rodCluster.Rod s.constraints s.handles s.arena ⟨8⟩ ⟨9⟩ := by
    refine ⟨⟨7⟩, by decide, ⟨0⟩, ⟨3⟩, rfl, fun j hj f position hfinger => ?_⟩
    simp only [rodCluster, List.mem_cons, List.not_mem_nil, or_false] at hj
    rcases hj with rfl | rfl | rfl | rfl <;> cases hfinger
  exact ⟨rfl, by decide +kernel, hrods rfl _ _ hrod _ List.mem_cons_self⟩

end Sketch

end SketchSolver
