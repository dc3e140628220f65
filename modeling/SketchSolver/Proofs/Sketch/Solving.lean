import Mathlib
import SketchSolver.Proofs.Sketch.Reachable

/-!
# Solving a reachable sketch

What a maintainer may rely on when a sketch is solved, for any minimizer.

**All or nothing.**  A cluster whose minimizer converges takes over the solution; a cluster
whose minimizer does anything else has the values it had before (`reachable_solve_outcome`).  What
the minimizer has probed in between leaves no trace.

**Independence.**  With a forgetful minimizer the order of the clusters is no matter for the values
and for the report, and what no constraint refers to is left alone
(`reachable_clusters_independent`).
-/

namespace SketchSolver

namespace Sketch

variable {α σ : Type} [Scalar α] {s s' : Sketch α}

/-- The clusters of an intact sketch have no variable in common. -/
lemma Intact.disjoint (h : s.Intact) {cs : List (Cluster α)} (hcs : s.clusters = some cs) :
    Disjoint cs :=
  (h.current hcs).disjoint

/-- A variable of a cluster is the canonical variable of something a constraint refers to. -/
lemma Intact.refers_of_covers (h : s.Intact) {cs : List (Cluster α)} (hcs : s.clusters = some cs)
    {v : VarId} (hv : Covers cs v) : ∃ id w, s.Refers id w ∧ s.arena.canonical w = v := by
  obtain ⟨c, hc, hv⟩ := hv
  have hclustering := h.current hcs
  obtain ⟨w, hw, hcanonical⟩ := (hclustering.exact c hc v).1 hv
  obtain ⟨id, -, hrefers⟩ := ((hclustering.sound c hc).referenced w).1 hw
  exact ⟨id, w, hrefers, hcanonical⟩

/-! ## One cluster -/

/-- **A solve in two parts.**  The clusters that come first leave the others ready, and the solve
ends where the others end. -/
lemma Intact.solveWith_append (h : s.Intact) {before rest : List (Cluster α)}
    (hcs : s.clusters = some (before ++ rest)) (m : Minimizer σ α) (memory : σ) :
    ∃ outcomes memory₁ a outcomes' memory₂ b,
      solveClusters s.solveContext m before memory s.arena = .ok (outcomes, memory₁, a) ∧
      Arena.Within (Covers before) s.arena a ∧
      (∀ d ∈ rest, d.Ready s.solveContext.constraints s.solveContext.handles a) ∧
      solveClusters s.solveContext m rest memory₁ a = .ok (outcomes', memory₂, b) ∧
      Arena.Within (Covers rest) a b ∧ (s.solveWith m memory).2.2.arena = b := by
  have hready := h.ready hcs
  obtain ⟨outcomes, memory₁, a, hbefore, hwithin⟩ :=
    solveClusters_spec m memory h.arena fun d hd => hready d (List.mem_append_left _ hd)
  have hready₁ : ∀ d ∈ rest, d.Ready s.solveContext.constraints s.solveContext.handles a :=
    fun d hd => (hready d (List.mem_append_right _ hd)).congr hwithin.shape
  obtain ⟨outcomes', memory₂, b, hrest, hwithin'⟩ :=
    solveClusters_spec m memory₁ hwithin.wellFormed hready₁
  have hclustered : s.clustered = .ok (before ++ rest, s) := by rw [clustered, hcs]
  refine ⟨outcomes, memory₁, a, outcomes', memory₂, b, hbefore, hwithin, hready₁, hrest, hwithin',
    ?_⟩
  simp only [solveWith, hclustered, solveClusters_append hbefore hrest]

/-- Solving the clusters before a cluster leaves it ready. -/
lemma Intact.solve_before (h : s.Intact) {before after : List (Cluster α)} {c : Cluster α}
    (hcs : s.clusters = some (before ++ c :: after)) (m : Minimizer σ α) (memory : σ) :
    ∃ outcomes memory₁ a₁,
      solveClusters s.solveContext m before memory s.arena = .ok (outcomes, memory₁, a₁) ∧
      a₁.WellFormed ∧ a₁.shape = s.arena.shape ∧
      c.Ready s.solveContext.constraints s.solveContext.handles a₁ := by
  obtain ⟨outcomes, memory₁, a₁, -, -, -, hbefore, hwithin, hready, -⟩ :=
    h.solveWith_append hcs m memory
  exact ⟨outcomes, memory₁, a₁, hbefore, hwithin.wellFormed, hwithin.shape,
    hready c List.mem_cons_self⟩

/-- **The turn of a cluster.**  The clusters before it have other groups, so it finds its own as
they were.  The clusters after it have other groups as well, so what it makes of its own stays. -/
lemma Intact.turn (h : s.Intact) {before after : List (Cluster α)} {c : Cluster α}
    (hcs : s.clusters = some (before ++ c :: after)) (m : Minimizer σ α) (memory : σ) :
    ∃ outcomes memory₁ a outcome memory₂ b,
      solveClusters s.solveContext m before memory s.arena = .ok (outcomes, memory₁, a) ∧
      a.WellFormed ∧ a.shape = s.arena.shape ∧
      c.Ready s.solveContext.constraints s.solveContext.handles a ∧
      solveCluster s.solveContext m memory₁ c a = .ok (outcome, memory₂, b) ∧
      ∀ v, s.arena.canonical v ∈ c.vars →
        a.value? v = s.arena.value? v ∧
          (s.solveWith m memory).2.2.arena.value? v = b.value? v := by
  obtain ⟨outcomes, memory₁, a, _, _, _, hbefore, hwithin, hready, hrest, -, hwhole⟩ :=
    h.solveWith_append hcs m memory
  obtain ⟨outcome, memory₂, b, hsolve, hown⟩ :=
    solveCluster_spec m memory₁ hwithin.wellFormed (hready c List.mem_cons_self)
  obtain ⟨_, _, d, hafter, hlater⟩ := solveClusters_spec m memory₂ hown.wellFormed
    fun d hd => (hready d (List.mem_cons_of_mem _ hd)).congr hown.shape
  rw [solveClusters, hsolve] at hrest
  simp only [ok_bind, hafter] at hrest
  cases hrest
  have hapart := List.pairwise_append.1 (h.disjoint hcs)
  refine ⟨outcomes, memory₁, a, outcome, memory₂, b, hbefore, hwithin.wellFormed, hwithin.shape,
    hready c List.mem_cons_self, hsolve, fun v hv => ⟨hwithin.frame v ?_, ?_⟩⟩
  · rintro ⟨d, hd, hgroup⟩
    exact hapart.2.2 d hd c List.mem_cons_self _ hgroup hv
  · rw [hwhole]
    refine hlater.frame v ?_
    rintro ⟨d, hd, hgroup⟩
    rw [hown.canonical, hwithin.canonical] at hgroup
    exact (List.pairwise_cons.1 hapart.2.1).1 d hd _ hv hgroup

/-- **The outcome of a cluster.**  When its turn comes, the clusters before it have been solved and
its direct consequences are drawn, none of which fails.  If there are parameters then, the
minimizer is called.  If it converges with a full solution, every parameter has its component of
the solution afterwards.  If it runs out of iterations or fails, every variable has the value that
it had when the minimizer was called. -/
theorem reachable_solve_outcome (h : Reachable s) {before after : List (Cluster α)} {c : Cluster α}
    (hclustered : s.clustered = .ok (before ++ c :: after, s')) (m : Minimizer σ α) (memory : σ) :
    ∃ outcomes memory₁ a₁ p a₂,
      solveClusters s'.solveContext m before memory s'.arena = .ok (outcomes, memory₁, a₁) ∧
      Problem.prepare s'.solveContext c a₁ = .ok (p, a₂) ∧
      (p.parameters ≠ [] → ∃ start answer memory₂ probed outcome a₃,
        p.parameters.mapM a₂.value = .ok start ∧
        (m.minimize memory₁ start).run (p.objective s'.fingerOfGod) (a₂, none) =
          ((answer, memory₂), probed) ∧
        solveCluster s'.solveContext m memory₁ c a₁ = .ok (outcome, memory₂, a₃) ∧
        (∀ solution iterations, answer = .ok ⟨solution, .converged, iterations⟩ →
          solution.length = p.parameters.length →
          List.Forall₂ (fun v x => a₃.value? v = some x) p.parameters solution) ∧
        ((∀ solution iterations, answer ≠ .ok ⟨solution, .converged, iterations⟩) →
          ∀ v, a₃.value? v = a₂.value? v)) := by
  obtain ⟨cs, s₁, hclustered', hs', hcs, -⟩ := h.intact.clustered_spec
  rw [hclustered] at hclustered'
  cases hclustered'
  have hready := hs'.ready hcs
  obtain ⟨outcomes, memory₁, a₁, hbefore, hwithin⟩ :=
    solveClusters_spec m memory hs'.arena
      fun d hd => hready d (List.mem_append_left _ hd)
  have hready₁ : c.Ready s'.solveContext.constraints s'.solveContext.handles a₁ :=
    (hready c (by simp)).congr hwithin.shape
  obtain ⟨⟨p, a₂⟩, _, hprepare, -, -, hfits, htwins⟩ :=
    Problem.both_prepare hready₁ (.self hwithin.wellFormed)
  refine ⟨outcomes, memory₁, a₁, p, a₂, hbefore, hprepare, fun hparameters => ?_⟩
  obtain ⟨start, answer, memory₂, probed, outcome, a₃, hstart, hrun, hsearch, -, hconcludes⟩ :=
    Problem.search_spec (hready₁.congr htwins.shape_left) hfits m memory₁
      htwins.left.wellFormed s'.fingerOfGod
  refine ⟨start, answer, memory₂, probed, outcome, a₃, hstart, hrun, ?_, ?_, ?_⟩
  · rw [solveCluster, hprepare]
    simp only [ok_bind, List.isEmpty_iff, hparameters, if_false]
    exact hsearch
  · rintro solution iterations rfl
    exact hconcludes
  · intro hother
    rcases answer with e | ⟨solution, stop, iterations⟩
    · exact hconcludes
    · cases stop with
      | converged => exact absurd rfl (hother solution iterations)
      | iterationLimit => exact hconcludes

/-- What a finger drags. -/
def draggedCluster (finger : ConstraintId) (point : Coords) (position : Point Float) :
    Cluster Float where
  constraints := [finger]
  residuals := [.finger point position]
  referenced := [point.x, point.y]
  vars := .ofList [point.x, point.y]

/-- The sketch of two dragged handles with its clusters. -/
def draggedClusters : Sketch Float :=
  Operation.cluster.perform.after dragged

lemma reachable_draggedClusters : Reachable draggedClusters :=
  .perform _ reachable_dragged

/-- A minimizer that does not look and answers with the same point every time. -/
def alwaysAt (solution : List Float) : Minimizer Unit Float where
  minimize _ _ := .done (.ok ⟨solution, .converged, 0⟩, ())

/-- A handle goes where the minimizer puts it. -/
theorem solve_outcome_dragged :
    ∃ outcome a, solveCluster draggedClusters.solveContext (alwaysAt [6, 7]) ()
        (draggedCluster ⟨6⟩ ⟨⟨1⟩, ⟨2⟩⟩ ⟨6, 7⟩) draggedClusters.arena = .ok (outcome, (), a) ∧
      a.value? ⟨1⟩ = some 6 ∧ a.value? ⟨2⟩ = some 7 := by
  have hclustered : dragged.clustered = .ok ([] ++ draggedCluster ⟨6⟩ ⟨⟨1⟩, ⟨2⟩⟩ ⟨6, 7⟩ ::
      [draggedCluster ⟨7⟩ ⟨⟨4⟩, ⟨5⟩⟩ ⟨8, 9⟩], draggedClusters) := rfl
  obtain ⟨outcomes, memory₁, a₁, p, a₂, hbefore, hprepare, houtcome⟩ :=
    reachable_solve_outcome reachable_dragged hclustered (alwaysAt [6, 7]) ()
  cases hbefore
  cases hprepare
  obtain ⟨start, answer, memory₂, probed, outcome, a₃, -, hrun, hsolve, hconverged, -⟩ :=
    houtcome (by decide)
  cases hrun
  obtain - | ⟨hx, - | ⟨hy, -⟩⟩ := hconverged _ _ rfl rfl
  exact ⟨outcome, a₃, hsolve, hx, hy⟩

/-! ## All clusters -/

/-- **Clusters are independent.**  If the clusters of a reachable sketch have been built, then

* with a forgetful minimizer, solving them in any order gives every variable the same value, and
  the same report, or an error in both cases;
* with any minimizer, a solve changes values only, and only those of variables whose group
  some constraint refers to. -/
theorem reachable_clusters_independent (h : Reachable s) {cs : List (Cluster α)}
    (hcs : s.clusters = some cs) :
    (∀ (m : Minimizer σ α), m.Forgetful → ∀ (memory : σ) (cs' : List (Cluster α)), cs.Perm cs' →
      ∃ outcomes outcomes' after after' b,
        solveClusters s.solveContext m cs memory s.arena = .ok (outcomes, after, b) ∧
        solveClusters s.solveContext m cs' memory s.arena = .ok (outcomes', after', b) ∧
        ((∃ r, Report.conclude outcomes = .ok r ∧ Report.conclude outcomes' = .ok r) ∨
          ∃ e e', Report.conclude outcomes = .error e ∧ Report.conclude outcomes' = .error e')) ∧
    ∀ (m : Minimizer σ α) (memory : σ),
      ∃ b, (s.solveWith m memory).2.2 = { s with arena := b } ∧
        b.ids = s.arena.ids ∧ b.link? = s.arena.link? ∧
        ∀ v, (∀ id w, s.Refers id w → s.arena.canonical w ≠ s.arena.canonical v) →
          b.value? v = s.arena.value? v := by
  have hs := h.intact
  constructor
  · intro m hm memory cs' hperm
    obtain ⟨outcomes, outcomes', after, after', b, hsolve, hsolve', houtcomes⟩ :=
      solveClusters_perm hm hperm hs.arena (hs.ready hcs)
        (hs.disjoint hcs) memory
    exact ⟨outcomes, outcomes', after, after', b, hsolve, hsolve',
      Report.conclude_perm houtcomes⟩
  · intro m memory
    obtain ⟨cs', s₁, outcomes, after, b, hclustered, -, -, -, hwithin, hsolve⟩ :=
      hs.solveWith_spec m memory
    have hbuilt : s.clustered = .ok (cs, s) := by rw [clustered, hcs]
    rw [hbuilt] at hclustered
    cases hclustered
    refine ⟨b, by rw [hsolve], Arena.ids_congr hwithin.shape, Arena.link?_congr hwithin.shape,
      fun v hv => hwithin.frame v fun hcovers => ?_⟩
    obtain ⟨id, w, hrefers, hcanonical⟩ := hs.refers_of_covers hcs hcovers
    exact hv id w hrefers hcanonical

/-- The second handle may be solved first. -/
theorem clusters_independent_dragged :
    (∃ outcomes outcomes' b,
      solveClusters draggedClusters.solveContext (alwaysAt [6, 7])
          [draggedCluster ⟨6⟩ ⟨⟨1⟩, ⟨2⟩⟩ ⟨6, 7⟩, draggedCluster ⟨7⟩ ⟨⟨4⟩, ⟨5⟩⟩ ⟨8, 9⟩] ()
          draggedClusters.arena = .ok (outcomes, (), b) ∧
        solveClusters draggedClusters.solveContext (alwaysAt [6, 7])
          [draggedCluster ⟨7⟩ ⟨⟨4⟩, ⟨5⟩⟩ ⟨8, 9⟩, draggedCluster ⟨6⟩ ⟨⟨1⟩, ⟨2⟩⟩ ⟨6, 7⟩] ()
          draggedClusters.arena = .ok (outcomes', (), b)) ∧
      (draggedClusters.solveWith (alwaysAt [6, 7]) ()).2.2.handles = draggedClusters.handles := by
  have hcs : draggedClusters.clusters = some [draggedCluster ⟨6⟩ ⟨⟨1⟩, ⟨2⟩⟩ ⟨6, 7⟩,
      draggedCluster ⟨7⟩ ⟨⟨4⟩, ⟨5⟩⟩ ⟨8, 9⟩] := rfl
  obtain ⟨hperm, hframe⟩ :=
    reachable_clusters_independent (σ := Unit) reachable_draggedClusters hcs
  obtain ⟨outcomes, outcomes', ⟨⟩, ⟨⟩, b, hsolve, hsolve', -⟩ :=
    hperm (alwaysAt [6, 7]) (fun _ _ _ => rfl) () _ (List.Perm.swap _ _ [])
  obtain ⟨b', hafter, -⟩ := hframe (alwaysAt [6, 7]) ()
  exact ⟨⟨outcomes, outcomes', b, hsolve, hsolve'⟩, by rw [hafter]⟩

end Sketch

end SketchSolver
