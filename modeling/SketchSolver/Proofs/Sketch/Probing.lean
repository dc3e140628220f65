import Mathlib
import SketchSolver.Proofs.Plane
import SketchSolver.Proofs.Sketch.Consistent
import SketchSolver.Proofs.Solve.Converge

/-!
# Where a minimizer looks

A look at the objective writes to the arena.  What may a minimizer, and what may the next frame, see
of that?

**The minimizer sees a function** (`reachable_objective`): a full point has the same value whenever
it is looked at, whatever was looked at before.

**The next frame sees the answers** (`reachable_same_answers`): two minimizers that come to the same
answers leave the same values, but for angles that nothing else refers to.  Those are followed from
look to look, so a minimizer that looks once around a point leaves its angle a full turn further
(`swept_turned`).
-/

namespace SketchSolver

namespace Sketch

variable {α σ τ : Type} [Scalar α] {s s' : Sketch α}

/-! ## What the minimizer sees -/

/-- **The objective is a function.**  When the turn of a cluster of a reachable sketch has come and
its direct consequences are drawn, the objective has one value at every point with a component for
each parameter: the one it has when it is looked at first.  It has that value after any looks at
any points, bit for bit, and no look fails.  So a search that looks at such points comes to what
it would come to on a function. -/
theorem reachable_objective (h : Reachable s) {before after : List (Cluster α)} {c : Cluster α}
    (hclustered : s.clustered = .ok (before ++ c :: after, s')) (m : Minimizer σ α) (memory : σ) :
    ∃ outcomes memory₁ a₁ p a₂,
      solveClusters s'.solveContext m before memory s'.arena = .ok (outcomes, memory₁, a₁) ∧
      Problem.prepare s'.solveContext c a₁ = .ok (p, a₂) ∧
      (∀ (points : List (List α)) (x : List α), x.length = p.parameters.length →
        ∃ b, p.objective s'.fingerOfGod x
            (points.foldl (fun state point => (p.objective s'.fingerOfGod point state).2)
              (a₂, none)) =
          ((p.objective s'.fingerOfGod x (a₂, none)).1, b, none)) ∧
      ∀ {β : Type} (search : Search α β), search.Full p.parameters.length →
        (search.run (p.objective s'.fingerOfGod) (a₂, none)).1 =
          search.runPure fun x => (p.objective s'.fingerOfGod x (a₂, none)).1 := by
  obtain ⟨hs', hcs⟩ := h.intact.of_clustered hclustered
  obtain ⟨outcomes, memory₁, a₁, hbefore, hwf, -, hready⟩ := hs'.solve_before hcs m memory
  obtain ⟨⟨p, a₂⟩, _, hprepare, -, -, hfits, htwins⟩ := Problem.both_prepare hready (.self hwf)
  have hready₂ := hready.congr htwins.left.shape
  have hwf₂ : a₂.WellFormed := htwins.left.wellFormed
  have howned := Problem.owned_of_prepare hprepare
  refine ⟨outcomes, memory₁, a₁, p, a₂, hbefore, hprepare, fun points x hx => ?_,
    fun search hsearch => ?_⟩
  · obtain ⟨b, hlooks, hwithin⟩ :=
      Problem.objective_foldl hready₂ hfits (.refl hwf₂) s'.fingerOfGod points
    obtain ⟨b', hlook, -⟩ :=
      Problem.objective_full hready₂ hfits howned hwf₂ hx hwithin s'.fingerOfGod
    exact ⟨b', by rw [hlooks, hlook]⟩
  · obtain ⟨b, hrun, -⟩ := Problem.run_objective_full hready₂ hfits hsearch howned hwf₂
      (.refl hwf₂) s'.fingerOfGod
    rw [hrun]

/-- A pinned handle, another one, and the angle of the vector between them. -/
def swept : Sketch Taxicab :=
  (Operation.pin ⟨0⟩ ⟨0, 0⟩).perform.after <|
    (Operation.angle ⟨0⟩ ⟨3⟩).perform.after <|
      (Operation.addHandle ⟨1, 0⟩).perform.after <| (Operation.addHandle ⟨0, 0⟩).perform.after empty

lemma reachable_swept : Reachable swept :=
  .perform _ (.perform _ (.perform _ (.perform _ (.withConfig _))))

/-- The sketch with its clusters. -/
def sweptClusters : Sketch Taxicab :=
  Operation.cluster.perform.after swept

/-- Its only cluster. -/
def sweptCluster : Cluster Taxicab where
  constraints := [⟨6⟩, ⟨8⟩]
  residuals := [.angle ⟨⟨1⟩, ⟨2⟩⟩ ⟨⟨4⟩, ⟨5⟩⟩ ⟨7⟩]
  referenced := [⟨1⟩, ⟨2⟩, ⟨4⟩, ⟨5⟩, ⟨7⟩, ⟨1⟩, ⟨2⟩]
  vars := .ofList [⟨1⟩, ⟨2⟩, ⟨4⟩, ⟨5⟩, ⟨7⟩]

/-- The second handle is to be found; the angle is free. -/
def sweptProblem : Problem Taxicab where
  residuals := sweptCluster.residuals
  knowns := .ofList [⟨1⟩, ⟨2⟩]
  free := .ofList [⟨7⟩]
  parameters := [⟨4⟩, ⟨5⟩]

lemma clustered_swept : swept.clustered = .ok ([sweptCluster], sweptClusters) :=
  (reachable_swept.intact.clustered_eq rfl).1

lemma prepare_swept :
    (Problem.prepare sweptClusters.solveContext sweptCluster sweptClusters.arena).toOption.map
      Prod.fst = some sweptProblem :=
  rfl

/-- The handle has the same value where it is now, after two looks at its other side. -/
theorem objective_swept :
    ∃ a b, Problem.prepare sweptClusters.solveContext sweptCluster sweptClusters.arena =
        .ok (sweptProblem, a) ∧
      sweptProblem.objective false [1, 0] (sweptProblem.objective false [-2, -1]
          (sweptProblem.objective false [-2, 1] (a, none)).2).2 =
        ((sweptProblem.objective false [1, 0] (a, none)).1, b, none) := by
  have hfirst : swept.clustered = .ok ([] ++ sweptCluster :: [], sweptClusters) := clustered_swept
  obtain ⟨_, _, _, p, a, hbefore, hprepare, hlook, -⟩ :=
    reachable_objective reachable_swept hfirst stay ()
  cases hbefore
  obtain ⟨_, hprepare'⟩ := exists_eq_ok prepare_swept
  rw [hprepare] at hprepare'
  cases hprepare'
  obtain ⟨b, hb⟩ := hlook [[-2, 1], [-2, -1]] [1, 0] rfl
  exact ⟨a, b, hprepare, hb⟩

/-! ## What the next frame sees -/

/-- **Only the answers count**, but for angles that nothing else refers to.  Take a reachable sketch
no residual of which reads the group it owns, and two minimizers that answer for each cluster that
they have converged, at the same full points.  Whatever they look at, after the solve every
variable has the same value, or it is in the group of an angle that only its owner refers to, and
then both values come from angles of the same vector. -/
theorem reachable_same_answers (h : Reachable s) {cs : List (Cluster α)}
    (hclustered : s.clustered = .ok (cs, s')) (hunlooped : ∀ c ∈ cs, c.Unlooped s'.arena)
    {m : Minimizer σ α} {m' : Minimizer τ α} {memory : σ} {memory' : τ} {xs : List (List α)}
    (hm : ConvergesAtAll s'.solveContext m memory s'.arena cs xs)
    (hm' : ConvergesAtAll s'.solveContext m' memory' s'.arena cs xs) :
    let b := (s.solveWith m memory).2.2.arena
    let b' := (s.solveWith m' memory').2.2.arena
    ∀ v, b.value? v = b'.value? v ∨ ∃ c ∈ cs, Turned c b b' (b.canonical v) := by
  obtain ⟨cs₁, s₁, outcomes, after, b, hclustered₁, hs', hcs, hsolve, hwithin, hwhole⟩ :=
    h.intact.solveWith_spec m memory
  obtain ⟨cs₂, s₂, outcomes', after', b', hclustered₂, -, -, hsolve', hwithin', hwhole'⟩ :=
    h.intact.solveWith_spec m' memory'
  rw [hclustered] at hclustered₁ hclustered₂
  cases hclustered₁
  cases hclustered₂
  rw [hwhole, hwhole']
  intro _ _ v
  rw [show Arena.canonical b v = s'.arena.canonical v by rw [hwithin.canonical]]
  by_cases hcovered : Covers cs (s'.arena.canonical v)
  · exact solveClusters_alike hm hm' (hs'.ready hcs) (hs'.disjoint hcs) hunlooped (.self hs'.arena)
      hsolve hsolve' v hcovered
  · exact Or.inl ((hwithin.frame v hcovered).trans (hwithin'.frame v hcovered).symm)

/-! ## Once around a point -/

/-- A minimizer that looks at some points and answers with the point where it began. -/
def lookAt {α : Type} : List (List α) → Minimizer Unit α
  | [] => stay
  | point :: points => ⟨fun memory start =>
      .probe point fun _ => (lookAt points).minimize memory start⟩

lemma run_lookAt {α υ : Type} (objective : List α → υ → α × υ) (points : List (List α))
    (start : List α) (state : υ) :
    ∃ state', ((lookAt points).minimize () start).run objective state =
      ((.ok ⟨start, .converged, 0⟩, ()), state') := by
  induction points generalizing state with
  | nil => exact ⟨state, rfl⟩
  | cons point points ih => exact ih (objective point state).2

/-- Wherever it looks, it converges where the handle is. -/
lemma converges_swept (points : List (List Taxicab)) :
    ConvergesAtAll sweptClusters.solveContext (lookAt points) () sweptClusters.arena
      [sweptCluster] [[1, 0]] := by
  have hs := reachable_swept.intact.of_clustered clustered_swept
  obtain ⟨b, hprepare⟩ := exists_eq_ok prepare_swept
  have hstart : (do
      let (_, a) ← Problem.prepare sweptClusters.solveContext sweptCluster sweptClusters.arena
      sweptProblem.parameters.mapM a.value) = .ok [1, 0] := by decide +kernel
  rw [hprepare, ok_bind] at hstart
  obtain ⟨state, hrun⟩ :=
    run_lookAt (sweptProblem.objective sweptClusters.fingerOfGod) points [1, 0] (b, none)
  obtain ⟨outcome, _, a, hsolve, -⟩ := solveCluster_spec (lookAt points) () hs.1.arena
    (hs.1.ready hs.2 sweptCluster List.mem_cons_self)
  exact .cons (.converged hprepare (by decide) hstart hrun rfl) hsolve (.nil () a)

lemma unlooped_swept : ∀ c ∈ [sweptCluster], c.Unlooped sweptClusters.arena := by
  intro c hc r hr v hv
  obtain rfl := List.mem_singleton.1 hc
  obtain rfl := List.mem_singleton.1 hr
  cases hv
  decide +kernel

/-- Whether a minimizer looks around or not, it leaves the same coordinates. -/
theorem same_answers_swept :
    let b := (swept.solveWith (lookAt []) ()).2.2.arena
    let b' := (swept.solveWith (lookAt [[-2, 1], [-2, -1]]) ()).2.2.arena
    ∀ v, b.value? v = b'.value? v ∨ Turned sweptCluster b b' (b.canonical v) := by
  intro b b' v
  have hsame := reachable_same_answers reachable_swept clustered_swept unlooped_swept
    (converges_swept []) (converges_swept [[-2, 1], [-2, -1]]) v
  exact hsame.imp_right fun ⟨c, hc, hturned⟩ => List.mem_singleton.1 hc ▸ hturned

/-- **Looking around leaves a trace.**  An angle that nothing else refers to is followed from look
to look.  A minimizer that looks at points above and below its vertex, behind it, and then answers
with the point where it began, leaves the angle a full turn further than one that does not look. -/
theorem swept_turned :
    ¬ ∀ (s s' : Sketch Taxicab) (cs : List (Cluster Taxicab)) (m m' : Minimizer Unit Taxicab)
        (xs : List (List Taxicab)), Reachable s → s.clustered = .ok (cs, s') →
      (∀ c ∈ cs, c.Unlooped s'.arena) →
      ConvergesAtAll s'.solveContext m () s'.arena cs xs →
      ConvergesAtAll s'.solveContext m' () s'.arena cs xs →
      ∀ v, (s.solveWith m ()).2.2.arena.value? v = (s.solveWith m' ()).2.2.arena.value? v := by
  intro halways
  have hsame := halways swept sweptClusters [sweptCluster] (lookAt [])
    (lookAt [[-2, 1], [-2, -1]]) [[1, 0]] reachable_swept clustered_swept unlooped_swept
    (converges_swept _) (converges_swept _) ⟨7⟩
  have hfirst : (swept.solveWith (lookAt []) ()).2.2.arena.value? ⟨7⟩ = some 0 := by
    decide +kernel
  have hsecond : (swept.solveWith (lookAt [[-2, 1], [-2, -1]]) ()).2.2.arena.value? ⟨7⟩ =
      some 4 := by
    decide +kernel
  rw [hfirst, hsecond] at hsame
  exact absurd hsame (by decide +kernel)

end Sketch

end SketchSolver
