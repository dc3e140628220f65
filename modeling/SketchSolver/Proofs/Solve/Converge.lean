import Mathlib
import SketchSolver.Proofs.Solve.Clusters
import SketchSolver.Proofs.Solve.Objective

/-!
# Minimizers that come to the same answer

Two minimizers may look at different points and still answer the same for every cluster.  Then two
solves differ by what the looks have left behind, and that is little.

After the last look the parameters have the values that were answered, and a free variable has been
computed from what is fixed.  The distance of two points and the value of a formula are functions of
that.  An angle is not: the residual takes the representative nearest to the angle at the look
before, so two solves may leave different angles of the same vector (`Turned`).

* `ConvergesAt`, `ConvergesAtAll` — what a minimizer answers, for one cluster and for all.
* `solveCluster_alike` — one cluster, in two solves that begin alike on its groups.
* `solveClusters_alike` — all of them, one after the other, by induction: what the clusters before
  have left behind is in other groups.
-/

namespace SketchSolver

open Arena

variable {α σ τ : Type} [Scalar α] {a b a' b' a₀ b₀ : Arena α} {ctx : SolveContext α}
  {c : Cluster α} {p : Problem α} {x : List α} {m : Minimizer σ α} {m' : Minimizer τ α}
  {memory : σ} {memory' : τ}

/-! ## What may differ -/

namespace Residual

/-- Only of an angle it is open what it asks for. -/
lemma Measures.unique {r : Residual α} {y y' : α} (h : r.Measures a y) (h' : r.Measures a y') :
    y = y' ∨ ∃ p q bearing, r = .angle p q bearing := by
  cases h with
  | angle => exact Or.inr ⟨_, _, _, rfl⟩
  | distance length hp hq =>
      cases h' with
      | distance _ hp' hq' =>
          rw [hp, Except.ok.injEq] at hp'
          rw [hq, Except.ok.injEq] at hq'
          exact Or.inl (by rw [hp', hq'])
  | formula result hy =>
      rw [measures_formula, hy, Except.ok.injEq] at h'
      exact Or.inl h'

end Residual

/-- No residual reads the group of the variable it owns. -/
def Cluster.Unlooped (c : Cluster α) (a : Arena α) : Prop :=
  ∀ r ∈ c.residuals, ∀ v, r.owned = some v → ∀ u ∈ r.inputs, a.canonical u ≠ a.canonical v

/-- The group with this root is an angle to which nothing but its owner refers.  The points it is
measured between are the same in both arenas, and in either it is some angle of the vector. -/
inductive Turned (c : Cluster α) (a b : Arena α) (w : VarId) : Prop
  | intro {p q : Coords} {bearing : VarId} {y y' : α} :
      Residual.angle p q bearing ∈ c.residuals → a.canonical bearing = w →
      c.references a w = 1 → (∀ u ∈ [p.x, p.y, q.x, q.y], a.value? u = b.value? u) →
      Residual.Measures a (.angle p q bearing) y → Residual.Measures b (.angle p q bearing) y' →
      (∀ v, a.canonical v = w → a.value? v = some (a.lower v (a.lift bearing y)) ∧
        b.value? v = some (a.lower v (a.lift bearing y'))) →
      Turned c a b w

/-- Writing elsewhere leaves a turned angle as it is. -/
lemma Turned.congr {w : VarId} (h : Turned c a b w) (hready : c.Ready ctx.constraints ctx.handles a)
    (hshape : a'.shape = a.shape)
    (ha : ∀ v, a.canonical v ∈ c.vars → a'.value? v = a.value? v)
    (hb : ∀ v, a.canonical v ∈ c.vars → b'.value? v = b.value? v) : Turned c a' b' w := by
  obtain @⟨p, q, bearing, y, y', hr, hroot, hone, hinputs, hy, hy', hvalues⟩ := h
  have hcanonical : a'.canonical = a.canonical := canonical_congr hshape
  have hin : ∀ u ∈ (Residual.angle p q bearing : Residual α).vars, a.canonical u ∈ c.vars :=
    fun u hu => (hready.residual _ hr u hu).group
  have hin' : ∀ u ∈ (Residual.angle p q bearing : Residual α).inputs, a.canonical u ∈ c.vars :=
    fun u hu => hin u (Residual.mem_vars_of_inputs hu)
  refine .intro hr (by rw [hcanonical, hroot]) ?_ (fun u hu => ?_)
    (hy.congr fun u hu => ha u (hin' u hu)) (hy'.congr fun u hu => hb u (hin' u hu)) fun v hv => ?_
  · rw [Cluster.references, hcanonical]
    exact hone
  · rw [ha u (hin' u hu), hb u (hin' u hu)]
    exact hinputs u hu
  · rw [hcanonical] at hv
    have hgroup : a.canonical v ∈ c.vars := by
      rw [hv, ← hroot]
      exact hin bearing List.mem_cons_self
    rw [ha v hgroup, hb v hgroup, lower_congr hshape, lift_congr hshape]
    exact hvalues v hv

/-- What is the same or a turned angle stays so while other groups are written. -/
lemma alike_within {W : VarId → Prop} {v w : VarId}
    (hready : c.Ready ctx.constraints ctx.handles a) (hshape : b.shape = a.shape)
    (ha : Within W a a') (hb : Within W b b') (hW : ∀ u, W u → ¬ u ∈ c.vars)
    (hv : a.canonical v ∈ c.vars) (h : a.value? v = b.value? v ∨ Turned c a b w) :
    a'.value? v = b'.value? v ∨ Turned c a' b' w := by
  have hkept : ∀ u, a.canonical u ∈ c.vars → a'.value? u = a.value? u := fun u hu =>
    ha.frame u fun hwritten => hW _ hwritten hu
  have hkept' : ∀ u, a.canonical u ∈ c.vars → b'.value? u = b.value? u := fun u hu =>
    hb.frame u fun hwritten => hW _ hwritten (by rwa [canonical_congr hshape])
  rw [hkept v hv, hkept' v hv]
  exact h.imp_right fun hturned => hturned.congr hready ha.shape hkept hkept'

/-! ## After the last look -/

namespace Problem

/-- After a look, every free group has a value that its owner asks for. -/
lemma evaluate_computes (hready : c.Ready ctx.constraints ctx.handles a₀) (hfits : Fits c p)
    (howned : p.Owned c a₀) (h : Within p.Unknown a₀ a) {fingerOfGod : Bool} {total : α}
    (hevaluate : p.evaluate fingerOfGod x a = .ok (total, b)) {r : Residual α} {v : VarId}
    (hr : r ∈ c.residuals) (hcomputes : p.Computes a₀ r v) :
    ∃ y, r.Measures b y ∧
      ∀ k, a₀.canonical k = a₀.canonical v → b.value? k = some (a₀.lower k (a₀.lift v y)) := by
  obtain ⟨a₁, hwrite, htotal⟩ := bind_eq_ok_iff.1 hevaluate
  obtain ⟨_, hwrite', hwithin, -⟩ := write_spec h.wellFormed hfits.nodup
    (fun v hv => (hready.congr h.shape).root v (hfits.parameters v hv)) x
  rw [hwrite] at hwrite'
  cases hwrite'
  have hshape : a₁.shape = a₀.shape := hwithin.shape.trans h.shape
  have hcanonical : a₁.canonical = a₀.canonical := canonical_congr hshape
  rw [← hcanonical, ← lower_congr hshape, ← lift_congr hshape]
  exact totalError_computes hwithin.wellFormed hfits.residuals (howned.congr hcanonical).once hr
    (hcomputes.congr hcanonical) htotal

/-- What the owner of a free group reads is fixed: it would own it otherwise. -/
lemma Owned.fixed_of_mem_inputs (howned : p.Owned c a₀)
    (hready : c.Ready ctx.constraints ctx.handles a₀) (hunlooped : c.Unlooped a₀) {r : Residual α}
    (hr : r ∈ c.residuals) {u : VarId} (hu : u ∈ r.inputs) : p.Fixed c (a₀.canonical u) := by
  have huv := Residual.mem_vars_of_inputs hu
  refine ⟨(hready.residual r hr u huv).group, fun hfree => ?_⟩
  obtain ⟨v, hv, hgroup⟩ := howned.owned_of_mem hr huv hfree
  exact hunlooped r hr v hv u hu hgroup.symm

/-- Two looks at the same full point, from wherever other looks have led to: only angles that
nothing else refers to may differ. -/
theorem evaluate_alike (hready : c.Ready ctx.constraints ctx.handles a₀) (hfits : Fits c p)
    (howned : p.Owned c a₀) (hunlooped : c.Unlooped a₀) (hx : x.length = p.parameters.length)
    (h : Twins (p.Settled c) p.Unknown a₀ b₀ a b) {fingerOfGod : Bool} {total total' : α}
    (ha : p.evaluate fingerOfGod x a = .ok (total, a'))
    (hb : p.evaluate fingerOfGod x b = .ok (total', b')) :
    ∀ v, a₀.canonical v ∈ c.vars → a'.value? v = b'.value? v ∨ Turned c a' b' (a₀.canonical v) := by
  obtain ⟨⟨_, _⟩, ⟨_, _⟩, ha', hb', -, hfixed⟩ :=
    both_evaluate_full hready hfits howned hx h fingerOfGod
  rw [ha] at ha'
  rw [hb] at hb'
  cases ha'
  cases hb'
  intro v hv
  by_cases hfree : a₀.canonical v ∈ p.free
  · obtain ⟨r, hr, w, hw, hgroup⟩ := howned.owner _ hfree
    have hcomputes : p.Computes a₀ r w := ⟨hw, hgroup ▸ hfree, hunlooped r hr w hw⟩
    have hinputs : ∀ u ∈ r.inputs, a'.value? u = b'.value? u := fun u hu =>
      hfixed.agree u (howned.fixed_of_mem_inputs hready hunlooped hr hu)
    obtain ⟨y, hy, hvalues⟩ := evaluate_computes hready hfits howned h.left ha hr hcomputes
    obtain ⟨y', hy', hvalues'⟩ := evaluate_computes (hready.congr h.shape) hfits
      (howned.congr (canonical_congr h.shape)) h.right hb hr
      (hcomputes.congr (canonical_congr h.shape))
    rw [canonical_congr h.shape, lower_congr h.shape, lift_congr h.shape] at hvalues'
    rcases hy.unique (hy'.congr hinputs) with rfl | ⟨p, q, bearing, rfl⟩
    · left
      rw [hvalues v hgroup.symm, hvalues' v hgroup.symm]
    · right
      cases hw
      have hshape : a'.shape = a₀.shape := hfixed.left.shape
      have hcanonical : a'.canonical = a₀.canonical := canonical_congr hshape
      refine .intro hr (by rw [hcanonical, hgroup]) ?_ hinputs hy hy' fun k hk => ?_
      · exact (howned.congr hcanonical).once _ hfree
      · rw [hcanonical, ← hgroup] at hk
        rw [lower_congr hshape, lift_congr hshape]
        exact ⟨hvalues k hk, hvalues' k hk⟩
  · exact Or.inl (hfixed.agree v ⟨hv, hfree⟩)

end Problem

/-! ## One cluster -/

/-- When this cluster is solved, the minimizer answers that it has converged at this full point; if
nothing is left to search for it is not asked. -/
inductive ConvergesAt (ctx : SolveContext α) (m : Minimizer σ α) (memory : σ) (c : Cluster α)
    (a : Arena α) : List α → Prop
  | determined {p : Problem α} {b : Arena α} :
      Problem.prepare ctx c a = .ok (p, b) → p.parameters = [] → ConvergesAt ctx m memory c a []
  | converged {p : Problem α} {b : Arena α} {start x : List α} {iterations : Count} {after : σ}
      {state : Arena α × Option SolverError} :
      Problem.prepare ctx c a = .ok (p, b) → p.parameters ≠ [] →
      p.parameters.mapM b.value = .ok start →
      (m.minimize memory start).run (p.objective ctx.fingerOfGod) (b, none) =
        ((.ok ⟨x, .converged, iterations⟩, after), state) →
      x.length = p.parameters.length → ConvergesAt ctx m memory c a x

/-- Then the last thing that happens to the cluster is a look at this point. -/
lemma ConvergesAt.evaluates (hm : ConvergesAt ctx m memory c a x) (ha : a.WellFormed)
    (hready : c.Ready ctx.constraints ctx.handles a) {outcome : Outcome} {after : σ}
    (hsolve : solveCluster ctx m memory c a = .ok (outcome, after, a')) :
    ∃ p b probed total, Problem.prepare ctx c a = .ok (p, b) ∧ x.length = p.parameters.length ∧
      Within p.Unknown b probed ∧ p.evaluate ctx.fingerOfGod x probed = .ok (total, a') := by
  have hspec : ∀ {p b}, Problem.prepare ctx c a = .ok (p, b) →
      Problem.Fits c p ∧ b.WellFormed ∧ b.shape = a.shape := by
    intro p b hprepare
    obtain ⟨⟨_, _⟩, _, hprepare', -, -, hfits, htwins⟩ := Problem.both_prepare hready (.self ha)
    rw [hprepare] at hprepare'
    cases hprepare'
    exact ⟨hfits, htwins.left.wellFormed, htwins.left.shape⟩
  cases hm with
  | @determined p b hprepare hempty =>
      obtain ⟨-, hb, -⟩ := hspec hprepare
      rw [solveCluster, hprepare] at hsolve
      simp only [ok_bind, hempty, List.isEmpty_nil, if_true] at hsolve
      obtain ⟨⟨total, _⟩, htotal, hsolve⟩ := bind_eq_ok_iff.1 hsolve
      cases hsolve
      refine ⟨p, b, b, total, hprepare, ?_, .refl hb, ?_⟩
      · rw [hempty, List.length_nil, List.length_nil]
      rw [Problem.evaluate, hempty]
      exact htotal
  | @converged p b start _ iterations after' state hprepare hnonempty hstart hrun hlength =>
      obtain ⟨hfits, hb, hshape⟩ := hspec hprepare
      rw [solveCluster, hprepare] at hsolve
      simp only [ok_bind, List.isEmpty_iff, hnonempty, if_false] at hsolve
      have hm : Prod.fst <$> m.minimize memory start = Prod.fst <$> m.minimize memory start := rfl
      obtain ⟨answer, _, _, probed, _, hrun', -, hprobed⟩ :=
        Problem.run_minimizer (hready.congr hshape) hfits hm (.self hb) ctx.fingerOfGod
      rw [hrun] at hrun'
      cases hrun'
      rw [Problem.search, hstart, ok_bind] at hsolve
      obtain ⟨freeBefore, -, hsolve⟩ := bind_eq_ok_iff.1 hsolve
      simp only [hrun] at hsolve
      obtain ⟨⟨total, _⟩, hevaluate, hsolve⟩ := bind_eq_ok_iff.1 hsolve
      cases hsolve
      exact ⟨p, b, probed, total, hprepare, hlength, hprobed.left, hevaluate⟩

/-- **One cluster, solved twice.**  Two solves that begin alike on the groups of a cluster, with
minimizers that come to the same answer, leave it alike but for angles that nothing else refers
to. -/
theorem solveCluster_alike (hready : c.Ready ctx.constraints ctx.handles a)
    (hunlooped : c.Unlooped a) (h : Twins (· ∈ c.vars) (· ∈ c.vars) a b a b)
    (hm : ConvergesAt ctx m memory c a x) (hm' : ConvergesAt ctx m' memory' c b x)
    {outcome outcome' : Outcome} {after : σ} {after' : τ}
    (hsolve : solveCluster ctx m memory c a = .ok (outcome, after, a'))
    (hsolve' : solveCluster ctx m' memory' c b = .ok (outcome', after', b')) :
    ∀ v, a.canonical v ∈ c.vars → a'.value? v = b'.value? v ∨ Turned c a' b' (a.canonical v) := by
  obtain ⟨⟨p, a₁⟩, ⟨_, b₁⟩, hprepare, hprepare', rfl, hfits, htwins⟩ :=
    Problem.both_prepare hready h
  obtain ⟨_, _, probed, total, hp, hlength, hprobed, hevaluate⟩ :=
    hm.evaluates h.left.wellFormed hready hsolve
  rw [hprepare] at hp
  cases hp
  obtain ⟨_, _, probed', total', hp', -, hprobed', hevaluate'⟩ :=
    hm'.evaluates h.right.wellFormed (hready.congr h.shape) hsolve'
  rw [hprepare'] at hp'
  cases hp'
  have hcanonical : a₁.canonical = a.canonical := htwins.left.canonical
  have hstart : Twins (p.Settled c) p.Unknown a₁ b₁ probed probed' :=
    hprobed.twins hprobed' (htwins.restart.weaken fun v hv => hv.1) fun v hv => hv.2
  rw [← hcanonical]
  refine Problem.evaluate_alike (hready.congr htwins.left.shape) hfits
    (Problem.owned_of_prepare hprepare) ?_ hlength hstart hevaluate hevaluate'
  rwa [Cluster.Unlooped, hcanonical]

/-! ## All clusters -/

/-- When these clusters are solved one after the other, the minimizer answers for each of them that
it has converged, at these full points. -/
inductive ConvergesAtAll (ctx : SolveContext α) (m : Minimizer σ α) :
    σ → Arena α → List (Cluster α) → List (List α) → Prop
  | nil (memory : σ) (a : Arena α) : ConvergesAtAll ctx m memory a [] []
  | cons {memory after : σ} {a a' : Arena α} {c : Cluster α} {cs : List (Cluster α)} {x : List α}
      {xs : List (List α)} {outcome : Outcome} :
      ConvergesAt ctx m memory c a x → solveCluster ctx m memory c a = .ok (outcome, after, a') →
      ConvergesAtAll ctx m after a' cs xs → ConvergesAtAll ctx m memory a (c :: cs) (x :: xs)

/-- After the first cluster come the others, and they change other groups. -/
lemma solveClusters_rest {cs : List (Cluster α)} {a₁ : Arena α} (ha : a.WellFormed)
    (hready : ∀ d ∈ c :: cs, d.Ready ctx.constraints ctx.handles a) {outcome : Outcome}
    {memory₁ after : σ} {outcomes : List Outcome}
    (hfirst : solveCluster ctx m memory c a = .ok (outcome, memory₁, a₁))
    (hsolve : solveClusters ctx m (c :: cs) memory a = .ok (outcomes, after, a')) :
    Within (· ∈ c.vars) a a₁ ∧ Within (Covers cs) a₁ a' ∧
      ∃ rest, solveClusters ctx m cs memory₁ a₁ = .ok (rest, after, a') := by
  obtain ⟨_, _, _, hspec, hwithin₁⟩ := solveCluster_spec m memory ha (hready c List.mem_cons_self)
  rw [hfirst] at hspec
  cases hspec
  obtain ⟨rest, _, _, hrest, hwithin⟩ := solveClusters_spec m memory₁ hwithin₁.wellFormed
    fun d hd => (hready d (List.mem_cons_of_mem _ hd)).congr hwithin₁.shape
  rw [solveClusters, hfirst] at hsolve
  simp only [ok_bind, hrest] at hsolve
  cases hsolve
  exact ⟨hwithin₁, hwithin, rest, hrest⟩

/-- **All clusters, solved twice.**  What the clusters before a cluster have left behind is in other
groups, and so is what those after it do. -/
theorem solveClusters_alike {cs : List (Cluster α)} {xs : List (List α)}
    (hm : ConvergesAtAll ctx m memory a cs xs) (hm' : ConvergesAtAll ctx m' memory' b cs xs)
    (hready : ∀ c ∈ cs, c.Ready ctx.constraints ctx.handles a) (hdisjoint : Disjoint cs)
    (hunlooped : ∀ c ∈ cs, c.Unlooped a) (h : Twins (Covers cs) (Covers cs) a b a b)
    {outcomes outcomes' : List Outcome} {after : σ} {after' : τ}
    (hsolve : solveClusters ctx m cs memory a = .ok (outcomes, after, a'))
    (hsolve' : solveClusters ctx m' cs memory' b = .ok (outcomes', after', b')) :
    ∀ v, Covers cs (a.canonical v) →
      a'.value? v = b'.value? v ∨ ∃ c ∈ cs, Turned c a' b' (a.canonical v) := by
  induction hm generalizing b memory' outcomes outcomes' with
  | nil =>
      rintro v ⟨c, hc, -⟩
      cases hc
  | @cons memory memory₁ a a₁ c cs x xs outcome hconverges hfirst hrest ih =>
      cases hm' with
      | @cons _ memory₁' _ b₁ _ _ _ _ outcome' hconverges' hfirst' hrest' =>
      obtain ⟨hapart, hdisjoint⟩ := List.pairwise_cons.1 hdisjoint
      have hc := hready c List.mem_cons_self
      obtain ⟨hwithin₁, hwithin, rest, hlater⟩ :=
        solveClusters_rest h.left.wellFormed hready hfirst hsolve
      obtain ⟨hwithin₁', hwithin', rest', hlater'⟩ := solveClusters_rest h.right.wellFormed
        (fun d hd => (hready d hd).congr h.shape) hfirst' hsolve'
      have hshape₁ : b₁.shape = a₁.shape := by rw [hwithin₁'.shape, hwithin₁.shape, h.shape]
      have hother : ∀ v, Covers cs v → ¬ v ∈ c.vars := fun v ⟨d, hd, hvd⟩ hvc =>
        hapart d hd v hvc hvd
      have hcs : ∀ v, Covers cs v → Covers (c :: cs) v := fun v ⟨d, hd, hvd⟩ =>
        ⟨d, List.mem_cons_of_mem _ hd, hvd⟩
      rintro v ⟨d, hd, hv⟩
      rcases List.mem_cons.1 hd with rfl | hd
      · -- this cluster is not touched again
        have hthis : Twins (· ∈ d.vars) (· ∈ d.vars) a b a b :=
          (h.weaken fun v hv => ⟨d, List.mem_cons_self, hv⟩).restart
        have hnow := solveCluster_alike hc (hunlooped d List.mem_cons_self) hthis hconverges
          hconverges' hfirst hfirst' v hv
        have hlater := alike_within (hc.congr hwithin₁.shape) hshape₁ hwithin hwithin' hother
          (by rwa [hwithin₁.canonical]) hnow
        exact hlater.imp_right fun hturned => ⟨d, List.mem_cons_self, hturned⟩
      · -- the later ones begin alike
        have hstart : Twins (Covers cs) (Covers cs) a₁ b₁ a₁ b₁ :=
          (hwithin₁.twins hwithin₁' (h.weaken hcs).restart hother).restart
        have hunlooped₁ : ∀ d ∈ cs, d.Unlooped a₁ := by
          intro d hd
          rw [Cluster.Unlooped, hwithin₁.canonical]
          exact hunlooped d (List.mem_cons_of_mem _ hd)
        have hready₁ : ∀ d ∈ cs, d.Ready ctx.constraints ctx.handles a₁ := fun d hd =>
          (hready d (List.mem_cons_of_mem _ hd)).congr hwithin₁.shape
        have hlast := ih hrest' hready₁ hdisjoint hunlooped₁ hstart hlater hlater' v
        rw [hwithin₁.canonical] at hlast
        exact (hlast ⟨d, hd, hv⟩).imp_right fun ⟨e, he, hturned⟩ =>
          ⟨e, List.mem_cons_of_mem _ he, hturned⟩

end SketchSolver
