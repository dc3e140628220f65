import Mathlib
import SketchSolver.Proofs.Sketch.Rearrange
import SketchSolver.Proofs.Sketch.Rebuild

/-!
# Where unifications come from

A removal leaves the unifications of what it removes in place until the next clustering.  So a
unification is accounted for by the constraints that there have been since the clustering was last
current, not by those that there are.

* `Sketch.Link` — what the constraints of one moment may link: the ties they ask for, and the
  quantities between points that coincide.
* `Sketch.Epoch` — the sketches that operations have led to since the clustering was last current.
* `reachable_linked` — what is unified is joined by links of these moments.  Writing a value changes
  nothing else, and locking holds nothing else.
* `severed_linked` — links of the present moment alone need not join it.
-/

namespace SketchSolver

namespace Sketch

open Arena Edit

variable {α : Type} [Scalar α] {s s' : Sketch α} {r : α → α → Prop}

/-- What the constraints may link: a tie that one of them asks for, or what two of them own if they
relate the same points in one of these arenas. -/
inductive Link (s : Sketch α) (compared : Arena α → Prop) : Tie α → Prop where
  | tie {e : Tie α} : e ∈ s.constraints.ties s.handles → Link s compared e
  | clash {a : Arena α} {x y : Residual α} {e : Tie α} : compared a →
      x ∈ s.constraints.residuals s.handles → y ∈ s.constraints.residuals s.handles →
      x.clash a y = some (e.this, e.that, e.offset) → Link s compared e

/-- The arenas in which residuals were compared when the clustering that is kept came about. -/
def Compared (r : α → α → Prop) (s : Sketch α) (a : Arena α) : Prop :=
  ∃ cs ties drops cs' b, s.clusters = some cs ∧
    Cluster.Rebuild s.constraints s.handles s.arena ties drops cs' b ∧
    List.Forall₂ (Cluster.Alike fun _ => Point.Near r) cs cs' ∧ s.arena.Alike r b ∧
    ∃ q ∈ drops, q.found = a

/-- Linked at one of these moments. -/
def Linked (r : α → α → Prop) (ss : List (Sketch α)) (e : Tie α) : Prop :=
  ∃ s ∈ ss, s.Link (s.Compared r) e

lemma Linked.mono {ss ss' : List (Sketch α)} (h : ss ⊆ ss') {e : Tie α} (he : Linked r ss e) :
    Linked r ss' e := by
  obtain ⟨s, hs, hlink⟩ := he
  exact ⟨s, h hs, hlink⟩

/-- The operations since the clustering was last current have led to these sketches, the latest one
first, and then to the present one. -/
inductive Epoch : List (Sketch α) → Sketch α → Prop where
  | withConfig (config : Config α) : Epoch [] (withConfig config)
  | current {s : Sketch α} {cs : List (Cluster α)} : Reachable s → s.clusters = some cs → Epoch [] s
  | perform {ss : List (Sketch α)} {s : Sketch α} (op : Operation α) : Epoch ss s →
      (op.perform.after s).clusters = none → Epoch (s :: ss) (op.perform.after s)

namespace Epoch

variable {ss : List (Sketch α)}

lemma reachable (h : Epoch ss s) : Reachable s := by
  induction h with
  | withConfig config => exact .withConfig config
  | current hs _ => exact hs
  | perform op _ _ ih => exact .perform op ih

/-- Every reachable sketch has come about in some epoch. -/
lemma exists_of_reachable (h : Reachable s) : ∃ ss, Epoch ss s := by
  induction h with
  | withConfig config => exact ⟨[], .withConfig config⟩
  | @perform s op hs ih =>
      cases hcs : (op.perform.after s).clusters with
      | none =>
          obtain ⟨ss, hepoch⟩ := ih
          exact ⟨s :: ss, .perform op hepoch hcs⟩
      | some cs => exact ⟨[], .current (.perform op hs) hcs⟩
  | @solveWith s σ m memory hs _ =>
      obtain ⟨cs, s', _, _, b, _, _, hcs, _, _, hsolve⟩ := hs.intact.solveWith_spec m memory
      have hcurrent : (s.solveWith m memory).2.2.clusters = some cs := by
        rw [hsolve]
        exact hcs
      exact ⟨[], .current (.solveWith m memory hs) hcurrent⟩

/-- While the clustering is current, all comes from the constraints that there are. -/
lemma chained_current (hr : Scalar.Tolerates r) (hbeq : ∀ x y : α, (x == y) = true → r x y)
    (hs : Reachable s) {cs : List (Cluster α)} (hcs : s.clusters = some cs) {u v : VarId}
    (huv : s.arena.canonical u = s.arena.canonical v) : Chained (s.Link (s.Compared r)) u v := by
  obtain ⟨ties, drops, cs', b, hrebuild, hclusters, halike⟩ :=
    ((hs.cached hr hbeq).coherent hr).rebuild hcs
  have hcanonical := congrFun (halike.canonical hr)
  rw [← hcanonical, ← hcanonical, canonical_eq_iff_chained hrebuild.run] at huv
  refine huv.mono fun e ⟨q, hq, _, he⟩ => ?_
  subst he
  rcases List.mem_append.1 hq with hasked | hdropped
  · exact .tie (hrebuild.asked ▸ List.mem_map_of_mem hasked)
  · obtain ⟨x, hx, y, hy, hclash⟩ := hrebuild.clashes q hdropped
    exact .clash ⟨cs, ties, drops, cs', b, hcs, hrebuild, hclusters, halike, q, hdropped, rfl⟩
      hx hy hclash

/-- What is unified is joined by links of the epoch. -/
theorem chained (hr : Scalar.Tolerates r) (hbeq : ∀ x y : α, (x == y) = true → r x y)
    (h : Epoch ss s) {u v : VarId} (huv : s.arena.canonical u = s.arena.canonical v) :
    Chained (Linked r (s :: ss)) u v := by
  induction h generalizing u v with
  | withConfig config =>
      obtain rfl : u = v := huv
      exact .refl u
  | @current s cs hs hcs =>
      exact (chained_current hr hbeq hs hcs huv).mono fun e he => ⟨s, List.mem_cons_self, he⟩
  | @perform ss s op hepoch hnone ih =>
      have hs := hepoch.reachable.intact
      have hs' := (Reachable.perform op hepoch.reachable).intact
      have hbefore : ∀ {u v}, s.arena.canonical u = s.arena.canonical v →
          Chained (Linked r (op.perform.after s :: s :: ss)) u v := fun huv =>
        (ih huv).mono fun e he => he.mono (List.subset_cons_self _ _)
      have hop : op ≠ .cluster := by
        rintro rfl
        obtain ⟨cs, s', hclustered, -, hcs, -⟩ := hs.clustered_spec
        rw [after_cluster hclustered, hcs] at hnone
        cases hnone
      rcases op.sheds_or_related hop hs with hsheds | ⟨c, -, hrelated⟩
      · exact hbefore (hsheds.canonical hs.arena.toLinked hs'.arena.toLinked huv)
      · obtain ⟨id, hget⟩ := hrelated.live
        obtain ⟨b, hrelate, hshape⟩ := hrelated.made
        obtain ⟨rs, hrun, hties⟩ := Constraint.requests_relate hrelate
        rw [canonical_congr hshape] at huv
        refine hs.arena.chained_of_requests hrun hbefore (fun q hq _ => ?_) huv
        refine ⟨_, List.mem_cons_self, .tie (List.mem_flatMap.2 ⟨c, ?_, ?_⟩)⟩
        · exact OrderedMap.mem_values_of_get? hget
        · rw [Constraint.ties_congr (Constraint.points_relate hrelate), ← hties]
          exact List.mem_map_of_mem hq

end Epoch

/-! ## What a write and a lock reach -/

/-- A write reaches the group of its variable. -/
lemma canonical_of_setValue_ne (hs : s.Intact) {u v : VarId} {x : α}
    (hne : ((setValue v x).after s).arena.value? u ≠ s.arena.value? u) :
    s.arena.canonical u = s.arena.canonical v := by
  by_contra hapart
  refine hne (Ensures.after (E := fun s' => s'.arena.value? u = s.arena.value? u) ?_)
  simp only [setValue, onArena, ensures_bind, ensures_get, ensures_ofExcept, ensures_set]
  refine ⟨fun b hset => ?_, fun _ _ => trivial⟩
  rw [(hs.arena.of_setValue hset).2.2 u, if_neg hapart]

/-- All constants were there before, or hold a variable of this group. -/
def HoldsOnly (root : VarId) (s s' : Sketch α) : Prop :=
  ∀ id u y, s'.constraints.get? id = some (.constant u y) →
    s.constraints.get? id = some (.constant u y) ∨ s.arena.canonical u = root

lemma HoldsOnly.insert {s₁ s₂ : Sketch α} {root u : VarId} {y : α} (h : HoldsOnly root s s₁)
    (hu : s.arena.canonical u = root) {id : ConstraintId}
    (hconstraints : s₂.constraints = s₁.constraints.insert id (.constant u y)) :
    HoldsOnly root s s₂ := by
  intro i w z hget
  rw [hconstraints, OrderedMap.get?_insert] at hget
  split at hget
  · cases hget
    exact Or.inr hu
  · exact h i w z hget

lemma ensures_holdHere_holdsOnly {s₁ : Sketch α} {root u : VarId} (hs₁ : s₁.Intact)
    (h : HoldsOnly root s s₁) (hu : s.arena.canonical u = root) :
    Ensures (HoldsOnly root s) (holdHere u) (fun _ => HoldsOnly root s) s₁ := by
  rw [holdHere, ensures_get_bind]
  refine ensures_read h fun y _ => ?_
  rw [ensures_discard]
  exact ensures_constant hs₁ h (fun _ _ _ => h.insert hu rfl) fun _ _ _ _ => h.insert hu rfl

/-- A lock holds variables of the group of its variable. -/
lemma holdsOnly_lock (hs : s.Intact) (v : VarId) (value : Option α) :
    HoldsOnly (s.arena.canonical v) s ((lock v value false).after s) := by
  have hrest : ∀ {s₁ : Sketch α}, s₁.Intact → s₁.constraints = s.constraints →
      s₁.arena.canonical = s.arena.canonical →
      Ensures (fun s' => s'.Intact ∧ HoldsOnly (s.arena.canonical v) s s') (lock v none false)
        (fun _ s' => s'.Intact ∧ HoldsOnly (s.arena.canonical v) s s') s₁ := by
    intro s₁ hs₁ hconstraints hcanonical
    have hnone : HoldsOnly (s.arena.canonical v) s s₁ := fun _ _ _ hget =>
      Or.inl (hconstraints ▸ hget)
    refine ensures_read ⟨hs₁, hnone⟩ fun root hroot => ?_
    obtain ⟨_, -, hpure⟩ := bind_eq_ok_iff.1 hroot
    cases hpure
    refine ensures_forM (fun w hw s₂ h₂ => ?_) ⟨hs₁, hnone⟩
    have hgroup := (mem_lockTargets hs₁.arena w v).1 hw
    rw [hcanonical] at hgroup
    exact (ensures_holdHere invariant_intact h₂.1 w).and
      (ensures_holdHere_holdsOnly h₂.1 h₂.2 hgroup)
  refine (Ensures.after (E := fun s' => s'.Intact ∧ HoldsOnly (s.arena.canonical v) s s') ?_).2
  cases value with
  | none => exact hrest hs rfl rfl
  | some x =>
      have hwrite : Ensures (fun s' => s'.Intact ∧ HoldsOnly (s.arena.canonical v) s s')
          (setValue v x) (fun _ s₁ => s₁.Intact ∧ s₁.constraints = s.constraints ∧
            s₁.arena.canonical = s.arena.canonical) s := by
        simp only [setValue, onArena, ensures_bind, ensures_get, ensures_ofExcept, ensures_set]
        refine ⟨fun a hset => ?_, fun _ _ => ⟨hs, fun _ _ _ => Or.inl⟩⟩
        obtain ⟨ha, hshape, -⟩ := hs.arena.of_setValue hset
        exact ⟨hs.revalue ha hshape, trivial, canonical_congr hshape⟩
      rw [lock, ensures_bind]
      refine hwrite.imp fun _ s₁ hwritten => ?_
      obtain ⟨hs₁, hconstraints, hcanonical⟩ := hwritten
      exact hrest hs₁ hconstraints hcanonical

/-- **Every unification is accounted for.**  Take a reachable sketch and what operations have led to
since the clustering was last current.

* What is unified is joined by a chain of links, each by constraints that were there at one of these
  moments.
* Writing a variable changes no variable that no such chain joins to it.
* Locking a group puts a constant on no such variable. -/
theorem reachable_linked {s : Sketch Float} (h : Reachable s) :
    (∃ ss, Epoch ss s) ∧ ∀ ss, Epoch ss s →
      (∀ u v, s.arena.canonical u = s.arena.canonical v →
        Chained (Linked Double.UpToZero (s :: ss)) u v) ∧
      (∀ u v x, ((setValue v x).after s).arena.value? u ≠ s.arena.value? u →
        Chained (Linked Double.UpToZero (s :: ss)) u v) ∧
      ∀ v value id u y,
        ((lock v value false).after s).constraints.get? id = some (.constant u y) →
        s.constraints.get? id = some (.constant u y) ∨
          Chained (Linked Double.UpToZero (s :: ss)) u v := by
  refine ⟨Epoch.exists_of_reachable h, fun ss hepoch => ?_⟩
  have hchained : ∀ {u v}, s.arena.canonical u = s.arena.canonical v →
      Chained (Linked Double.UpToZero (s :: ss)) u v := fun huv =>
    hepoch.chained Double.tolerates_upToZero (fun x y => Double.upToZero_of_beq) huv
  exact ⟨fun u v => hchained, fun u v x hne => hchained (canonical_of_setValue_ne h.intact hne),
    fun v value id u y hget => (holdsOnly_lock h.intact v value id u y hget).imp_right hchained⟩

/-! ## A link that outlives its constraint -/

/-- Two variables that are tied. -/
def joined : Sketch Float :=
  (Operation.linear ⟨1⟩ 1 ⟨0⟩ 0).perform.after <|
    (Operation.addVariable 1 none).perform.after <|
      (Operation.addVariable 1 none).perform.after empty

/-- The same after the tie was removed. -/
def severed : Sketch Float :=
  (Operation.removeConstraint ⟨2⟩).perform.after joined

lemma reachable_severed : Reachable severed :=
  .perform _ (.perform _ (.perform _ (.perform _ (.withConfig _))))

/-- The tie is the only link there has been. -/
theorem linked_severed :
    ∃ ss, Epoch ss severed ∧ Chained (Linked Double.UpToZero (severed :: ss)) ⟨0⟩ ⟨1⟩ ∧
      Chained (Linked Double.UpToZero (severed :: ss)) ⟨1⟩ ⟨0⟩ := by
  obtain ⟨⟨ss, hepoch⟩, hlinked⟩ := reachable_linked reachable_severed
  obtain ⟨hgroups, hwrites, hlocks⟩ := hlinked ss hepoch
  exact ⟨ss, hepoch, hgroups _ _ (by decide +kernel), hwrites ⟨1⟩ ⟨0⟩ 5 (by decide +kernel)⟩

/-- **A removal leaves a link behind**: nothing ties the two variables any more, and still they are
unified, a write to one changes the other, and a lock of one holds the other. -/
theorem severed_linked :
    (¬ ∀ s : Sketch Float, Reachable s → ∀ u v, s.arena.canonical u = s.arena.canonical v →
      Chained (s.Link (· = s.arena)) u v) ∧
    (¬ ∀ s : Sketch Float, Reachable s → ∀ u v x,
      ((setValue v x).after s).arena.value? u ≠ s.arena.value? u →
        Chained (s.Link (· = s.arena)) u v) ∧
    ¬ ∀ s : Sketch Float, Reachable s → ∀ v value id u y,
      ((lock v value false).after s).constraints.get? id = some (.constant u y) →
        s.constraints.get? id = some (.constant u y) ∨ Chained (s.Link (· = s.arena)) u v := by
  have hnone : severed.constraints.entries = [] := by decide +kernel
  have hapart : ∀ {u v}, Chained (severed.Link (· = severed.arena)) u v → u = v := by
    intro u v hchained
    refine hchained.eq (f := id) fun e he => ?_
    cases he with
    | tie hmem => simp [ConstraintTable.ties, OrderedMap.values, hnone] at hmem
    | clash _ hx => simp [ConstraintTable.residuals, OrderedMap.values, hnone] at hx
  refine ⟨fun halways => ?_, fun halways => ?_, fun halways => ?_⟩
  · have hgroups := halways severed reachable_severed ⟨0⟩ ⟨1⟩ (by decide +kernel)
    exact absurd (hapart hgroups) (by decide)
  · have hwrites := halways severed reachable_severed ⟨1⟩ ⟨0⟩ 5 (by decide +kernel)
    exact absurd (hapart hwrites) (by decide)
  · have hlocks := halways severed reachable_severed ⟨0⟩ none ⟨3⟩ ⟨1⟩ 1 (by decide +kernel)
    rcases hlocks with hold | hlinked
    · rw [OrderedMap.get?, hnone] at hold
      cases hold
    · exact absurd (hapart hlinked) (by decide)

end Sketch

end SketchSolver
