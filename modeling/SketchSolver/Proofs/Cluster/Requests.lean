import Mathlib
import SketchSolver.Proofs.Arena.Request
import SketchSolver.Proofs.Cluster.Build
import SketchSolver.Proofs.Cluster.Unifies

/-!
# What a clustering asks to unify

Clustering takes all unifications apart and then makes requests: first the ties that the constraints
ask for, in order, and then one for every residual that is dropped because another one relates the
same points.

* `Constraint.ties`, `Constraint.residuals` — what a constraint asks for, and what it contributes.
* `Residual.Dropped` — one residual was dropped for another one by one of some requests.
* `Residual.Collects` — residuals are dropped one by one, each for one that is still there.  So
  whatever is dropped is dropped for one that is kept, or for one that is dropped later on.
* `Cluster.Rebuild` — the requests of a whole clustering.
* **`rebuild_of_build`** — every clustering has come about by such requests.
-/

namespace SketchSolver

open Arena

variable {α : Type}

/-! ## What a constraint asks for -/

/-- The residuals that express a constraint; none if a handle is missing. -/
def Constraint.residuals (t : HandleTable) (c : Constraint α) : List (Residual α) :=
  match Residual.ofConstraint t c with
  | .ok rs => rs
  | .error _ => []

/-- The residuals of some constraints. -/
def ConstraintTable.residuals (constraints : ConstraintTable α) (t : HandleTable) :
    List (Residual α) :=
  constraints.values.flatMap (·.residuals t)

variable [Scalar α] {a b c : Arena α} {t u : HandleTable} {rs rs' : List (Request α)}

/-- The ties that a constraint asks for: one for a linear relationship, and one for each coordinate
where two handles are merged. -/
def Constraint.ties (t : HandleTable) : Constraint α → List (Tie α)
  | .linear y m x b => [⟨y, x, ⟨m, b⟩⟩]
  | .absorb parent child =>
    match t.coords? parent, t.coords? child with
    | some p, some q => [⟨p.x, q.x, .identity⟩, ⟨p.y, q.y, .identity⟩]
    | _, _ => []
  | _ => []

/-- The ties that some constraints ask for, in order. -/
def ConstraintTable.ties (constraints : ConstraintTable α) (t : HandleTable) : List (Tie α) :=
  constraints.values.flatMap (·.ties t)

namespace Constraint

omit [Scalar α] in
lemma residuals_congr (h : u.points = t.points) (k : Constraint α) :
    k.residuals u = k.residuals t := by
  rw [residuals, residuals]
  cases k <;> simp only [Residual.ofConstraint, coords_congr h]

lemma ties_congr (h : u.points = t.points) (k : Constraint α) : k.ties u = k.ties t := by
  cases k <;> simp only [ties, HandleTable.coords?_congr h]

/-- A variable that is neither an input of the constraint nor a coordinate is not tied by it. -/
lemma tie_ne {k : Constraint α} {v : VarId} (hinput : v ∉ k.inputs)
    (hcoord : ∀ i c, t.coords? i = some c → v ∉ [c.x, c.y]) {e : Tie α} (he : e ∈ k.ties t) :
    e.this ≠ v ∧ e.that ≠ v := by
  have hne : ∀ {i c}, t.coords? i = some c → c.x ≠ v ∧ c.y ≠ v := fun hc => by
    have := hcoord _ _ hc
    rw [List.mem_pair, not_or] at this
    exact ⟨Ne.symm this.1, Ne.symm this.2⟩
  cases k with
  | linear y m x b =>
      obtain rfl := List.mem_singleton.1 he
      rw [inputs, List.mem_pair, not_or] at hinput
      exact ⟨Ne.symm hinput.1, Ne.symm hinput.2⟩
  | absorb parent child =>
      rw [ties] at he
      split at he
      · rename_i p q hp hq
        rcases List.mem_pair.1 he with rfl | rfl
        · exact ⟨(hne hp).1, (hne hq).1⟩
        · exact ⟨(hne hp).2, (hne hq).2⟩
      · cases he
  | _ => cases he

/-- A constraint asks for its ties, and for nothing else. -/
lemma requests_relate {k : Constraint α} (h : k.relate a t = .ok (b, u)) :
    ∃ rs, a.Requests rs b ∧ rs.map Request.toTie = k.ties t := by
  cases k with
  | linear y m x n =>
      obtain ⟨⟨_, _⟩, hunify, hpure⟩ := bind_eq_ok_iff.1 h
      cases hpure
      exact ⟨_, .single (e := ⟨y, x, ⟨m, n⟩⟩) hunify, rfl⟩
  | absorb parent child =>
      obtain ⟨p, hp, h⟩ := bind_eq_ok_iff.1 h
      obtain ⟨q, hq, h⟩ := bind_eq_ok_iff.1 h
      obtain ⟨⟨_, _⟩, hx, h⟩ := bind_eq_ok_iff.1 h
      obtain ⟨⟨_, _⟩, hy, h⟩ := bind_eq_ok_iff.1 h
      obtain ⟨_, -, hpure⟩ := bind_eq_ok_iff.1 h
      cases hpure
      rw [HandleTable.coords_eq_ok_iff] at hp hq
      refine ⟨_, .cons (e := ⟨p.x, q.x, .identity⟩) hx
        (.single (e := ⟨p.y, q.y, .identity⟩) hy), ?_⟩
      simp only [ties, hp, hq, List.map_cons, List.map_nil]
  | _ =>
      cases h
      exact ⟨[], .nil a, rfl⟩

end Constraint

/-! ## Residuals that are dropped -/

namespace Residual

variable {before middle after pool pool' : List (Residual α)}

/-- By one of these requests the first residual of a pool was dropped for the second, because both
related the same points. -/
structure Dropped (pool : List (Residual α)) (rs : List (Request α)) (x y : Residual α) : Prop where
  first : x ∈ pool
  second : y ∈ pool
  clash : ∃ r ∈ rs, x.clash r.found y = some (r.this, r.that, r.offset)

lemma Dropped.mono {x y : Residual α} (h : Dropped pool rs x y) (hpool : pool ⊆ pool')
    (hrs : rs ⊆ rs') : Dropped pool' rs' x y := by
  obtain ⟨r, hr, hclash⟩ := h.clash
  exact ⟨hpool h.first, hpool h.second, r, hrs hr, hclash⟩

lemma Dropped.chain_mono {x y : Residual α} (h : Relation.ReflTransGen (Dropped pool rs) x y)
    (hpool : pool ⊆ pool') (hrs : rs ⊆ rs') : Relation.ReflTransGen (Dropped pool' rs') x y :=
  Relation.ReflTransGen.mono (fun _ _ hdrop => hdrop.mono hpool hrs) _ _ h

/-- The residuals `before` became `after`: one after the other was dropped for one that was still
there, and what both measure was asked to be unified. -/
inductive Collects : List (Residual α) → Arena α → List (Request α) → List (Residual α) → Arena α →
    Prop where
  | keep {before after : List (Residual α)} (a : Arena α) : before.Perm after →
      Collects before a [] after a
  | drop {before others after : List (Residual α)} {x y : Residual α} {e : Tie α} {merged : Bool}
      {a b c : Arena α} {rs : List (Request α)} : before.Perm (x :: y :: others) →
      x.clash a y = some (e.this, e.that, e.offset) →
      a.unify e.this e.that e.offset = .ok (merged, b) → Collects (y :: others) b rs after c →
      Collects before a (⟨e, a⟩ :: rs) after c

namespace Collects

lemma perm (h : Collects before a rs after b) {before' after' : List (Residual α)}
    (hbefore : before'.Perm before) (hafter : after.Perm after') :
    Collects before' a rs after' b := by
  induction h generalizing before' with
  | keep a hperm => exact .keep a ((hbefore.trans hperm).trans hafter)
  | drop hperm hclash hunify _ ih =>
      exact .drop (hbefore.trans hperm) hclash hunify (ih (.refl _) hafter)

lemma trans (h : Collects before a rs middle b) (h' : Collects middle b rs' after c) :
    Collects before a (rs ++ rs') after c := by
  induction h with
  | keep a hperm => exact h'.perm hperm (.refl _)
  | drop hperm hclash hunify _ ih => exact .drop hperm hclash hunify (ih h')

/-- Others may stand by. -/
lemma append (h : Collects before a rs after b) (others : List (Residual α)) :
    Collects (before ++ others) a rs (after ++ others) b := by
  induction h with
  | keep a hperm => exact .keep a (hperm.append_right others)
  | drop hperm hclash hunify _ ih => exact .drop (hperm.append_right others) hclash hunify ih

/-- A fold collects what each of its steps collects. -/
lemma foldlM {σ β : Type} {f : σ × Arena α → β → Except SolverError (σ × Arena α)}
    (pool : σ → List (Residual α)) (own : β → List (Residual α))
    (hstep : ∀ {x : σ} {a : Arena α} {y : β} {x' : σ} {b : Arena α}, f (x, a) y = .ok (x', b) →
      ∃ rs, Collects (pool x ++ own y) a rs (pool x') b)
    {ys : List β} {x x' : σ} (h : ys.foldlM f (x, a) = .ok (x', b)) :
    ∃ rs, Collects (pool x ++ ys.flatMap own) a rs (pool x') b := by
  induction ys generalizing x a with
  | nil =>
      cases h
      exact ⟨[], by simpa using Collects.keep b (List.Perm.refl (pool x'))⟩
  | cons y ys ih =>
      rw [List.foldlM_cons] at h
      obtain ⟨⟨x₁, a₁⟩, hfirst, hrest⟩ := bind_eq_ok_iff.1 h
      obtain ⟨rs₁, hcollects₁⟩ := hstep hfirst
      obtain ⟨rs₂, hcollects₂⟩ := ih hrest
      refine ⟨rs₁ ++ rs₂, trans ?_ hcollects₂⟩
      rw [List.flatMap_cons, ← List.append_assoc]
      exact hcollects₁.append (ys.flatMap own)

lemma run (h : Collects before a rs after b) : a.Requests rs b := by
  induction h with
  | keep a _ => exact .nil a
  | drop _ _ hunify _ ih => exact .cons hunify ih

/-- Each request was made for a residual that was dropped. -/
lemma clashes (h : Collects before a rs after b) : ∀ r ∈ rs, ∃ x ∈ before, ∃ y ∈ before,
    x.clash r.found y = some (r.this, r.that, r.offset) := by
  induction h with
  | keep => simp
  | @drop before others _ x y e _ a _ _ rs hperm hclash _ _ ih =>
      have hsub : ∀ z ∈ y :: others, z ∈ before := fun z hz =>
        hperm.mem_iff.2 (List.mem_cons_of_mem x hz)
      intro r hr
      rcases List.mem_cons.1 hr with rfl | hr
      · exact ⟨x, hperm.mem_iff.2 List.mem_cons_self, y, hsub y List.mem_cons_self, hclash⟩
      · obtain ⟨z, hz, w, hw, hclash'⟩ := ih r hr
        exact ⟨z, hsub z hz, w, hsub w hw, hclash'⟩

/-- None is new. -/
lemma origin (h : Collects before a rs after b) : ∀ x ∈ after, x ∈ before := by
  induction h with
  | keep _ hperm => exact fun x hx => hperm.mem_iff.2 hx
  | drop hperm _ _ _ ih => exact fun x hx => hperm.mem_iff.2 (List.mem_cons_of_mem _ (ih x hx))

/-- Each was kept, or was dropped for one that was kept, perhaps by way of others. -/
lemma kept (h : Collects before a rs after b) :
    ∀ x ∈ before, ∃ y ∈ after, Relation.ReflTransGen (Dropped before rs) x y := by
  induction h with
  | keep _ hperm => exact fun x hx => ⟨x, hperm.mem_iff.1 hx, .refl⟩
  | @drop before others after x y e _ a _ _ rs hperm hclash _ _ ih =>
      have hsub : y :: others ⊆ before := fun z hz => hperm.mem_iff.2 (List.mem_cons_of_mem x hz)
      have hlater : ∀ z ∈ y :: others, ∃ w ∈ after,
          Relation.ReflTransGen (Dropped before (⟨e, a⟩ :: rs)) z w := by
        intro z hz
        obtain ⟨w, hw, hchain⟩ := ih z hz
        exact ⟨w, hw, Dropped.chain_mono hchain hsub (List.subset_cons_self _ _)⟩
      intro z hz
      rcases List.mem_cons.1 (hperm.mem_iff.1 hz) with rfl | hz
      · obtain ⟨w, hw, hchain⟩ := hlater y List.mem_cons_self
        exact ⟨w, hw, .head ⟨hz, hsub List.mem_cons_self, _, List.mem_cons_self, hclash⟩ hchain⟩
      · exact hlater z hz

end Collects

lemma collects_addTo {existing : List (Residual α)} {x : Residual α}
    (h : x.addTo existing a = .ok (after, b)) : ∃ rs, Collects (existing ++ [x]) a rs after b := by
  rw [addTo] at h
  split at h
  · rename_i theirs ours offset hfound
    obtain ⟨⟨_, _⟩, hunify, hpure⟩ := bind_eq_ok_iff.1 h
    cases hpure
    obtain ⟨y, hy, hclash⟩ := List.exists_of_findSome?_eq_some hfound
    obtain ⟨left, right, rfl⟩ := List.append_of_mem hy
    have hfront : (left ++ y :: right).Perm (y :: (left ++ right)) := List.perm_middle
    exact ⟨_, .drop (e := ⟨theirs, ours, offset⟩)
      ((List.perm_append_singleton x _).trans (hfront.cons x)) hclash hunify
      (.keep b hfront.symm)⟩
  · cases h
    exact ⟨[], .keep a (.refl _)⟩

lemma collects_addAllTo {existing new : List (Residual α)}
    (h : addAllTo existing a new = .ok (after, b)) :
    ∃ rs, Collects (existing ++ new) a rs after b := by
  obtain ⟨rs, hcollects⟩ := Collects.foldlM id (fun x => [x]) collects_addTo h
  exact ⟨rs, by simpa using hcollects⟩

end Residual

open Residual (Collects Dropped)

namespace Cluster

variable {d m new : Cluster α} {cs cs' : List (Cluster α)}

/-- The residuals of some clusters. -/
def pool (cs : List (Cluster α)) : List (Residual α) :=
  cs.flatMap (·.residuals)

omit [Scalar α] in
lemma pool_append (cs cs' : List (Cluster α)) : pool (cs ++ cs') = pool cs ++ pool cs' :=
  List.flatMap_append

omit [Scalar α] in
lemma pool_cons (c : Cluster α) (cs : List (Cluster α)) :
    pool (c :: cs) = c.residuals ++ pool cs :=
  List.flatMap_cons

omit [Scalar α] in
lemma pool_perm (h : cs.Perm cs') : (pool cs).Perm (pool cs') :=
  h.flatMap_right _

omit [Scalar α] in
lemma pool_nil : pool ([] : List (Cluster α)) = [] := rfl

omit [Scalar α] in
@[simp] lemma mem_pool {x : Residual α} : x ∈ pool cs ↔ ∃ c ∈ cs, x ∈ c.residuals :=
  List.mem_flatMap

lemma collects_ofConstraint {id : ConstraintId} {k : Constraint α}
    (h : ofConstraint t a id k = .ok (new, b)) :
    ∃ rs, Collects (k.residuals t) a rs new.residuals b := by
  obtain ⟨vs, -, h⟩ := bind_eq_ok_iff.1 h
  obtain ⟨xs, hxs, h⟩ := bind_eq_ok_iff.1 h
  obtain ⟨⟨ys, _⟩, hadd, hpure⟩ := bind_eq_ok_iff.1 h
  cases hpure
  rw [Constraint.residuals, hxs]
  exact Residual.collects_addAllTo hadd

lemma collects_merge {c : Cluster α} (h : merge a c d = .ok (m, b)) :
    ∃ rs, Collects (c.residuals ++ d.residuals) a rs m.residuals b := by
  obtain ⟨⟨_, _⟩, hadd, hpure⟩ := bind_eq_ok_iff.1 h
  cases hpure
  exact Residual.collects_addAllTo hadd

lemma collects_mergeAll {c : Cluster α} (h : mergeAll a c cs = .ok (m, b)) :
    ∃ rs, Collects (c.residuals ++ pool cs) a rs m.residuals b :=
  Collects.foldlM residuals residuals collects_merge h

lemma collects_join (h : join a cs new = .ok (cs', b)) :
    ∃ rs, Collects (pool cs ++ new.residuals) a rs (pool cs') b := by
  rcases hspan : cs.span fun c => !c.overlaps new with ⟨before, _ | ⟨first, after⟩⟩
  · rw [join_of_apart hspan] at h
    cases h
    exact ⟨[], .keep a (by simp [pool])⟩
  · obtain ⟨rfl, -, -⟩ := span_not_eq hspan
    rw [join, hspan] at h
    simp only [List.partition_eq_filter_filter] at h
    obtain ⟨⟨m, c⟩, hmerge, hpure⟩ := bind_eq_ok_iff.1 h
    cases hpure
    obtain ⟨rs, hcollects⟩ := collects_mergeAll hmerge
    refine ⟨rs, (hcollects.append (pool (before ++ after.filter fun d => !d.overlaps new))).perm
      ?_ ?_⟩
    · have hjoined := pool_perm (perm_joined (·.overlaps new) before after first new)
      simpa only [pool_append, pool_cons, pool_nil, List.append_nil, List.append_assoc]
        using hjoined.symm
    · simp only [pool_append, pool_cons]
      exact List.perm_append_comm_assoc _ _ _

lemma collects_sortIn {id : ConstraintId} {k : Constraint α}
    (h : sortIn t cs a id k = .ok (cs', b)) :
    ∃ rs, Collects (pool cs ++ k.residuals t) a rs (pool cs') b := by
  obtain ⟨⟨new, c⟩, hone, hjoin⟩ := bind_eq_ok_iff.1 h
  obtain ⟨rs, hnew⟩ := collects_ofConstraint hone
  obtain ⟨rs', hall⟩ := collects_join hjoin
  exact ⟨rs ++ rs',
    ((hnew.append (pool cs)).perm List.perm_append_comm List.perm_append_comm).trans hall⟩

omit [Scalar α] in
/-- Of some clusters in a row two become one. -/
lemma perm_pool_merged (before between after : List (Cluster α)) (c d : Cluster α) :
    (pool (before ++ c :: (between ++ d :: after))).Perm
      (c.residuals ++ d.residuals ++ pool (before ++ between ++ after)) := by
  simp only [← Multiset.coe_eq_coe, pool_append, pool_cons, ← Multiset.coe_add]
  abel

lemma collects_consolidateWithin {limit : Nat} (h : consolidateWithin limit a cs = .ok (cs', b)) :
    ∃ rs, Collects (pool cs) a rs (pool cs') b := by
  have hrecompute : ∀ (a : Arena α) (cs : List (Cluster α)),
      pool (cs.map (recompute a)) = pool cs := by
    intro a cs
    rw [pool, pool, List.flatMap_map]
    rfl
  induction limit generalizing a cs with
  | zero =>
      cases h
      exact ⟨[], .keep b (.refl _)⟩
  | succ limit ih =>
      simp only [consolidateWithin] at h
      split at h
      · cases h
        exact ⟨[], by rw [hrecompute]; exact .keep b (.refl _)⟩
      · rename_i before c between d after hfirst
        obtain ⟨⟨m, _⟩, hmerge, hrest⟩ := bind_eq_ok_iff.1 h
        obtain ⟨rs, hmerged⟩ := collects_merge hmerge
        obtain ⟨rs', hall⟩ := ih hrest
        have hsplit := (firstOverlap_eq_some hfirst).1
        refine ⟨rs ++ rs',
          ((hmerged.append (pool (before ++ between ++ after))).perm ?_ ?_).trans hall⟩
        · rw [← hrecompute a cs, hsplit]
          exact perm_pool_merged before between after c d
        · simp only [pool_append, pool_cons, List.append_assoc]
          exact List.perm_append_comm_assoc _ _ _

/-! ## A whole clustering -/

/-- These requests have led from an arena to the clustering of some constraints: first their ties,
in order, and then what was asked for residuals that were dropped. -/
structure Rebuild (constraints : ConstraintTable α) (t : HandleTable) (a : Arena α)
    (ties drops : List (Request α)) (cs : List (Cluster α)) (b : Arena α) : Prop where
  run : a.reset.Requests (ties ++ drops) b
  asked : ties.map Request.toTie = constraints.ties t
  clashes : ∀ r ∈ drops, ∃ x ∈ constraints.residuals t, ∃ y ∈ constraints.residuals t,
    x.clash r.found y = some (r.this, r.that, r.offset)
  origin : ∀ c ∈ cs, ∀ x ∈ c.residuals, x ∈ constraints.residuals t
  kept : ∀ x ∈ constraints.residuals t, ∃ c ∈ cs, ∃ y ∈ c.residuals,
    Relation.ReflTransGen (Dropped (constraints.residuals t) drops) x y
  collected : ∃ c, a.reset.Requests ties c ∧
    Collects (constraints.residuals t) c drops (pool cs) b

lemma requests_relateAll {constraints : ConstraintTable α}
    (h : relateAll constraints a t = .ok (b, u)) :
    ∃ rs, a.reset.Requests rs b ∧ rs.map Request.toTie = constraints.ties t := by
  have hfold : ∀ (ks : List (Constraint α)) {a b : Arena α} {v w : HandleTable},
      v.points = t.points →
      ks.foldlM (fun x k => k.relate x.1 x.2) (a, v) = .ok (b, w) →
      ∃ rs, a.Requests rs b ∧ rs.map Request.toTie = ks.flatMap (·.ties t) := by
    intro ks
    induction ks with
    | nil =>
        intro a b v w _ hfold
        cases hfold
        exact ⟨[], .nil a, rfl⟩
    | cons k ks ih =>
        intro a b v w hpoints hfold
        rw [List.foldlM_cons] at hfold
        obtain ⟨⟨a₁, v₁⟩, hrelate, hrest⟩ := bind_eq_ok_iff.1 hfold
        obtain ⟨rs, hrun, hties⟩ := Constraint.requests_relate hrelate
        obtain ⟨rs', hrun', hties'⟩ := ih ((Constraint.points_relate hrelate).trans hpoints) hrest
        refine ⟨rs ++ rs', hrun.append hrun', ?_⟩
        rw [List.map_append, hties, hties', List.flatMap_cons, Constraint.ties_congr hpoints]
  exact hfold _ (HandleTable.points_reset t) h

/-- After the constraints have been related, a clustering collects their residuals. -/
lemma collects_of_build {constraints : ConstraintTable α}
    (h : build constraints a t = .ok (cs, b, u)) :
    ∃ c rs, relateAll constraints a t = .ok (c, u) ∧
      Collects (constraints.residuals t) c rs (pool cs) b := by
  have hpoints := points_build h
  obtain ⟨⟨c, u₁⟩, hrelate, h⟩ := bind_eq_ok_iff.1 h
  obtain ⟨⟨cs₁, a₂⟩, hsort, h⟩ := bind_eq_ok_iff.1 h
  obtain ⟨⟨cs₂, a₃⟩, hconsolidate, hpure⟩ := bind_eq_ok_iff.1 h
  cases hpure
  obtain ⟨rs, hsorted⟩ := Collects.foldlM pool (fun e => e.2.residuals u)
    collects_sortIn hsort
  obtain ⟨rs', hconsolidated⟩ := collects_consolidateWithin hconsolidate
  have hresiduals : pool [] ++ constraints.entries.flatMap (fun e => e.2.residuals u) =
      constraints.residuals t := by
    simp only [Constraint.residuals_congr hpoints, pool, List.flatMap_nil, List.nil_append,
      ConstraintTable.residuals, OrderedMap.values, List.flatMap_map]
  exact ⟨c, rs ++ rs', hrelate, hresiduals ▸ hsorted.trans hconsolidated⟩

/-- **Every clustering has come about by requests**: the ties of the constraints, and one for each
residual that was dropped. -/
theorem rebuild_of_build {constraints : ConstraintTable α}
    (h : build constraints a t = .ok (cs, b, u)) :
    ∃ ties drops, Rebuild constraints t a ties drops cs b := by
  obtain ⟨c, drops, hrelate, hall⟩ := collects_of_build h
  obtain ⟨ties, hties, hasked⟩ := requests_relateAll hrelate
  refine ⟨ties, drops, hties.append hall.run, hasked, hall.clashes,
    fun c hc x hx => hall.origin x (mem_pool.2 ⟨c, hc, hx⟩), fun x hx => ?_, c, hties, hall⟩
  obtain ⟨y, hy, hxy⟩ := hall.kept x hx
  obtain ⟨c, hc, hy⟩ := mem_pool.1 hy
  exact ⟨c, hc, y, hy, hxy⟩

/-- Without residuals, clustering does nothing but relate. -/
lemma relateAll_of_residuals_eq_nil {constraints : ConstraintTable α}
    (h : build constraints a t = .ok (cs, b, u)) (hnone : constraints.residuals t = []) :
    relateAll constraints a t = .ok (b, u) := by
  obtain ⟨c, drops, hrelate, hall⟩ := collects_of_build h
  rw [hnone] at hall
  obtain rfl : drops = [] := List.eq_nil_iff_forall_not_mem.2 fun r hr => by
    obtain ⟨x, hx, -⟩ := hall.clashes r hr
    cases hx
  cases hall.run
  exact hrelate

end Cluster

end SketchSolver
