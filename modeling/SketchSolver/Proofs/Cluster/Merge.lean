import Mathlib
import SketchSolver.Cluster
import SketchSolver.Proofs.Constraint

/-!
# Merging clusters

A cluster remembers canonical variables that later unifications make stale.  What stays true of
a cluster, whatever is unified after it was made, is `Cluster.Sound`; what makes it one cluster is
`Cluster.Connected`.

**Relations.**  `R id v` stands for "constraint `id` refers to variable `v`".  Two constraints are
`Neighbours` if they refer to variables with one canonical variable, and `Joined` if a chain of
neighbours leads from one to the other.  Both only grow when an arena coarsens.

**Collecting.**  `addTo_spec` and `addAllTo_spec` say that collecting residuals never fails and
invents none; it may unify variables.

**Merging.**  `merge_spec` and `mergeAll_spec`: merging never fails, concatenates the constraints,
and keeps a cluster sound.  Connectedness is not part of it, because a cluster takes over others
that are connected to it only through one that is still to come (`joined_of_overlaps`).
-/

namespace SketchSolver

variable {α : Type}

/-! ## Collecting residuals -/

namespace Residual

lemma mem_vars_of_owned {r : Residual α} {v : VarId} (h : r.owned = some v) : v ∈ r.vars := by
  cases r <;> simp_all [owned, vars]

lemma vars_moveFinger (point : Coords) (position : Point α) (r : Residual α) :
    (r.moveFinger point position).vars = r.vars := by
  cases r <;> rfl

variable [Scalar α] {a : Arena α}

/-- A clash unifies what the two residuals own. -/
lemma owned_of_clash {r r' : Residual α} {theirs ours : VarId} {offset : Affine α}
    (h : r.clash a r' = some (theirs, ours, offset)) :
    r'.owned = some theirs ∧ r.owned = some ours := by
  cases r with
  | distance p q length =>
      cases r' with
      | distance p' q' length' =>
          simp only [clash] at h
          split at h
          · cases h; exact ⟨rfl, rfl⟩
          · cases h
      | _ => cases h
  | angle p q bearing =>
      cases r' with
      | angle p' q' bearing' =>
          simp only [clash] at h
          split at h
          · cases h; exact ⟨rfl, rfl⟩
          · split at h
            · cases h; exact ⟨rfl, rfl⟩
            · cases h
      | _ => cases h
  | _ => cases r' <;> cases h

lemma addTo_spec (ha : a.WellFormed) {existing : List (Residual α)} {r : Residual α}
    (hexisting : ∀ x ∈ existing, ∀ v ∈ x.vars, a.contains v = true)
    (hr : ∀ v ∈ r.vars, a.contains v = true) :
    ∃ rs b, r.addTo existing a = .ok (rs, b) ∧ b.WellFormed ∧ a.Coarsens b ∧
      ∀ x ∈ rs, x ∈ existing ∨ x = r := by
  rw [addTo]
  cases hclash : existing.findSome? (r.clash a) with
  | none => exact ⟨existing ++ [r], a, rfl, ha, .refl a, by simp⟩
  | some found =>
      obtain ⟨theirs, ours, offset⟩ := found
      obtain ⟨x, hx, hfound⟩ := List.exists_of_findSome?_eq_some hclash
      obtain ⟨htheirs, hours⟩ := owned_of_clash hfound
      obtain ⟨merged, b, hunify, hwf, hcoarse⟩ :=
        ha.unify_coarsens (hexisting x hx _ (mem_vars_of_owned htheirs))
          (hr _ (mem_vars_of_owned hours)) offset
      exact ⟨existing, b, by simp only [hunify]; rfl, hwf, hcoarse, fun y hy => Or.inl hy⟩

lemma addAllTo_spec (ha : a.WellFormed) {existing rs : List (Residual α)}
    (hexisting : ∀ x ∈ existing, ∀ v ∈ x.vars, a.contains v = true)
    (hrs : ∀ x ∈ rs, ∀ v ∈ x.vars, a.contains v = true) :
    ∃ all b, addAllTo existing a rs = .ok (all, b) ∧ b.WellFormed ∧ a.Coarsens b ∧
      ∀ x ∈ all, x ∈ existing ∨ x ∈ rs := by
  induction rs generalizing existing a with
  | nil => exact ⟨existing, a, rfl, ha, .refl a, fun x hx => Or.inl hx⟩
  | cons r rs ih =>
      obtain ⟨all₁, a₁, hadd, hwf₁, hcoarse₁, hmem₁⟩ :=
        addTo_spec ha hexisting (hrs r List.mem_cons_self)
      obtain ⟨all, b, haddAll, hwf, hcoarse, hmem⟩ := ih hwf₁
        (fun x hx v hv => hcoarse₁.contains.2 <| (hmem₁ x hx).elim
          (fun hx => hexisting x hx v hv) (fun hx => hrs x (hx ▸ List.mem_cons_self) v hv))
        (fun x hx v hv => hcoarse₁.contains.2 (hrs x (List.mem_cons_of_mem _ hx) v hv))
      refine ⟨all, b, ?_, hwf, hcoarse₁.trans hcoarse, fun x hx => ?_⟩
      · simp only [addAllTo, List.foldlM_cons, hadd, ok_bind]
        exact haddAll
      · rcases hmem x hx with hx | hx
        · rcases hmem₁ x hx with hx | rfl
          · exact Or.inl hx
          · exact Or.inr List.mem_cons_self
        · exact Or.inr (List.mem_cons_of_mem _ hx)

omit [Scalar α] in
/-- The residuals of a live constraint refer to variables of the constraint only. -/
lemma ofConstraint_spec {c : Constraint α} {t : HandleTable} (h : c.Live t a) :
    ∃ rs, ofConstraint t c = .ok rs ∧ ∀ r ∈ rs, ∀ v ∈ r.vars, c.Uses t v := by
  have hnamed : ∀ v ∈ c.inputs ++ c.owned, c.Uses t v := fun v hv =>
    (h.uses_iff v).2 (Or.inr hv)
  cases c with
  | finger handle position =>
      obtain ⟨p, hp, hx, hy⟩ := h.coords_ok (i := handle) List.mem_cons_self
      exact ⟨_, by rw [ofConstraint, hp]; rfl, by simp [vars, hx, hy]⟩
  | polar start finish length bearing =>
      obtain ⟨p, hp, hpx, hpy⟩ := h.coords_ok (i := start) List.mem_cons_self
      obtain ⟨q, hq, hqx, hqy⟩ :=
        h.coords_ok (i := finish) (List.mem_cons_of_mem _ List.mem_cons_self)
      have hl := hnamed length List.mem_cons_self
      have hb := hnamed bearing (List.mem_cons_of_mem _ List.mem_cons_self)
      exact ⟨_, by rw [ofConstraint, hp, hq]; rfl, by simp [vars, hpx, hpy, hqx, hqy, hl, hb]⟩
  | distance start finish length =>
      obtain ⟨p, hp, hpx, hpy⟩ := h.coords_ok (i := start) List.mem_cons_self
      obtain ⟨q, hq, hqx, hqy⟩ :=
        h.coords_ok (i := finish) (List.mem_cons_of_mem _ List.mem_cons_self)
      have hl := hnamed length List.mem_cons_self
      exact ⟨_, by rw [ofConstraint, hp, hq]; rfl, by simp [vars, hpx, hpy, hqx, hqy, hl]⟩
  | angle start finish bearing =>
      obtain ⟨p, hp, hpx, hpy⟩ := h.coords_ok (i := start) List.mem_cons_self
      obtain ⟨q, hq, hqx, hqy⟩ :=
        h.coords_ok (i := finish) (List.mem_cons_of_mem _ List.mem_cons_self)
      have hb := hnamed bearing List.mem_cons_self
      exact ⟨_, by rw [ofConstraint, hp, hq]; rfl, by simp [vars, hpx, hpy, hqx, hqy, hb]⟩
  | formula m x b result =>
      refine ⟨_, rfl, fun r hr v hv => hnamed v ?_⟩
      obtain rfl := List.mem_singleton.1 hr
      simp only [vars, Constraint.inputs, Constraint.owned, Constraint.ownedQuantities] at hv ⊢
      simp only [List.mem_cons, List.not_mem_nil, or_false, List.map_cons, List.map_nil,
        List.cons_append, List.nil_append] at hv ⊢
      tauto
  | constant var value => exact ⟨[], rfl, by simp⟩
  | pin handle position => exact ⟨[], rfl, by simp⟩
  | linear y m x b => exact ⟨[], rfl, by simp⟩
  | absorb parent child => exact ⟨[], rfl, by simp⟩

end Residual

namespace Cluster

variable [Scalar α]

/-! ## Neighbours -/

/-- Two constraints refer to variables that have one canonical variable. -/
def Neighbours (R : ConstraintId → VarId → Prop) (a : Arena α) (i j : ConstraintId) : Prop :=
  ∃ v w, R i v ∧ R j w ∧ a.canonical v = a.canonical w

/-- A chain of neighbours leads from one constraint to the other. -/
def Joined (R : ConstraintId → VarId → Prop) (a : Arena α) : ConstraintId → ConstraintId → Prop :=
  Relation.ReflTransGen (Neighbours R a)

variable {R : ConstraintId → VarId → Prop} {a b : Arena α} {c d : Cluster α}

lemma Neighbours.symm {i j : ConstraintId} (h : Neighbours R a i j) : Neighbours R a j i := by
  obtain ⟨v, w, hv, hw, heq⟩ := h
  exact ⟨w, v, hw, hv, heq.symm⟩

lemma Joined.symm {i j : ConstraintId} (h : Joined R a i j) : Joined R a j i := by
  induction h with
  | refl => exact .refl
  | tail _ hlast ih => exact .head hlast.symm ih

lemma Joined.mono {i j : ConstraintId} (hcoarse : a.Coarsens b) (h : Joined R a i j) :
    Joined R b i j := by
  induction h with
  | refl => exact .refl
  | tail _ hlast ih =>
      obtain ⟨v, w, hv, hw, heq⟩ := hlast
      exact ih.tail ⟨v, w, hv, hw, hcoarse.canonical heq⟩

/-! ## Sound clusters -/

/-- The first constraint of the first cluster is older than every constraint of the second. -/
def Before (c d : Cluster α) : Prop :=
  ∀ i ∈ c.constraints.head?, ∀ j ∈ d.constraints, i.index < j.index

/-- What is true of a cluster whatever is unified after it was made. -/
structure Sound (R : ConstraintId → VarId → Prop) (a : Arena α) (c : Cluster α) : Prop where
  /-- It lists what its constraints refer to. -/
  referenced : ∀ w, w ∈ c.referenced ↔ ∃ id ∈ c.constraints, R id w
  /-- All of that is there. -/
  live : ∀ w ∈ c.referenced, a.contains w = true
  /-- The canonical variables it remembers may be stale, but are in the group of something it
  refers to. -/
  cached : ∀ v ∈ c.vars, ∃ w ∈ c.referenced, a.canonical w = a.canonical v
  /-- Its residuals refer to variables of its constraints only. -/
  residuals : ∀ r ∈ c.residuals, ∀ w ∈ r.vars, w ∈ c.referenced
  /-- Its first constraint is its oldest one. -/
  oldest : ∃ i rest, c.constraints = i :: rest ∧ ∀ j ∈ rest, i.index < j.index

/-- Any two constraints of the cluster are joined. -/
def Connected (R : ConstraintId → VarId → Prop) (a : Arena α) (c : Cluster α) : Prop :=
  ∀ i ∈ c.constraints, ∀ j ∈ c.constraints, Joined R a i j

lemma Sound.mono (hcoarse : a.Coarsens b) (h : c.Sound R a) : c.Sound R b where
  referenced := h.referenced
  live w hw := hcoarse.contains.2 (h.live w hw)
  cached v hv := by
    obtain ⟨w, hw, heq⟩ := h.cached v hv
    exact ⟨w, hw, hcoarse.canonical heq⟩
  residuals := h.residuals
  oldest := h.oldest

lemma Connected.mono (hcoarse : a.Coarsens b) (h : c.Connected R a) : c.Connected R b :=
  fun i hi j hj => (h i hi j hj).mono hcoarse

lemma mem_vars_recompute (a : Arena α) (c : Cluster α) (v : VarId) :
    v ∈ (recompute a c).vars ↔ ∃ w ∈ c.referenced, a.canonical w = v := by
  simp [recompute]

/-- Looking up the canonical variables again keeps a cluster sound. -/
lemma Sound.recompute (ha : a.Linked) (h : c.Sound R a) : (recompute a c).Sound R a where
  referenced := h.referenced
  live := h.live
  cached v hv := by
    obtain ⟨w, hw, rfl⟩ := (mem_vars_recompute a c v).1 hv
    exact ⟨w, hw, (ha.canonical_canonical w).symm⟩
  residuals := h.residuals
  oldest := h.oldest

/-- Overlapping clusters refer to variables with one canonical variable, stale or not. -/
lemma Sound.exists_of_overlaps (hc : c.Sound R a) (hd : d.Sound R a) (h : c.overlaps d = true) :
    ∃ i ∈ c.constraints, ∃ j ∈ d.constraints, Neighbours R a i j := by
  rw [overlaps, Bool.not_eq_true', ← Bool.not_eq_true, OrderedSet.isDisjoint_eq_true_iff] at h
  simp only [not_forall, not_not] at h
  obtain ⟨v, hvc, hvd⟩ := h
  obtain ⟨w, hw, hwv⟩ := hc.cached v hvc
  obtain ⟨w', hw', hwv'⟩ := hd.cached v hvd
  obtain ⟨i, hi, hiw⟩ := (hc.referenced w).1 hw
  obtain ⟨j, hj, hjw⟩ := (hd.referenced w').1 hw'
  exact ⟨i, hi, j, hj, w, w', hiw, hjw, hwv.trans hwv'.symm⟩

/-- The constraints of two overlapping connected clusters are joined. -/
lemma joined_of_overlaps (hc : c.Sound R a) (hd : d.Sound R a) (hcc : c.Connected R a)
    (hdc : d.Connected R a) (h : c.overlaps d = true) :
    ∀ i ∈ c.constraints, ∀ j ∈ d.constraints, Joined R a i j := by
  obtain ⟨i', hi', j', hj', hnext⟩ := hc.exists_of_overlaps hd h
  intro i hi j hj
  exact (hcc i hi i' hi').trans ((hdc j' hj' j hj).head hnext)

/-! ## Merging -/

/-- **Merging two clusters** never fails, concatenates their constraints, and the result is
sound if the first one is the older one. -/
lemma merge_spec (ha : a.WellFormed) (hc : c.Sound R a) (hd : d.Sound R a) (hbefore : c.Before d) :
    ∃ m b, merge a c d = .ok (m, b) ∧ b.WellFormed ∧ a.Coarsens b ∧
      m.constraints = c.constraints ++ d.constraints ∧ m.Sound R b := by
  have hlive : ∀ {x : Cluster α}, x.Sound R a → ∀ r ∈ x.residuals, ∀ v ∈ r.vars,
      a.contains v = true := fun hx r hr v hv => hx.live v (hx.residuals r hr v hv)
  obtain ⟨rs, b, hadd, hwf, hcoarse, hrs⟩ := Residual.addAllTo_spec ha (hlive hc) (hlive hd)
  refine ⟨_, b, by rw [merge, hadd]; rfl, hwf, hcoarse, rfl, Sound.recompute hwf.toLinked ?_⟩
  constructor
  · intro w
    simp only [List.mem_append, hc.referenced, hd.referenced]
    constructor
    · rintro (⟨i, hi, hw⟩ | ⟨i, hi, hw⟩)
      · exact ⟨i, Or.inl hi, hw⟩
      · exact ⟨i, Or.inr hi, hw⟩
    · rintro ⟨i, hi | hi, hw⟩
      · exact Or.inl ⟨i, hi, hw⟩
      · exact Or.inr ⟨i, hi, hw⟩
  · intro w hw
    rcases List.mem_append.1 hw with hw | hw
    · exact hcoarse.contains.2 (hc.live w hw)
    · exact hcoarse.contains.2 (hd.live w hw)
  · intro v hv
    exact absurd hv (OrderedSet.not_mem_empty v)
  · intro r hr w hw
    rcases hrs r hr with hr | hr
    · exact List.mem_append_left _ (hc.residuals r hr w hw)
    · exact List.mem_append_right _ (hd.residuals r hr w hw)
  · obtain ⟨i, rest, hi, hrest⟩ := hc.oldest
    refine ⟨i, rest ++ d.constraints, by rw [hi]; rfl, fun j hj => ?_⟩
    rcases List.mem_append.1 hj with hj | hj
    · exact hrest j hj
    · exact hbefore i (by rw [hi]; rfl) j hj

/-- **Merging several clusters** into an older one, in order. -/
lemma mergeAll_spec (ha : a.WellFormed) {ds : List (Cluster α)} (hc : c.Sound R a)
    (hds : ∀ d ∈ ds, d.Sound R a) (hbefore : ∀ d ∈ ds, c.Before d) :
    ∃ m b, mergeAll a c ds = .ok (m, b) ∧ b.WellFormed ∧ a.Coarsens b ∧
      m.constraints = c.constraints ++ ds.flatMap (·.constraints) ∧ m.Sound R b := by
  induction ds generalizing a c with
  | nil => exact ⟨c, a, rfl, ha, .refl a, by simp, hc⟩
  | cons d ds ih =>
      obtain ⟨m₁, a₁, hmerge, hwf₁, hcoarse₁, hlist₁, hsound₁⟩ :=
        merge_spec ha hc (hds d List.mem_cons_self) (hbefore d List.mem_cons_self)
      have hhead : m₁.constraints.head? = c.constraints.head? := by
        obtain ⟨i, rest, hi, -⟩ := hc.oldest
        rw [hlist₁, hi]
        rfl
      obtain ⟨m, b, hmergeAll, hwf, hcoarse, hlist, hsound⟩ := ih hwf₁ hsound₁
        (fun x hx => (hds x (List.mem_cons_of_mem _ hx)).mono hcoarse₁)
        (fun x hx i hi => hbefore x (List.mem_cons_of_mem _ hx) i (hhead ▸ hi))
      refine ⟨m, b, ?_, hwf, hcoarse₁.trans hcoarse, ?_, hsound⟩
      · simp only [mergeAll, List.foldlM_cons, hmerge, ok_bind]
        exact hmergeAll
      · rw [hlist, hlist₁, List.flatMap_cons, List.append_assoc]

/-- The cluster of a single live constraint. -/
lemma ofConstraint_spec {t : HandleTable} {k : Constraint α} {id : ConstraintId}
    (ha : a.WellFormed) (hground : t.Grounded a) (hk : k.Live t a)
    (hR : ∀ v, R id v ↔ k.Uses t v) :
    ∃ m b, ofConstraint t a id k = .ok (m, b) ∧ b.WellFormed ∧ a.Coarsens b ∧
      m.constraints = [id] ∧ m.Sound R b := by
  obtain ⟨vs, hvs, -⟩ := hk.vars_spec
  have hmem : ∀ v, v ∈ vs ↔ k.Uses t v := by
    intro v
    refine ⟨fun hv => ⟨vs, hvs, hv⟩, ?_⟩
    rintro ⟨ws, hws, hv⟩
    rw [hvs] at hws
    cases hws
    exact hv
  obtain ⟨rs, hrs, huses⟩ := Residual.ofConstraint_spec hk
  obtain ⟨all, b, hadd, hwf, hcoarse, hall⟩ := Residual.addAllTo_spec ha
    (fun r (hr : r ∈ []) => absurd hr List.not_mem_nil)
    (fun r hr v hv => hk.contains_of_uses hground (huses r hr v hv))
  refine ⟨_, b, by rw [ofConstraint, hvs, hrs]; simp only [ok_bind, hadd]; rfl, hwf, hcoarse, rfl,
    Sound.recompute hwf.toLinked ?_⟩
  constructor
  · intro w
    simp [hmem, hR]
  · intro w hw
    exact hcoarse.contains.2 (hk.contains_of_uses hground ((hmem w).1 hw))
  · intro v hv
    exact absurd hv (OrderedSet.not_mem_empty v)
  · intro r hr w hw
    rcases hall r hr with hr | hr
    · exact absurd hr List.not_mem_nil
    · exact (hmem w).2 (huses r hr w hw)
  · exact ⟨id, [], rfl, by simp⟩

end Cluster

end SketchSolver
