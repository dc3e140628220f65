import Mathlib
import SketchSolver.Proofs.Cluster.Alike
import SketchSolver.Proofs.Cluster.Build

/-!
# Clusters that are apart

Clusters remember canonical variables, and unifying may make these stale.  But all that unifies
while clusters are merged are residuals of these clusters, and the cluster they become looks its
variables up again.  So between one constraint and the next, all clusters know their canonical
variables and have none in common.

* `Arena.Confined W` — only groups in `W` have been unified, and with each other.
* `Cluster.Apart` — the clusters know their canonical variables and have none in common.
* `Apart.join`, `Apart.sortAll` — sorting in constraints keeps clusters apart.
* `build_apart` — so there is never anything to consolidate: a clustering is what sorting leads to.
* `build_insert_constant` — a new constant joins one cluster at most, so it unifies nothing.
-/

namespace SketchSolver

variable {α : Type} [Scalar α] {W : VarId → Prop} {a b : Arena α}

namespace Arena

/-! ## Unifying some groups -/

/-- Only groups in `W` have been unified, and with each other. -/
structure Confined (W : VarId → Prop) (a b : Arena α) : Prop where
  outside : ∀ v, ¬ W (a.canonical v) → b.canonical v = a.canonical v
  inside : ∀ v, W (a.canonical v) → W (b.canonical v)

lemma Confined.refl (W : VarId → Prop) (a : Arena α) : Confined W a a :=
  ⟨fun _ _ => rfl, fun _ hv => hv⟩

lemma Confined.trans {c : Arena α} (hab : Confined W a b) (hbc : Confined W b c) :
    Confined W a c where
  outside v hv := by
    have hsame := hab.outside v hv
    rw [hbc.outside v (hsame ▸ hv), hsame]
  inside v hv := hbc.inside v (hab.inside v hv)

lemma WellFormed.confined_unify (ha : a.WellFormed) {this that : VarId} {offset : Affine α}
    {merged : Bool} (h : a.unify this that offset = .ok (merged, b)) (hthis : W (a.canonical this))
    (hthat : W (a.canonical that)) : Confined W a b := by
  rcases ha.of_unify h with rfl | ⟨-, hm⟩
  · exact .refl W b
  · refine ⟨fun v hv => ?_, fun v hv => ?_⟩
    · rw [hm.canonical, if_neg]
      intro heq
      exact hv (heq ▸ hthat)
    · rw [hm.canonical]
      split
      · exact hthis
      · exact hv

end Arena

open Arena

namespace Residual

variable {r : Residual α} {rs rs' new : List (Residual α)}

/-- Collecting a residual unifies what residuals own. -/
lemma confined_addTo (ha : a.WellFormed) (h : r.addTo rs a = .ok (rs', b))
    (hrs : ∀ x ∈ rs, ∀ v ∈ x.vars, W (a.canonical v)) (hr : ∀ v ∈ r.vars, W (a.canonical v)) :
    b.WellFormed ∧ Confined W a b ∧ ∀ x ∈ rs', x ∈ rs ∨ x = r := by
  refine ⟨(ha.unifies (unifies_addTo h)).1, ?_⟩
  rw [addTo] at h
  split at h
  · rename_i theirs ours offset hfound
    obtain ⟨⟨_, _⟩, hunify, hpure⟩ := bind_eq_ok_iff.1 h
    cases hpure
    obtain ⟨x, hx, hclash⟩ := List.exists_of_findSome?_eq_some hfound
    obtain ⟨htheirs, hours⟩ := owned_of_clash hclash
    exact ⟨ha.confined_unify hunify (hrs x hx _ (mem_vars_of_owned htheirs))
      (hr _ (mem_vars_of_owned hours)), fun y hy => Or.inl hy⟩
  · cases h
    exact ⟨.refl W a, by simp⟩

lemma confined_addAllTo (ha : a.WellFormed) (h : addAllTo rs a new = .ok (rs', b))
    (hrs : ∀ x ∈ rs, ∀ v ∈ x.vars, W (a.canonical v))
    (hnew : ∀ x ∈ new, ∀ v ∈ x.vars, W (a.canonical v)) :
    b.WellFormed ∧ Confined W a b ∧ ∀ x ∈ rs', x ∈ rs ∨ x ∈ new := by
  refine foldlM_keeps (P := fun st => st.2.WellFormed ∧ Confined W a st.2 ∧
    ∀ x ∈ st.1, x ∈ rs ∨ x ∈ new) ?_ ⟨ha, .refl W a, fun x hx => Or.inl hx⟩ h
  rintro ⟨ys, c⟩ r hr ⟨ys', c'⟩ ⟨hc, hconfined, hmem⟩ hadd
  have hys : ∀ y ∈ ys, ∀ v ∈ y.vars, W (c.canonical v) := fun y hy v hv =>
    hconfined.inside v ((hmem y hy).elim (hrs y · v hv) (hnew y · v hv))
  obtain ⟨hc', hconfined', hmem'⟩ :=
    confined_addTo hc hadd hys fun v hv => hconfined.inside v (hnew r hr v hv)
  refine ⟨hc', hconfined.trans hconfined', fun x hx => ?_⟩
  rcases hmem' x hx with hx | rfl
  · exact hmem x hx
  · exact Or.inr hr

end Residual

namespace Cluster

variable {c d m new : Cluster α} {cs cs' ds : List (Cluster α)} {t u : HandleTable}

/-! ## Merging -/

omit [Scalar α] in
lemma overlaps_eq_false_iff : c.overlaps d = false ↔ ∀ v ∈ c.vars, ¬ v ∈ d.vars := by
  rw [overlaps, Bool.not_eq_false', OrderedSet.isDisjoint_eq_true_iff]

/-- The cluster lists whatever its residuals refer to, and all of it is in groups in `W`. -/
structure Lies (W : VarId → Prop) (a : Arena α) (c : Cluster α) : Prop where
  residuals : ∀ r ∈ c.residuals, ∀ v ∈ r.vars, v ∈ c.referenced
  groups : ∀ v ∈ c.referenced, W (a.canonical v)

/-- The cluster lists whatever its residuals refer to, and knows the canonical variables of it. -/
structure Fresh (a : Arena α) (c : Cluster α) : Prop where
  residuals : ∀ r ∈ c.residuals, ∀ v ∈ r.vars, v ∈ c.referenced
  vars : recompute a c = c

lemma Fresh.mem_vars_iff (h : c.Fresh a) (v : VarId) :
    v ∈ c.vars ↔ ∃ w ∈ c.referenced, a.canonical w = v := by
  rw [← mem_vars_recompute, h.vars]

lemma Fresh.lies (h : c.Fresh a) (hW : ∀ v ∈ c.vars, W v) : c.Lies W a :=
  ⟨h.residuals, fun v hv => hW _ ((h.mem_vars_iff _).2 ⟨v, hv, rfl⟩)⟩

lemma Lies.confined (h : c.Lies W a) (hab : Confined W a b) : c.Lies W b :=
  ⟨h.residuals, fun v hv => hab.inside v (h.groups v hv)⟩

/-- What is unified elsewhere leaves a cluster as it is. -/
lemma Fresh.confined (h : c.Fresh a) (hab : Confined W a b) (hW : ∀ v ∈ c.vars, ¬ W v) :
    c.Fresh b := by
  refine ⟨h.residuals, Eq.trans ?_ h.vars⟩
  have hsame : c.referenced.map b.canonical = c.referenced.map a.canonical :=
    List.map_congr_left fun v hv => hab.outside v (hW _ ((h.mem_vars_iff _).2 ⟨v, hv, rfl⟩))
  rw [recompute, recompute, hsame]

/-- **Merging** unifies groups of the two clusters, and the cluster they become knows its canonical
variables. -/
lemma confined_merge (ha : a.WellFormed) (h : merge a c d = .ok (m, b)) (hc : c.Lies W a)
    (hd : d.Lies W a) :
    b.WellFormed ∧ Confined W a b ∧ m.Fresh b ∧ ∀ v ∈ m.vars, W v := by
  obtain ⟨⟨rs, b'⟩, hadd, hpure⟩ := bind_eq_ok_iff.1 h
  cases hpure
  obtain ⟨hb, hconfined, hrs⟩ := Residual.confined_addAllTo ha hadd
    (fun r hr v hv => hc.groups v (hc.residuals r hr v hv))
    (fun r hr v hv => hd.groups v (hd.residuals r hr v hv))
  refine ⟨hb, hconfined, ⟨fun r hr v hv => ?_, rfl⟩, fun v hv => ?_⟩
  · exact List.mem_append.2 ((hrs r hr).imp (hc.residuals r · v hv) (hd.residuals r · v hv))
  · obtain ⟨w, hw, rfl⟩ := (mem_vars_recompute _ _ v).1 hv
    exact hconfined.inside w ((List.mem_append.1 hw).elim (hc.groups w) (hd.groups w))

/-- Taking over several clusters, of which the last one is `d`. -/
lemma confined_mergeAll (ha : a.WellFormed) (h : mergeAll a c (ds ++ [d]) = .ok (m, b))
    (hc : c.Lies W a) (hds : ∀ e ∈ ds ++ [d], e.Lies W a) :
    b.WellFormed ∧ Confined W a b ∧ m.Fresh b ∧ ∀ v ∈ m.vars, W v := by
  rw [mergeAll, List.foldlM_append] at h
  obtain ⟨⟨e, x⟩, hall, hlast⟩ := bind_eq_ok_iff.1 h
  obtain ⟨⟨_, _⟩, hlast, hpure⟩ := bind_eq_ok_iff.1 hlast
  cases hpure
  obtain ⟨hx, hconfined, he⟩ : x.WellFormed ∧ Confined W a x ∧ e.Lies W x := by
    refine foldlM_keeps (P := fun st => st.2.WellFormed ∧ Confined W a st.2 ∧ st.1.Lies W st.2) ?_
      ⟨ha, .refl W a, hc⟩ hall
    rintro ⟨e, x⟩ f hf ⟨e', y⟩ ⟨hx, hconfined, he⟩ hmerge
    obtain ⟨hy, hconfined', hfresh, hvars⟩ :=
      confined_merge hx hmerge he ((hds f (List.mem_append_left _ hf)).confined hconfined)
    exact ⟨hy, hconfined.trans hconfined', hfresh.lies hvars⟩
  obtain ⟨hb, hconfined', hm⟩ :=
    confined_merge hx hlast he ((hds d (by simp)).confined hconfined)
  exact ⟨hb, hconfined.trans hconfined', hm⟩

/-! ## Sorting in -/

/-- The clusters know their canonical variables and have none in common. -/
structure Apart (a : Arena α) (cs : List (Cluster α)) : Prop where
  fresh : ∀ c ∈ cs, c.Fresh a
  disjoint : cs.Pairwise fun c d => ∀ v ∈ c.vars, ¬ v ∈ d.vars

namespace Apart

lemma of_ne (h : Apart a cs) (hc : c ∈ cs) (hd : d ∈ cs) (hne : c ≠ d) :
    ∀ v ∈ c.vars, ¬ v ∈ d.vars := by
  have : Std.Symm fun c d : Cluster α => ∀ v ∈ c.vars, ¬ v ∈ d.vars :=
    ⟨fun c d hcd v hv hv' => hcd v hv' hv⟩
  exact h.disjoint.forall hc hd hne

lemma sublist (h : Apart a cs) (hsub : cs'.Sublist cs) : Apart a cs' :=
  ⟨fun c hc => h.fresh c (hsub.subset hc), h.disjoint.sublist hsub⟩

/-- A cluster that has been made of groups in `W` goes with clusters outside of it. -/
lemma insert {before after : List (Cluster α)} (h : Apart a (before ++ after))
    (hab : Confined W a b) (hW : ∀ c ∈ before ++ after, ∀ v ∈ c.vars, ¬ W v) (hm : m.Fresh b)
    (hvars : ∀ v ∈ m.vars, W v) : Apart b (before ++ m :: after) where
  fresh c hc := by
    rcases List.mem_cons.1 (List.perm_middle.mem_iff.1 hc) with rfl | hc
    · exact hm
    · exact (h.fresh c hc).confined hab (hW c hc)
  disjoint := by
    rw [List.pairwise_middle fun hcd v hv hv' => hcd v hv' hv]
    exact List.pairwise_cons.2 ⟨fun c hc v hv hv' => hW c hc v hv' (hvars v hv), h.disjoint⟩

omit [Scalar α] in
/-- What a new cluster overlaps is taken over, and nothing else. -/
lemma taken_and_kept {before after : List (Cluster α)} {first : Cluster α}
    (hspan : cs.span (fun c => !c.overlaps new) = (before, first :: after)) :
    (∀ d ∈ first :: (after.filter (·.overlaps new)).reverse, d ∈ cs ∧ d.overlaps new = true) ∧
      ∀ c ∈ before ++ after.filter (fun d => !d.overlaps new),
        c ∈ cs ∧ c.overlaps new = false := by
  obtain ⟨rfl, hbefore, hfirst⟩ := span_not_eq hspan
  constructor
  · intro d hd
    rcases List.mem_cons.1 hd with rfl | hd
    · exact ⟨by simp, hfirst d rfl⟩
    · obtain ⟨hd, hover⟩ := List.mem_filter.1 (List.mem_reverse.1 hd)
      exact ⟨by simp [hd], hover⟩
  · intro c hc
    rcases List.mem_append.1 hc with hc | hc
    · exact ⟨by simp [hc], hbefore c hc⟩
    · obtain ⟨hc, hover⟩ := List.mem_filter.1 hc
      exact ⟨by simp [hc], by simpa using hover⟩

/-- **Joining** a new cluster keeps clusters apart.  Those that it does not overlap stay as they
are, and all the others become one. -/
theorem join (h : Apart a cs) (ha : a.WellFormed) (hnew : new.Fresh a)
    (hjoin : join a cs new = .ok (cs', b)) : b.WellFormed ∧ Apart b cs' := by
  rcases hspan : cs.span (fun c => !c.overlaps new) with ⟨before, _ | ⟨first, after⟩⟩
  · rw [join_of_apart hspan] at hjoin
    cases hjoin
    obtain ⟨rfl, hapart, -⟩ := span_not_eq hspan
    rw [List.append_nil]
    refine ⟨ha, h.insert (.refl (· ∈ new.vars) a) (fun c hc => ?_) hnew fun v hv => hv⟩
    exact overlaps_eq_false_iff.1 (hapart c (by simpa using hc))
  · obtain ⟨hcs, -, -⟩ := span_not_eq hspan
    obtain ⟨htaken, hkept⟩ := taken_and_kept hspan
    have hpartition : after.partition (·.overlaps new) =
        (after.filter (·.overlaps new), after.filter fun d => !d.overlaps new) :=
      List.partition_eq_filter_filter
    rw [Cluster.join, hspan] at hjoin
    simp only [hpartition] at hjoin
    obtain ⟨⟨m, b'⟩, hmerge, hpure⟩ := bind_eq_ok_iff.1 hjoin
    cases hpure
    set joining := (after.filter (·.overlaps new)).reverse
    set apart := after.filter fun d => !d.overlaps new
    -- only groups of the new cluster and of those it overlaps are unified
    let W : VarId → Prop := fun v => v ∈ new.vars ∨ ∃ d ∈ first :: joining, v ∈ d.vars
    have hlies : ∀ d ∈ first :: joining, d.Lies W a := fun d hd =>
      (h.fresh d (htaken d hd).1).lies fun v hv => Or.inr ⟨d, hd, hv⟩
    have hoff : ∀ c ∈ before ++ apart, ∀ v ∈ c.vars, ¬ W v := by
      intro c hc v hv
      obtain ⟨hc, hover⟩ := hkept c hc
      rintro (hv' | ⟨d, hd, hv'⟩)
      · exact overlaps_eq_false_iff.1 hover v hv hv'
      · obtain ⟨hd, hover'⟩ := htaken d hd
        refine h.of_ne hc hd ?_ v hv hv'
        rintro rfl
        exact absurd hover' (by simp [hover])
    have htakenOver : ∀ e ∈ joining ++ [new], e.Lies W a := by
      intro e he
      rcases List.mem_append.1 he with he | he
      · exact hlies e (List.mem_cons_of_mem _ he)
      · exact List.mem_singleton.1 he ▸ hnew.lies fun v hv => Or.inl hv
    obtain ⟨hb, hconfined, hm, hvars⟩ :=
      confined_mergeAll ha hmerge (hlies first List.mem_cons_self) htakenOver
    have hsub : (before ++ apart).Sublist cs := by
      rw [hcs]
      exact (List.filter_sublist.trans (List.sublist_cons_self _ _)).append_left before
    exact ⟨hb, (h.sublist hsub).insert hconfined hoff hm hvars⟩

end Apart

/-- Residuals of one constraint relate points in different ways. -/
lemma addAllTo_ofConstraint {k : Constraint α} {rs : List (Residual α)}
    (h : Residual.ofConstraint t k = .ok rs) (a : Arena α) :
    Residual.addAllTo [] a rs = .ok (rs, a) := by
  cases k with
  | finger i position =>
      obtain ⟨p, -, hpure⟩ := bind_eq_ok_iff.1 h
      cases hpure
      rfl
  | polar start finish length bearing =>
      obtain ⟨p, q, rfl⟩ := HandleTable.exists_of_coords h
      rfl
  | distance start finish length =>
      obtain ⟨p, q, rfl⟩ := HandleTable.exists_of_coords h
      rfl
  | angle start finish bearing =>
      obtain ⟨p, q, rfl⟩ := HandleTable.exists_of_coords h
      rfl
  | _ =>
      cases h
      rfl

/-- The cluster of a single live constraint unifies nothing. -/
lemma fresh_ofConstraint {k : Constraint α} {id : ConstraintId} {a₀ : Arena α}
    (hk : k.Live t a₀) (h : ofConstraint t a id k = .ok (c, b)) : b = a ∧ c.Fresh a := by
  obtain ⟨vs, hvs, h⟩ := bind_eq_ok_iff.1 h
  obtain ⟨rs, hrs, h⟩ := bind_eq_ok_iff.1 h
  rw [addAllTo_ofConstraint hrs] at h
  cases h
  obtain ⟨rs', hrs', huses⟩ := Residual.ofConstraint_spec hk
  rw [hrs] at hrs'
  cases hrs'
  refine ⟨rfl, ⟨fun r hr v hv => ?_, rfl⟩⟩
  obtain ⟨ws, hws, hv⟩ := huses r hr v hv
  rw [hvs] at hws
  cases hws
  exact hv

/-- **Sorting in** live constraints keeps clusters apart. -/
lemma Apart.sortAll {entries : List (ConstraintId × Constraint α)} {a₀ : Arena α}
    (h : Apart a cs) (ha : a.WellFormed) (hlive : ∀ e ∈ entries, e.2.Live t a₀)
    (hsort : entries.foldlM (fun (cs, arena) (id, k) => sortIn t cs arena id k) (cs, a) =
      .ok (cs', b)) : b.WellFormed ∧ Apart b cs' := by
  refine foldlM_keeps (P := fun st => st.2.WellFormed ∧ Apart st.2 st.1) ?_ ⟨ha, h⟩ hsort
  rintro ⟨ds, x⟩ ⟨id, k⟩ he ⟨ds', y⟩ ⟨hx, hds⟩ hstep
  obtain ⟨⟨new, x'⟩, hone, hjoin⟩ := bind_eq_ok_iff.1 hstep
  obtain ⟨rfl, hnew⟩ := fresh_ofConstraint (hlive _ he) hone
  exact hds.join hx hnew hjoin

/-! ## Nothing to consolidate -/

omit [Scalar α] in
lemma firstOverlap_eq_none (h : cs.Pairwise fun c d => ∀ v ∈ c.vars, ¬ v ∈ d.vars) :
    firstOverlap cs = none := by
  induction cs with
  | nil => rfl
  | cons c rest ih =>
      obtain ⟨hc, hrest⟩ := List.pairwise_cons.1 h
      rw [firstOverlap]
      rcases hspan : rest.span fun d => !c.overlaps d with ⟨between, _ | ⟨d, after⟩⟩
      · simp only [ih hrest, Option.map_none]
      · obtain ⟨hsplit, -, hover⟩ := span_not_eq hspan
        have hapart := overlaps_eq_false_iff.2 (hc d (by simp [hsplit]))
        rw [hover d rfl] at hapart
        cases hapart

/-- Clusters that are apart are consolidated. -/
lemma Apart.consolidate (h : Apart a cs) : consolidate a cs = .ok (cs, a) := by
  have hsame : cs.map (recompute a) = cs :=
    (List.map_congr_left fun c hc => (h.fresh c hc).vars).trans (List.map_id cs)
  rw [Cluster.consolidate, consolidateWithin]
  simp only [hsame, firstOverlap_eq_none h.disjoint]

/-- **There is nothing to consolidate**: a clustering is what sorting the constraints leads to. -/
theorem build_apart {K : ConstraintTable α} (hlive : ∀ e ∈ K.entries, e.2.Live t a)
    (h : build K a t = .ok (cs, b, u)) :
    b.WellFormed ∧ Apart b cs ∧ ∃ a₁, relateAll K a t = .ok (a₁, u) ∧
      K.entries.foldlM (fun (cs, arena) (id, k) => sortIn u cs arena id k) ([], a₁) =
        .ok (cs, b) := by
  obtain ⟨⟨a₁, u'⟩, hrelate, h⟩ := bind_eq_ok_iff.1 h
  obtain ⟨⟨cs₁, a₂⟩, hsort, h⟩ := bind_eq_ok_iff.1 h
  obtain ⟨⟨_, _⟩, hconsolidate, hpure⟩ := bind_eq_ok_iff.1 h
  cases hpure
  have ha₁ := ((wellFormed_reset a).unifies (unifies_relateAll hrelate)).1
  have hnone : Apart a₁ ([] : List (Cluster α)) := ⟨by simp, .nil⟩
  obtain ⟨ha₂, hapart⟩ := hnone.sortAll ha₁
    (fun e he => (hlive e he).congr (points_relateAll hrelate) fun v hv => hv) hsort
  rw [hapart.consolidate] at hconsolidate
  cases hconsolidate
  exact ⟨ha₂, hapart, a₁, hrelate, hsort⟩

/-! ## Adding constants -/

/-- A cluster without residuals that has one variable overlaps one cluster at most. -/
lemma Apart.join_single (h : Apart a cs) (hresiduals : new.residuals = []) {w : VarId}
    (hvars : ∀ v ∈ new.vars, v = w) : ∃ cs', Cluster.join a cs new = .ok (cs', a) := by
  rcases hspan : cs.span (fun c => !c.overlaps new) with ⟨before, _ | ⟨first, after⟩⟩
  · exact ⟨_, join_of_apart hspan⟩
  · obtain ⟨rfl, -, hfirst⟩ := span_not_eq hspan
    have hmem : ∀ d : Cluster α, d.overlaps new = true → w ∈ d.vars := by
      intro d hover
      by_contra hw
      have hapart : d.overlaps new = false :=
        overlaps_eq_false_iff.2 fun v hv hv' => hw (hvars v hv' ▸ hv)
      rw [hover] at hapart
      cases hapart
    have hothers : after.filter (·.overlaps new) = [] := by
      refine List.filter_eq_nil_iff.2 fun d hd hover => ?_
      have hlater := List.pairwise_cons.1 (List.pairwise_append.1 h.disjoint).2.1
      exact hlater.1 d hd w (hmem first (hfirst first rfl)) (hmem d hover)
    let m : Cluster α := recompute a ⟨first.constraints ++ new.constraints, first.residuals,
      first.referenced ++ new.referenced, .empty⟩
    have hmerge : mergeAll a first ((after.filter (·.overlaps new)).reverse ++ [new]) =
        .ok (m, a) := by
      simp only [hothers, List.reverse_nil, List.nil_append, mergeAll, List.foldlM_cons, merge,
        hresiduals]
      rfl
    exact ⟨_, join_of_overlaps hspan hmerge⟩

/-- **A new constant** unifies nothing. -/
theorem build_insert_constant {K : ConstraintTable α} (hlive : ∀ e ∈ K.entries, e.2.Live t a)
    (h : build K a t = .ok (cs, b, u)) {id : ConstraintId} (hid : id ∉ K.keys) (v : VarId) (x : α) :
    ∃ cs', build (K.insert id (.constant v x)) a t = .ok (cs', b, u) := by
  obtain ⟨hb, hapart, a₁, hrelate, hsort⟩ := build_apart hlive h
  have hentries := OrderedMap.entries_insert_of_not_mem (.constant v x) hid
  have hrelate' : relateAll (K.insert id (.constant v x)) a t = .ok (a₁, u) := by
    rw [relateAll, OrderedMap.values] at hrelate ⊢
    rw [hentries, List.map_append, List.foldlM_append, hrelate]
    rfl
  let new : Cluster α := recompute b ⟨[id], [], [v], .empty⟩
  have hnew : new.Fresh b := ⟨by simp [new, recompute], rfl⟩
  have hone : ∀ w ∈ new.vars, w = b.canonical v := fun w hw => by
    obtain ⟨v', hv', rfl⟩ := (mem_vars_recompute _ _ w).1 hw
    rw [List.mem_singleton.1 hv']
  obtain ⟨cs', hjoin⟩ := hapart.join_single rfl hone
  refine ⟨cs', ?_⟩
  have hsort' : (K.insert id (.constant v x)).entries.foldlM
      (fun (cs, arena) (id, k) => sortIn u cs arena id k) ([], a₁) = .ok (cs', b) := by
    rw [hentries, List.foldlM_append, hsort, ok_bind, List.foldlM_cons]
    have hturn : sortIn u cs b id (.constant v x) = .ok (cs', b) := hjoin
    simp only [hturn]
    rfl
  simp only [build, hrelate', ok_bind, hsort', ((hapart.join hb hnew hjoin).2).consolidate]
  rfl

end Cluster

end SketchSolver
