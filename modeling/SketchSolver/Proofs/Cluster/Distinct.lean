import Mathlib
import SketchSolver.Proofs.Arena.Request
import SketchSolver.Proofs.Cluster.Build
import SketchSolver.Proofs.Cluster.Unifies

/-!
# One residual for one relationship

A residual joins a cluster only if it relates other points than those that are there.  That is
tested once.  Which points are the same may change afterwards, but only through the unifications
that are made for residuals that are dropped, and these unify measured variables, that is, distances
and angles, with each other.  So what has been told apart stays apart, unless one of its ends is
unified with a measured variable.

* `Arena.UnifiesIn M` — unifications of variables in `M` with each other.  What they leave alone
  keeps its root and its map to the root (`WellFormed.unifiesIn`).
* `Residual.Distinct M` — the second residual does not clash with the first one, or one of their
  ends is unified with a variable in `M`.
* `Cluster.Tidy M` — the residuals of a cluster measure variables in `M` and are distinct.  There is
  one lemma for each function on the way to `tidy_of_build`.
-/

namespace SketchSolver

variable {α : Type}

/-! ## Unifying within a set -/

namespace Arena

variable [Scalar α] {M : VarId → Prop} {a b c : Arena α}

/-- Unifications of variables in `M` with each other lead from one arena to the other. -/
abbrev UnifiesIn (M : VarId → Prop) : Arena α → Arena α → Prop :=
  Relation.ReflTransGen fun a b =>
    ∃ this that offset merged, M this ∧ M that ∧ a.unify this that offset = .ok (merged, b)

lemma UnifiesIn.unifies (h : a.UnifiesIn M b) : a.Unifies b :=
  Relation.ReflTransGen.mono
    (fun _ _ ⟨this, that, offset, merged, _, _, hunify⟩ => ⟨this, that, offset, merged, hunify⟩)
    _ _ h

/-- The variable is unified with one in `M`. -/
def Touched (M : VarId → Prop) (a : Arena α) (u : VarId) : Prop :=
  ∃ v, M v ∧ a.canonical v = a.canonical u

/-- What is not unified with any variable in `M` in the end has been left alone. -/
lemma WellFormed.unifiesIn (ha : a.WellFormed) (h : a.UnifiesIn M b) (u : VarId) :
    b.Touched M u ∨ b.canonical u = a.canonical u ∧ b.offset u = a.offset u := by
  induction h with
  | refl => exact Or.inr ⟨rfl, rfl⟩
  | @tail b c hbefore hstep ih =>
      obtain ⟨this, that, offset, merged, hthis, -, hunify⟩ := hstep
      have hb := (ha.unifies (UnifiesIn.unifies hbefore)).1
      rcases ih with ⟨v, hv, hvu⟩ | ⟨hcanonical, hoffset⟩
      · exact Or.inl ⟨v, hv, (hb.unifies_coarsens (unifies_of_unify hunify)).canonical hvu⟩
      rcases hb.of_unify hunify with rfl | ⟨-, hm⟩
      · exact Or.inr ⟨hcanonical, hoffset⟩
      have hwinner : c.canonical this = b.canonical this := by
        rw [hm.canonical, if_neg hm.distinct]
      by_cases hloser : b.canonical u = b.canonical that
      · -- the group has been absorbed
        refine Or.inl ⟨this, hthis, ?_⟩
        rw [hwinner, hm.canonical, if_pos hloser]
      by_cases hsame : b.canonical u = b.canonical this
      · -- the group has absorbed another one
        refine Or.inl ⟨this, hthis, ?_⟩
        rw [hwinner, hm.canonical, if_neg hloser, hsame]
      · refine Or.inr ⟨?_, ?_⟩
        · rw [hm.canonical, if_neg hloser, hcanonical]
        · have hne : u ≠ b.canonical that := by
            rintro rfl
            exact hloser (hb.canonical_canonical that)
          rw [hm.offset_eq hb.toLinked, if_neg hne, if_neg hloser, hoffset]

end Arena

/-! ## Residuals that measure -/

namespace Residual

/-- The variable that a residual measures: a distance or an angle. -/
def measured : Residual α → Option VarId
  | .distance _ _ length => some length
  | .angle _ _ bearing => some bearing
  | .finger .. | .formula .. => none

/-- The coordinates of the points between which a residual measures. -/
def ends : Residual α → List VarId
  | .distance p q _ | .angle p q _ => [p.x, p.y, q.x, q.y]
  | .finger .. | .formula .. => []

variable {M : VarId → Prop} {point : Coords} {position : Point α} {x y : Residual α}

lemma mem_vars_of_ends {u : VarId} (hu : u ∈ x.ends) : u ∈ x.vars := by
  cases x with
  | distance | angle => exact List.mem_cons_of_mem _ hu
  | finger | formula => cases hu

lemma ends_moveFinger : (x.moveFinger point position).ends = x.ends := by
  cases x <;> rfl

lemma measured_moveFinger : (x.moveFinger point position).measured = x.measured := by
  cases x <;> rfl

variable [Scalar α] {a b : Arena α} {rs rs' new : List (Residual α)}

lemma clash_moveFinger :
    (y.moveFinger point position).clash a (x.moveFinger point position) = y.clash a x := by
  cases x <;> cases y <;> rfl

lemma measured_of_clash {theirs ours : VarId} {offset : Affine α}
    (h : y.clash a x = some (theirs, ours, offset)) :
    x.measured = some theirs ∧ y.measured = some ours := by
  obtain ⟨htheirs, hours⟩ := owned_of_clash h
  cases x <;> cases y <;> first | exact ⟨htheirs, hours⟩ | cases h

/-- Whether two residuals clash depends on their ends. -/
lemma clash_congr (h : ∀ u ∈ x.ends ++ y.ends,
    b.canonical u = a.canonical u ∧ b.offset u = a.offset u) : y.clash b x = y.clash a x := by
  have hequals : ∀ u ∈ x.ends ++ y.ends, ∀ v ∈ x.ends ++ y.ends, b.equals u v = a.equals u v := by
    intro u hu v hv
    show (decide (b.canonical u = b.canonical v) && (b.offset u).nearlyEq (b.offset v)) =
      (decide (a.canonical u = a.canonical v) && (a.offset u).nearlyEq (a.offset v))
    rw [(h u hu).1, (h u hu).2, (h v hv).1, (h v hv).2]
  have hsame : ∀ p q : Coords, p.x ∈ x.ends ∧ p.y ∈ x.ends → q.x ∈ y.ends ∧ q.y ∈ y.ends →
      p.sameAs q b = p.sameAs q a := by
    intro p q ⟨hpx, hpy⟩ ⟨hqx, hqy⟩
    rw [Coords.sameAs, Coords.sameAs,
      hequals _ (List.mem_append_left _ hpx) _ (List.mem_append_right _ hqx),
      hequals _ (List.mem_append_left _ hpy) _ (List.mem_append_right _ hqy)]
  have hpairs : ∀ {p q p' q' : Coords}, x.ends = [p.x, p.y, q.x, q.y] →
      y.ends = [p'.x, p'.y, q'.x, q'.y] →
      (p.sameAs p' b = p.sameAs p' a ∧ q.sameAs q' b = q.sameAs q' a) ∧
        p.sameAs q' b = p.sameAs q' a ∧ q.sameAs p' b = q.sameAs p' a := by
    intro p q p' q' hx hy
    rw [hx, hy] at hsame
    exact ⟨⟨hsame p p' (by simp) (by simp), hsame q q' (by simp) (by simp)⟩,
      hsame p q' (by simp) (by simp), hsame q p' (by simp) (by simp)⟩
  cases x with
  | distance p q u =>
      cases y with
      | distance p' q' u' =>
          obtain ⟨⟨hpp, hqq⟩, hpq, hqp⟩ := hpairs rfl rfl
          rw [clash, clash, hpp, hqq, hpq, hqp]
      | _ => rfl
  | angle p q u =>
      cases y with
      | angle p' q' u' =>
          obtain ⟨⟨hpp, hqq⟩, hpq, hqp⟩ := hpairs rfl rfl
          rw [clash, clash, hpp, hqq, hpq, hqp]
      | _ => rfl
  | _ => cases y <;> rfl

/-- Residuals that clash have an end in a group in common. -/
lemma exists_of_clash {e : VarId × VarId × Affine α} (h : y.clash a x = some e) :
    ∃ u ∈ x.ends, ∃ v ∈ y.ends, a.canonical u = a.canonical v := by
  have hsame : ∀ p q : Coords, p.sameAs q a = true → a.canonical p.x = a.canonical q.x := by
    intro p q hpq
    rw [Coords.sameAs, Bool.and_eq_true] at hpq
    exact of_decide_eq_true (Bool.and_eq_true_iff.1 hpq.1).1
  cases x <;> cases y <;> simp only [clash] at h
  case distance.distance p q u p' q' u' =>
    rw [Option.ite_none_right_eq_some] at h
    simp only [Bool.or_eq_true, Bool.and_eq_true] at h
    rcases h.1 with ⟨hp, -⟩ | ⟨hp, -⟩
    · exact ⟨p.x, by simp [ends], p'.x, by simp [ends], hsame _ _ hp⟩
    · exact ⟨p.x, by simp [ends], q'.x, by simp [ends], hsame _ _ hp⟩
  case angle.angle p q u p' q' u' =>
    split_ifs at h with hforth hback
    · exact ⟨p.x, by simp [ends], p'.x, by simp [ends], hsame _ _ (Bool.and_eq_true_iff.1 hforth).1⟩
    · exact ⟨p.x, by simp [ends], q'.x, by simp [ends], hsame _ _ (Bool.and_eq_true_iff.1 hback).1⟩
  all_goals cases h

/-- The second residual may stand beside the first one: they do not relate the same points, unless
one of their ends is unified with a variable in `M`. -/
def Distinct (M : VarId → Prop) (a : Arena α) (x y : Residual α) : Prop :=
  y.clash a x = none ∨ ∃ u ∈ x.ends ++ y.ends, a.Touched M u

/-- What is distinct stays so while variables in `M` are unified with each other. -/
lemma Distinct.unifiesIn (h : Distinct M a x y) (ha : a.WellFormed) (hab : a.UnifiesIn M b) :
    Distinct M b x y := by
  by_cases htouched : ∃ u ∈ x.ends ++ y.ends, b.Touched M u
  · exact Or.inr htouched
  rcases h with hnone | ⟨u, hu, v, hv, hvu⟩
  · left
    rw [clash_congr fun u hu => (ha.unifiesIn hab u).resolve_left fun ht => htouched ⟨u, hu, ht⟩]
    exact hnone
  · exact absurd ⟨u, hu, v, hv, (ha.unifies_coarsens hab.unifies).canonical hvu⟩ htouched

/-- Values are no matter. -/
lemma Distinct.of_shape (h : Distinct M a x y) (hshape : b.shape = a.shape) : Distinct M b x y := by
  have hresolve : b.resolve = a.resolve := Arena.resolve_congr hshape
  have hclash : y.clash b x = y.clash a x :=
    clash_congr fun u _ => by simp only [Arena.canonical, Arena.offset, hresolve, and_self]
  have hcanonical : b.canonical = a.canonical := Arena.canonical_congr hshape
  simpa only [Distinct, hclash, Arena.Touched, hcanonical] using h

lemma Distinct.moveFinger (h : Distinct M a x y) :
    Distinct M a (x.moveFinger point position) (y.moveFinger point position) := by
  rw [Distinct, clash_moveFinger, ends_moveFinger, ends_moveFinger]
  exact h

/-- All residuals measure variables in `M`, if any. -/
def AllMeasure (M : VarId → Prop) (rs : List (Residual α)) : Prop :=
  ∀ x ∈ rs, ∀ v, x.measured = some v → M v

/-- Residuals that measure variables in `M` and are distinct. -/
structure Tidy (M : VarId → Prop) (a : Arena α) (rs : List (Residual α)) : Prop where
  measured : AllMeasure M rs
  distinct : rs.Pairwise (Distinct M a)

lemma Tidy.unifiesIn (h : Tidy M a rs) (ha : a.WellFormed) (hab : a.UnifiesIn M b) :
    Tidy M b rs :=
  ⟨h.measured, h.distinct.imp fun hxy => hxy.unifiesIn ha hab⟩

lemma Tidy.of_shape (h : Tidy M a rs) (hshape : b.shape = a.shape) : Tidy M b rs :=
  ⟨h.measured, h.distinct.imp fun hxy => hxy.of_shape hshape⟩

lemma Tidy.moveFinger (h : Tidy M a rs) (point : Coords) (position : Point α) :
    Tidy M a (rs.map (·.moveFinger point position)) where
  measured x hx v hv := by
    obtain ⟨y, hy, rfl⟩ := List.mem_map.1 hx
    rw [measured_moveFinger] at hv
    exact h.measured y hy v hv
  distinct := List.pairwise_map.2 (h.distinct.imp Distinct.moveFinger)

lemma Tidy.addTo (h : Tidy M a rs) (ha : a.WellFormed) (hx : ∀ v, x.measured = some v → M v)
    (hadd : x.addTo rs a = .ok (rs', b)) : a.UnifiesIn M b ∧ Tidy M b rs' := by
  rw [Residual.addTo] at hadd
  split at hadd
  · rename_i theirs ours offset hfound
    obtain ⟨⟨merged, _⟩, hunify, hpure⟩ := bind_eq_ok_iff.1 hadd
    cases hpure
    obtain ⟨y, hy, hclash⟩ := List.exists_of_findSome?_eq_some hfound
    obtain ⟨htheirs, hours⟩ := measured_of_clash hclash
    have hstep : a.UnifiesIn M b :=
      .single ⟨theirs, ours, offset, merged, h.measured y hy _ htheirs, hx _ hours, hunify⟩
    exact ⟨hstep, h.unifiesIn ha hstep⟩
  · rename_i hnone
    cases hadd
    refine ⟨.refl, fun y hy => ?_, ?_⟩
    · rcases List.mem_append.1 hy with hy | hy
      · exact h.measured y hy
      · exact List.mem_singleton.1 hy ▸ hx
    · refine List.pairwise_append.2 ⟨h.distinct, List.pairwise_singleton _ _, fun y hy z hz => ?_⟩
      rw [List.mem_singleton.1 hz]
      exact Or.inl (List.findSome?_eq_none_iff.1 hnone y hy)

lemma Tidy.addAllTo (h : Tidy M a rs) (ha : a.WellFormed) (hnew : AllMeasure M new)
    (hadd : Residual.addAllTo rs a new = .ok (rs', b)) : a.UnifiesIn M b ∧ Tidy M b rs' := by
  refine foldlM_keeps (P := fun st => a.UnifiesIn M st.2 ∧ Tidy M st.2 st.1) ?_ ⟨.refl, h⟩ hadd
  rintro ⟨rs, b⟩ x hx ⟨rs', c⟩ ⟨hab, htidy⟩ hstep
  obtain ⟨hbc, htidy'⟩ := htidy.addTo (ha.unifies hab.unifies).1 (hnew x hx) hstep
  exact ⟨hab.trans hbc, htidy'⟩

end Residual

/-! ## Clusters -/

open Residual (AllMeasure Tidy)

variable [Scalar α] {M : VarId → Prop} {a b : Arena α} {t u : HandleTable}

/-- The variable is a distance or an angle that a constraint owns. -/
def Constraint.Measures (k : Constraint α) (v : VarId) : Prop :=
  (v, .distance) ∈ k.ownedQuantities ∨ (v, .angle) ∈ k.ownedQuantities

omit [Scalar α] in
/-- What the residuals of a constraint measure, the constraint measures. -/
lemma Constraint.measures_of_residual {k : Constraint α} {rs : List (Residual α)}
    (h : Residual.ofConstraint t k = .ok rs) : AllMeasure k.Measures rs := by
  intro x hx v hv
  cases k with
  | polar start finish length bearing =>
      obtain ⟨p, q, rfl⟩ := HandleTable.exists_of_coords h
      rcases List.mem_pair.1 hx with rfl | rfl <;> cases hv
      · exact Or.inl List.mem_cons_self
      · exact Or.inr (List.mem_cons_of_mem _ List.mem_cons_self)
  | distance start finish length =>
      obtain ⟨p, q, rfl⟩ := HandleTable.exists_of_coords h
      cases List.mem_singleton.1 hx
      cases hv
      exact Or.inl List.mem_cons_self
  | angle start finish bearing =>
      obtain ⟨p, q, rfl⟩ := HandleTable.exists_of_coords h
      cases List.mem_singleton.1 hx
      cases hv
      exact Or.inr List.mem_cons_self
  | finger handle position =>
      obtain ⟨p, -, hpure⟩ := bind_eq_ok_iff.1 h
      cases hpure
      cases List.mem_singleton.1 hx
      cases hv
  | formula m x b result =>
      cases h
      cases List.mem_singleton.1 hx
      cases hv
  | _ =>
      cases h
      cases hx

namespace Cluster

variable {c d m new : Cluster α} {cs cs' : List (Cluster α)}

/-- All clusters are tidy. -/
def AllTidy (M : VarId → Prop) (a : Arena α) (cs : List (Cluster α)) : Prop :=
  ∀ c ∈ cs, Tidy M a c.residuals

lemma AllTidy.unifiesIn (h : AllTidy M a cs) (ha : a.WellFormed) (hab : a.UnifiesIn M b) :
    AllTidy M b cs :=
  fun c hc => (h c hc).unifiesIn ha hab

lemma tidy_ofConstraint (ha : a.WellFormed) {id : ConstraintId} {k : Constraint α}
    (hk : ∀ v, k.Measures v → M v) (h : ofConstraint t a id k = .ok (new, b)) :
    a.UnifiesIn M b ∧ Tidy M b new.residuals := by
  obtain ⟨vs, -, h⟩ := bind_eq_ok_iff.1 h
  obtain ⟨rs, hrs, h⟩ := bind_eq_ok_iff.1 h
  obtain ⟨⟨ys, _⟩, hadd, hpure⟩ := bind_eq_ok_iff.1 h
  cases hpure
  have hempty : Tidy M a ([] : List (Residual α)) := ⟨by simp [AllMeasure], .nil⟩
  exact hempty.addAllTo ha (fun x hx v hv => hk v (Constraint.measures_of_residual hrs x hx v hv))
    hadd

lemma tidy_merge (ha : a.WellFormed) (hc : Tidy M a c.residuals)
    (hd : AllMeasure M d.residuals) (h : merge a c d = .ok (m, b)) :
    a.UnifiesIn M b ∧ Tidy M b m.residuals := by
  obtain ⟨⟨_, _⟩, hadd, hpure⟩ := bind_eq_ok_iff.1 h
  cases hpure
  exact hc.addAllTo ha hd hadd

lemma tidy_mergeAll (ha : a.WellFormed) (hc : Tidy M a c.residuals)
    (hcs : ∀ d ∈ cs, AllMeasure M d.residuals) (h : mergeAll a c cs = .ok (m, b)) :
    a.UnifiesIn M b ∧ Tidy M b m.residuals := by
  refine foldlM_keeps (P := fun st => a.UnifiesIn M st.2 ∧ Tidy M st.2 st.1.residuals) ?_
    ⟨.refl, hc⟩ h
  rintro ⟨c, b⟩ d hd ⟨c', b'⟩ ⟨hab, htidy⟩ hstep
  obtain ⟨hbb', htidy'⟩ := tidy_merge (ha.unifies hab.unifies).1 htidy (hcs d hd) hstep
  exact ⟨hab.trans hbb', htidy'⟩

lemma tidy_join (ha : a.WellFormed) (hcs : AllTidy M a cs) (hnew : Tidy M a new.residuals)
    (h : join a cs new = .ok (cs', b)) : a.UnifiesIn M b ∧ AllTidy M b cs' := by
  rcases hspan : cs.span fun c => !c.overlaps new with ⟨before, _ | ⟨first, after⟩⟩
  · rw [join_of_apart hspan] at h
    cases h
    refine ⟨.refl, fun c hc => ?_⟩
    rcases List.mem_append.1 hc with hc | hc
    · exact hcs c hc
    · exact List.mem_singleton.1 hc ▸ hnew
  · obtain ⟨rfl, -, -⟩ := span_not_eq hspan
    have hafter : ∀ d ∈ after, Tidy M a d.residuals := fun d hd => hcs d (by simp [hd])
    rw [join, hspan] at h
    simp only [List.partition_eq_filter_filter] at h
    obtain ⟨⟨m, b'⟩, hmerge, hpure⟩ := bind_eq_ok_iff.1 h
    cases hpure
    obtain ⟨hab, hm⟩ := tidy_mergeAll ha (hcs first (by simp)) (fun d hd => by
      rcases List.mem_append.1 hd with hd | hd
      · exact (hafter d (List.mem_filter.1 (List.mem_reverse.1 hd)).1).measured
      · exact List.mem_singleton.1 hd ▸ hnew.measured) hmerge
    refine ⟨hab, fun c hc => ?_⟩
    rcases List.mem_append.1 hc with hc | hc
    · exact (hcs c (by simp [hc])).unifiesIn ha hab
    · rcases List.mem_cons.1 hc with rfl | hc
      · exact hm
      · exact (hafter c (List.mem_filter.1 hc).1).unifiesIn ha hab

lemma tidy_sortIn (ha : a.WellFormed) (hcs : AllTidy M a cs) {id : ConstraintId}
    {k : Constraint α} (hk : ∀ v, k.Measures v → M v) (h : sortIn t cs a id k = .ok (cs', b)) :
    a.UnifiesIn M b ∧ AllTidy M b cs' := by
  obtain ⟨⟨new, c⟩, hone, hjoin⟩ := bind_eq_ok_iff.1 h
  obtain ⟨hac, hnew⟩ := tidy_ofConstraint ha hk hone
  obtain ⟨hcb, hcs'⟩ := tidy_join (ha.unifies hac.unifies).1 (hcs.unifiesIn ha hac) hnew hjoin
  exact ⟨hac.trans hcb, hcs'⟩

lemma tidy_consolidateWithin (ha : a.WellFormed) {limit : Nat} (hcs : AllTidy M a cs)
    (h : consolidateWithin limit a cs = .ok (cs', b)) : AllTidy M b cs' := by
  induction limit generalizing a cs with
  | zero =>
      cases h
      exact hcs
  | succ limit ih =>
      have hupdated : AllTidy M a (cs.map (recompute a)) := by
        intro c hc
        obtain ⟨d, hd, rfl⟩ := List.mem_map.1 hc
        exact hcs d hd
      simp only [consolidateWithin] at h
      split at h
      · cases h
        exact hupdated
      · rename_i before c between d after hfirst
        obtain ⟨⟨m, b'⟩, hmerge, hrest⟩ := bind_eq_ok_iff.1 h
        rw [(firstOverlap_eq_some hfirst).1] at hupdated
        obtain ⟨hab, hm⟩ := tidy_merge ha (hupdated c (by simp))
          (hupdated d (by simp)).measured hmerge
        refine ih (ha.unifies hab.unifies).1 (fun e he => ?_) hrest
        by_cases heq : e = m
        · exact heq ▸ hm
        · refine (hupdated e ?_).unifiesIn ha hab
          simp only [List.mem_append, List.mem_cons, heq, false_or] at he ⊢
          grind

/-- **One residual for one relationship.**  In each cluster that clustering leads to, no residual
clashes with an earlier one, unless one of their ends is unified with a distance or an angle that a
constraint owns. -/
theorem tidy_of_build {constraints : ConstraintTable α}
    (hM : ∀ e ∈ constraints.entries, ∀ v, e.2.Measures v → M v)
    (h : build constraints a t = .ok (cs, b, u)) : AllTidy M b cs := by
  obtain ⟨⟨a₁, u₁⟩, hrelate, h⟩ := bind_eq_ok_iff.1 h
  obtain ⟨⟨cs₁, a₂⟩, hsort, h⟩ := bind_eq_ok_iff.1 h
  obtain ⟨⟨cs₂, a₃⟩, hconsolidate, hpure⟩ := bind_eq_ok_iff.1 h
  cases hpure
  have ha₁ := ((Arena.wellFormed_reset a).unifies (unifies_relateAll hrelate)).1
  obtain ⟨hunifies, hcs₁⟩ : a₁.UnifiesIn M a₂ ∧ AllTidy M a₂ cs₁ := by
    refine foldlM_keeps (P := fun st => a₁.UnifiesIn M st.2 ∧ AllTidy M st.2 st.1) ?_
      ⟨.refl, by simp [AllTidy]⟩ hsort
    rintro ⟨cs, b⟩ e he ⟨cs', b'⟩ ⟨hab, hcs⟩ hstep
    obtain ⟨hbb', hcs'⟩ := tidy_sortIn (ha₁.unifies hab.unifies).1 hcs (hM e he) hstep
    exact ⟨hab.trans hbb', hcs'⟩
  exact tidy_consolidateWithin (ha₁.unifies hunifies.unifies).1 hcs₁ hconsolidate

end Cluster

end SketchSolver
