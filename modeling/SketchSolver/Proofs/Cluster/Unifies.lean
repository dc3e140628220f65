import Mathlib
import SketchSolver.Cluster.Build
import SketchSolver.Proofs.Arena.Label
import SketchSolver.Proofs.Handle

/-!
# Clustering only unifies

Whatever else happens while constraints are related and sorted into clusters, the arena changes by
unifications alone (`Cluster.unifies_build`).  So what every unification keeps — labels, the values
of roots — a whole clustering keeps.  Handles are merged, but keep their coordinates
(`Cluster.points_build`).
-/

namespace SketchSolver

open Arena

variable {α : Type} [Scalar α] {a b : Arena α} {t u : HandleTable}

lemma Constraint.unifies_relate {c : Constraint α} (h : c.relate a t = .ok (b, u)) :
    a.Unifies b := by
  cases c with
  | linear y m x n =>
      obtain ⟨⟨_, _⟩, hunify, hpure⟩ := bind_eq_ok_iff.1 h
      cases hpure
      exact unifies_of_unify hunify
  | absorb parent child =>
      obtain ⟨p, -, h⟩ := bind_eq_ok_iff.1 h
      obtain ⟨q, -, h⟩ := bind_eq_ok_iff.1 h
      obtain ⟨⟨_, _⟩, hx, h⟩ := bind_eq_ok_iff.1 h
      obtain ⟨⟨_, _⟩, hy, h⟩ := bind_eq_ok_iff.1 h
      obtain ⟨_, -, hpure⟩ := bind_eq_ok_iff.1 h
      cases hpure
      exact (unifies_of_unify hx).trans (unifies_of_unify hy)
  | _ =>
      cases h
      exact .refl

lemma Constraint.points_relate {c : Constraint α} (h : c.relate a t = .ok (b, u)) :
    u.points = t.points := by
  cases c with
  | linear y m x n =>
      obtain ⟨_, -, hpure⟩ := bind_eq_ok_iff.1 h
      cases hpure
      rfl
  | absorb parent child =>
      obtain ⟨_, -, h⟩ := bind_eq_ok_iff.1 h
      obtain ⟨_, -, h⟩ := bind_eq_ok_iff.1 h
      obtain ⟨_, -, h⟩ := bind_eq_ok_iff.1 h
      obtain ⟨_, -, h⟩ := bind_eq_ok_iff.1 h
      obtain ⟨_, habsorb, hpure⟩ := bind_eq_ok_iff.1 h
      cases hpure
      exact HandleTable.points_absorb habsorb
  | _ =>
      cases h
      rfl

namespace Residual

variable {rs rs' new : List (Residual α)}

lemma unifies_addTo {r : Residual α} (h : r.addTo rs a = .ok (rs', b)) : a.Unifies b := by
  rw [addTo] at h
  split at h
  · obtain ⟨⟨_, _⟩, hunify, hpure⟩ := bind_eq_ok_iff.1 h
    cases hpure
    exact unifies_of_unify hunify
  · cases h
    exact .refl

lemma unifies_addAllTo (h : addAllTo rs a new = .ok (rs', b)) : a.Unifies b :=
  foldlM_keeps (P := fun st => a.Unifies st.2)
    (fun _ _ _ _ hst hstep => hst.trans (unifies_addTo hstep)) .refl h

end Residual

namespace Cluster

variable {c c' d : Cluster α} {cs cs' : List (Cluster α)}

lemma unifies_ofConstraint {id : ConstraintId} {k : Constraint α}
    (h : ofConstraint t a id k = .ok (c, b)) : a.Unifies b := by
  obtain ⟨vs, -, h⟩ := bind_eq_ok_iff.1 h
  obtain ⟨rs, -, h⟩ := bind_eq_ok_iff.1 h
  obtain ⟨⟨_, _⟩, hadd, hpure⟩ := bind_eq_ok_iff.1 h
  cases hpure
  exact Residual.unifies_addAllTo hadd

lemma unifies_merge (h : merge a c d = .ok (c', b)) : a.Unifies b := by
  obtain ⟨⟨_, _⟩, hadd, hpure⟩ := bind_eq_ok_iff.1 h
  cases hpure
  exact Residual.unifies_addAllTo hadd

lemma unifies_mergeAll (h : mergeAll a c cs = .ok (c', b)) : a.Unifies b :=
  foldlM_keeps (P := fun st => a.Unifies st.2)
    (fun _ _ _ _ hst hstep => hst.trans (unifies_merge hstep)) .refl h

lemma unifies_join (h : join a cs c = .ok (cs', b)) : a.Unifies b := by
  rw [join] at h
  split at h
  · cases h
    exact .refl
  · obtain ⟨⟨_, _⟩, hmerge, hpure⟩ := bind_eq_ok_iff.1 h
    cases hpure
    exact unifies_mergeAll hmerge

lemma unifies_sortIn {id : ConstraintId} {k : Constraint α}
    (h : sortIn t cs a id k = .ok (cs', b)) : a.Unifies b := by
  obtain ⟨⟨_, _⟩, hone, hjoin⟩ := bind_eq_ok_iff.1 h
  exact (unifies_ofConstraint hone).trans (unifies_join hjoin)

lemma unifies_consolidateWithin {limit : Nat} (h : consolidateWithin limit a cs = .ok (cs', b)) :
    a.Unifies b := by
  induction limit generalizing a cs with
  | zero =>
      cases h
      exact .refl
  | succ limit ih =>
      simp only [consolidateWithin] at h
      split at h
      · cases h
        exact .refl
      · obtain ⟨⟨_, _⟩, hmerge, hrest⟩ := bind_eq_ok_iff.1 h
        exact (unifies_merge hmerge).trans (ih hrest)

lemma unifies_relateAll {constraints : ConstraintTable α}
    (h : relateAll constraints a t = .ok (b, u)) : a.reset.Unifies b :=
  foldlM_keeps (P := fun st => a.reset.Unifies st.1)
    (fun _ _ _ _ hst hstep => hst.trans (Constraint.unifies_relate hstep)) .refl h

lemma points_relateAll {constraints : ConstraintTable α}
    (h : relateAll constraints a t = .ok (b, u)) : u.points = t.points :=
  foldlM_keeps (P := fun st => st.2.points = t.points)
    (fun _ _ _ _ hst hstep => (Constraint.points_relate hstep).trans hst)
    (HandleTable.points_reset t) h

/-- A new constraint is related last. -/
lemma relateAll_insert {K : ConstraintTable α} {id : ConstraintId} (hid : id ∉ K.keys)
    (c : Constraint α) (h : relateAll K a t = .ok (b, u)) :
    relateAll (K.insert id c) a t = c.relate b u := by
  have hvalues : (K.insert id c).values = K.values ++ [c] := by
    rw [OrderedMap.values, OrderedMap.entries_insert_of_not_mem c hid, List.map_append]
    rfl
  rw [relateAll] at h
  rw [relateAll, hvalues, List.foldlM_append, h, ok_bind, List.foldlM_cons]
  exact bind_pure (c.relate b u)

/-- A clustering begins with relating, and what follows unifies. -/
lemma relateAll_of_build {constraints : ConstraintTable α}
    (h : build constraints a t = .ok (cs, b, u)) :
    ∃ c, relateAll constraints a t = .ok (c, u) ∧ c.Unifies b := by
  obtain ⟨⟨c, _⟩, hrelate, h⟩ := bind_eq_ok_iff.1 h
  obtain ⟨⟨_, _⟩, hsort, h⟩ := bind_eq_ok_iff.1 h
  obtain ⟨⟨_, _⟩, hconsolidate, hpure⟩ := bind_eq_ok_iff.1 h
  cases hpure
  have hsorted := foldlM_keeps (P := fun st => c.Unifies st.2)
    (fun _ _ _ _ hst hstep => hst.trans (unifies_sortIn hstep)) .refl hsort
  exact ⟨c, hrelate, hsorted.trans (unifies_consolidateWithin hconsolidate)⟩

/-- **Clustering** takes all unifications apart and unifies again. -/
theorem unifies_build {constraints : ConstraintTable α}
    (h : build constraints a t = .ok (cs, b, u)) : a.reset.Unifies b := by
  obtain ⟨c, hrelate, hunifies⟩ := relateAll_of_build h
  exact (unifies_relateAll hrelate).trans hunifies

/-- Clustering adds and removes no variable. -/
lemma contains_build {constraints : ConstraintTable α}
    (h : build constraints a t = .ok (cs, b, u)) (k : VarId) : b.contains k = a.contains k := by
  have hlabels := (unifies_build h).labels.trans (Arena.labels_reset a)
  exact Arena.contains_of_ids (Arena.ids_of_labels hlabels) k

/-- Clustering moves no coordinate. -/
lemma points_build {constraints : ConstraintTable α}
    (h : build constraints a t = .ok (cs, b, u)) : u.points = t.points := by
  obtain ⟨c, hrelate, -⟩ := relateAll_of_build h
  exact points_relateAll hrelate

end Cluster

end SketchSolver
