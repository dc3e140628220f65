import Mathlib
import SketchSolver.Proofs.Arena.Label

/-!
# What cannot fail

Writing and unifying ask for live variables and for nothing else.  Whatever the links are like, a
trail that begins at a live variable stays among live variables (`contains_trail`), because a link
that leads nowhere is not followed.  So `setValue_ok` and `unify_ok` hold in any arena, well-formed
or not.

That is what loading a document counts on: adding an owned variable once more may leave an arena
with links that do not agree.
-/

namespace SketchSolver

namespace Arena

variable {α : Type} [Scalar α] {a b : Arena α}

/-- Resolving a live variable leads to a live one, whatever the links are like. -/
lemma contains_resolve {v : VarId} (hv : a.contains v = true) :
    a.contains (a.resolve v).1 = true := by
  rw [resolve]
  split
  · split_ifs with hinto
    · exact hinto
    · exact hv
  · exact hv

lemma contains_trail {v : VarId} (hv : a.contains v = true) : a.contains (a.trail v).1 = true := by
  rw [trail]
  generalize a.size = limit
  induction limit generalizing v with
  | zero => exact hv
  | succ limit ih =>
      rw [trailWithin]
      simp only
      split_ifs
      · exact hv
      · exact ih (contains_resolve hv)

lemma setValue_ok {v : VarId} (hv : a.contains v = true) (x : α) :
    ∃ b, a.setValue v x = .ok b := by
  rw [setValue]
  simp only
  rw [if_pos (contains_trail hv)]
  exact ⟨_, rfl⟩

omit [Scalar α] in
lemma value_ok {v : VarId} (hv : a.contains v = true) : ∃ x, a.value v = .ok x := by
  obtain ⟨x, hx⟩ := (a.contains_iff_value? v).1 hv
  exact ⟨x, (a.value_eq_ok_iff v x).2 hx⟩

/-- **Unifying** live variables never fails, however damaged the links are. -/
theorem unify_ok {this that : VarId} (hthis : a.contains this = true)
    (hthat : a.contains that = true) (offset : Affine α) :
    ∃ merged b, a.unify this that offset = .ok (merged, b) := by
  obtain ⟨v, hv⟩ := find_ok hthis
  obtain ⟨w, hw⟩ := find_ok hthat
  simp only [unify, hv, hw, discard_ok, ok_bind]
  split_ifs
  · exact ⟨_, _, rfl⟩
  · rw [absorbRoot]
    simp only
    -- labels stay, and so does what is there
    set c := Arena.modifyLink _ (a.trail this).1 _ with hc
    have hlive : c.contains (a.trail this).1 = true := by
      have hids : c.ids = a.ids := by
        rw [hc, ids_modifyLink]
        exact ids_of_labels ((labels_adoptAll ..).trans (labels_modifyLink ..))
      exact (contains_of_ids hids _).trans (contains_trail hthis)
    obtain ⟨x, hx⟩ := value_ok hlive
    obtain ⟨d, hd⟩ := setValue_ok hlive x
    rw [hx, ok_bind, hd]
    exact ⟨_, _, rfl⟩

lemma Unifies.contains (h : a.Unifies b) (v : VarId) : b.contains v = a.contains v :=
  contains_of_ids (ids_of_labels h.labels) v

end Arena

end SketchSolver
