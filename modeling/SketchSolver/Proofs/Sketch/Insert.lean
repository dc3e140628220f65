import Mathlib
import SketchSolver.Proofs.Sketch.Operation

/-!
# A constraint that has been added

What adding a constraint comes to, whether it is new or takes the place of one with the same key.

* `Sketch.Added c i` — the sketch after the constraint `c` was added under the identifier `i`.  If
  there was a constraint under that identifier, it was the one with the same key.
* `ensures_insertConstraint_added` — adding a constraint whose references are live never fails, and
  the answer says under which identifier it was added.  Any other constraint is refused, and nothing
  changes (`ensures_insertNew_added`).
-/

namespace SketchSolver

namespace Sketch

open Edit

variable {α : Type} [Scalar α] {s s' : Sketch α} {E : Sketch α → Prop} {c : Constraint α}
  {i : ConstraintId}

/-- The constraint `c` was added under the identifier `i`. -/
structure Added (c : Constraint α) (i : ConstraintId) (s s' : Sketch α) : Prop where
  constraints : s'.constraints = s.constraints.insert i c
  /-- If something was there, it was the constraint with the same key. -/
  replaced : ∀ {old}, s.constraints.get? i = some old → s.sameKey c = some (i, old)
  memo : ∀ {key j}, s'.memo.get? key = some j ↔
    c.key = some key ∧ j = i ∨ c.key ≠ some key ∧ s.memo.get? key = some j
  /-- Its consequences were drawn, unless there was nothing new. -/
  drawn : s'.arena = s.arena ∧ s'.handles = s.handles ∨
    c.relate s.arena s.handles = .ok (s'.arena, s'.handles)

lemma Added.get? (h : Added c i s s') (j : ConstraintId) :
    s'.constraints.get? j = if j = i then some c else s.constraints.get? j := by
  rw [h.constraints, OrderedMap.get?_insert]

/-- Drawing the consequences of a constraint that has been entered. -/
lemma ensures_draw_added {t : Sketch α} {b : Arena α} {u : HandleTable}
    (hrelate : c.relate s.arena s.handles = .ok (b, u)) (harena : t.arena = s.arena)
    (hhandles : t.handles = s.handles)
    (hconstraints : t.constraints = s.constraints.insert i c)
    (hreplaced : ∀ {old}, s.constraints.get? i = some old → s.sameKey c = some (i, old))
    (hmemo : ∀ {key j}, t.memo.get? key = some j ↔
      c.key = some key ∧ j = i ∨ c.key ≠ some key ∧ s.memo.get? key = some j) :
    Ensures E (do relate c; modify invalidate) (fun _ => Added c i s) t := by
  rw [← harena, ← hhandles] at hrelate
  rw [ensures_bind]
  refine ensures_relate hrelate ⟨hconstraints, hreplaced, hmemo, Or.inr ?_⟩
  rw [← harena, ← hhandles]
  exact hrelate

/-- **Adding a constraint** whose references are live, under an identifier that is free if one is
given. -/
theorem ensures_insertConstraint_added (hs : s.Sound) (hc : c.Live s.handles s.arena)
    {id : Option ConstraintId} (hid : ∀ i, id = some i → i ∉ s.constraints.keys) :
    Ensures E (insertConstraint id c) (fun i => Added c i s) s := by
  obtain ⟨b, u, hrelate, -⟩ := hs.relate hc
  rw [insertConstraint, ensures_get_bind, ensures_found (checkReferences_of_live hs.grounded hc)]
  cases hsame : s.sameKey c with
  | some found =>
      obtain ⟨i, old⟩ := found
      obtain ⟨key, hkey, hmemo, hold⟩ := sameKey_eq_some_iff.1 hsame
      have hreplaced : ∀ {d}, s.constraints.get? i = some d → s.sameKey c = some (i, d) := by
        intro d hd
        rw [hold] at hd
        cases hd
        exact hsame
      have hremembered : ∀ {k j}, s.memo.get? k = some j ↔
          c.key = some k ∧ j = i ∨ c.key ≠ some k ∧ s.memo.get? k = some j := by
        intro k j
        by_cases hk : c.key = some k
        · rw [hkey] at hk
          cases hk
          simp [hkey, hmemo, eq_comm]
        · simp [hk]
      simp only [ensures_bind, ensures_set, ensures_pure]
      unfold settleUpdate
      split
      · exact ⟨rfl, hreplaced, hremembered, Or.inl ⟨rfl, rfl⟩⟩
      · split
        · -- a finger was moved, and nothing is drawn
          obtain ⟨point, hpoint⟩ :=
            (HandleTable.contains_iff_coords? _).1 (hc.handles _ List.mem_cons_self)
          rw [ensures_get_bind]
          split
          · rw [ensures_found ((HandleTable.coords_eq_ok_iff _ _).2 hpoint)]
            exact ⟨rfl, hreplaced, hremembered, Or.inl ⟨rfl, rfl⟩⟩
          · exact ⟨rfl, hreplaced, hremembered, Or.inl ⟨rfl, rfl⟩⟩
        · exact ensures_draw_added hrelate rfl rfl rfl hreplaced hremembered
  | none =>
      have hadded : ∀ {i ids}, i ∉ s.constraints.keys →
          Ensures E (do relate c; modify invalidate) (fun _ => Added c i s)
            { s with ids, memo := s.remember i c, constraints := s.constraints.insert i c } :=
        fun hfree => ensures_draw_added hrelate rfl rfl rfl
          (fun hold => absurd (OrderedMap.mem_keys_of_get? hold) hfree) get?_remember
      cases id with
      | none =>
          simp only [ensures_bind, ensures_set, ensures_pure]
          refine (ensures_bind _ _).1 (hadded fun hmem => ?_)
          exact Nat.lt_irrefl _ (hs.constraintIds hmem)
      | some i =>
          simp only [ensures_bind, ensures_set, ensures_pure]
          exact (ensures_bind _ _).1 (hadded (hid i rfl))

/-- Adding a constraint under a new identifier.  If its references are not live, nothing changes. -/
theorem ensures_insertNew_added (hs : s.Sound) :
    Ensures (Eq s) (insertConstraint none c) (fun i => Added c i s) s := by
  cases hcheck : s.checkReferences c with
  | ok checked =>
      exact ensures_insertConstraint_added hs (live_of_checkReferences hcheck) (by simp)
  | error e =>
      rw [insertConstraint, ensures_get_bind, hcheck]
      exact ensures_read rfl fun _ hok => by cases hok

end Sketch

end SketchSolver
