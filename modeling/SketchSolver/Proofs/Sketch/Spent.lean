import Mathlib
import SketchSolver.Proofs.Arena.Label
import SketchSolver.Proofs.Cluster.Unifies
import SketchSolver.Proofs.Sketch.Insert

/-!
# How many identifiers a sketch takes

Every variable, handle and constraint takes an identifier.  A lock may add a constant to each
variable of a group, so one edit may take any number of them; but no variable ever has a second
constant.  Counted in advance, the constants are paid for by the variables.

* `Sketch.spent` — the identifiers that were given out, and one for every variable without a
  constant.
* `Added.spent_le` — adding a constraint spends what its identifier takes, and a constant nothing.
-/

namespace SketchSolver

namespace Sketch

open Edit

variable {α : Type} {s s' : Sketch α} {c : Constraint α} {i : ConstraintId}

/-- The identifiers that were given out, and one for every variable without a constant. -/
def spent (s : Sketch α) : Nat :=
  s.ids.next + (s.arena.ids.filter fun v => !s.memo.contains (.constant v)).length

lemma next_le_spent (s : Sketch α) : s.ids.next ≤ s.spent := Nat.le_add_right _ _

lemma spent_withIds (s : Sketch α) : spent { s with ids := s.ids.fresh.2 } = s.spent + 1 := by
  simp only [spent, IdSupply.fresh]
  omega

/-- A variable takes one identifier, and its constant may take another one. -/
lemma spent_addVariable (s : Sketch α) (x : α) (represents : Option Represents) :
    (addVariable x represents s).2.spent ≤ s.spent + 2 := by
  have hids : ∀ v, ((s.arena.insert v x represents).ids.filter fun w =>
      !s.memo.contains (.constant w)).length ≤
        (s.arena.ids.filter fun w => !s.memo.contains (.constant w)).length + 1 := by
    intro v
    by_cases hv : v ∈ s.arena.ids
    · rw [Arena.ids, Arena.insert, OrderedMap.keys_insert_of_mem _ hv]
      exact Nat.le_succ _
    · rw [Arena.ids, Arena.insert, OrderedMap.keys_insert_of_not_mem _ hv, List.filter_append,
        List.length_append]
      exact Nat.add_le_add_left (List.length_filter_le _ [v]) _
  have hnew := hids ⟨s.ids.next⟩
  simp only [addVariable, IdSupply.fresh, spent]
  omega

lemma spent_addHandle (s : Sketch α) (position : Point α) :
    (addHandle position s).2.spent ≤ s.spent + 5 := by
  have hx := spent_addVariable { s with ids := s.ids.fresh.2 } position.x
    (some (.coordinate ⟨s.ids.next⟩ .x))
  have hy := spent_addVariable (addVariable position.x (some (.coordinate ⟨s.ids.next⟩ .x))
    { s with ids := s.ids.fresh.2 }).2 position.y (some (.coordinate ⟨s.ids.next⟩ .y))
  rw [spent_withIds] at hx
  exact hy.trans (by omega)

variable [Scalar α]

/-- A constraint that is added takes an identifier if it has none and none had its key. -/
lemma ensures_insertConstraint_ids (id : Option ConstraintId) (c : Constraint α) :
    Ensures (fun _ => True) (insertConstraint id c) (fun _ s' =>
      s'.ids = if (s.sameKey c).isSome || id.isSome then s.ids else s.ids.fresh.2) s := by
  have hdraw : ∀ t : Sketch α, Ensures (fun _ => True) (do relate c; modify invalidate)
      (fun _ s' => s'.ids = t.ids) t := by
    intro t
    simp [relate, invalidate]
  rw [insertConstraint, ensures_get_bind]
  refine ensures_read trivial fun _ _ => ?_
  cases hsame : s.sameKey c with
  | some found =>
      obtain ⟨existing, old⟩ := found
      simp only [ensures_bind, ensures_set, ensures_pure]
      unfold settleUpdate
      split
      · rfl
      · split
        · rw [ensures_get_bind]
          split
          · exact ensures_read trivial fun _ _ => rfl
          · rfl
        · exact hdraw _
  | none =>
      cases id with
      | some i =>
          simp only [ensures_bind, ensures_set, ensures_pure]
          exact (ensures_bind _ _).1 (hdraw _)
      | none =>
          simp only [ensures_bind, ensures_set, ensures_pure]
          exact (ensures_bind _ _).1 (hdraw _)

lemma Added.ids_arena (h : Added c i s s') : s'.arena.ids = s.arena.ids := by
  rcases h.drawn with ⟨harena, -⟩ | hrelate
  · rw [harena]
  · exact Arena.ids_of_labels (Constraint.unifies_relate hrelate).labels

/-- Whatever has a constant still has one. -/
lemma Added.contains_memo (h : Added c i s s') {key : ConstraintKey}
    (hkey : s.memo.contains key = true) :
    s'.memo.contains key = true := by
  obtain ⟨j, hj⟩ := Option.isSome_iff_exists.1 hkey
  by_cases hc : c.key = some key
  · exact Option.isSome_iff_exists.2 ⟨i, h.memo.2 (Or.inl ⟨hc, rfl⟩)⟩
  · exact Option.isSome_iff_exists.2 ⟨j, h.memo.2 (Or.inr ⟨hc, hj⟩)⟩

/-- No more variables are without a constant. -/
lemma Added.sublist (h : Added c i s s') :
    (s'.arena.ids.filter fun v => !s'.memo.contains (.constant v)).Sublist
      (s.arena.ids.filter fun v => !s.memo.contains (.constant v)) := by
  rw [h.ids_arena]
  refine List.monotone_filter_right _ fun v hv => ?_
  rw [Bool.not_eq_true', ← Bool.not_eq_true] at hv ⊢
  exact fun hlocked => hv (h.contains_memo hlocked)

/-- A constraint costs its identifier. -/
lemma Added.spent_le (h : Added c i s s') {n : Nat} (hids : s'.ids.next ≤ s.ids.next + n) :
    s'.spent ≤ s.spent + n := by
  have hlength := h.sublist.length_le
  simp only [spent]
  omega

/-- The identifier of a constant has been paid for. -/
lemma Added.spent_constant {v : VarId} {x : α} (h : Added (.constant v x) i s s') (hs : s.Sound)
    (hv : s.arena.contains v = true)
    (hids : s'.ids = if (s.sameKey (.constant v x)).isSome then s.ids else s.ids.fresh.2) :
    s'.spent ≤ s.spent := by
  cases hsame : s.sameKey (.constant v x) with
  | some found =>
      rw [hsame] at hids
      exact h.spent_le (n := 0) (congrArg IdSupply.next hids).le
  | none =>
      have hnone : s.memo.get? (.constant v) = none := by
        cases hget : s.memo.get? (.constant v) with
        | none => rfl
        | some j =>
            obtain ⟨d, hd, -⟩ := hs.memo hget
            have hfound : s.sameKey (.constant v x) = some (j, d) :=
              sameKey_eq_some_iff.2 ⟨_, rfl, hget, hd⟩
            rw [hsame] at hfound
            cases hfound
      have hbefore : v ∈ s.arena.ids.filter fun v => !s.memo.contains (.constant v) := by
        refine List.mem_filter.2 ⟨(s.arena.contains_iff_mem_ids v).1 hv, ?_⟩
        simp [OrderedMap.contains, hnone]
      have hafter : v ∉ s'.arena.ids.filter fun v => !s'.memo.contains (.constant v) := by
        rw [List.mem_filter]
        rintro ⟨-, hunlocked⟩
        have hfound : s'.memo.get? (.constant v) = some i := h.memo.2 (Or.inl ⟨rfl, rfl⟩)
        simp [OrderedMap.contains, hfound] at hunlocked
      have hlt := h.sublist.length_le.lt_of_ne fun heq =>
        hafter (h.sublist.eq_of_length heq ▸ hbefore)
      have hnext : s'.ids.next = s.ids.next + 1 := by
        rw [hids, hsame]
        rfl
      simp only [spent]
      omega

end Sketch

end SketchSolver
