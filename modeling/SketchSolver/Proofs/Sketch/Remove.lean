import Mathlib
import SketchSolver.Sketch.Remove
import SketchSolver.Proofs.Sketch.Ensures
import SketchSolver.Proofs.Sketch.Intact

/-!
# Removing from a sketch

A removal first takes away what constraints name and then, one by one, the constraints that named
it.  In between those constraints are excused, which is what the parameter of
`Sketch.IntactExcept` is for: a removal of a variable or a handle excuses its dependents, and
removing a constraint ends its excuse.

* `SoundExcept.dropConstraint`, `removeVariable`, `removeHandle` — one removal by itself.
* `Sketch.Cuts` — what the cascade may rely on when it calls itself: cutting a constraint ends its
  excuse, and never adds a constraint.
* `cuts_cascade` — the cascade does so, by induction on the number of steps that are left.  There
  are enough steps because each of them begins by removing a constraint.
* `Sound.intact_cut` — so cutting a constraint that is there leaves a sketch intact.
-/

namespace SketchSolver

namespace Sketch

variable {α : Type} [Scalar α] {s : Sketch α} {P : ConstraintId → Prop}

/-! ## One removal -/

/-- Removing a constraint alone.  It is the last moment at which it may name what is gone. -/
lemma SoundExcept.dropConstraint {id : ConstraintId} (h : SoundExcept (fun i => P i ∨ i = id) s) :
    IntactExcept P (dropConstraint id s) := by
  have hkeys : ∀ {i}, i ∈ (s.constraints.erase id).keys → i ∈ s.constraints.keys := fun hi =>
    (s.constraints.keys_erase_sublist id).subset hi
  refine SoundExcept.intact_of_forgotten ?_ rfl
  exact { h with
    live := fun {i c} hget hP => by
      rw [show (s.dropConstraint id).constraints = s.constraints.erase id from rfl,
        OrderedMap.get?_erase] at hget
      split at hget
      · cases hget
      · rename_i hi
        exact h.live hget fun hor => hor.elim hP hi
    memo := fun {key i} hget => by
      obtain ⟨hget, hkeep⟩ := (s.memo.get?_filter _ key i).1 hget
      obtain ⟨c, hc, hkey⟩ := h.memo hget
      have hi : i ≠ id := by simpa using hkeep
      exact ⟨c, by rw [Sketch.dropConstraint, OrderedMap.get?_erase, if_neg hi, hc], hkey⟩
    constraintIds := fun hi => h.constraintIds (hkeys hi)
    ordered := h.ordered.sublist (s.constraints.keys_erase_sublist id) }

omit [Scalar α] in
lemma mem_dependents {vars : List VarId} {id : ConstraintId} {c : Constraint α}
    (hget : s.constraints.get? id = some c) :
    id ∈ s.dependents vars ↔ ∃ v ∈ vars, c.mentions s.handles v = true := by
  simp only [dependents, List.mem_map, List.mem_filter, List.any_eq_true]
  constructor
  · rintro ⟨⟨i, d⟩, ⟨hmem, hmentions⟩, rfl⟩
    rw [OrderedMap.mem_entries_iff, hget] at hmem
    cases hmem
    exact hmentions
  · intro hmentions
    exact ⟨(id, c), ⟨(s.constraints.mem_entries_iff id c).2 hget, hmentions⟩, rfl⟩

omit [Scalar α] in
/-- A constraint that depends on none of some variables mentions none of them. -/
lemma mentions_of_not_dependent {vars : List VarId} {id : ConstraintId} {c : Constraint α}
    (hget : s.constraints.get? id = some c) (hnot : id ∉ s.dependents vars) :
    ∀ v ∈ vars, c.mentions s.handles v = false := by
  intro v hv
  rw [← Bool.not_eq_true]
  exact fun hmentions => hnot ((mem_dependents hget).2 ⟨v, hv, hmentions⟩)

/-- Removing a variable that is no coordinate excuses the constraints that mention it. -/
lemma SoundExcept.removeVariable (h : SoundExcept P s) {v : VarId}
    (howner : s.handles.ownerOf v = none) :
    IntactExcept (fun i => P i ∨ i ∈ s.dependents [v])
      { s with arena := s.arena.remove v, clusters := none } := by
  have hkeep : ∀ w, w ≠ v → s.arena.contains w = true → (s.arena.remove v).contains w = true :=
    fun w hw hcontains => (Arena.contains_remove _ _ _).2 ⟨hw, hcontains⟩
  refine SoundExcept.intact_of_forgotten ?_ rfl
  exact { h with
    arena := h.arena.remove v
    grounded := fun i c hc => by
      obtain ⟨hx, hy⟩ := HandleTable.ownerOf_eq_none howner hc
      exact ⟨hkeep _ hx (h.grounded i c hc).1, hkeep _ hy (h.grounded i c hc).2⟩
    live := fun {i c} hget hP => by
      rw [not_or] at hP
      have hlive := h.live hget hP.1
      have hmentions := mentions_of_not_dependent hget hP.2 v (List.mem_singleton_self v)
      obtain ⟨-, hnamed⟩ := Constraint.mentions_eq_false hmentions
      refine ⟨hlive.handles, fun w hw => hkeep w ?_ (hlive.named w hw)⟩
      rintro rfl
      exact hnamed hw
    variableIds := fun hv => h.variableIds ((Arena.contains_remove _ _ _).1 hv).2 }

/-- Removing a handle with its coordinates excuses the constraints that mention these. -/
lemma SoundExcept.removeHandle (h : SoundExcept P s) {id : HandleId} {c : Coords}
    (hc : s.handles.coords? id = some c) :
    IntactExcept (fun i => P i ∨ i ∈ s.dependents [c.x, c.y])
      { s with
        handles := s.handles.remove id
        arena := (s.arena.remove c.x).remove c.y
        clusters := none } := by
  have hkeep : ∀ w, w ≠ c.x → w ≠ c.y → s.arena.contains w = true →
      ((s.arena.remove c.x).remove c.y).contains w = true := fun w hx hy hcontains =>
    (Arena.contains_remove _ _ _).2 ⟨hy, (Arena.contains_remove _ _ _).2 ⟨hx, hcontains⟩⟩
  refine SoundExcept.intact_of_forgotten ?_ rfl
  exact { h with
    arena := (h.arena.remove c.x).remove c.y
    rooted := h.rooted.remove id
    separate := h.separate.remove id
    grounded := fun i d hd => by
      obtain ⟨hi, hd⟩ := HandleTable.coords?_of_remove hd
      obtain ⟨h₁, h₂, h₃, h₄⟩ := h.separate.between hd hc hi
      exact ⟨hkeep _ h₁ h₂ (h.grounded i d hd).1, hkeep _ h₃ h₄ (h.grounded i d hd).2⟩
    live := fun {i k} hget hP => by
      have hget' : s.constraints.get? i = some k := hget
      rw [not_or] at hP
      have hlive := h.live hget' hP.1
      have hmentions := mentions_of_not_dependent hget' hP.2
      obtain ⟨hhandles, hx⟩ := Constraint.mentions_eq_false (hmentions c.x (by simp))
      obtain ⟨-, hy⟩ := Constraint.mentions_eq_false (hmentions c.y (by simp))
      refine ⟨fun j hj => ?_, fun w hw => hkeep w ?_ ?_ (hlive.named w hw)⟩
      · have hji : j ≠ id := by
          rintro rfl
          exact (hhandles j hj c hc).1 rfl
        rw [HandleTable.contains_iff_coords?, HandleTable.coords?_remove, if_neg hji,
          ← HandleTable.contains_iff_coords?]
        exact hlive.handles j hj
      · rintro rfl
        exact hx hw
      · rintro rfl
        exact hy hw
    variableIds := fun hv =>
      h.variableIds ((Arena.contains_remove _ _ _).1 ((Arena.contains_remove _ _ _).1 hv).2).2
    handleIds := fun {i} hi => by
      obtain ⟨d, hd⟩ := (HandleTable.contains_iff_coords? i).1 hi
      exact h.handleIds
        ((HandleTable.contains_iff_coords? i).2 ⟨d, (HandleTable.coords?_of_remove hd).2⟩) }

/-! ## The cascade -/

/-- With at most `limit` constraints, `cut` removes one of them for good. -/
def Cuts (limit : Nat) (cut : ConstraintId → Sketch α → Sketch α) : Prop :=
  ∀ (P : ConstraintId → Prop) (id : ConstraintId) (s : Sketch α),
    IntactExcept (fun i => P i ∨ i = id) s → s.constraints.size ≤ limit →
      IntactExcept P (cut id s) ∧ (cut id s).constraints.size ≤ s.constraints.size

variable {limit : Nat} {cut : ConstraintId → Sketch α → Sketch α}

/-- Cutting several constraints ends the excuse of each. -/
lemma Cuts.foldl (hcut : Cuts limit cut) {ids : List ConstraintId}
    (h : IntactExcept (fun i => P i ∨ i ∈ ids) s) (hsize : s.constraints.size ≤ limit) :
    IntactExcept P (ids.foldl (fun s id => cut id s) s) ∧
      (ids.foldl (fun s id => cut id s) s).constraints.size ≤ s.constraints.size := by
  induction ids generalizing s with
  | nil => exact ⟨{ h with live := fun hget hP => h.live hget (by simpa using hP) }, le_rfl⟩
  | cons id ids ih =>
      have h' : IntactExcept (fun i => (P i ∨ i ∈ ids) ∨ i = id) s :=
        { h with live := fun hget hP => h.live hget (by simp only [List.mem_cons]; tauto) }
      obtain ⟨hone, hless⟩ := hcut _ id s h' hsize
      obtain ⟨hall, hrest⟩ := ih hone (hless.trans hsize)
      exact ⟨hall, hrest.trans hless⟩

lemma Cuts.dropHandle (hcut : Cuts limit cut) (id : HandleId) (h : IntactExcept P s)
    (hsize : s.constraints.size ≤ limit) :
    IntactExcept P (dropHandle cut id s) ∧
      (dropHandle cut id s).constraints.size ≤ s.constraints.size := by
  rw [Sketch.dropHandle]
  cases hget : s.handles.get? id with
  | none => exact ⟨h, le_rfl⟩
  | some v =>
      have hcoords : s.handles.coords? id = some ⟨v.x, v.y⟩ := by
        rw [HandleTable.coords?_eq, hget, Option.map_some]
      exact hcut.foldl (h.toSoundExcept.removeHandle hcoords) hsize

lemma Cuts.dropVariable (hcut : Cuts limit cut) (v : VarId) (h : IntactExcept P s)
    (hsize : s.constraints.size ≤ limit) :
    IntactExcept P (dropVariable cut v s) ∧
      (dropVariable cut v s).constraints.size ≤ s.constraints.size := by
  rw [Sketch.dropVariable]
  cases howner : s.handles.ownerOf v with
  | some id => exact hcut.dropHandle id h hsize
  | none => exact hcut.foldl (h.toSoundExcept.removeVariable howner) hsize

/-- Removing what a constraint has owned. -/
lemma Cuts.dropOwned (hcut : Cuts limit cut) (owned : List VarId) (h : IntactExcept P s)
    (hsize : s.constraints.size ≤ limit) :
    let rest := owned.foldl
      (fun s own => if s.arena.contains own then Sketch.dropVariable cut own s else s) s
    IntactExcept P rest ∧ rest.constraints.size ≤ s.constraints.size := by
  induction owned generalizing s with
  | nil => exact ⟨h, le_rfl⟩
  | cons own owned ih =>
      rw [List.foldl_cons]
      split
      · obtain ⟨hone, hless⟩ := hcut.dropVariable own h hsize
        obtain ⟨hall, hrest⟩ := ih hone (hless.trans hsize)
        exact ⟨hall, hrest.trans hless⟩
      · exact ih h hsize

omit [Scalar α] in
lemma size_dropConstraint_lt {id : ConstraintId} {c : Constraint α}
    (hget : s.constraints.get? id = some c) :
    (s.dropConstraint id).constraints.size < s.constraints.size :=
  OrderedMap.size_erase_lt (OrderedMap.mem_keys_of_get? hget)

omit [Scalar α] in
/-- Cutting a constraint that is there drops it, and then what it owned in one step less. -/
lemma cut_eq {id : ConstraintId} {c : Constraint α} (hget : s.constraints.get? id = some c) :
    s.cut id = c.owned.foldl
      (fun t own =>
        if t.arena.contains own then t.dropVariable (cascade (s.constraints.size - 1)) own else t)
      (s.dropConstraint id) := by
  obtain ⟨limit, hlimit⟩ : ∃ limit, s.constraints.size = limit + 1 :=
    Nat.exists_eq_add_one_of_ne_zero (Nat.ne_zero_of_lt (size_dropConstraint_lt hget))
  rw [Sketch.cut, hlimit, cascade, hget]
  rfl

/-- **The cascade.**  A cascade that may take as many steps as there are constraints leaves nothing
behind that names what is gone. -/
theorem cuts_cascade (limit : Nat) : Cuts limit (cascade (α := α) limit) := by
  induction limit with
  | zero =>
      intro P id s h hsize
      refine ⟨{ h with live := fun {i c} hget hP => ?_ }, le_rfl⟩
      -- there is no constraint at all
      have hpos : _ < s.constraints.size := size_dropConstraint_lt hget
      omega
  | succ limit ih =>
      intro P id s h hsize
      rw [cascade]
      cases hget : s.constraints.get? id with
      | none =>
          refine ⟨{ h with live := fun {i c} hi hP => h.live hi ?_ }, le_rfl⟩
          rintro (hi' | rfl)
          · exact hP hi'
          · rw [hget] at hi
            cases hi
      | some c =>
          have hless := size_dropConstraint_lt hget
          obtain ⟨hintact, hrest⟩ := ih.dropOwned c.owned h.toSoundExcept.dropConstraint (by omega)
          exact ⟨hintact, hrest.trans hless.le⟩

/-- Cutting a constraint that is there makes a sound sketch intact, because it forgets the
clustering. -/
lemma Sound.intact_cut {id : ConstraintId} {c : Constraint α} (h : s.Sound)
    (hget : s.constraints.get? id = some c) : (s.cut id).Intact := by
  rw [cut_eq hget]
  have hdrop : (s.dropConstraint id).Intact :=
    SoundExcept.dropConstraint (h.weaken fun _ hfalse => hfalse.elim)
  exact ((cuts_cascade _).dropOwned c.owned hdrop
    (Nat.le_sub_one_of_lt (size_dropConstraint_lt hget))).1

end Sketch

end SketchSolver
