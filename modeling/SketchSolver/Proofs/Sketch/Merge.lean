import Mathlib
import SketchSolver.Proofs.Sketch.Grown

/-!
# Tying variables together

`makeEqual` ties two variables by a linear relationship.  If one of them was locked, the group they
end up in is locked afterwards.

* `Sketch.Tied` — what the relationship alone does: it merges two groups or nothing, and leaves the
  constants alone.  The value of the first variable stays (`Tied.value`).
* `Sketch.Held` — a variable is locked, at its present value and at no other one.
* `Holding.held` — a lock that does not scrub holds the whole group.
* `reachable_makeEqual` — so if one of two variables was locked, everything in the group of the
  first one is held after they were tied, and the one that was locked has kept its value.
-/

namespace SketchSolver

open Arena

namespace Sketch

open Edit

section

variable {α : Type} [Scalar α] {s s' s₀ s₁ s₂ : Sketch α} {this that : VarId} {offset : Affine α}

/-! ## What the relationship does -/

/-- The second sketch has the constants of the first one. -/
structure SameConstants (s s' : Sketch α) : Prop where
  constant : ∀ id u y,
    s'.constraints.get? id = some (.constant u y) ↔ s.constraints.get? id = some (.constant u y)
  memo : ∀ u, s'.memo.get? (.constant u) = s.memo.get? (.constant u)

/-- Two variables have been tied: perhaps their groups were merged, and constants are as before. -/
structure Tied (this that : VarId) (offset : Affine α) (s s' : Sketch α) : Prop
    extends SameConstants s s' where
  arena : s'.arena = s.arena ∨ ∃ merged, s.arena.unify this that offset = .ok (merged, s'.arena)

/-- The first variable keeps its value. -/
lemma Tied.value (h : Tied this that offset s s') (hs : s.arena.WellFormed) :
    s'.arena.value? this = s.arena.value? this := by
  rcases h.arena with hsame | ⟨merged, hunify⟩
  · rw [hsame]
  · rcases hs.of_unify hunify with hsame | ⟨-, hm⟩
    · rw [hsame]
    · exact hm.value_apart hs hm.distinct

lemma Tied.ids (h : Tied this that offset s s') (hs : s.arena.WellFormed) :
    s'.arena.ids = s.arena.ids := by
  rcases h.arena with hsame | ⟨merged, hunify⟩
  · rw [hsame]
  · rcases hs.of_unify hunify with hsame | ⟨-, hm⟩
    · rw [hsame]
    · exact hm.ids

/-- A relationship that was added leaves the constants alone. -/
lemma Added.sameConstants (hs : s.Sound) {id : ConstraintId} {m b : α}
    (h : Added (.linear this m that b) id s s') : SameConstants s s' where
  constant j u y := by
    rw [h.get?]
    split_ifs with hj
    · subst hj
      refine ⟨by rintro ⟨⟩, fun hget => ?_⟩
      obtain ⟨-, key, hkey, hkey'⟩ := sameKey_eq_some hs (h.replaced hget)
      cases hkey.trans hkey'.symm
    · rfl
  memo u := Option.ext fun i => by simp [h.memo, Constraint.key]

/-- The relationship never fails between variables that are there. -/
lemma ensures_linear_tied {E : Sketch α → Prop} (hs : s.Intact)
    (hthis : s.arena.contains this = true) (hthat : s.arena.contains that = true) :
    Ensures E (linear this offset.scale that offset.shift)
      (fun _ => Tied this that offset s) s := by
  have hlive : (Constraint.linear this offset.scale that offset.shift).Live s.handles s.arena :=
    ⟨by simp [Constraint.handles], by simp [Constraint.inputs, Constraint.owned,
      Constraint.ownedQuantities, hthis, hthat]⟩
  refine (ensures_insertConstraint_added hs.toSoundExcept hlive (by simp)).imp fun id s' h => ?_
  refine ⟨h.sameConstants hs.toSoundExcept, h.drawn.imp And.left fun hrelate => ?_⟩
  obtain ⟨⟨merged, b⟩, hunify, hpure⟩ := bind_eq_ok_iff.1 hrelate
  have harena : b = s'.arena := congrArg Prod.fst (Except.ok.inj hpure)
  exact ⟨merged, harena ▸ hunify⟩

/-! ## What the lock does -/

/-- A variable is locked, by a constant at its present value and by no other one. -/
structure Held (s : Sketch α) (u : VarId) : Prop where
  locked : s.isLocked u = .ok true
  constant : ∃ id y, s.constraints.get? id = some (.constant u y)
  present : ∀ id y, s.constraints.get? id = some (.constant u y) → s.arena.value u = .ok y

/-- What constants hold at the present values is held. -/
lemma Holding.held {held : List VarId} (h : Holding held s₀ s) (hs : s.Registered) {u : VarId}
    (hu : u ∈ held) : s.Held u := by
  obtain ⟨id, y, hget, hvalue⟩ := h.constants u hu
  have hcontains : s.arena.contains u = true := by
    rw [h.arena, Arena.contains_iff_value?]
    exact ⟨y, hvalue⟩
  refine ⟨?_, ⟨id, y, hget⟩, fun j z hj => ?_⟩
  · rw [isLocked_eq hcontains, OrderedMap.contains, hs.remembered hget rfl]
    rfl
  · rw [Arena.value_eq_ok_iff, h.arena]
    exact h.value_of_constant hs hu hj

/-- The group of a variable has been locked, at the values it has. -/
def GroupLocked (s : Sketch α) (v : VarId) : Prop :=
  ∃ s₀, Holding (lockTargets s.arena v false).reverse s₀ s

/-- Everything in a group that has been locked is held. -/
lemma GroupLocked.held {v u : VarId} (h : s.GroupLocked v) (hs : s.Registered)
    (harena : s.arena.WellFormed) (hu : s.arena.canonical u = s.arena.canonical v) : s.Held u := by
  obtain ⟨s₀, hholding⟩ := h
  exact hholding.held hs (List.mem_reverse.2 ((mem_lockTargets harena u v).2 hu))

/-- Locking a variable that is there never fails, and changes no values. -/
lemma ensures_lock_groupLocked {E : Sketch α → Prop} (hs : s.Intact) {v : VarId}
    (hv : s.arena.contains v = true) :
    Ensures E (lock v none false) (fun _ s' => s'.GroupLocked v ∧ s'.arena = s.arena) s := by
  have htotal := ensures_lock_grows (E := fun _ => False) hs hv none false
  refine (htotal.and (ensures_lock_none_holding hs v false)).mono (fun _ h => h.1.elim) ?_
  rintro ⟨⟩ s' ⟨-, hholding⟩
  exact ⟨⟨s, by rwa [hholding.arena]⟩, hholding.arena⟩

end

/-! ## Main result -/

variable {α : Type} [Exact α] {s s' s₁ : Sketch α} {this that : VarId} {offset : Affine α}

/-- Writing a value to a variable that is there. -/
lemma Reachable.ensures_setValue_of_contains {E : Sketch α → Prop} (h : Reachable s) {v : VarId}
    (hv : s.arena.contains v = true) (x : α) :
    Ensures E (setValue v x)
      (fun _ s' => s'.Intact ∧ s'.arena.ids = s.arena.ids ∧ s'.arena.value? v = some x) s := by
  obtain ⟨b, hset, hb, hshape, hvalue⟩ := h.intact.arena.setValue_spec hv x
  rw [setValue, onArena, ensures_get_bind, ensures_found hset]
  refine ⟨h.intact.revalue hb hshape, ids_congr hshape, ?_⟩
  rw [hvalue, if_pos rfl, h.lower_lift (Or.inr ⟨inferInstance, rfl⟩)]

/-- The relationship leads to a reachable sketch. -/
lemma Reachable.ensures_linear_tied {E : Sketch α → Prop} (h : Reachable s)
    (hthis : s.arena.contains this = true) (hthat : s.arena.contains that = true) :
    Ensures E (linear this offset.scale that offset.shift)
      (fun _ s' => Reachable s' ∧ Tied this that offset s s') s :=
  (((ensures_map _ _).1 (h.ensures_perform (.linear this offset.scale that offset.shift))).and
    (Sketch.ensures_linear_tied (E := fun _ => False) h.intact hthis hthat)).mono
      (fun _ h => h.2.elim) fun _ _ h => h

/-- If neither variable is locked, tying them comes to the relationship alone. -/
lemma Reachable.ensures_makeEqual_free (h : Reachable s) (hthis : s.arena.contains this = true)
    (hthat : s.arena.contains that = true) (hfree : s.memo.contains (.constant this) = false)
    (hfree' : s.memo.contains (.constant that) = false) :
    Ensures (fun _ => False) (makeEqual this that offset) (fun _ => Tied this that offset s) s := by
  obtain ⟨x, hx⟩ := (contains_iff_value? _ _).1 hthat
  rw [makeEqual, ensures_get_bind, ensures_found (isLocked_eq hthis),
    ensures_found (isLocked_eq hthat), ensures_found ((value_eq_ok_iff _ _ _).2 hx), ensures_bind,
    hfree, hfree']
  exact (h.ensures_linear_tied hthis hthat).imp fun id s₁ hs₁ => hs₁.2

/-- If one of the variables is locked, tying them locks the group of the first one, while the
variable that was locked has its value. -/
lemma Reachable.ensures_makeEqual_locked (h : Reachable s) (hthis : s.arena.contains this = true)
    (hthat : s.arena.contains that = true) {thisLocked : Bool}
    (hlocked : s.memo.contains (.constant this) = thisLocked)
    (hlocked' : thisLocked = true ∨ s.memo.contains (.constant that) = true) :
    Ensures (fun _ => False) (makeEqual this that offset) (fun _ s' => s'.GroupLocked this ∧
      s'.arena.value? (if thisLocked then this else that) =
        s.arena.value? (if thisLocked then this else that)) s := by
  obtain ⟨x, hx⟩ := (contains_iff_value? _ _).1 hthat
  rw [makeEqual, ensures_get_bind, ensures_found (isLocked_eq hthis),
    ensures_found (isLocked_eq hthat), ensures_found ((value_eq_ok_iff _ _ _).2 hx), ensures_bind,
    hlocked]
  refine (h.ensures_linear_tied hthis hthat).imp fun id s₁ hs₁ => ?_
  obtain ⟨hs₁, htied⟩ := hs₁
  have hlive : ∀ {v}, s.arena.contains v = true → s₁.arena.contains v = true := fun hv =>
    (contains_of_ids (htied.ids h.intact.arena) _).trans hv
  cases thisLocked with
  | true =>
      simp only [Bool.not_true, Bool.and_false, Bool.true_or, Bool.false_eq_true, if_true, if_false,
        ensures_bind, ensures_pure]
      refine (ensures_lock_groupLocked hs₁.intact (hlive hthis)).imp fun _ s' hs' => ?_
      exact ⟨hs'.1, by rw [hs'.2, htied.value h.intact.arena]⟩
  | false =>
      simp only [Bool.false_eq_true, false_or] at hlocked'
      simp only [hlocked', Bool.not_false, Bool.and_self, Bool.or_true, Bool.false_eq_true, if_true,
        if_false, ensures_bind, ensures_pure]
      refine (hs₁.ensures_setValue_of_contains (hlive hthat) x).imp fun _ s₂ hs₂ => ?_
      obtain ⟨hs₂, hids, hvalue⟩ := hs₂
      have hthis₂ := (contains_of_ids hids this).trans (hlive hthis)
      refine (ensures_lock_groupLocked hs₂ hthis₂).imp fun _ s' hs' => ?_
      exact ⟨hs'.1, by rw [hs'.2, hvalue, hx]⟩

/-- **Locks are uniform.**  In a reachable sketch with exact numbers, tying two live variables
answers.

* If one of them was locked then, afterwards, everything in the group of the first one is locked,
  each variable by a constant at the value that it has.  If the two have one canonical variable,
  this is the merged group.
* The first variable has kept its value if it was locked, and otherwise the second one if that was.
* If neither was locked, the constants are what they were, and the first variable has kept its
  value. -/
theorem reachable_makeEqual (h : Reachable s) (hthis : s.arena.contains this = true)
    (hthat : s.arena.contains that = true) (offset : Affine α) :
    ∃ id s', makeEqual this that offset s = .ok id s' ∧
      (s.isLocked this = .ok true ∨ s.isLocked that = .ok true →
        ∀ u, s'.arena.canonical u = s'.arena.canonical this → s'.Held u) ∧
      (s.isLocked this = .ok true → s'.arena.value this = s.arena.value this) ∧
      (s.isLocked this = .ok false → s.isLocked that = .ok true →
        s'.arena.value that = s.arena.value that) ∧
      (s.isLocked this = .ok false → s.isLocked that = .ok false →
        SameConstants s s' ∧ s'.arena.value this = s.arena.value this) := by
  have hreachable := (ensures_map _ _).1 (h.ensures_perform (.makeEqual this that offset))
  have hanswers : ∀ {Q : ConstraintId → Sketch α → Prop},
      Ensures (fun _ => False) (makeEqual this that offset) Q s →
        ∃ id s', makeEqual this that offset s = .ok id s' ∧ Q id s' ∧ Reachable s' :=
    fun hensures => ((hensures.and hreachable).mono (fun _ h => h.1) fun _ _ => id).exists_ok
  rw [isLocked_eq hthis, isLocked_eq hthat]
  simp only [Except.ok.injEq]
  by_cases hlocked : s.memo.contains (.constant this) = true ∨
      s.memo.contains (.constant that) = true
  · obtain ⟨id, s', hrun, ⟨hgroup, hvalue⟩, hs'⟩ :=
      hanswers (h.ensures_makeEqual_locked hthis hthat rfl hlocked)
    refine ⟨id, s', hrun, fun _ u hu => hgroup.held hs'.registered hs'.intact.arena hu,
      fun hthisLocked => ?_, fun hthisFree _ => ?_, fun hthisFree hthatFree => ?_⟩
    · rw [hthisLocked] at hvalue
      exact value_congr hvalue
    · rw [hthisFree] at hvalue
      exact value_congr hvalue
    · simp [hthisFree, hthatFree] at hlocked
  · simp only [not_or, Bool.not_eq_true] at hlocked
    obtain ⟨id, s', hrun, htied, -⟩ :=
      hanswers (h.ensures_makeEqual_free hthis hthat hlocked.1 hlocked.2)
    refine ⟨id, s', hrun, ?_, ?_, ?_, fun _ _ => ⟨htied.toSameConstants, ?_⟩⟩
    · simp [hlocked]
    · simp [hlocked]
    · simp [hlocked]
    · exact value_congr (htied.value h.intact.arena)

/-- Two pairs of variables.  One of the second pair is locked, to another value than it has. -/
def fastened : Sketch ℚ :=
  (Operation.constant ⟨2⟩ 9).perform.after <|
    (Operation.linear ⟨3⟩ 2 ⟨2⟩ 1).perform.after <|
      (Operation.linear ⟨0⟩ 1 ⟨1⟩ 3).perform.after <|
        (Operation.addVariable 4 none).perform.after <|
          (Operation.addVariable 5 none).perform.after <|
            (Operation.addVariable 2 none).perform.after <|
              (Operation.addVariable 1 none).perform.after empty

lemma reachable_fastened : Reachable fastened :=
  .perform _ (.perform _ (.perform _ (.perform _ (.perform _ (.perform _ (.perform _
    (.withConfig _)))))))

/-- Tying the pairs locks all four variables, and the one that was locked keeps its value. -/
theorem makeEqual_fastened :
    ∃ id s', makeEqual ⟨1⟩ ⟨2⟩ ⟨2, 0⟩ fastened = .ok id s' ∧
      (∀ u ∈ [⟨0⟩, ⟨1⟩, ⟨2⟩, ⟨3⟩], s'.Held u) ∧ s'.arena.value ⟨2⟩ = fastened.arena.value ⟨2⟩ := by
  have hthis : fastened.arena.contains ⟨1⟩ = true := by decide +kernel
  have hthat : fastened.arena.contains ⟨2⟩ = true := by decide +kernel
  obtain ⟨id, s', hrun, hheld, -, hkept, -⟩ :=
    reachable_makeEqual reachable_fastened hthis hthat ⟨2, 0⟩
  refine ⟨id, s', hrun, fun u hu => hheld (Or.inr (by decide +kernel)) u ?_,
    hkept (by decide +kernel) (by decide +kernel)⟩
  rw [← after_eq hrun]
  revert u
  decide +kernel

end Sketch

end SketchSolver
