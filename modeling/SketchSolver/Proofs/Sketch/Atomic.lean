import Mathlib
import SketchSolver.Proofs.Sketch.Grown

/-!
# Failures change nothing

An operation that fails leaves the sketch as it was.  Most operations look things up first and then
take several steps, each of which could fail by its type.

* `Edit.Atomic` — if the edit fails, it has changed nothing.
* `ensures_removeConstraint_of_get?`, `ensures_release_of_intact` — removing a constraint that is
  there and releasing any variable never fail: the condition on failures is arbitrary.  Neither do
  writing and locking a variable that is there (`ensures_setValue_grows`, `ensures_lock_grows`).
* `cut_of_owned_eq_nil` — the constraints that `breakOff` removes own nothing, so removing one of
  them removes none of the others.
* `Operation.atomic_perform` — so a failure comes before the first change, either in a lookup or in
  the first of several steps.  What has been looked up is still there in all later steps.
* `reachable_atomic` — the same for reachable sketches.
-/

namespace SketchSolver

namespace Edit

variable {α β γ : Type} {s : Sketch α}

/-- If the edit fails on `s`, it has changed nothing. -/
def Atomic (x : Edit α β) (s : Sketch α) : Prop :=
  Ensures (Eq s) x (fun _ _ => True) s

lemma Ensures.atomic {x : Edit α β} {Q : β → Sketch α → Prop}
    (h : Ensures (Eq s) x Q s) : x.Atomic s :=
  h.imp fun _ _ _ => trivial

/-- Looking something up first. -/
lemma atomic_read {x : Except SolverError γ} {f : γ → Edit α β}
    (hf : ∀ c, x = .ok c → (f c).Atomic s) : (Edit.ofExcept x >>= f).Atomic s :=
  ensures_read rfl hf

lemma Atomic.map {x : Edit α γ} (h : x.Atomic s) (f : γ → β) : (f <$> x).Atomic s :=
  (ensures_map f x).2 h

/-- Answering something that is known already. -/
lemma Atomic.answer {x : Edit α γ} (h : x.Atomic s) (b : β) : (do x *> pure b).Atomic s :=
  (ensures_bind _ _).2 h

end Edit

namespace Sketch

open Edit

variable {α : Type} [Scalar α] {s : Sketch α} {E : Sketch α → Prop}

/-! ## Steps that cannot fail -/

omit [Scalar α] in
/-- Removing a constraint that is there. -/
lemma ensures_removeConstraint_of_get? {id : ConstraintId} {c : Constraint α}
    (hget : s.constraints.get? id = some c) :
    Ensures E (removeConstraint id) (fun _ s' => s' = s.cut id) s := by
  have hfind : s.constraints.find id = .ok c := by rw [ConstraintTable.find, hget]
  simp only [removeConstraint, ensures_bind, ensures_get, ensures_discard, ensures_ofExcept,
    ensures_set, hfind]
  exact ⟨fun _ _ => trivial, by rintro e ⟨⟩⟩

/-- Releasing a variable: what the memo names is there. -/
lemma ensures_release_of_intact (hs : s.Intact) (v : VarId) :
    Ensures E (release v) (fun _ => Intact) s := by
  rw [release, ensures_get_bind]
  split
  · rename_i id hmemo
    obtain ⟨c, hget, -⟩ := hs.memo hmemo
    refine (ensures_removeConstraint_of_get? hget).imp fun _ s' hs' => ?_
    rw [hs']
    exact Sound.intact_cut hs.toSoundExcept hget
  · exact hs

omit [Scalar α] in
/-- Cutting a constraint that owns nothing removes only this constraint. -/
lemma cut_of_owned_eq_nil {id : ConstraintId} {c : Constraint α}
    (hget : s.constraints.get? id = some c) (howned : c.owned = []) :
    s.cut id = s.dropConstraint id := by
  rw [cut_eq hget, howned, List.foldl_nil]

omit [Scalar α] in
/-- Constraints that are there and own nothing are removed one by one, and nothing else is. -/
lemma ensures_removeAll_of_owned_eq_nil {ids : List ConstraintId} (hnodup : ids.Nodup)
    (h : ∀ id ∈ ids, ∃ c, s.constraints.get? id = some c ∧ c.owned = []) :
    Ensures E (ids.forM removeConstraint) (fun _ s' => s'.arena = s.arena ∧
      s'.handles = s.handles ∧
      ∀ i, s'.constraints.get? i = if i ∈ ids then none else s.constraints.get? i) s := by
  induction ids generalizing s with
  | nil => exact ⟨rfl, rfl, fun i => by simp⟩
  | cons id ids ih =>
      obtain ⟨hid, hnodup⟩ := List.nodup_cons.1 hnodup
      obtain ⟨c, hget, howned⟩ := h id List.mem_cons_self
      show Ensures E (removeConstraint id >>= fun _ => ids.forM removeConstraint) _ s
      rw [ensures_bind]
      refine (ensures_removeConstraint_of_get? hget).imp fun _ t ht => ?_
      rw [cut_of_owned_eq_nil hget howned] at ht
      have hleft : ∀ i, t.constraints.get? i = if i = id then none else s.constraints.get? i :=
        fun i => by rw [ht, dropConstraint, OrderedMap.get?_erase]
      refine (ih hnodup fun i hi => ?_).imp fun _ s' hs' => ?_
      · obtain ⟨d, hd, hdowned⟩ := h i (List.mem_cons_of_mem _ hi)
        refine ⟨d, ?_, hdowned⟩
        rw [hleft, if_neg, hd]
        rintro rfl
        exact hid hi
      · obtain ⟨harena, hhandles, hget'⟩ := hs'
        refine ⟨harena.trans (by rw [ht]; rfl), hhandles.trans (by rw [ht]; rfl), fun i => ?_⟩
        rw [hget', hleft]
        by_cases hi : i ∈ ids <;> by_cases heq : i = id <;> simp [hi, heq]

omit [Scalar α] in
/-- The constraints that join two variables own nothing. -/
lemma owned_of_mem_joining {this that : VarId} {id : ConstraintId}
    (h : id ∈ s.joining this that) : ∃ c, s.constraints.get? id = some c ∧ c.owned = [] := by
  obtain ⟨⟨i, c⟩, hmem, rfl⟩ := List.mem_map.1 h
  obtain ⟨hentry, hjoins⟩ := List.mem_filter.1 hmem
  refine ⟨c, (s.constraints.mem_entries_iff i c).1 hentry, ?_⟩
  cases c <;> first | rfl | cases hjoins

omit [Scalar α] in
lemma nodup_joining (s : Sketch α) (this that : VarId) : (s.joining this that).Nodup :=
  s.constraints.nodupKeys.sublist (List.filter_sublist.map _)

/-! ## Operations -/

/-- Adding a constraint that owns nothing. -/
lemma ensures_insertNew_of_intact (hs : s.Intact) {c : Constraint α} (howned : c.owned = []) :
    Ensures (Eq s) (insertConstraint none c) (fun _ => Intact) s :=
  ensures_insertChecked invariant_intact hs howned fun _ => rfl

omit [Scalar α] in
lemma atomic_onArena (f : Arena α → Except SolverError (Arena α)) : (onArena f).Atomic s :=
  atomic_read fun _ _ => trivial

/-- Coordinates are there, so only the lookup of the handle can fail. -/
lemma atomic_moveHandle (hs : s.Intact) (id : HandleId) (position : Point α) :
    (moveHandle id position).Atomic s := by
  refine atomic_read fun c hc => ?_
  obtain ⟨hx, hy⟩ := hs.grounded id c ((HandleTable.coords_eq_ok_iff id c).1 hc)
  refine Ensures.atomic (Q := fun _ => Intact) ?_
  rw [ensures_bind]
  refine (ensures_setValue_grows hs hx position.x).imp fun _ s' hs' => ?_
  exact (ensures_setValue_grows hs'.intact (hs'.vars hy) position.y).imp fun _ _ h => h.intact

omit [Scalar α] in
/-- A removal looks up what it removes, and then it cannot fail. -/
lemma atomic_remove {β : Type} (x : Except SolverError β) (s' : Sketch α) :
    (do discard (Edit.ofExcept x); set s' : Edit α PUnit).Atomic s := by
  rw [Atomic, ensures_bind, ensures_discard, ensures_ofExcept]
  exact ⟨fun _ _ => trivial, fun _ _ => rfl⟩

/-- If the variable is not there, the first step fails already, be it the write or the lookup. -/
lemma atomic_lock (hs : s.Intact) (v : VarId) (value : Option α) (scrub : Bool) :
    (lock v value scrub).Atomic s := by
  by_cases hv : s.arena.contains v = true
  · exact (ensures_lock_grows hs hv value scrub).atomic
  · cases value with
    | none =>
        refine atomic_read fun root hroot => absurd ?_ hv
        obtain ⟨⟨⟩, hfind, -⟩ := bind_eq_ok_iff.1 hroot
        exact contains_of_discard_find hfind
    | some x =>
        rw [Atomic, lock, ensures_bind, setValue, onArena, ensures_get_bind]
        exact ensures_read rfl fun b hset => absurd (hs.arena.contains_of_setValue hset) hv

lemma atomic_unlock (hs : s.Intact) (v : VarId) : (unlock v).Atomic s := by
  refine atomic_read fun root _ => Ensures.atomic (Q := fun _ => Intact) ?_
  exact ensures_forM (fun w _ t ht => ensures_release_of_intact ht w) hs

lemma atomic_toggleLock (hs : s.Intact) (v : VarId) : (toggleLock v).Atomic s := by
  refine atomic_read fun locked _ => ?_
  cases locked with
  | true => exact (atomic_unlock hs v).answer false
  | false => exact (atomic_lock hs v none false).answer true

/-- Once the two variables are tied, both are there because the tie names them. -/
lemma atomic_makeEqual (hs : s.Intact) (this that : VarId) (offset : Affine α) :
    (makeEqual this that offset).Atomic s := by
  let There (t : Sketch α) : Prop :=
    t.Intact ∧ t.arena.contains this = true ∧ t.arena.contains that = true
  refine (ensures_makeEqual_steps (J := There) (Or.inl rfl) ?_ (fun {t} ht x => ?_)
    fun {t} ht => ?_).atomic
  · have htie := (ensures_insertNew_of_intact hs (c := .linear this offset.scale that offset.shift)
      rfl).both (ensures_insertNew_added hs.toSoundExcept)
    refine htie.imp fun id t ht => ?_
    obtain ⟨hintact, hadded⟩ := ht
    have hlive := hintact.live ((hadded.get? id).trans (if_pos rfl)) not_false
    exact ⟨hintact, hlive.named this (by simp [Constraint.inputs]),
      hlive.named that (by simp [Constraint.inputs])⟩
  · exact (ensures_setValue_grows ht.1 ht.2.2 x).imp fun _ _ h =>
      ⟨h.intact, h.vars ht.2.1, h.vars ht.2.2⟩
  · exact (ensures_lock_grows ht.1 ht.2.1 none false).imp fun _ _ h =>
      ⟨h.intact, h.vars ht.2.1, h.vars ht.2.2⟩

/-- After the two variables have been found, nothing fails any more. -/
lemma atomic_breakOff (this that : VarId) : (breakOff this that).Atomic s := by
  have hrest : ∀ s' : Sketch α, s'.constraints = s.constraints →
      Ensures (Eq s)
        (do (s.joining this that).forM removeConstraint; modify invalidate)
        (fun _ _ => True) s' := by
    intro s' hsame
    rw [ensures_bind]
    exact (ensures_removeAll_of_owned_eq_nil (s.nodup_joining this that) fun id hid =>
      hsame ▸ owned_of_mem_joining hid).imp fun _ _ _ => trivial
  rw [Atomic, breakOff, ensures_get_bind]
  simp only [ensures_bind, ensures_discard, ensures_ofExcept]
  refine ⟨fun _ _ => ⟨fun _ _ => ?_, fun _ _ => trivial⟩, fun _ _ => trivial⟩
  split
  · exact hrest _ rfl
  · exact hrest s rfl

end Sketch

/-! ## Every operation -/

namespace Operation

open Edit Sketch

variable {α : Type} [Scalar α] {s : Sketch α}

/-- **An operation on an intact sketch changes nothing if it fails.** -/
theorem atomic_perform (hs : s.Intact) (op : Operation α) : op.perform.Atomic s := by
  have hinsert : ∀ {c : Constraint α}, c.owned = [] → (insertConstraint none c).Atomic s :=
    fun howned => (ensures_insertNew_of_intact hs howned).atomic
  cases op with
  | addVariable x label => trivial
  | addHandle position => trivial
  | setValue v x => exact (atomic_onArena _).answer _
  | moveHandle id position => exact (atomic_moveHandle hs id position).answer _
  | removeVariable v => exact Atomic.answer (atomic_remove (s.arena.find v) _) _
  | removeHandle id => exact Atomic.answer (atomic_remove (s.handles.find id) _) _
  | removeConstraint id => exact Atomic.answer (atomic_remove (s.constraints.find id) _) _
  | constant v x => exact (hinsert rfl).map _
  | pin id position => exact (hinsert rfl).map _
  | finger id position => exact (hinsert rfl).map _
  | linear y m x b => exact (hinsert rfl).map _
  | absorb parent child => exact (hinsert rfl).map _
  | polar start finish =>
      exact (ensures_polar invariant_intact hs rfl start finish).atomic.map _
  | distance start finish =>
      exact (ensures_distance invariant_intact hs rfl start finish).atomic.map _
  | angle start finish =>
      exact (ensures_angle invariant_intact hs rfl start finish).atomic.map _
  | formula m x b => exact (ensures_formula invariant_intact hs rfl m x b).atomic.map _
  | makeEqual this that offset => exact (atomic_makeEqual hs this that offset).map _
  | breakOff this that => exact (atomic_breakOff this that).answer _
  | lock v value scrub => exact (atomic_lock hs v value scrub).answer _
  | unlock v => exact (atomic_unlock hs v).answer _
  | toggleLock v => exact (atomic_toggleLock hs v).map _
  | cluster => exact Atomic.map (x := currentClusters) (ensures_read rfl fun _ _ => trivial) _
  | setConfig config => trivial
  | setStabilizeGizmos enabled => trivial
  | setFingerOfGod enabled => trivial

end Operation

namespace Sketch

variable {α : Type} [Scalar α] {s s' : Sketch α}

/-- **Failures are atomic.**  If an operation on a reachable sketch fails, the sketch is what it
was: variables with their values and links, handles, constraints, memo, clustering and counter. -/
theorem reachable_atomic (h : Reachable s) (op : Operation α) {e : SolverError}
    (hfail : op.perform s = .error e s') : s' = s := by
  have hatomic := op.atomic_perform h.intact
  rw [Edit.Atomic, Edit.Ensures, hfail] at hatomic
  exact hatomic.symm

/-- A locked length cannot be tied to a variable that is not there, and is still locked. -/
theorem atomic_measured :
    ∃ e, (Operation.makeEqual ⟨9⟩ ⟨99⟩ .identity).perform measured = .error e measured := by
  cases hrun : (Operation.makeEqual ⟨9⟩ ⟨99⟩ .identity).perform measured with
  | ok answer s' =>
      have hfails :
          ((Operation.makeEqual ⟨9⟩ ⟨99⟩ .identity).perform.run' measured).isSome = false := by
        decide +kernel
      rw [EStateM.run', EStateM.run, hrun] at hfails
      cases hfails
  | error e s' =>
      obtain rfl := reachable_atomic reachable_measured _ hrun
      exact ⟨e, rfl⟩

end Sketch

end SketchSolver
