import Mathlib
import SketchSolver.Proofs.Sketch.Atomic
import SketchSolver.Proofs.Sketch.Merge

/-!
# Locking a whole group

A lock holds every variable of a group, and unlocking any of them releases all.

* `Sketch.LocksOnly v` — nothing but values and constants on the group of `v` differs: links,
  handles and all other constraints, with their order, are what they were.
* `ensures_lock_locksOnly` — a lock does no more than that, whether it scrubs or not.
* `Sketch.Freed` — constants on a group were removed, and some of its variables are free.
  `ensures_release_freed` is the step, `ensures_forM_release` the run over a list of variables.
* `reachable_groupLock` — so after a lock that does not scrub the whole group is held at the present
  values, after unlocking none of it is locked, and toggling does one or the other.
-/

namespace SketchSolver

open Arena

namespace Sketch

open Edit

variable {α : Type} [Scalar α] {s s' s'' : Sketch α} {E : Sketch α → Prop} {v w : VarId}

/-! ## What locks leave alone -/

/-- Is this constraint a constant on the group of `v`? -/
def holdsGroup (a : Arena α) (v : VarId) : Constraint α → Bool
  | .constant u _ => a.canonical u = a.canonical v
  | _ => false

/-- Nothing but values and constants on the group of `v` differs. -/
structure LocksOnly (v : VarId) (s s' : Sketch α) : Prop where
  shape : s'.arena.shape = s.arena.shape
  handles : s'.handles = s.handles
  others : s'.constraints.filter (fun _ c => !holdsGroup s.arena v c) =
    s.constraints.filter fun _ c => !holdsGroup s.arena v c

namespace LocksOnly

lemma refl (v : VarId) (s : Sketch α) : LocksOnly v s s := ⟨rfl, rfl, rfl⟩

/-- The group is the same before and after. -/
lemma holdsGroup_eq (h : LocksOnly v s s') : holdsGroup s'.arena v = holdsGroup s.arena v := by
  funext c
  cases c <;> simp only [holdsGroup, canonical_congr h.shape]

lemma trans (h : LocksOnly v s s') (h' : LocksOnly v s' s'') : LocksOnly v s s'' where
  shape := h'.shape.trans h.shape
  handles := h'.handles.trans h.handles
  others := by
    have hothers := h'.others
    rw [h.holdsGroup_eq] at hothers
    exact hothers.trans h.others

end LocksOnly

/-- Holding a variable of the group touches constants of the group only. -/
lemma ensures_holdHere_locksOnly (hs : s.Intact) (hw : s.arena.canonical w = s.arena.canonical v) :
    Ensures (fun _ => True) (holdHere w) (fun _ => LocksOnly v s) s := by
  have hheld : ∀ y : α, holdsGroup s.arena v (.constant w y) = true := fun y => by
    simp [holdsGroup, hw]
  rw [holdHere, ensures_get_bind]
  refine ensures_read trivial fun y _ => ?_
  rw [ensures_discard]
  refine ensures_constant hs trivial (fun id z hget => ?_) fun id ids memo hid => ?_
  · refine ⟨rfl, rfl, OrderedMap.filter_insert_of_dropped (fun c hc => ?_) (by simp [hheld])⟩
    rw [hget] at hc
    cases hc
    simp [hheld]
  · refine ⟨rfl, rfl, OrderedMap.filter_insert_of_dropped (fun c hc => ?_) (by simp [hheld])⟩
    exact absurd (OrderedMap.mem_keys_of_get? hc) hid

/-- So does a lock that writes nothing. -/
lemma ensures_lock_none_locksOnly (hs : s.Intact) (v : VarId) (scrub : Bool) :
    Ensures (fun _ => True) (lock v none scrub) (fun _ => LocksOnly v s) s := by
  refine ensures_read trivial fun root hroot => ?_
  obtain ⟨_, -, hpure⟩ := bind_eq_ok_iff.1 hroot
  cases hpure
  have hrun : Ensures (fun _ => True) ((lockTargets s.arena v scrub).forM holdHere)
      (fun _ s' => s'.Intact ∧ LocksOnly v s s') s := by
    refine ensures_forM (fun w hw t ht => ?_) ⟨hs, .refl v s⟩
    have hgroup : w ∈ lockTargets s.arena v false := by
      cases scrub with
      | false => exact hw
      | true => exact List.mem_cons.2 (Or.inl (by simpa [lockTargets] using hw))
    rw [mem_lockTargets hs.arena, ← canonical_congr ht.2.shape] at hgroup
    refine ((ensures_holdHere invariant_intact ht.1 w).and
      (ensures_holdHere_locksOnly ht.1 hgroup)).mono (fun _ _ => trivial) fun _ t' ht' => ?_
    exact ⟨ht'.1, ht.2.trans ht'.2⟩
  exact hrun.imp fun _ _ h => h.2

/-- **A lock** changes values and constants of the group only. -/
theorem ensures_lock_locksOnly (hs : s.Intact) (v : VarId) (value : Option α) (scrub : Bool) :
    Ensures (fun _ => True) (lock v value scrub) (fun _ => LocksOnly v s) s := by
  cases value with
  | none => exact ensures_lock_none_locksOnly hs v scrub
  | some x =>
      rw [lock, ensures_bind, setValue, onArena, ensures_get_bind]
      refine ensures_read trivial fun a hset => ?_
      obtain ⟨ha, hshape, -⟩ := hs.arena.of_setValue hset
      have hwritten : LocksOnly v s { s with arena := a } := ⟨hshape, rfl, rfl⟩
      exact (ensures_lock_none_locksOnly (hs.revalue ha hshape) v scrub).imp fun _ _ h =>
        hwritten.trans h

/-! ## Unlocking -/

/-- Constants on the group of `v` were removed, and nothing else has changed.  The variables `us`
are free. -/
structure Freed (v : VarId) (us : List VarId) (s s' : Sketch α) : Prop
    extends LocksOnly v s s' where
  arena : s'.arena = s.arena
  forgotten : ∀ {key id}, s'.memo.get? key = some id → s.memo.get? key = some id
  free : ∀ u ∈ us, s'.memo.get? (.constant u) = none

lemma Freed.refl (v : VarId) (s : Sketch α) : Freed v [] s s :=
  ⟨.refl v s, rfl, id, by simp⟩

/-- What is free stays free. -/
lemma Freed.trans {us us' : List VarId} (h : Freed v us s s') (h' : Freed v us' s' s'') :
    Freed v (us ++ us') s s'' where
  toLocksOnly := h.toLocksOnly.trans h'.toLocksOnly
  arena := h'.arena.trans h.arena
  forgotten hmemo := h.forgotten (h'.forgotten hmemo)
  free u hu := by
    rcases List.mem_append.1 hu with hu | hu
    · refine Option.eq_none_iff_forall_ne_some.2 fun id hmemo => ?_
      have hbefore := h'.forgotten hmemo
      rw [h.free u hu] at hbefore
      cases hbefore
    · exact h'.free u hu

/-- Releasing a variable of the group.  The memo leads to its constant, which owns nothing, so that
no other constraint goes with it. -/
lemma ensures_release_freed (hs : s.Intact) (hw : s.arena.canonical w = s.arena.canonical v) :
    Ensures E (release w) (fun _ => Freed v [w] s) s := by
  rw [release, ensures_get_bind]
  cases hmemo : s.memo.get? (.constant w) with
  | none => exact ⟨.refl v s, rfl, id, by simpa using hmemo⟩
  | some id =>
      obtain ⟨c, hget, hkey⟩ := hs.memo hmemo
      obtain ⟨y, rfl⟩ : ∃ y, c = .constant w y := by
        cases c <;> grind [Constraint.key]
      refine (ensures_removeConstraint_of_get? hget).imp fun _ s' hs' => ?_
      rw [hs', cut_of_owned_eq_nil hget rfl]
      refine ⟨⟨rfl, rfl, OrderedMap.filter_erase_of_dropped fun c hc => ?_⟩, rfl, fun hlater => ?_,
        fun u hu => ?_⟩
      · rw [hget] at hc
        cases hc
        simp [holdsGroup, hw]
      · exact ((s.memo.get?_filter _ _ _).1 hlater).1
      · rw [List.mem_singleton.1 hu]
        refine Option.eq_none_iff_forall_ne_some.2 fun i hi => ?_
        obtain ⟨hi, hkept⟩ := (s.memo.get?_filter _ _ _).1 hi
        rw [hmemo] at hi
        cases hi
        simp at hkept

/-- Releasing several variables of the group. -/
lemma ensures_forM_release (hs : s.Intact) {us : List VarId}
    (hus : ∀ u ∈ us, s.arena.canonical u = s.arena.canonical v) :
    Ensures E (us.forM release) (fun _ => Freed v us s) s := by
  induction us generalizing s with
  | nil => exact .refl v s
  | cons u us ih =>
      show Ensures E (release u >>= fun _ => us.forM release) _ s
      rw [ensures_bind]
      refine ((ensures_release_of_intact hs u).both
        (ensures_release_freed hs (hus u List.mem_cons_self))).imp fun _ t ht => ?_
      obtain ⟨ht, hfreed⟩ := ht
      refine (ih ht fun w hw => ?_).imp fun _ _ h => hfreed.trans h
      rw [canonical_congr hfreed.shape]
      exact hus w (List.mem_cons_of_mem _ hw)

/-- **Unlocking** a variable that is there frees its whole group. -/
theorem ensures_unlock_freed (hs : s.Intact) (hv : s.arena.contains v = true) :
    Ensures E (unlock v) (fun _ s' => Freed v [] s s' ∧
      ∀ u, s.arena.canonical u = s.arena.canonical v → s'.isLocked u = .ok false) s := by
  obtain ⟨y, hfind⟩ := find_ok hv
  have hcanonical : s.canonical v = .ok (s.arena.canonical v) := by
    rw [canonical, hfind]
    rfl
  show Ensures E (get >>= fun s => Edit.ofExcept (s.canonical v) >>= _) _ s
  rw [ensures_get_bind, ensures_found hcanonical]
  have hgroup : ∀ u ∈ v :: lockTargets s.arena v false,
      s.arena.canonical u = s.arena.canonical v := by
    intro u hu
    rcases List.mem_cons.1 hu with rfl | hu
    · rfl
    · exact (mem_lockTargets hs.arena u v).1 hu
  refine (ensures_forM_release hs hgroup).imp fun _ s' h => ⟨{ h with free := by simp }, ?_⟩
  intro u hu
  have hfree := h.free u (List.mem_cons_of_mem _ ((mem_lockTargets hs.arena u v).2 hu))
  have hlive : s'.arena.contains u = true := by
    rw [h.arena, ← hs.arena.contains_canonical_iff, hu]
    exact hs.arena.contains_canonical hv
  rw [isLocked_eq hlive, OrderedMap.contains, hfree]
  rfl

/-! ## Main result -/

/-- A lock of a variable that is there holds its whole group, at the values after the write. -/
lemma Reachable.ensures_lock_held (h : Reachable s) (hv : s.arena.contains v = true)
    (value : Option α) :
    Ensures (fun _ => False) (lock v value false) (fun _ s' => LocksOnly v s s' ∧
      (value = none → s'.arena = s.arena) ∧
      ∀ u, s.arena.canonical u = s.arena.canonical v → s'.Held u) s := by
  have hs := h.intact
  have hholding : Ensures (fun _ => True) (lock v value false)
      (fun _ s' => s'.GroupLocked v ∧ (value = none → s'.arena = s.arena)) s := by
    cases value with
    | none =>
        exact (ensures_lock_none_holding hs v false).imp fun _ s' hs' =>
          ⟨⟨s, by rwa [hs'.arena]⟩, fun _ => hs'.arena⟩
    | some x =>
        refine (ensures_lock_holding hs v x false).imp fun _ s' hs' => ?_
        obtain ⟨a, -, hs'⟩ := hs'
        have harena : s'.arena = a := hs'.arena
        exact ⟨⟨{ s with arena := a }, by rwa [harena]⟩, by simp⟩
  have hreachable := (ensures_bind _ _).1 (h.ensures_perform (.lock v value false))
  have hnever := ensures_lock_grows (E := fun _ => False) hs hv value false
  refine (((hnever.and hreachable).and (ensures_lock_locksOnly hs v value false)).and
    hholding).mono (fun _ h => h.1.1.1) ?_
  rintro ⟨⟩ s' ⟨⟨⟨-, hs'⟩, honly⟩, hgroup, harena⟩
  have hs' : Reachable s' := hs'
  refine ⟨honly, harena, fun u hu => ?_⟩
  rw [← canonical_congr honly.shape] at hu
  exact hgroup.held hs'.registered hs'.intact.arena hu

/-- **Locking acts on whole groups.**  In a reachable sketch, take a variable that is there.

* Locking it answers, and then everything in its group is locked, each variable by a constant at the
  value that it has.
* Unlocking it answers, and then nothing in its group is locked.
* Toggling its lock answers whether it is locked now, and so is everything in its group.

None of these touches links, handles or constraints other than constants on the group, and without a
value to write none changes values. -/
theorem reachable_groupLock (h : Reachable s) (hv : s.arena.contains v = true) :
    (∀ value, ∃ s', lock v value false s = .ok ⟨⟩ s' ∧ LocksOnly v s s' ∧
      (value = none → s'.arena = s.arena) ∧
      ∀ u, s.arena.canonical u = s.arena.canonical v → s'.Held u) ∧
    (∃ s', unlock v s = .ok ⟨⟩ s' ∧ LocksOnly v s s' ∧ s'.arena = s.arena ∧
      ∀ u, s.arena.canonical u = s.arena.canonical v → s'.isLocked u = .ok false) ∧
    ∃ b s', toggleLock v s = .ok b s' ∧ s.isLocked v = .ok (!b) ∧ LocksOnly v s s' ∧
      s'.arena = s.arena ∧
      ∀ u, s.arena.canonical u = s.arena.canonical v → s'.isLocked u = .ok b := by
  have hlock := h.ensures_lock_held hv
  have hunlock := ensures_unlock_freed (E := fun _ => False) h.intact hv
  refine ⟨fun value => ?_, ?_, ?_⟩
  · obtain ⟨⟨⟩, s', hrun, hs'⟩ := (hlock value).exists_ok
    exact ⟨s', hrun, hs'⟩
  · obtain ⟨⟨⟩, s', hrun, hfreed, hfree⟩ := hunlock.exists_ok
    exact ⟨s', hrun, hfreed.toLocksOnly, hfreed.arena, hfree⟩
  · refine Ensures.exists_ok ?_
    rw [toggleLock, ensures_get_bind, ensures_found (isLocked_eq hv)]
    cases hlocked : s.memo.contains (.constant v) with
    | true =>
        simp only [if_true, ensures_bind, ensures_pure]
        refine hunlock.imp fun _ s' hs' => ?_
        exact ⟨by rw [isLocked_eq hv, hlocked]; rfl, hs'.1.toLocksOnly, hs'.1.arena, hs'.2⟩
    | false =>
        simp only [Bool.false_eq_true, if_false, ensures_bind, ensures_pure]
        refine (hlock none).imp fun _ s' hs' => ?_
        exact ⟨by rw [isLocked_eq hv, hlocked]; rfl, hs'.1, hs'.2.1 rfl,
          fun u hu => (hs'.2.2 u hu).locked⟩

/-- Of the second pair one variable is locked, to another value than it has.  Locking the other one
holds both at their values, and unlocking it frees both. -/
theorem groupLock_fastened :
    (∃ s', lock ⟨3⟩ none false fastened = .ok ⟨⟩ s' ∧ s'.arena = fastened.arena ∧
      s'.Held ⟨2⟩ ∧ s'.Held ⟨3⟩) ∧
    ∃ s', unlock ⟨3⟩ fastened = .ok ⟨⟩ s' ∧ s'.isLocked ⟨2⟩ = .ok false := by
  obtain ⟨hlock, ⟨s', hunlock, -, -, hfree⟩, -⟩ :=
    reachable_groupLock reachable_fastened (v := ⟨3⟩) (by decide +kernel)
  obtain ⟨t, hrun, -, harena, hheld⟩ := hlock none
  exact ⟨⟨t, hrun, harena rfl, hheld ⟨2⟩ (by decide +kernel), hheld ⟨3⟩ rfl⟩,
    s', hunlock, hfree ⟨2⟩ (by decide +kernel)⟩

end Sketch

end SketchSolver
