import Mathlib
import SketchSolver.Sketch.Operation
import SketchSolver.Proofs.Sketch.Change

/-!
# Operations are made of changes

Whatever every change keeps, every operation keeps, whether it succeeds or fails half-way.  There is
one lemma for each operation, and it says which changes the operation is made of.

**Constraints.**  `ensures_insertChecked` is the heart of it: what a constraint refers to is
checked before anything changes, so drawing its consequences cannot fail.

**Owners.**  A constraint that owns variables takes its identifier before they are added.  Between
the two nothing fails, so all of it is one change.

**Breaking off.**  `breakOff` first detaches a variable behind the back of the clustering.  The
first removal that follows forgets the clustering, and if there is none, `breakOff` itself does.
-/

namespace SketchSolver

namespace Sketch

open Edit

variable {α : Type} [Scalar α] {s : Sketch α} {I E : Sketch α → Prop}

/-! ## Values -/

theorem ensures_setValue (hI : Invariant I) (h : I s) (v : VarId) (x : α) :
    Ensures I (setValue v x) (fun _ => I) s := by
  have harena := (hI.intact h).arena
  simp only [setValue, onArena, ensures_bind, ensures_get, ensures_ofExcept, ensures_set]
  refine ⟨fun b hset => ?_, fun _ _ => h⟩
  obtain ⟨hwf, hshape, -⟩ := harena.of_setValue hset
  exact hI.step h (.revalue hwf hshape)

theorem ensures_moveHandle (hI : Invariant I) (h : I s) (id : HandleId) (position : Point α) :
    Ensures I (moveHandle id position) (fun _ => I) s := by
  simp only [moveHandle, ensures_bind, ensures_get, ensures_ofExcept]
  refine ⟨fun c _ => ?_, fun _ _ => h⟩
  exact (ensures_setValue hI h c.x position.x).imp fun _ _ hs =>
    ensures_setValue hI hs c.y position.y

/-! ## Removals -/

/-- A sketch that a cut leads to. -/
lemma Invariant.cut (hI : Invariant I) (h : I s) {id : ConstraintId} {c : Constraint α}
    (hget : s.constraints.get? id = some c) : I (s.cut id) :=
  hI.step h (.remove (.ofConstraint hget))

theorem ensures_removeConstraint (hI : Invariant I) (h : I s) (id : ConstraintId) :
    Ensures I (removeConstraint id) (fun _ => I) s := by
  simp only [removeConstraint, ensures_bind, ensures_get, ensures_discard, ensures_ofExcept,
    ensures_set]
  refine ⟨fun c hfind => ?_, fun _ _ => h⟩
  rw [ConstraintTable.find] at hfind
  cases hget : s.constraints.get? id with
  | none =>
      rw [hget] at hfind
      cases hfind
  | some c => exact hI.cut h hget

theorem ensures_removeVariable (hI : Invariant I) (h : I s) (v : VarId) :
    Ensures I (removeVariable v) (fun _ => I) s := by
  simp only [removeVariable, ensures_bind, ensures_get, ensures_discard, ensures_ofExcept,
    ensures_set]
  exact ⟨fun _ _ => hI.step h (.remove (.ofVariable s v)), fun _ _ => h⟩

theorem ensures_removeHandle (hI : Invariant I) (h : I s) (id : HandleId) :
    Ensures I (removeHandle id) (fun _ => I) s := by
  simp only [removeHandle, ensures_bind, ensures_get, ensures_discard, ensures_ofExcept,
    ensures_set]
  exact ⟨fun _ _ => hI.step h (.remove (.ofHandle s id)), fun _ _ => h⟩

/-! ## Adding a constraint -/

omit [Scalar α] in
/-- What is live passes the check. -/
lemma checkReferences_of_live {c : Constraint α} (hground : s.handles.Grounded s.arena)
    (hc : c.Live s.handles s.arena) : s.checkReferences c = .ok ⟨⟩ := by
  obtain ⟨vs, hvs, -⟩ := hc.vars_spec
  have hlive : ∀ v ∈ vs, s.arena.contains v = true := fun v hv =>
    hc.contains_of_uses hground ⟨vs, hvs, hv⟩
  rw [checkReferences, hvs, ok_bind]
  clear hvs
  induction vs with
  | nil => rfl
  | cons v vs ih =>
      obtain ⟨x, hx⟩ := Arena.find_ok (hlive v List.mem_cons_self)
      show (discard (s.arena.find v) >>= fun _ => vs.forM fun id => discard (s.arena.find id)) = _
      rw [hx, discard_ok, ok_bind]
      exact ih fun w hw => hlive w (List.mem_cons_of_mem _ hw)

omit [Scalar α] in
/-- A variable that was found is there. -/
lemma contains_of_discard_find {a : Arena α} {v : VarId}
    (h : discard (a.find v) = (.ok ⟨⟩ : Except SolverError PUnit)) : a.contains v = true := by
  cases hfind : a.find v with
  | ok x => exact Arena.contains_of_find hfind
  | error e =>
      rw [hfind] at h
      cases h

omit [Scalar α] in
/-- What has been checked is live. -/
lemma live_of_checkReferences {c : Constraint α} (h : s.checkReferences c = .ok ⟨⟩) :
    c.Live s.handles s.arena := by
  rw [checkReferences, bind_eq_ok_iff] at h
  obtain ⟨vs, hvs, hcheck⟩ := h
  refine Constraint.live_of_vars hvs fun v hv => ?_
  clear hvs
  induction vs with
  | nil => cases hv
  | cons w ws ih =>
      have hsplit : (discard (s.arena.find w) >>= fun _ =>
          ws.forM fun id => discard (s.arena.find id)) = .ok ⟨⟩ := hcheck
      obtain ⟨⟨⟩, hw, hws⟩ := bind_eq_ok_iff.1 hsplit
      rcases List.mem_cons.1 hv with rfl | hv
      · exact contains_of_discard_find hw
      · exact ih hws hv

/-- Drawing consequences that can be drawn. -/
lemma ensures_relate {c : Constraint α} {b : Arena α} {u : HandleTable}
    (hrelate : c.relate s.arena s.handles = .ok (b, u))
    {Q : PUnit → Sketch α → Prop} (hQ : Q ⟨⟩ { s with arena := b, handles := u }) :
    Ensures E (relate c) Q s := by
  simp only [relate, ensures_bind, ensures_get, ensures_ofExcept, ensures_set, hrelate]
  refine ⟨fun r hr => ?_, fun e he => ?_⟩
  · cases hr
    exact hQ
  · cases he

/-- Drawing the consequences of an update never fails. -/
lemma ensures_settleUpdate (hI : Invariant I) (h : I s) {id : ConstraintId} {old c : Constraint α}
    {key : ConstraintKey} (hold : s.constraints.get? id = some old) (hkey : old.key = some key)
    (hkey' : c.key = some key) (howned : c.owned = []) (hc : c.Live s.handles s.arena) :
    Ensures E (settleUpdate old c) (fun _ => I)
      { s with constraints := s.constraints.insert id c } := by
  obtain ⟨b, u, hrelate, -⟩ := (hI.intact h).toSoundExcept.relate hc
  have hloud : Ensures E (do relate c; modify invalidate) (fun _ => I)
      { s with constraints := s.constraints.insert id c } := by
    rw [ensures_bind]
    apply ensures_relate
    · exact hrelate
    · exact hI.step h (.replace hold hkey hkey' howned hc hrelate)
  unfold settleUpdate
  by_cases hquiet : isQuietUpdate old c = true
  · rw [if_pos hquiet]
    exact hI.step h (.replaceQuietly hold hkey hkey' hc hquiet)
  · rw [if_neg hquiet]
    cases old with
    | finger i p =>
        cases c with
        | finger j q =>
            obtain rfl : i = j := by simpa [Constraint.key] using hkey.trans hkey'.symm
            obtain ⟨point, hpoint⟩ :=
              (HandleTable.contains_iff_coords? i).1 (hc.handles i List.mem_cons_self)
            have hmoved := hI.step h (.moveFinger q hold hpoint)
            rw [ensures_get_bind]
            split
            · rename_i cs hcs
              simp only [ensures_bind, ensures_ofExcept, ensures_set,
                (HandleTable.coords_eq_ok_iff i point).2 hpoint]
              refine ⟨fun point' hpoint' => ?_, fun e he => ?_⟩
              · cases hpoint'
                rw [show s.clusters = some cs from hcs] at hmoved
                exact hmoved
              · cases he
            · rename_i hcs
              have hnone : s.clusters = none := Option.eq_none_iff_forall_ne_some.2 hcs
              rw [ensures_pure]
              simpa only [hnone, Option.map_none] using hmoved
        | _ => exact hloud
    | _ => exact hloud

omit [Scalar α] in
/-- The constraint with the same key is the one that the memo leads to. -/
lemma sameKey_eq_some_iff {c old : Constraint α} {id : ConstraintId} :
    s.sameKey c = some (id, old) ↔ ∃ key, c.key = some key ∧ s.memo.get? key = some id ∧
      s.constraints.get? id = some old := by
  simp only [sameKey, Option.bind_eq_bind, Option.bind_eq_some_iff, Option.some.injEq,
    Prod.mk.injEq, Option.pure_def]
  constructor
  · rintro ⟨key, hkey, i, hmemo, d, hget, rfl, rfl⟩
    exact ⟨key, hkey, hmemo, hget⟩
  · rintro ⟨key, hkey, hmemo, hget⟩
    exact ⟨key, hkey, id, hmemo, old, hget, rfl, rfl⟩

lemma sameKey_eq_some {c old : Constraint α} {id : ConstraintId} (h : s.Sound)
    (hsame : s.sameKey c = some (id, old)) :
    s.constraints.get? id = some old ∧ ∃ key, old.key = some key ∧ c.key = some key := by
  obtain ⟨key, hkey, hmemo, hget⟩ := sameKey_eq_some_iff.1 hsame
  obtain ⟨d', hget', hkey'⟩ := h.memo hmemo
  rw [hget] at hget'
  cases hget'
  exact ⟨hget, key, hkey', hkey⟩

lemma unknown_of_sameKey_eq_none {c : Constraint α} (h : s.Sound) (hsame : s.sameKey c = none)
    {key : ConstraintKey} (hkey : c.key = some key) : s.memo.get? key = none := by
  cases hmemo : s.memo.get? key with
  | none => rfl
  | some id =>
      obtain ⟨d, hget, -⟩ := h.memo hmemo
      simp [sameKey, hkey, hmemo, hget] at hsame

/-- The last part of adding a constraint never fails. -/
lemma ensures_register {s₀ : Sketch α} (hI : Invariant I) (h : I s₀) {id : ConstraintId}
    {c : Constraint α} (hadd : s₀.Addable c) (hprepared : Prepared s₀ id c.ownedQuantities s) :
    Ensures E (do relate c; modify invalidate) (fun _ => I)
      { s with memo := s.remember id c, constraints := s.constraints.insert id c } := by
  have hs := (hprepared.intact (hI.intact h)).toSoundExcept
  obtain ⟨b, u, hrelate, -⟩ := hs.relate (hprepared.live hadd)
  rw [ensures_bind]
  apply ensures_relate
  · exact hrelate
  · exact hI.step h (.addConstraint hadd hprepared hrelate)

/-- **Adding a constraint** that owns nothing, or updating the one with the same key.  It can fail
only before anything changes. -/
theorem ensures_insertChecked (hI : Invariant I) (h : I s) {c : Constraint α}
    (howned : c.owned = []) (hE : ¬ c.Live s.handles s.arena → E s) :
    Ensures E (insertConstraint none c) (fun _ => I) s := by
  have hs := (hI.intact h).toSoundExcept
  simp only [insertConstraint, ensures_bind, ensures_get, ensures_ofExcept]
  refine ⟨fun _ hcheck => ?_, fun e hcheck => hE fun hc => ?_⟩
  · have hc := live_of_checkReferences hcheck
    cases hsame : s.sameKey c with
    | some found =>
        obtain ⟨i, old⟩ := found
        obtain ⟨hold, key, hkey, hkey'⟩ := sameKey_eq_some hs hsame
        simp only [ensures_bind, ensures_set, ensures_pure]
        exact ensures_settleUpdate hI h hold hkey hkey' howned hc
    | none =>
        have hadd : s.Addable c :=
          { handles := hc.handles
            inputs := fun v hv => hc.named v (List.mem_append_left _ hv)
            unknown := unknown_of_sameKey_eq_none hs hsame }
        have hprepared :
            Prepared s ⟨s.ids.next⟩ c.ownedQuantities { s with ids := s.ids.fresh.2 } := by
          rw [List.map_eq_nil_iff.1 howned]
          exact .reserve rfl
        simp only [ensures_bind, ensures_set, ensures_pure]
        exact (ensures_bind _ _).1 (ensures_register hI h hadd hprepared)
  · rw [checkReferences_of_live hs.grounded hc] at hcheck
    cases hcheck

theorem ensures_insertNew (hI : Invariant I) (h : I s) {c : Constraint α} (howned : c.owned = []) :
    Ensures I (insertConstraint none c) (fun _ => I) s :=
  ensures_insertChecked hI h howned fun _ => h

/-! ## Constraints that own variables -/

/-- Adding a constraint whose owned variables have been prepared never fails. -/
lemma ensures_insertPrepared {s₀ : Sketch α} (hI : Invariant I) (h : I s₀) {id : ConstraintId}
    {c : Constraint α} (hadd : s₀.Addable c) (hprepared : Prepared s₀ id c.ownedQuantities s) :
    Ensures E (insertConstraint (some id) c) (fun _ => I) s := by
  have hs := (hprepared.intact (hI.intact h)).toSoundExcept
  have hcheck := checkReferences_of_live hs.grounded (hprepared.live hadd)
  have hsame : s.sameKey c = none := by
    cases hkey : c.key with
    | none => simp [sameKey, hkey]
    | some key => simp [sameKey, hkey, hprepared.same.2.2, hadd.unknown hkey]
  simp only [insertConstraint, ensures_bind, ensures_get, ensures_ofExcept, hcheck, hsame]
  refine ⟨fun _ _ => ?_, by rintro e ⟨⟩⟩
  simp only [ensures_set, ensures_pure]
  exact (ensures_bind _ _).1 (ensures_register hI h hadd hprepared)

omit [Scalar α] in
lemma ensures_reserve :
    Ensures E reserve (fun id => Prepared s id []) s := by
  rw [reserve, ensures_modifyGet]
  exact .reserve rfl

omit [Scalar α] in
lemma ensures_own {s₀ : Sketch α} {id : ConstraintId} {owned : List (VarId × Quantity)}
    (h : Prepared s₀ id owned s) (q : Quantity) (x : α) :
    Ensures E (own id q x) (fun v => Prepared s₀ id (owned ++ [(v, q)])) s := by
  rw [own, ensures_modifyGet]
  exact h.own q x

/-- Adding a constraint that owns one variable never fails. -/
lemma ensures_ownOne (hI : Invariant I) (h : I s) (q : Quantity) (x : α)
    {c : VarId → Constraint α} (howned : ∀ v, (c v).ownedQuantities = [(v, q)])
    (hadd : ∀ v, s.Addable (c v)) :
    Ensures E (do
      let id ← reserve
      let v ← own id q x
      insertConstraint (some id) (c v)) (fun _ => I) s := by
  simp only [ensures_bind]
  refine ensures_reserve.imp fun id s₁ h₁ => ?_
  refine (ensures_own h₁ q x).imp fun v s₂ h₂ => ?_
  exact ensures_insertPrepared hI h (hadd v) (howned v ▸ h₂)

omit [Scalar α] in
/-- A handle that has a position is there. -/
lemma contains_of_position {id : HandleId} {p : Point α} (h : s.position id = .ok p) :
    s.handles.contains id = true := by
  obtain ⟨c, hc, -⟩ := bind_eq_ok_iff.1 h
  exact (HandleTable.contains_iff_coords? id).2 ⟨c, (HandleTable.coords_eq_ok_iff id c).1 hc⟩

omit [Scalar α] in
/-- A constraint between two handles that have positions can be added. -/
lemma addable_between {c : Constraint α} {start finish : HandleId} {p q : Point α}
    (hhandles : c.handles = [start, finish]) (hinputs : c.inputs = [])
    (hp : s.position start = .ok p) (hq : s.position finish = .ok q)
    (hunknown : ∀ {key}, c.key = some key → s.memo.get? key = none) : s.Addable c where
  handles i hi := by
    rw [hhandles, List.mem_pair] at hi
    rcases hi with rfl | rfl
    · exact contains_of_position hp
    · exact contains_of_position hq
  inputs v hv := by
    rw [hinputs] at hv
    cases hv
  unknown := hunknown

theorem ensures_distance (hI : Invariant I) (h : I s) (hE : E s) (start finish : HandleId) :
    Ensures E (distance start finish) (fun _ => I) s := by
  rw [distance, ensures_get_bind]
  refine ensures_read hE fun p hp => ?_
  refine ensures_read hE fun q hq => ?_
  exact ensures_ownOne hI h _ _ (fun _ => rfl) fun _ =>
    addable_between rfl rfl hp hq (by rintro k ⟨⟩)

theorem ensures_angle (hI : Invariant I) (h : I s) (hE : E s) (start finish : HandleId) :
    Ensures E (angle start finish) (fun _ => I) s := by
  rw [angle, ensures_get_bind]
  refine ensures_read hE fun p hp => ?_
  refine ensures_read hE fun q hq => ?_
  exact ensures_ownOne hI h _ _ (fun _ => rfl) fun _ =>
    addable_between rfl rfl hp hq (by rintro k ⟨⟩)

omit [Scalar α] in
/-- A variable that has a value is there. -/
lemma contains_of_value {a : Arena α} {v : VarId} {x : α} (h : a.value v = .ok x) :
    a.contains v = true :=
  (a.contains_iff_value? v).2 ⟨x, (a.value_eq_ok_iff v x).1 h⟩

theorem ensures_formula (hI : Invariant I) (h : I s) (hE : E s) (m x b : VarId) :
    Ensures E (formula m x b) (fun _ => I) s := by
  rw [formula, ensures_get_bind]
  refine ensures_read hE fun value hvalue => ?_
  obtain ⟨y, hm, hrest⟩ := bind_eq_ok_iff.1 hvalue
  obtain ⟨z, hx, hrest⟩ := bind_eq_ok_iff.1 hrest
  obtain ⟨w, hb, -⟩ := bind_eq_ok_iff.1 hrest
  refine ensures_ownOne hI h _ _ (fun _ => rfl) fun v =>
    { handles := by simp [Constraint.handles], inputs := fun u hu => ?_, unknown := by rintro k ⟨⟩ }
  simp only [Constraint.inputs, List.mem_cons, List.not_mem_nil, or_false] at hu
  rcases hu with rfl | rfl | rfl
  · exact contains_of_value hm
  · exact contains_of_value hx
  · exact contains_of_value hb

theorem ensures_polar (hI : Invariant I) (h : I s) (hE : E s) (start finish : HandleId) :
    Ensures E (polar start finish) (fun _ => I) s := by
  rw [polar, ensures_get_bind]
  simp only [ensures_bind, ensures_discard, ensures_ofExcept]
  refine ⟨fun _ _ => ⟨fun _ _ => ?_, fun _ _ => hE⟩, fun _ _ => hE⟩
  cases hmemo : s.memo.get? (.polar start finish) with
  | some existing => exact h
  | none =>
      refine ensures_read hE fun p hp => ?_
      refine ensures_read hE fun q hq => ?_
      simp only [ensures_bind]
      refine ensures_reserve.imp fun id s₁ h₁ => ?_
      refine (ensures_own h₁ _ _).imp fun length s₂ h₂ => ?_
      refine (ensures_own h₂ _ _).imp fun bearing s₃ h₃ => ?_
      refine ensures_insertPrepared hI h (addable_between rfl rfl hp hq fun hkey => ?_) h₃
      cases hkey
      exact hmemo

/-! ## Locking -/

theorem ensures_holdHere (hI : Invariant I) (h : I s) (v : VarId) :
    Ensures I (holdHere v) (fun _ => I) s := by
  rw [holdHere, ensures_get_bind]
  refine ensures_read h fun x _ => ?_
  rw [ensures_discard]
  exact ensures_insertNew hI h rfl

theorem ensures_release (hI : Invariant I) (h : I s) (v : VarId) :
    Ensures I (release v) (fun _ => I) s := by
  rw [release, ensures_get_bind]
  split
  · exact ensures_removeConstraint hI h _
  · exact h

theorem ensures_lock (hI : Invariant I) (h : I s) (v : VarId) (value : Option α) (scrub : Bool) :
    Ensures I (lock v value scrub) (fun _ => I) s := by
  have hrest : ∀ s' : Sketch α, I s' → Ensures I (lock v none scrub) (fun _ => I) s' := by
    intro s' hs'
    refine ensures_read hs' fun canonical _ => ?_
    exact ensures_forM (fun w _ s hs => ensures_holdHere hI hs w) hs'
  cases value with
  | none => exact hrest s h
  | some x =>
      rw [lock, ensures_bind]
      exact (ensures_setValue hI h v x).imp fun _ s' hs' => hrest s' hs'

theorem ensures_unlock (hI : Invariant I) (h : I s) (v : VarId) :
    Ensures I (unlock v) (fun _ => I) s := by
  rw [unlock, ensures_get_bind]
  refine ensures_read h fun canonical _ => ?_
  exact ensures_forM (fun w _ s hs => ensures_release hI hs w) h

theorem ensures_toggleLock (hI : Invariant I) (h : I s) (v : VarId) :
    Ensures I (toggleLock v) (fun _ => I) s := by
  rw [toggleLock, ensures_get_bind]
  refine ensures_read h fun locked _ => ?_
  cases locked with
  | true =>
      simp only [if_true, ensures_bind, ensures_pure]
      exact ensures_unlock hI h v
  | false =>
      simp only [Bool.false_eq_true, if_false, ensures_bind, ensures_pure]
      exact ensures_lock hI h v none false

/-! ## Unifying and breaking off -/

omit [Scalar α] in
/-- Whether a variable that is there is locked is in the memo. -/
lemma isLocked_eq {u : VarId} (hu : s.arena.contains u = true) :
    s.isLocked u = .ok (s.memo.contains (.constant u)) := by
  obtain ⟨_, hfind⟩ := Arena.find_ok hu
  rw [isLocked, hfind]
  rfl

/-- Making two variables equal ties them, and then it may write a value and put locks.  The lookups
before succeed if both are there. -/
lemma ensures_makeEqual_steps {E J : Sketch α → Prop} {this that : VarId} {offset : Affine α}
    (hs : E s ∨ s.arena.contains this = true ∧ s.arena.contains that = true)
    (hlinear : Ensures E (linear this offset.scale that offset.shift) (fun _ => J) s)
    (hset : ∀ {s}, J s → ∀ x, Ensures E (setValue that x) (fun _ => J) s)
    (hlock : ∀ {s}, J s → Ensures E (lock this none false) (fun _ => J) s) :
    Ensures E (makeEqual this that offset) (fun _ => J) s := by
  have hsteps : ∀ thisLocked thatLocked thatValue, Ensures E (do
      let id ← linear this offset.scale that offset.shift
      if thatLocked && !thisLocked then
        setValue that thatValue
      if thisLocked || thatLocked then
        lock this none false
      return id) (fun _ => J) s := by
    intro thisLocked thatLocked thatValue
    rw [ensures_bind]
    refine hlinear.imp fun id s₁ h₁ => ?_
    have hrest : ∀ s' : Sketch α, J s' →
        Ensures E (if (thisLocked || thatLocked) = true then
          lock this none false >>= fun _ => pure id else pure id) (fun _ => J) s' := by
      intro s' hs'
      split
      · rw [ensures_bind]
        exact hlock hs'
      · exact hs'
    by_cases hwrite : (thatLocked && !thisLocked) = true
    · simp only [if_pos hwrite]
      rw [ensures_bind]
      exact (hset h₁ thatValue).imp fun _ s' hs' => hrest s' hs'
    · simp only [if_neg hwrite]
      exact hrest s₁ h₁
  rw [makeEqual, ensures_get_bind]
  rcases hs with hs | ⟨hthis, hthat⟩
  · refine ensures_read hs fun thisLocked _ => ?_
    refine ensures_read hs fun thatLocked _ => ?_
    exact ensures_read hs fun thatValue _ => hsteps thisLocked thatLocked thatValue
  · obtain ⟨x, hx⟩ := (Arena.contains_iff_value? _ _).1 hthat
    rw [ensures_found (isLocked_eq hthis), ensures_found (isLocked_eq hthat),
      ensures_found ((Arena.value_eq_ok_iff _ _ _).2 hx)]
    exact hsteps _ _ x

theorem ensures_makeEqual (hI : Invariant I) (h : I s) (this that : VarId) (offset : Affine α) :
    Ensures I (makeEqual this that offset) (fun _ => I) s :=
  ensures_makeEqual_steps (Or.inl h) (ensures_insertNew hI h rfl)
    (fun h x => ensures_setValue hI h that x) fun h => ensures_lock hI h this none false

omit [Scalar α] in
/-- The joining constraints are there. -/
lemma get?_of_mem_joining {this that : VarId} {id : ConstraintId}
    (h : id ∈ s.joining this that) : ∃ c, s.constraints.get? id = some c := by
  obtain ⟨⟨i, c⟩, hmem, rfl⟩ := List.mem_map.1 h
  exact ⟨c, (s.constraints.mem_entries_iff i c).1 (List.mem_filter.1 hmem).1⟩

/-- Removing constraints one by one, the first of which is there: the clustering may be stale
before. -/
lemma ensures_removeAll (hI : Invariant I) (h : I s.invalidate) {id : ConstraintId}
    {c : Constraint α} (hget : s.constraints.get? id = some c) (rest : List ConstraintId) :
    Ensures I ((id :: rest).forM removeConstraint) (fun _ => I) s := by
  show Ensures I (removeConstraint id >>= fun _ => rest.forM removeConstraint) _ s
  have hfirst : Ensures I (removeConstraint id) (fun _ => I) s := by
    have hfind : s.constraints.find id = .ok c := by rw [ConstraintTable.find, hget]
    simp only [removeConstraint, ensures_bind, ensures_get, ensures_discard, ensures_ofExcept,
      ensures_set, hfind]
    exact ⟨fun _ _ => cut_invalidate hget ▸ hI.cut h hget, by rintro e ⟨⟩⟩
  rw [ensures_bind]
  exact hfirst.imp fun _ s' hs' =>
    ensures_forM (fun i _ s hs => ensures_removeConstraint hI hs i) hs'

theorem ensures_breakOff (hI : Invariant I) (h : I s) (this that : VarId) :
    Ensures I (breakOff this that) (fun _ => I) s := by
  have hrest : ∀ s' : Sketch α, I s'.invalidate → s'.constraints = s.constraints →
      Ensures I (do (s.joining this that).forM removeConstraint; modify invalidate)
        (fun _ => I) s' := by
    intro s' hs' hsame
    rw [ensures_bind]
    cases hids : s.joining this that with
    | nil => exact hs'
    | cons id rest =>
        obtain ⟨c, hget⟩ := get?_of_mem_joining (hids ▸ List.mem_cons_self : id ∈ _)
        exact (ensures_removeAll hI hs' (hsame ▸ hget) rest).imp fun _ _ hs =>
          hI.step hs (.invalidate _)
  rw [breakOff, ensures_get_bind]
  simp only [ensures_bind, ensures_discard, ensures_ofExcept]
  refine ⟨fun _ _ => ⟨fun _ _ => ?_, fun _ _ => h⟩, fun _ _ => h⟩
  split
  · exact hrest _ (hI.step h (.detach s _)) rfl
  · exact hrest s (hI.step h (.invalidate s)) rfl

/-! ## Clustering -/

/-- **Clustering** an intact sketch never fails.  Constraints and coordinates stay as they are, and
no variable comes or goes. -/
theorem Intact.clustered_spec (h : s.Intact) :
    ∃ cs s', s.clustered = .ok (cs, s') ∧ s'.Intact ∧ s'.clusters = some cs ∧
      s'.constraints = s.constraints ∧ s'.Refers = s.Refers ∧
      s'.handles.points = s.handles.points ∧ s'.arena.ids = s.arena.ids := by
  rw [clustered]
  cases hcs : s.clusters with
  | some cs => exact ⟨cs, s, rfl, h, hcs, rfl, rfl, rfl, rfl⟩
  | none =>
      obtain ⟨cs, b, u, hbuild, hintact, hrefers, hpoints, hids⟩ := h.build_spec
      refine ⟨cs, { s with arena := b, handles := u, clusters := some cs }, ?_, hintact, rfl, rfl,
        hrefers, hpoints, hids⟩
      simp only [hbuild, ok_bind]
      rfl

/-- The sketch that clustering has led to. -/
lemma Intact.of_clustered (h : s.Intact) {cs : List (Cluster α)} {s' : Sketch α}
    (hclustered : s.clustered = .ok (cs, s')) : s'.Intact ∧ s'.clusters = some cs := by
  obtain ⟨_, _, hclustered', hs', hcs, -⟩ := h.clustered_spec
  rw [hclustered] at hclustered'
  cases hclustered'
  exact ⟨hs', hcs⟩

/-- Clustering changes nothing, or it is a change. -/
lemma Invariant.clustered (hI : Invariant I) (h : I s) {cs : List (Cluster α)} {s' : Sketch α}
    (hclustered : s.clustered = .ok (cs, s')) : I s' := by
  rw [Sketch.clustered] at hclustered
  split at hclustered
  · cases hclustered
    exact h
  · obtain ⟨⟨cs', b, u⟩, hbuild, hpure⟩ := bind_eq_ok_iff.1 hclustered
    cases hpure
    exact hI.step h (.cluster hbuild)

theorem ensures_currentClusters (hI : Invariant I) (h : I s) :
    Ensures I currentClusters (fun _ => I) s := by
  simp only [currentClusters, ensures_bind, ensures_get, ensures_ofExcept, ensures_set,
    ensures_pure]
  exact ⟨fun r hr => hI.clustered h hr, fun _ _ => h⟩

end Sketch

/-! ## Every operation -/

namespace Operation

open Edit Sketch

variable {α : Type} [Scalar α] {s : Sketch α} {I : Sketch α → Prop}

/-- **Every operation keeps every invariant**, whether it succeeds or fails. -/
theorem ensures_perform (hI : Invariant I) (h : I s) (op : Operation α) :
    Ensures I op.perform (fun _ => I) s := by
  cases op with
  | addVariable x label => exact hI.step h (.addVariable s x label)
  | addHandle position => exact hI.step h (.addHandle s position)
  | setValue v x => exact (ensures_bind _ _).2 (ensures_setValue hI h v x)
  | moveHandle id position => exact (ensures_bind _ _).2 (ensures_moveHandle hI h id position)
  | removeVariable v => exact (ensures_bind _ _).2 (ensures_removeVariable hI h v)
  | removeHandle id => exact (ensures_bind _ _).2 (ensures_removeHandle hI h id)
  | removeConstraint id => exact (ensures_bind _ _).2 (ensures_removeConstraint hI h id)
  | constant v x => exact (ensures_map _ _).2 (ensures_insertNew hI h rfl)
  | pin id position => exact (ensures_map _ _).2 (ensures_insertNew hI h rfl)
  | finger id position => exact (ensures_map _ _).2 (ensures_insertNew hI h rfl)
  | linear y m x b => exact (ensures_map _ _).2 (ensures_insertNew hI h rfl)
  | absorb parent child => exact (ensures_map _ _).2 (ensures_insertNew hI h rfl)
  | polar start finish => exact (ensures_map _ _).2 (ensures_polar hI h h start finish)
  | distance start finish => exact (ensures_map _ _).2 (ensures_distance hI h h start finish)
  | angle start finish => exact (ensures_map _ _).2 (ensures_angle hI h h start finish)
  | formula m x b => exact (ensures_map _ _).2 (ensures_formula hI h h m x b)
  | makeEqual this that offset =>
      exact (ensures_map _ _).2 (ensures_makeEqual hI h this that offset)
  | breakOff this that => exact (ensures_bind _ _).2 (ensures_breakOff hI h this that)
  | lock v value scrub => exact (ensures_bind _ _).2 (ensures_lock hI h v value scrub)
  | unlock v => exact (ensures_bind _ _).2 (ensures_unlock hI h v)
  | toggleLock v => exact (ensures_map _ _).2 (ensures_toggleLock hI h v)
  | cluster => exact (ensures_map _ _).2 (ensures_currentClusters hI h)
  | setConfig config => exact hI.step h (.configure s config s.stabilizeGizmos s.fingerOfGod)
  | setStabilizeGizmos enabled => exact hI.step h (.configure s s.config enabled s.fingerOfGod)
  | setFingerOfGod enabled => exact hI.step h (.configure s s.config s.stabilizeGizmos enabled)

end Operation

end SketchSolver
