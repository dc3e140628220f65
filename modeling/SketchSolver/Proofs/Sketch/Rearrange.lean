import Mathlib
import SketchSolver.Proofs.Sketch.Lock

/-!
# What an operation does to the unifications

While nothing is clustered anew, an operation takes groups apart, or it makes the unifications of
one relationship, and then that relationship is there afterwards.

* `Constraint.Relates` — the constraints that make unifications, all others make none.
* `Edit.Sheds` — an edit absorbs nothing, whether it succeeds or fails.
* `Sketch.Related` — an edit has made the unifications of a relationship that is there now.
* **`Operation.sheds_or_related`** — every operation but clustering is of one of these two kinds.
-/

namespace SketchSolver

variable {α β γ : Type}

/-- The constraints that make unifications. -/
def Constraint.Relates : Constraint α → Prop
  | .linear .. | .absorb .. => True
  | .constant .. | .pin .. | .finger .. | .polar .. | .distance .. | .angle .. | .formula .. =>
    False

lemma Constraint.relate_of_not_relates [Scalar α] {c : Constraint α} (hc : ¬ c.Relates)
    (a : Arena α) (t : HandleTable) : c.relate a t = .ok (a, t) := by
  cases c <;> first | rfl | exact absurd trivial hc

namespace Edit

/-- Whatever the edit is run on, it absorbs nothing. -/
def Sheds (x : Edit α β) : Prop :=
  ∀ s, Ensures (fun s' => s.arena.Sheds s'.arena) x (fun _ s' => s.arena.Sheds s'.arena) s

lemma Sheds.after {x : Edit α β} (h : x.Sheds) (s : Sketch α) : s.arena.Sheds (x.after s).arena :=
  (h s).after

lemma sheds_pure (b : β) : Sheds (pure b : Edit α β) := fun s => .refl s.arena

lemma Sheds.bind {x : Edit α γ} (hx : x.Sheds) {f : γ → Edit α β} (hf : ∀ c, (f c).Sheds) :
    (x >>= f).Sheds := by
  intro s
  rw [ensures_bind]
  exact (hx s).imp fun c s₁ h₁ =>
    (hf c s₁).mono (fun _ h₂ => h₁.trans h₂) fun _ _ h₂ => h₁.trans h₂

lemma Sheds.map {x : Edit α γ} (hx : x.Sheds) (f : γ → β) : (f <$> x).Sheds := by
  intro s
  rw [ensures_map]
  exact hx s

lemma Sheds.discard {x : Edit α γ} (hx : x.Sheds) : Sheds (discard x : Edit α PUnit) := by
  intro s
  rw [ensures_discard]
  exact hx s

lemma Sheds.get_bind {f : Sketch α → Edit α β} (hf : ∀ s, (f s).Sheds) : (get >>= f).Sheds :=
  fun s => (ensures_get_bind f).2 (hf s s)

lemma sheds_ofExcept (x : Except SolverError β) : Sheds (ofExcept x : Edit α β) := by
  intro s
  rw [ensures_ofExcept]
  exact ⟨fun _ _ => .refl _, fun _ _ => .refl _⟩

lemma sheds_modifyGet {f : Sketch α → β × Sketch α}
    (hf : ∀ s : Sketch α, s.arena.Sheds (f s).2.arena) :
    Sheds (modifyGet f : Edit α β) :=
  fun s => hf s

lemma sheds_modify {f : Sketch α → Sketch α}
    (hf : ∀ s : Sketch α, s.arena.Sheds (f s).arena) :
    Sheds (modify f : Edit α PUnit) :=
  fun s => hf s

lemma Sheds.forM {f : γ → Edit α PUnit} (hf : ∀ c, (f c).Sheds) (xs : List γ) :
    Sheds (xs.forM f) :=
  fun _ => ensures_forM (fun c _ s₁ h₁ =>
    (hf c s₁).mono (fun _ h₂ => h₁.trans h₂) fun _ _ h₂ => h₁.trans h₂) (.refl _)

end Edit

namespace Sketch

open Edit

/-! ## Edits that absorb nothing -/

lemma sheds_addVariable (x : α) (r : Option Represents) (s : Sketch α) :
    s.arena.Sheds (addVariable x r s).2.arena :=
  Arena.sheds_insert _ _ _ _

lemma sheds_addHandle (p : Point α) (s : Sketch α) : s.arena.Sheds (addHandle p s).2.arena :=
  (Arena.sheds_insert _ _ _ _).trans (Arena.sheds_insert _ _ _ _)

lemma sheds_reserve : Sheds (reserve : Edit α ConstraintId) :=
  sheds_modifyGet fun _ => .refl _

lemma sheds_own (id : ConstraintId) (q : Quantity) (x : α) : Sheds (own id q x) :=
  sheds_modifyGet (sheds_addVariable x _)

lemma sheds_removeConstraint (id : ConstraintId) : Sheds (removeConstraint (α := α) id) := by
  intro s
  simp only [removeConstraint, ensures_bind, ensures_get, ensures_discard, ensures_ofExcept,
    ensures_set]
  exact ⟨fun _ _ => (removals_cascade _ id s).sheds, fun _ _ => .refl _⟩

lemma sheds_removeVariable (v : VarId) : Sheds (removeVariable (α := α) v) := by
  intro s
  simp only [removeVariable, ensures_bind, ensures_get, ensures_discard, ensures_ofExcept,
    ensures_set]
  exact ⟨fun _ _ => (removals_dropVariable (removals_cascade _) v s).sheds, fun _ _ => .refl _⟩

lemma sheds_removeHandle (id : HandleId) : Sheds (removeHandle (α := α) id) := by
  intro s
  simp only [removeHandle, ensures_bind, ensures_get, ensures_discard, ensures_ofExcept,
    ensures_set]
  exact ⟨fun _ _ => (removals_dropHandle (removals_cascade _) id s).sheds, fun _ _ => .refl _⟩

variable [Scalar α]

lemma shape_of_setValue {a b : Arena α} {v : VarId} {x : α} (h : a.setValue v x = .ok b) :
    b.shape = a.shape := by
  simp only [Arena.setValue] at h
  split at h
  · cases h
    exact Arena.shape_writeRoot a _ _
  · cases h

lemma sheds_setValue (v : VarId) (x : α) : Sheds (setValue v x) := by
  intro s
  simp only [setValue, onArena, ensures_bind, ensures_get, ensures_ofExcept, ensures_set]
  exact ⟨fun b hset => .of_shape (shape_of_setValue hset), fun _ _ => .refl _⟩

lemma sheds_moveHandle (id : HandleId) (p : Point α) : Sheds (moveHandle id p) :=
  .get_bind fun _ => (sheds_ofExcept _).bind fun _ =>
    (sheds_setValue _ _).bind fun _ => sheds_setValue _ _

variable {c : Constraint α}

lemma sheds_relate (hc : ¬ c.Relates) : Sheds (relate c) :=
  fun _ => ensures_relate (c.relate_of_not_relates hc _ _) (.refl _)

lemma sheds_settleUpdate (hc : ¬ c.Relates) (old : Constraint α) : Sheds (settleUpdate old c) := by
  have hloud : Sheds (do relate c; modify invalidate) :=
    (sheds_relate hc).bind fun _ => sheds_modify fun _ => .refl _
  unfold settleUpdate
  split
  · exact sheds_pure _
  · split
    · intro s
      rw [ensures_get_bind]
      split
      · simp only [ensures_bind, ensures_ofExcept, ensures_set]
        exact ⟨fun _ _ => .refl _, fun _ _ => .refl _⟩
      · exact sheds_pure _ s
    · exact hloud

lemma sheds_insertConstraint (hc : ¬ c.Relates) (id : Option ConstraintId) :
    Sheds (insertConstraint id c) := by
  intro s
  simp only [insertConstraint, ensures_bind, ensures_get, ensures_ofExcept]
  refine ⟨fun _ _ => ?_, fun _ _ => .refl _⟩
  split
  · simp only [ensures_bind, ensures_set, ensures_pure]
    exact sheds_settleUpdate hc _ _
  · simp only [ensures_bind, ensures_set, ensures_modify, ensures_pure]
    exact sheds_relate hc _

lemma sheds_distance (start finish : HandleId) : Sheds (distance (α := α) start finish) :=
  .get_bind fun _ => (sheds_ofExcept _).bind fun _ => (sheds_ofExcept _).bind fun _ =>
    sheds_reserve.bind fun _ => (sheds_own _ _ _).bind fun _ => sheds_insertConstraint id _

lemma sheds_angle (start finish : HandleId) : Sheds (angle (α := α) start finish) :=
  .get_bind fun _ => (sheds_ofExcept _).bind fun _ => (sheds_ofExcept _).bind fun _ =>
    sheds_reserve.bind fun _ => (sheds_own _ _ _).bind fun _ => sheds_insertConstraint id _

lemma sheds_formula (m x b : VarId) : Sheds (formula (α := α) m x b) :=
  .get_bind fun _ => (sheds_ofExcept _).bind fun _ =>
    sheds_reserve.bind fun _ => (sheds_own _ _ _).bind fun _ => sheds_insertConstraint id _

lemma sheds_polar (start finish : HandleId) : Sheds (polar (α := α) start finish) := by
  refine .get_bind fun s => (sheds_ofExcept _).discard.bind fun _ =>
    (sheds_ofExcept _).discard.bind fun _ => ?_
  cases s.memo.get? (.polar start finish) with
  | some existing => exact sheds_pure existing
  | none =>
      exact (sheds_ofExcept _).bind fun _ => (sheds_ofExcept _).bind fun _ =>
        sheds_reserve.bind fun _ => (sheds_own _ _ _).bind fun _ =>
          (sheds_own _ _ _).bind fun _ => sheds_insertConstraint id _

lemma sheds_holdHere (v : VarId) : Sheds (holdHere (α := α) v) :=
  .get_bind fun _ => (sheds_ofExcept _).bind fun _ => (sheds_insertConstraint id none).discard

omit [Scalar α] in
lemma sheds_release (v : VarId) : Sheds (release (α := α) v) := by
  refine .get_bind fun s => ?_
  split
  · exact sheds_removeConstraint _
  · exact sheds_pure _

lemma sheds_lock (v : VarId) (value : Option α) (scrub : Bool) : Sheds (lock v value scrub) := by
  have hrest : Sheds (lock (α := α) v none scrub) :=
    .get_bind fun _ => (sheds_ofExcept _).bind fun _ => .forM sheds_holdHere _
  cases value with
  | none => exact hrest
  | some x => exact (sheds_setValue v x).bind fun _ => hrest

lemma sheds_unlock (v : VarId) : Sheds (unlock (α := α) v) :=
  .get_bind fun _ => (sheds_ofExcept _).bind fun _ => .forM sheds_release _

lemma sheds_toggleLock (v : VarId) : Sheds (toggleLock (α := α) v) := by
  refine .get_bind fun s => (sheds_ofExcept _).bind fun locked => ?_
  cases locked with
  | true => exact (sheds_unlock v).bind fun _ => sheds_pure _
  | false => exact (sheds_lock v none false).bind fun _ => sheds_pure _

lemma sheds_breakOff (this that : VarId) : Sheds (breakOff (α := α) this that) := by
  intro s
  have hrest : Sheds (do (s.joining this that).forM removeConstraint; modify invalidate :
      Edit α PUnit) :=
    (Sheds.forM sheds_removeConstraint _).bind fun _ => sheds_modify fun _ => .refl _
  rw [breakOff, ensures_get_bind]
  simp only [ensures_bind, ensures_discard, ensures_ofExcept]
  refine ⟨fun _ _ => ⟨fun _ _ => ?_, fun _ _ => .refl _⟩, fun _ _ => .refl _⟩
  split
  · have hdetach := Arena.sheds_detach s.arena
      (if s.arena.canonical this = that then this else that)
    exact (hrest _).mono (fun _ h => hdetach.trans h) fun _ _ h => hdetach.trans h
  · exact hrest s

/-! ## Edits that make a relationship -/

/-- The unifications of the relationship `c` have been made, and it is there now. -/
structure Related (c : Constraint α) (s s' : Sketch α) : Prop where
  relates : c.Relates
  live : ∃ id, s'.constraints.get? id = some c
  made : ∃ b, c.relate s.arena s.handles = .ok (b, s'.handles) ∧ s'.arena.shape = b.shape

/-- A quiet update of a relationship changes nothing at all. -/
lemma beq_of_isQuietUpdate {old : Constraint α} (hc : c.Relates)
    (hquiet : isQuietUpdate old c = true) : (old == c) = true := by
  unfold isQuietUpdate at hquiet
  rw [Bool.or_eq_true] at hquiet
  refine hquiet.resolve_right fun hkind => ?_
  split at hkind
  · exact hc
  · exact hc
  · cases hkind

/-- The relationship `c` was there before, up to what compares as equal, and nothing is absorbed. -/
def Repeated (c : Constraint α) (s s' : Sketch α) : Prop :=
  s.arena.Sheds s'.arena ∧ ∃ id old, s.constraints.get? id = some old ∧ (old == c) = true

/-- Issuing a relationship makes its unifications, unless it is there already. -/
lemma ensures_issue {s : Sketch α} (hs : s.Intact) (hc : c.Relates) :
    Ensures (fun s' => s.arena.Sheds s'.arena) (insertConstraint none c)
      (fun _ s' => Related c s s' ∨ Repeated c s s') s := by
  have hmade : ∀ id ids memo, Ensures (fun s' => s.arena.Sheds s'.arena)
      (do relate c; modify invalidate) (fun _ s' => Related c s s')
      { s with ids, memo, constraints := s.constraints.insert id c } := by
    intro id ids memo
    simp only [relate, ensures_bind, ensures_get, ensures_ofExcept, ensures_set, ensures_modify]
    refine ⟨fun r hrelate => ⟨hc, ⟨id, ?_⟩, r.1, hrelate, rfl⟩, fun _ _ => .refl _⟩
    rw [invalidate, OrderedMap.get?_insert, if_pos rfl]
  simp only [insertConstraint, ensures_bind, ensures_get, ensures_ofExcept]
  refine ⟨fun _ _ => ?_, fun _ _ => .refl _⟩
  cases hsame : s.sameKey c with
  | none =>
      have hnew := hmade ⟨s.ids.next⟩ s.ids.fresh.2 (s.remember ⟨s.ids.next⟩ c)
      simp only [ensures_bind, ensures_set, ensures_pure] at hnew ⊢
      exact hnew.imp fun _ _ h => Or.inl h
  | some found =>
      obtain ⟨id, old⟩ := found
      obtain ⟨hold, -⟩ := sameKey_eq_some hs.toSoundExcept hsame
      simp only [ensures_bind, ensures_set, ensures_pure]
      unfold settleUpdate
      by_cases hquiet : isQuietUpdate old c = true
      · rw [if_pos hquiet]
        exact Or.inr ⟨.refl _, id, old, hold, beq_of_isQuietUpdate hc hquiet⟩
      · rw [if_neg hquiet]
        split
        · exact hc.elim
        · exact (hmade id s.ids s.memo).imp fun _ _ h => Or.inl h

namespace Related

variable {s s₁ s₂ : Sketch α}

lemma of_shape (h : Related c s s₁) (hconstraints : s₂.constraints = s₁.constraints)
    (hshape : s₂.arena.shape = s₁.arena.shape) (hhandles : s₂.handles = s₁.handles) :
    Related c s s₂ where
  relates := h.relates
  live := by
    rw [hconstraints]
    exact h.live
  made := by
    obtain ⟨b, hrelate, hb⟩ := h.made
    exact ⟨b, by rw [hhandles, hrelate], hshape.trans hb⟩

/-- A constant does not get in the place of a relationship. -/
lemma insertConstant (h : Related c s s₁) {id : ConstraintId} {u : VarId} {y : α}
    (hid : ∀ k, s₁.constraints.get? id = some k → ∃ z, k = .constant u z)
    (hconstraints : s₂.constraints = s₁.constraints.insert id (.constant u y))
    (harena : s₂.arena = s₁.arena) (hhandles : s₂.handles = s₁.handles) : Related c s s₂ where
  relates := h.relates
  live := by
    obtain ⟨i, hget⟩ := h.live
    refine ⟨i, ?_⟩
    rw [hconstraints, OrderedMap.get?_insert, if_neg, hget]
    rintro rfl
    obtain ⟨z, rfl⟩ := hid c hget
    exact h.relates
  made := by
    rw [hhandles, harena]
    exact h.made

end Related

/-- Writing a value and locking keep what a relationship has made. -/
lemma ensures_setValue_related {s s₁ : Sketch α} (h : Related c s s₁) (v : VarId) (x : α) :
    Ensures (Related c s) (setValue v x) (fun _ => Related c s) s₁ := by
  simp only [setValue, onArena, ensures_bind, ensures_get, ensures_ofExcept, ensures_set]
  exact ⟨fun b hset => h.of_shape rfl (shape_of_setValue hset) rfl, fun _ _ => h⟩

lemma ensures_holdHere_related {s s₁ : Sketch α} (hs : s₁.Intact) (h : Related c s s₁) (v : VarId) :
    Ensures (Related c s) (holdHere v) (fun _ => Related c s) s₁ := by
  rw [holdHere, ensures_get_bind]
  refine ensures_read h fun y _ => ?_
  rw [ensures_discard]
  refine ensures_constant hs h (fun id z hget => ?_) fun id ids memo hid => ?_
  · refine h.insertConstant (fun k hk => ⟨z, ?_⟩) rfl rfl rfl
    exact Option.some.inj (hk.symm.trans hget)
  · exact h.insertConstant (fun k hk => absurd (OrderedMap.mem_keys_of_get? hk) hid) rfl rfl rfl

lemma ensures_lock_related {s s₁ : Sketch α} (hs : s₁.Intact) (h : Related c s s₁) (v : VarId) :
    Ensures (Related c s) (lock v none false) (fun _ => Related c s) s₁ := by
  refine Ensures.mono (E := fun s' => s'.Intact ∧ Related c s s') ?_ (fun _ => And.right)
    (Q := fun _ s' => s'.Intact ∧ Related c s s') fun _ _ => And.right
  refine ensures_read ⟨hs, h⟩ fun canonical _ => ensures_forM (fun w _ s₂ h₂ => ?_) ⟨hs, h⟩
  exact (ensures_holdHere invariant_intact h₂.1 w).and (ensures_holdHere_related h₂.1 h₂.2 w)

/-- What a relationship has made is kept, or nothing more is absorbed than before. -/
lemma ensures_issued {β : Type} {x : Edit α β} (hx : x.Sheds) {s s₁ : Sketch α}
    (hrelated : Related c s s₁ → Ensures (Related c s) x (fun _ => Related c s) s₁)
    (h : Related c s s₁ ∨ Repeated c s s₁) :
    Ensures (fun s' => s.arena.Sheds s'.arena ∨ Related c s s') x
      (fun _ s' => Related c s s' ∨ Repeated c s s') s₁ := by
  rcases h with h | ⟨hsheds, hlive⟩
  · exact (hrelated h).mono (fun _ => Or.inr) fun _ _ => Or.inl
  · exact (hx s₁).mono (fun _ h => Or.inl (hsheds.trans h)) fun _ _ h =>
      Or.inr ⟨hsheds.trans h, hlive⟩

lemma ensures_makeEqual_related {s : Sketch α} (hs : s.Intact) (this that : VarId)
    (offset : Affine α) (hc : c = .linear this offset.scale that offset.shift) :
    Ensures (fun s' => s.arena.Sheds s'.arena ∨ Related c s s') (makeEqual this that offset)
      (fun _ s' => Related c s s' ∨ Repeated c s s') s := by
  refine (ensures_makeEqual_steps
    (J := fun s' => s'.Intact ∧ (Related c s s' ∨ Repeated c s s')) (Or.inl (Or.inl (.refl _)))
    ?_ (fun {s₁} h x => ?_) fun {s₁} h => ?_).imp fun _ _ h => h.2
  · rw [linear, ← hc]
    have hintact := ensures_insertNew invariant_intact hs (c := c) (hc ▸ rfl)
    have hissue := ensures_issue (c := c) hs (hc ▸ trivial)
    exact (hintact.and hissue).mono (fun _ h => Or.inl h.2) fun _ _ => id
  · have hintact := ensures_setValue invariant_intact h.1 that x
    have hkept := ensures_issued (sheds_setValue that x)
      (fun hrelated => ensures_setValue_related hrelated that x) h.2
    exact (hintact.and hkept).mono (fun _ => And.right) fun _ _ => id
  · have hintact := ensures_lock invariant_intact h.1 this none false
    have hkept := ensures_issued (sheds_lock this none false)
      (fun hrelated => ensures_lock_related h.1 hrelated this) h.2
    exact (hintact.and hkept).mono (fun _ => And.right) fun _ _ => id

end Sketch

/-! ## Every operation -/

namespace Operation

open Edit Sketch

variable [Scalar α] {c : Constraint α} {s : Sketch α}

/-- The relationship that an operation issues, if it is one that does. -/
def relationship : Operation α → Option (Constraint α)
  | .linear y m x b => some (.linear y m x b)
  | .absorb parent child => some (.absorb parent child)
  | .makeEqual this that offset => some (.linear this offset.scale that offset.shift)
  | _ => none

omit [Scalar α] in
lemma relates_of_relationship {op : Operation α} (hop : op.relationship = some c) :
    c.Relates := by
  cases op <;> cases hop <;> trivial

/-- An operation that neither issues a relationship nor clusters absorbs nothing. -/
theorem sheds_perform (op : Operation α) (hop : op ≠ .cluster) (hnone : op.relationship = none) :
    op.perform.Sheds := by
  cases op with
  | addVariable x label => exact (sheds_modifyGet (sheds_addVariable x _)).map _
  | addHandle p => exact (sheds_modifyGet (sheds_addHandle p)).map _
  | setValue v x => exact (sheds_setValue v x).bind fun _ => sheds_pure _
  | moveHandle id p => exact (sheds_moveHandle id p).bind fun _ => sheds_pure _
  | removeVariable v => exact (sheds_removeVariable v).bind fun _ => sheds_pure _
  | removeHandle id => exact (sheds_removeHandle id).bind fun _ => sheds_pure _
  | removeConstraint id => exact (sheds_removeConstraint id).bind fun _ => sheds_pure _
  | constant v x => exact (sheds_insertConstraint id none).map _
  | pin h p => exact (sheds_insertConstraint id none).map _
  | finger h p => exact (sheds_insertConstraint id none).map _
  | linear y m x b => cases hnone
  | absorb parent child => cases hnone
  | polar start finish => exact (sheds_polar start finish).map _
  | distance start finish => exact (sheds_distance start finish).map _
  | angle start finish => exact (sheds_angle start finish).map _
  | formula m x b => exact (sheds_formula m x b).map _
  | makeEqual this that offset => cases hnone
  | breakOff this that => exact (sheds_breakOff this that).bind fun _ => sheds_pure _
  | lock v value scrub => exact (sheds_lock v value scrub).bind fun _ => sheds_pure _
  | unlock v => exact (sheds_unlock v).bind fun _ => sheds_pure _
  | toggleLock v => exact (sheds_toggleLock v).map _
  | cluster => exact absurd rfl hop
  | setConfig config => exact fun s => .refl s.arena
  | setStabilizeGizmos enabled => exact fun s => .refl s.arena
  | setFingerOfGod enabled => exact fun s => .refl s.arena

/-- **Issuing a relationship** makes its unifications, unless it is there already. -/
theorem ensures_related (op : Operation α) (hop : op.relationship = some c) (hs : s.Intact) :
    Ensures (fun s' => s.arena.Sheds s'.arena ∨ Related c s s') op.perform
      (fun _ s' => Related c s s' ∨ Repeated c s s') s := by
  cases op with
  | linear y m x b =>
      cases hop
      have hissue := ensures_issue (c := .linear y m x b) hs trivial
      exact (ensures_map _ _).2 (hissue.mono (fun _ => Or.inl) fun _ _ => id)
  | absorb parent child =>
      cases hop
      have hissue := ensures_issue (c := .absorb parent child) hs trivial
      exact (ensures_map _ _).2 (hissue.mono (fun _ => Or.inl) fun _ _ => id)
  | makeEqual this that offset =>
      cases hop
      exact (ensures_map _ _).2 (ensures_makeEqual_related hs this that offset rfl)
  | _ => cases hop

/-- **What an operation does to the unifications.**  Unless it clusters, it absorbs nothing, or it
has made the unifications of a relationship that is there now. -/
theorem sheds_or_related (op : Operation α) (hop : op ≠ .cluster) (hs : s.Intact) :
    s.arena.Sheds (op.perform.after s).arena ∨
      ∃ c, op.relationship = some c ∧ Related c s (op.perform.after s) := by
  cases hissues : op.relationship with
  | none => exact Or.inl ((op.sheds_perform hop hissues).after s)
  | some c =>
      have hafter : Ensures (fun s' => s.arena.Sheds s'.arena ∨ Related c s s') op.perform
          (fun _ s' => s.arena.Sheds s'.arena ∨ Related c s s') s :=
        (op.ensures_related hissues hs).imp fun _ _ h => h.symm.imp_left And.left
      exact hafter.after.imp_right fun h => ⟨c, rfl, h⟩

end Operation

end SketchSolver
