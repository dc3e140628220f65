import Mathlib
import SketchSolver.Sketch

/-!
# What an edit ensures

An edit may fail half-way and leaves the sketch as far as it had changed it.  So a statement about
an edit has two parts: what is true of the answer and the sketch after a success, and what is true
of the sketch after a failure.

* `Edit.Ensures E x Q s` — run on `s`, the edit `x` succeeds with `Q`, or fails with `E`.
* The lemmas `ensures_…`, one for each way of building an edit, reduce it to statements about
  sketches.
* `Edit.after` — the sketch after an edit, whether it failed or not.
-/

namespace SketchSolver

namespace Edit

variable {α β γ : Type} {E E' : Sketch α → Prop} {Q Q' : β → Sketch α → Prop} {s : Sketch α}

/-- Run on `s`, the edit succeeds with an answer and a sketch that satisfy `Q`, or it fails with a
sketch that satisfies `E`. -/
def Ensures (E : Sketch α → Prop) (x : Edit α β) (Q : β → Sketch α → Prop) (s : Sketch α) : Prop :=
  match x s with
  | .ok b s' => Q b s'
  | .error _ s' => E s'

/-- The sketch after an edit, whether it failed or not. -/
def after (x : Edit α β) (s : Sketch α) : Sketch α :=
  match x s with
  | .ok _ s' => s'
  | .error _ s' => s'

lemma after_eq {x : Edit α β} {b : β} {s' : Sketch α} (h : x s = .ok b s') : x.after s = s' := by
  rw [after, h]

/-- An edit that answers has led to the sketch after it. -/
lemma exists_ok_after {x : Edit α β} (h : (x.run' s).isSome = true) :
    ∃ b, x s = .ok b (x.after s) := by
  cases hrun : x s with
  | ok b s' => exact ⟨b, by rw [after_eq hrun]⟩
  | error e s' =>
      rw [EStateM.run', EStateM.run, hrun] at h
      cases h

lemma Ensures.after {x : Edit α β} (h : Ensures E x (fun _ => E) s) : E (x.after s) := by
  rw [Ensures] at h
  rw [Edit.after]
  split at h <;> simp only [*]

lemma Ensures.mono {x : Edit α β} (h : Ensures E x Q s) (hE : ∀ s, E s → E' s)
    (hQ : ∀ b s, Q b s → Q' b s) : Ensures E' x Q' s := by
  rw [Ensures] at h ⊢
  split at h
  · exact hQ _ _ h
  · exact hE _ h

/-- A weaker statement about the answer. -/
lemma Ensures.imp {x : Edit α β} (h : Ensures E x Q s) (hQ : ∀ b s, Q b s → Q' b s) :
    Ensures E x Q' s :=
  h.mono (fun _ => id) hQ

/-- Two statements about one edit. -/
lemma Ensures.and {x : Edit α β} (h : Ensures E x Q s) (h' : Ensures E' x Q' s) :
    Ensures (fun s => E s ∧ E' s) x (fun b s => Q b s ∧ Q' b s) s := by
  rw [Ensures] at h h' ⊢
  cases hx : x s <;> simp_all only [and_self]

/-- Two statements about one edit that agree on failures. -/
lemma Ensures.both {x : Edit α β} (h : Ensures E x Q s) (h' : Ensures E x Q' s) :
    Ensures E x (fun b s => Q b s ∧ Q' b s) s :=
  (h.and h').mono (fun _ h => h.1) fun _ _ => id

/-- An edit that never fails answers. -/
lemma Ensures.exists_ok {x : Edit α β} (h : Ensures (fun _ => False) x Q s) :
    ∃ b s', x s = .ok b s' ∧ Q b s' := by
  rw [Ensures] at h
  cases hrun : x s with
  | ok b s' =>
      rw [hrun] at h
      exact ⟨b, s', rfl, h⟩
  | error e s' =>
      rw [hrun] at h
      exact h.elim

@[simp] lemma ensures_pure (b : β) : Ensures E (pure b) Q s ↔ Q b s := Iff.rfl

@[simp] lemma ensures_bind (x : Edit α γ) (f : γ → Edit α β) :
    Ensures E (x >>= f) Q s ↔ Ensures E x (fun c s => Ensures E (f c) Q s) s := by
  simp only [Ensures, bind, EStateM.bind]
  cases x s <;> rfl

@[simp] lemma ensures_map (f : γ → β) (x : Edit α γ) :
    Ensures E (f <$> x) Q s ↔ Ensures E x (fun c s => Q (f c) s) s := by
  simp only [Ensures, Functor.map, EStateM.map]
  cases x s <;> rfl

@[simp] lemma ensures_discard (x : Edit α γ) {Q : PUnit → Sketch α → Prop} :
    Ensures E (discard x) Q s ↔ Ensures E x (fun _ s => Q ⟨⟩ s) s := by
  simp only [Ensures, discard, Functor.mapConst, Function.comp_def, EStateM.map]
  cases x s <;> rfl

@[simp] lemma ensures_get {Q : Sketch α → Sketch α → Prop} :
    Ensures E (get : Edit α (Sketch α)) Q s ↔ Q s s := Iff.rfl

@[simp] lemma ensures_set (s' : Sketch α) {Q : PUnit → Sketch α → Prop} :
    Ensures E (set s' : Edit α PUnit) Q s ↔ Q ⟨⟩ s' := Iff.rfl

@[simp] lemma ensures_modify (f : Sketch α → Sketch α) {Q : PUnit → Sketch α → Prop} :
    Ensures E (modify f : Edit α PUnit) Q s ↔ Q ⟨⟩ (f s) := Iff.rfl

@[simp] lemma ensures_modifyGet (f : Sketch α → β × Sketch α) :
    Ensures E (modifyGet f : Edit α β) Q s ↔ Q (f s).1 (f s).2 := Iff.rfl

/-- A computation that does not change the sketch. -/
@[simp] lemma ensures_ofExcept (x : Except SolverError β) :
    Ensures E (ofExcept x) Q s ↔ (∀ b, x = .ok b → Q b s) ∧ (∀ e, x = .error e → E s) := by
  cases x with
  | ok b => simp [Ensures, ofExcept, pure, EStateM.pure]
  | error e => simp [Ensures, ofExcept, throw, throwThe, MonadExceptOf.throw, EStateM.throw]

lemma ensures_get_bind (f : Sketch α → Edit α β) :
    Ensures E (get >>= f) Q s ↔ Ensures E (f s) Q s := Iff.rfl

/-- Looking something up first. -/
lemma ensures_read {x : Except SolverError γ} {f : γ → Edit α β} (hs : E s)
    (hf : ∀ c, x = .ok c → Ensures E (f c) Q s) : Ensures E (Edit.ofExcept x >>= f) Q s := by
  rw [ensures_bind, ensures_ofExcept]
  exact ⟨hf, fun _ _ => hs⟩

/-- Looking something up that is there. -/
lemma ensures_found {x : Except SolverError γ} {c : γ} (hx : x = .ok c) {f : γ → Edit α β} :
    Ensures E (Edit.ofExcept x >>= f) Q s ↔ Ensures E (f c) Q s := by
  subst hx
  exact Iff.rfl

/-- A traversal keeps what each of its steps keeps. -/
lemma ensures_forM {xs : List γ} {f : γ → Edit α PUnit} {I : Sketch α → Prop}
    (hstep : ∀ x ∈ xs, ∀ s, I s → Ensures E (f x) (fun _ => I) s) (hs : I s) :
    Ensures E (xs.forM f) (fun _ => I) s := by
  induction xs generalizing s with
  | nil => exact hs
  | cons x xs ih =>
      show Ensures E (f x >>= fun _ => xs.forM f) _ s
      rw [ensures_bind]
      exact (hstep x List.mem_cons_self s hs).imp fun _ s' hs' =>
        ih (fun y hy => hstep y (List.mem_cons_of_mem _ hy)) hs'

end Edit

end SketchSolver
