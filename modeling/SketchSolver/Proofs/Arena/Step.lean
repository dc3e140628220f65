import Mathlib
import SketchSolver.Proofs.Arena.Alike
import SketchSolver.Proofs.Arena.Rewrite

/-!
# One step after the other

Whatever is done to an arena is done in a few kinds of steps.  Each of them keeps an arena
well-formed, and so does any run of them.

* `Arena.Step` — one of the operations on arenas.  A variable is added only if it is new or stands
  alone.
* `WellFormed.steps_spec` — after any steps, no unification is rewritten more than twice, and a
  write reaches everything that shares the canonical variable.
-/

namespace SketchSolver

namespace Arena

variable {α : Type} [Scalar α] {a b c : Arena α}

/-- One step of what is done to an arena. -/
inductive Step : Arena α → Arena α → Prop where
  | insert {a : Arena α} {v : VarId} (x : α) (r : Option Represents) :
      (∀ l, a.link? v = some l → l = .alone) → Step a (a.insert v x r)
  | relabel {a b : Arena α} : b.link? = a.link? → b.value? = a.value? → Step a b
  | setValue {a b : Arena α} {v : VarId} {x : α} : a.setValue v x = .ok b → Step a b
  | unify {a b : Arena α} {this that : VarId} {offset : Affine α} {merged : Bool} :
      a.unify this that offset = .ok (merged, b) → Step a b
  | detach (a : Arena α) (v : VarId) : Step a (a.detach v)
  | remove (a : Arena α) (v : VarId) : Step a (a.remove v)
  | reset (a : Arena α) : Step a a.reset

/-- Any number of steps. -/
abbrev Steps : Arena α → Arena α → Prop :=
  Relation.ReflTransGen Step

lemma Unifies.steps (h : a.Unifies b) : a.Steps b :=
  Relation.ReflTransGen.mono (fun _ _ ⟨_, _, _, _, hunify⟩ => .unify hunify) _ _ h

lemma WellFormed.step (h : a.WellFormed) (hstep : a.Step b) : b.WellFormed := by
  cases hstep with
  | insert x r halone => exact h.insert_alone halone x r
  | relabel hlink hvalue => exact h.congr hlink hvalue
  | setValue hset => exact (h.of_setValue hset).1
  | unify hunify => exact (h.unifies (unifies_of_unify hunify)).1
  | detach v => exact h.detach v
  | remove v => exact h.remove v
  | reset => exact wellFormed_reset a

lemma WellFormed.steps (h : a.WellFormed) (hsteps : a.Steps b) : b.WellFormed := by
  induction hsteps with
  | refl => exact h
  | tail _ hstep ih => exact ih.step hstep

/-- **After any steps** a well-formed arena is well-formed.  No unification is rewritten more than
twice in it, and a write reaches everything that shares the canonical variable. -/
theorem WellFormed.steps_spec (h : a.WellFormed) (hsteps : a.Steps b) :
    b.WellFormed ∧
      (∀ {this that offset n t u f}, b.UnifyRequest this that offset n t u f → n ≤ 2) ∧
      ∀ v, b.contains v = true → ∀ x, ∃ c, b.setValue v x = .ok c ∧
        ∀ k, b.canonical k = b.canonical v → c.value? k = some (b.lower k (b.lift v x)) := by
  have hb := h.steps hsteps
  refine ⟨hb, fun hrequest => hb.unifyRequest_depth hrequest, fun v hv x => ?_⟩
  obtain ⟨c, hset, -, -, hvalue⟩ := hb.setValue_spec hv x
  exact ⟨c, hset, fun k hk => by rw [hvalue, if_pos hk]⟩

end Arena

end SketchSolver
