import Mathlib
import SketchSolver.Proofs.Search.Iteration

/-!
# Whatever the objective answers

An objective may remember what it was asked, and need not answer the same at the same point.

* `Search.Always` speaks about all that a search can come to, whatever it is told on the way.
* `Passes` relates the states that a run goes through, on an objective with a memory.  From each of
  them the run comes to what is left of it (`Passes.run_eq`).
-/

namespace SketchSolver

namespace Search

variable {α β γ σ : Type} {P : β → Prop} {Q : γ → Prop} {search : Search α β}

/-- Whatever the objective answers, the search comes to such an answer. -/
def Always (P : β → Prop) : Search α β → Prop
  | .done answer => P answer
  | .probe _ next => ∀ value, (next value).Always P

lemma always_pure {answer : β} (h : P answer) : (pure answer : Search α β).Always P := h

lemma always_of_forall (h : ∀ answer, P answer) : search.Always P := by
  induction search with
  | done answer => exact h answer
  | probe point next ih => exact fun value => ih value

lemma always_bind {f : β → Search α γ} (hsearch : search.Always P)
    (hf : ∀ answer, P answer → (f answer).Always Q) : (search >>= f).Always Q := by
  show (search.bind f).Always Q
  induction search with
  | done answer => exact hf answer hsearch
  | probe point next ih => exact fun value => ih value (hsearch value)

/-- Nothing is known of the value at a point. -/
lemma always_eval_bind {point : List α} {f : α → Search α γ} (hf : ∀ value, (f value).Always Q) :
    (eval point >>= f).Always Q :=
  hf

lemma Always.mono {R : β → Prop} (h : search.Always P) (hR : ∀ answer, P answer → R answer) :
    search.Always R := by
  induction search with
  | done answer => exact hR answer h
  | probe point next ih => exact fun value => ih value (h value)

/-- It does so when it is run. -/
lemma Always.run (h : search.Always P) (objective : List α → σ → α × σ) (s : σ) :
    P (search.run objective s).1 := by
  induction search generalizing s with
  | done answer => exact h
  | probe point next ih => exact ih _ (h _) _

/-- One search after the other, when it is known what the first comes to. -/
lemma run_bind_of_eq {objective : List α → σ → α × σ} {f : β → Search α γ} {m m' : σ} {answer : β}
    (h : search.run objective m = (answer, m')) :
    (search >>= f).run objective m = (f answer).run objective m' := by
  show (search.bind f).run objective m = _
  rw [run_bind, h]

end Search

namespace Bfgs

variable {α σ : Type} [Scalar α] {config : Config α} {start : List α}

lemma minimize_eq (config : Config α) (start : List α) : minimize config start =
    Search.eval start >>= fun value =>
      if (!Scalar.isFinite value) = true then pure (.error .nonFiniteStart)
      else gradient config.finiteDifferenceStep start >>= fun gradient =>
        iterate config config.maxIterations 0 ⟨start, value, gradient, unitMatrix start.length⟩ :=
  rfl

/-- The states that a run goes through, each with the number of iterations that are left and with
what the objective remembers. -/
inductive Passes (config : Config α) (objective : List α → σ → α × σ) (start : List α)
    (memory : σ) : Nat → State α → σ → Prop
  | first {value : α} {gradient : List α} {m m' : σ} : objective start memory = (value, m) →
      Scalar.isFinite value = true →
      (Bfgs.gradient config.finiteDifferenceStep start).run objective m = (gradient, m') →
      Passes config objective start memory config.maxIterations
        ⟨start, value, gradient, unitMatrix start.length⟩ m'
  | move {left : Nat} {s t : State α} {m m' : σ} :
      Passes config objective start memory (left + 1) s m →
      (iteration config s).run objective m = (.moved t, m') →
      Passes config objective start memory left t m'

variable {objective : List α → σ → α × σ} {memory m : σ} {left : Nat} {s : State α}

/-- A run comes to what the iterations that are left come to. -/
lemma Passes.run_eq (h : Passes config objective start memory left s m) :
    ∃ taken, taken + left = config.maxIterations ∧
      (minimize config start).run objective memory =
        (iterate config left taken s).run objective m := by
  induction h with
  | @first value gradient m m' hvalue hfinite hgradient =>
      refine ⟨0, Nat.zero_add _, ?_⟩
      have hvalue : (Search.eval start).run objective memory = (value, m) := hvalue
      rw [minimize_eq, Search.run_bind_of_eq hvalue, if_neg (by rw [hfinite]; decide),
        Search.run_bind_of_eq hgradient]
  | @move left s t m m' hpasses hmove ih =>
      obtain ⟨taken, hcount, hrun⟩ := ih
      refine ⟨taken + 1, by omega, hrun.trans ?_⟩
      rw [iterate, Search.run_bind_of_eq hmove]

end Bfgs

end SketchSolver
