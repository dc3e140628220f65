import SketchSolver.Proofs.Search.Descent

/-!
# Where a quasi-Newton search converges

A search reports convergence at three exits, and `converged_spec` says what is known there of the
point it answers: its gradient is within the tolerance, or the full step from it is, or the line
search along the full step is `Exhausted`.

The last exit does not need a minimum.  At the foot of a wall (`wall_exhausted`) central differences
see the wall, and the step they ask for is far too long in the wrong direction.  So the gradient is
steep and the full step is long, and the search still reports convergence.
-/

namespace SketchSolver

namespace Bfgs

open Scalar State

variable {α : Type} [Scalar α] {config : Config α} {f : List α → α} {s : State α} {v : List α}

/-- All components are smaller in size than a bound. -/
def Within (bound : α) (v : List α) : Prop :=
  ∀ x ∈ v, Scalar.abs x < bound

instance (bound : α) (v : List α) : Decidable (Within bound v) :=
  List.decidableBAll _ v

/-- The full step is halved until it is too short, and is not accepted at any length before. -/
def State.Exhausted (config : Config α) (f : List α → α) (s : State α) : Prop :=
  ∃ k, s.Halves config f k ∧ halved k * maxNorm s.step < config.stepTolerance

/-- Is this the end of a search? -/
def Progress.isArrived : Progress α → Bool
  | .arrived => true
  | _ => false

omit [Scalar α] in
lemma Progress.eq_arrived {progress : Progress α} (h : progress.isArrived = true) :
    progress = .arrived := by
  cases progress with
  | arrived => rfl
  | stuck error => cases h
  | moved next => cases h

/-- Where an iteration arrives, no move leads on. -/
lemma Leads.eq_of_arrived {t : State α} (h : Leads config f s t)
    (harrived : (iteration config s).runPure f = .arrived) : t = s := by
  rcases h.cases_head with rfl | ⟨u, hmove, -⟩
  · rfl
  · have hmove : (iteration config s).runPure f = .moved u := hmove
    rw [harrived] at hmove
    cases hmove

variable [Lawful α]

lemma within_of_maxNorm_lt {bound : α} (hv : allFinite v = true) (h : maxNorm v < bound) :
    Within bound v := by
  have hsizes : ∀ size ∈ v.map Scalar.abs, isFinite size = true := by
    intro size hsize
    obtain ⟨x, hx, rfl⟩ := List.mem_map.1 hsize
    exact Lawful.isFinite_abs (List.all_eq_true.1 hv x hx)
  intro x hx
  exact (lt_of_foldl_greatest_lt hsizes Lawful.isFinite_zero h).2 _ (List.mem_map_of_mem hx)

/-- **An iteration arrives** for one of three reasons. -/
lemma arrived_cases (h : (iteration config s).runPure f = .arrived) :
    Within config.gradientTolerance s.gradient ∨ Within config.stepTolerance s.step ∨
      s.Exhausted config f := by
  have hcomes := comes_iteration config f s
  rw [h] at hcomes
  cases hcomes with
  | flat hgradient hflat => exact Or.inl (within_of_maxNorm_lt hgradient hflat)
  | small hstep hsmall => exact Or.inr (Or.inl (within_of_maxNorm_lt hstep hsmall))
  | exhausted hstep hfound hshort =>
      right; right
      cases hfound with
      | accepted _ hlong _ => exact absurd hshort (Lawful.not_lt_of_le hlong)
      | short hk _ =>
          rw [factor_tried] at hshort
          exact ⟨_, hk, hshort⟩

/-- **Convergence.**  Where a search reports that it has converged, the gradient at its answer is
within the tolerance in every component, or the full step from there is, or the line search along
the full step is exhausted. -/
theorem converged_spec {start : List α} {m : Minimum α}
    (h : (minimize config start).runPure f = .ok m) (hstop : m.stop = .converged) :
    ∃ last, Leads config f (first config f start) last ∧ m.solution = last.point ∧
      (Within config.gradientTolerance
          ((gradient config.finiteDifferenceStep m.solution).runPure f) ∨
        Within config.stepTolerance last.step ∨ last.Exhausted config f) := by
  obtain ⟨-, -, last, hleads, hlast, harrived⟩ := minimize_spec h
  have hsound := (Sound.first config f start).leads hleads
  have hcases := arrived_cases (harrived hstop)
  rw [hsound.gradient, ← hlast] at hcases
  exact ⟨last, hleads, hlast, hcases⟩

theorem bowl_converged : ∃ m, (minimize Config.standard [1]).runPure bowl = .ok m ∧
    m.stop = .converged ∧ ∃ last : State Float, m.solution = last.point ∧
      (Within 1e-8 ((gradient 1e-6 m.solution).runPure bowl) ∨ Within 1e-8 last.step ∨
        last.Exhausted Config.standard bowl) := by
  have hrun : ((minimize Config.standard [1]).runPure bowl).toOption.any
      (fun m => decide (m.stop = .converged)) = true := by decide +kernel
  cases h : (minimize Config.standard [1]).runPure bowl with
  | error e =>
      rw [h] at hrun
      cases hrun
  | ok m =>
      rw [h] at hrun
      have hstop : m.stop = .converged := of_decide_eq_true hrun
      obtain ⟨last, -, hlast, hcases⟩ := converged_spec h hstop
      exact ⟨m, rfl, hstop, last, hlast, hcases⟩

/-- Rises from zero, with a wall on the left. -/
def wall (point : List Float) : Float :=
  let x := point.headD 0
  if x < 0 then 1 else x

/-- A search that reports convergence where the gradient is steep and the full step long. -/
theorem wall_exhausted : ∃ m, (minimize Config.standard [0]).runPure wall = .ok m ∧
    m.stop = .converged ∧
    ¬ Within 1e-8 ((gradient 1e-6 m.solution).runPure wall) ∧
    ∀ last, Leads Config.standard wall (first Config.standard wall [0]) last →
      ¬ Within 1e-8 last.step := by
  have hrun : ((minimize Config.standard [0]).runPure wall).toOption.any
      (fun m => decide (m.stop = .converged ∧
        ¬ Within 1e-8 ((gradient 1e-6 m.solution).runPure wall))) = true := by decide +kernel
  have harrived : (iteration Config.standard (first Config.standard wall [0])).runPure wall =
      .arrived := Progress.eq_arrived (by decide +kernel)
  have hstep : ¬ Within 1e-8 (first Config.standard wall [0]).step := by decide +kernel
  cases h : (minimize Config.standard [0]).runPure wall with
  | error e =>
      rw [h] at hrun
      cases hrun
  | ok m =>
      rw [h] at hrun
      obtain ⟨hstop, hgradient⟩ := of_decide_eq_true hrun
      refine ⟨m, rfl, hstop, hgradient, fun last hleads => ?_⟩
      rwa [hleads.eq_of_arrived harrived]

end Bfgs

end SketchSolver
