import Mathlib
import SketchSolver.Search.Bfgs

/-!
# What a quasi-Newton search goes through

On an objective that is a function, a search is a chain of states: each iteration arrives, gets
stuck, or `Moves` to the next state.

* `Search.runPure_bind` and `Search.probes_bind` take searches apart, into what they answer and the
  points they look at.
* `finds_lineSearch` says what a line search comes to: the step was halved so often (`Halves`), and
  then it is accepted, too short, or the halvings have run out.
* `comes_iteration` says what an iteration comes to.
* `minimize_spec` says what a search that answers has gone through, by an induction over its
  iterations.

Nothing here asks for a law of the numbers.
-/

namespace SketchSolver

namespace Search

variable {α β γ : Type} {objective : List α → α}

@[simp] lemma runPure_pure (answer : β) : (pure answer : Search α β).runPure objective = answer :=
  rfl

@[simp] lemma runPure_eval (point : List α) :
    (eval point).runPure objective = objective point := rfl

@[simp] lemma runPure_bind (search : Search α β) (f : β → Search α γ) :
    (search >>= f).runPure objective = (f (search.runPure objective)).runPure objective := by
  show ((search.bind f).run _ _).1 = _
  rw [run_bind]
  rfl

/-- The points that a search looks at, in order. -/
def probes (objective : List α → α) : Search α β → List (List α)
  | .done _ => []
  | .probe point next => point :: (next (objective point)).probes objective

@[simp] lemma probes_pure (answer : β) : (pure answer : Search α β).probes objective = [] := rfl

@[simp] lemma probes_eval (point : List α) : (eval point).probes objective = [point] := rfl

@[simp] lemma probes_bind (search : Search α β) (f : β → Search α γ) :
    (search >>= f).probes objective =
      search.probes objective ++ (f (search.runPure objective)).probes objective := by
  show (search.bind f).probes objective = _
  induction search with
  | done answer => rfl
  | probe point next ih => exact congrArg (point :: ·) (ih _)

end Search

namespace Bfgs

variable {α : Type} [Scalar α] {config : Config α} {f : List α → α} {s t : State α}

/-- The factor after so many halvings. -/
def halved : Nat → α
  | 0 => 1
  | k + 1 => halved k * 0.5

namespace State

/-- The full step. -/
def step (s : State α) : List α :=
  (mulVec s.inverseHessian s.gradient).map (- ·)

/-- How fast the objective changes along the full step. -/
def slope (s : State α) : α :=
  dot s.gradient s.step

/-- What is tried with the step shortened by a factor. -/
def attempt (f : List α → α) (s : State α) (factor : α) : Trial α :=
  let shortened := s.step.map (· * factor)
  let point := List.zipWith (· + ·) s.point shortened
  ⟨factor, shortened, point, f point⟩

/-- Where the line search stands before it has tried anything. -/
def untried (s : State α) : Trial α :=
  ⟨1, s.step, s.point, s.value⟩

/-- The line search along the full step. -/
def lineSearch (config : Config α) (s : State α) : Nat → Trial α → Search α (Option (Trial α)) :=
  Bfgs.lineSearch config.stepTolerance s.point s.step (maxNorm s.step) s.value s.slope

/-- The objective falls far enough. -/
def Accepts (s : State α) (trial : Trial α) : Prop :=
  Scalar.isFinite trial.value = true ∧ trial.value - s.value < 0.1 * trial.factor * s.slope

/-- The step is halved so many times: each time it is long enough to be tried, and not accepted. -/
def Halves (config : Config α) (f : List α → α) (s : State α) (k : Nat) : Prop :=
  ∀ j < k, config.stepTolerance ≤ halved j * maxNorm s.step ∧ ¬ s.Accepts (s.attempt f (halved j))

/-- What was tried last when the step has been halved so many times. -/
def tried (f : List α → α) (s : State α) : Nat → Trial α
  | 0 => s.untried
  | k + 1 => { s.attempt f (halved k) with factor := halved (k + 1) }

@[simp] lemma factor_tried (f : List α → α) (s : State α) (k : Nat) :
    (s.tried f k).factor = halved k := by
  cases k <;> rfl

/-- What a line search comes to. -/
inductive Finds (config : Config α) (f : List α → α) (s : State α) : Option (Trial α) → Prop
  | accepted {k : Nat} : s.Halves config f k → config.stepTolerance ≤ halved k * maxNorm s.step →
      s.Accepts (s.attempt f (halved k)) → Finds config f s (some (s.attempt f (halved k)))
  | short {k : Nat} : s.Halves config f k → ¬ config.stepTolerance ≤ halved k * maxNorm s.step →
      Finds config f s (some (s.tried f k))
  | endless {k : Nat} : s.Halves config f k →
      config.stepTolerance ≤ halved k * maxNorm s.step → Finds config f s none

end State

open State

section

variable {trial r : Trial α} {k limit : Nat}

/-- One turn of the line search, when the step is long enough and the search goes on. -/
lemma lineSearch_succ (f : List α → α) (limit : Nat)
    (hlong : config.stepTolerance ≤ trial.factor * maxNorm s.step) :
    ∃ next, s.lineSearch config (limit + 1) trial =
        Search.eval (s.attempt f trial.factor).point >>= next ∧
      (s.Accepts (s.attempt f trial.factor) →
        next (s.attempt f trial.factor).value = pure (some (s.attempt f trial.factor))) ∧
      (¬ s.Accepts (s.attempt f trial.factor) →
        next (s.attempt f trial.factor).value = s.lineSearch config limit
          { s.attempt f trial.factor with factor := trial.factor * 0.5 }) := by
  have hbool : s.Accepts (s.attempt f trial.factor) ↔
      (Scalar.isFinite (s.attempt f trial.factor).value &&
        decide ((s.attempt f trial.factor).value - s.value < 0.1 * trial.factor * s.slope)) =
          true := by
    rw [State.Accepts, Bool.and_eq_true, decide_eq_true_eq]
    rfl
  rw [State.lineSearch, Bfgs.lineSearch, if_pos hlong, hbool]
  exact ⟨_, rfl, fun haccept => if_pos haccept, fun hreject => if_neg hreject⟩

lemma lineSearch_of_short (hshort : ¬ config.stepTolerance ≤ trial.factor * maxNorm s.step) :
    s.lineSearch config limit trial = pure (some trial) := by
  rw [State.lineSearch, Bfgs.lineSearch.eq_def]
  exact if_neg hshort

lemma lineSearch_zero (hlong : config.stepTolerance ≤ trial.factor * maxNorm s.step) :
    s.lineSearch config 0 trial = pure none := by
  rw [State.lineSearch, Bfgs.lineSearch]
  exact if_pos hlong

lemma finds_lineSearch (hk : s.Halves config f k) :
    s.Finds config f ((s.lineSearch config limit (s.tried f k)).runPure f) := by
  induction limit generalizing k with
  | zero =>
      have hfactor := factor_tried f s k
      by_cases hlong : config.stepTolerance ≤ (s.tried f k).factor * maxNorm s.step
      · rw [lineSearch_zero hlong]
        exact .endless hk (hfactor ▸ hlong)
      · rw [lineSearch_of_short hlong]
        exact .short hk (hfactor ▸ hlong)
  | succ limit ih =>
      have hfactor := factor_tried f s k
      by_cases hlong : config.stepTolerance ≤ (s.tried f k).factor * maxNorm s.step
      · obtain ⟨next, hsearch, haccepted, hrejected⟩ := lineSearch_succ f limit hlong
        rw [hsearch, Search.runPure_bind]
        rw [hfactor] at haccepted hrejected hlong ⊢
        change Finds config f s ((next (s.attempt f (halved k)).value).runPure f)
        by_cases haccept : s.Accepts (s.attempt f (halved k))
        · rw [haccepted haccept]
          exact .accepted hk hlong haccept
        · rw [hrejected haccept]
          change s.Finds config f ((s.lineSearch config limit (s.tried f (k + 1))).runPure f)
          refine ih fun j hj => ?_
          rcases Nat.lt_succ_iff_lt_or_eq.1 hj with hj | rfl
          · exact hk j hj
          · exact ⟨hlong, haccept⟩
      · rw [lineSearch_of_short hlong]
        exact .short hk (hfactor ▸ hlong)

/-- The line search answers a point that it was given or has looked at. -/
lemma point_mem_probes_lineSearch (h : (s.lineSearch config limit trial).runPure f = some r) :
    r.point = trial.point ∨ r.point ∈ (s.lineSearch config limit trial).probes f := by
  induction limit generalizing trial with
  | zero =>
      by_cases hlong : config.stepTolerance ≤ trial.factor * maxNorm s.step
      · rw [lineSearch_zero hlong] at h
        cases h
      · rw [lineSearch_of_short hlong] at h
        cases h
        exact Or.inl rfl
  | succ limit ih =>
      by_cases hlong : config.stepTolerance ≤ trial.factor * maxNorm s.step
      · obtain ⟨next, hsearch, haccepted, hrejected⟩ := lineSearch_succ f limit hlong
        rw [hsearch, Search.runPure_bind] at h
        rw [hsearch, Search.probes_bind, Search.probes_eval, List.singleton_append, List.mem_cons]
        right
        change (next (s.attempt f trial.factor).value).runPure f = some r at h
        change _ ∨ _ ∈ (next (s.attempt f trial.factor).value).probes f
        by_cases haccept : s.Accepts (s.attempt f trial.factor)
        · rw [haccepted haccept] at h
          cases h
          exact Or.inl rfl
        · rw [hrejected haccept] at h ⊢
          exact ih h
      · rw [lineSearch_of_short hlong] at h
        cases h
        exact Or.inl rfl

end

/-! ## One iteration -/

namespace State

/-- The state after the step that was tried. -/
def after (config : Config α) (f : List α → α) (s : State α) (trial : Trial α) : State α :=
  let gradient := (Bfgs.gradient config.finiteDifferenceStep trial.point).runPure f
  ⟨trial.point, trial.value, gradient,
    update s.inverseHessian trial.step (List.zipWith (· - ·) gradient s.gradient)⟩

/-- What an iteration comes to. -/
inductive Comes (config : Config α) (f : List α → α) (s : State α) : Progress α → Prop
  | unboundedGradient : allFinite s.gradient = false →
      Comes config f s (.stuck .nonFiniteGradient)
  | flat : allFinite s.gradient = true → maxNorm s.gradient < config.gradientTolerance →
      Comes config f s .arrived
  | unboundedStep : allFinite s.step = false → Comes config f s (.stuck .nonFiniteStep)
  | small : allFinite s.step = true → maxNorm s.step < config.stepTolerance →
      Comes config f s .arrived
  | endless : s.Finds config f none → Comes config f s (.stuck .endlessLineSearch)
  | exhausted {trial : Trial α} : allFinite s.step = true → s.Finds config f (some trial) →
      trial.factor * maxNorm s.step < config.stepTolerance → Comes config f s .arrived
  | moved {trial : Trial α} : allFinite s.step = true → s.Finds config f (some trial) →
      ¬ trial.factor * maxNorm s.step < config.stepTolerance →
      (trial.point = s.point ∨ trial.point ∈ (iteration config s).probes f) →
      Comes config f s (.moved (s.after config f trial))

end State

/-- What an iteration does after its line search. -/
def State.conclude (config : Config α) (s : State α) : Option (Trial α) → Search α (Progress α)
  | none => pure (.stuck .endlessLineSearch)
  | some trial =>
    if trial.factor * maxNorm s.step < config.stepTolerance then
      pure .arrived
    else do
      let gradient ← Bfgs.gradient config.finiteDifferenceStep trial.point
      return .moved ⟨trial.point, trial.value, gradient,
        update s.inverseHessian trial.step (List.zipWith (· - ·) gradient s.gradient)⟩

lemma iteration_eq (config : Config α) (s : State α) : iteration config s =
    if (!allFinite s.gradient) = true then pure (.stuck .nonFiniteGradient)
    else if maxNorm s.gradient < config.gradientTolerance then pure .arrived
    else if (!allFinite s.step) = true then pure (.stuck .nonFiniteStep)
    else if maxNorm s.step < config.stepTolerance then pure .arrived
    else s.lineSearch config halvings s.untried >>= s.conclude config :=
  rfl

/-- **One iteration.** -/
theorem comes_iteration (config : Config α) (f : List α → α) (s : State α) :
    s.Comes config f ((iteration config s).runPure f) := by
  have hfinds : s.Finds config f ((s.lineSearch config halvings s.untried).runPure f) :=
    finds_lineSearch (fun j hj => absurd hj j.not_lt_zero : s.Halves config f 0)
  have hprobes : ∀ {trial}, (s.lineSearch config halvings s.untried).runPure f = some trial →
      trial.point = s.point ∨
        trial.point ∈ (s.lineSearch config halvings s.untried >>= s.conclude config).probes f := by
    intro trial hfound
    rw [Search.probes_bind]
    exact (point_mem_probes_lineSearch hfound).imp_right (List.mem_append_left _)
  have hsame := iteration_eq config s
  rw [hsame]
  split_ifs at hsame ⊢ with hgradient hflat hstep hsmall
  · exact .unboundedGradient (by simpa using hgradient)
  · exact .flat (by simpa using hgradient) hflat
  · exact .unboundedStep (by simpa using hstep)
  · exact .small (by simpa using hstep) hsmall
  · have hstep : allFinite s.step = true := by simpa using hstep
    rw [Search.runPure_bind]
    cases hfound : (s.lineSearch config halvings s.untried).runPure f with
    | none => exact .endless (hfound ▸ hfinds)
    | some trial =>
        rw [hfound] at hfinds
        by_cases hshort : trial.factor * maxNorm s.step < config.stepTolerance
        · rw [State.conclude, if_pos hshort]
          exact .exhausted hstep hfinds hshort
        · rw [State.conclude, if_neg hshort, Search.runPure_bind]
          exact .moved hstep hfinds hshort (hsame ▸ hprobes hfound)

/-! ## A whole run -/

/-- The search goes on from one state to the next. -/
def Moves (config : Config α) (f : List α → α) (s t : State α) : Prop :=
  (iteration config s).runPure f = .moved t

/-- What a move has looked at. -/
lemma Moves.point_mem_probes (h : Moves config f s t) :
    t.point = s.point ∨ t.point ∈ (iteration config s).probes f := by
  have hcomes := comes_iteration config f s
  rw [show (iteration config s).runPure f = .moved t from h] at hcomes
  cases hcomes with
  | moved _ _ _ hprobes => exact hprobes

/-- The state a search begins in. -/
def first (config : Config α) (f : List α → α) (start : List α) : State α :=
  ⟨start, f start, (gradient config.finiteDifferenceStep start).runPure f, unitMatrix start.length⟩

/-- One state leads to another along moves. -/
abbrev Leads (config : Config α) (f : List α → α) : State α → State α → Prop :=
  Relation.ReflTransGen (Moves config f)

/-- Iterations lead along moves to a last state. -/
lemma iterate_spec {left taken : Nat} {m : Minimum α}
    (h : (iterate config left taken s).runPure f = .ok m) :
    ∃ last, Leads config f s last ∧ m.solution = last.point ∧
      (m.stop = .converged → (iteration config last).runPure f = .arrived) ∧
      (m.solution = s.point ∨ m.solution ∈ (iterate config left taken s).probes f) := by
  induction left generalizing taken s with
  | zero =>
      cases h
      exact ⟨s, .refl, rfl, by simp, Or.inl rfl⟩
  | succ left ih =>
      rw [iterate, Search.runPure_bind] at h
      rw [iterate, Search.probes_bind]
      cases hprogress : (iteration config s).runPure f with
      | arrived =>
          rw [hprogress] at h
          cases h
          exact ⟨s, .refl, rfl, fun _ => hprogress, Or.inl rfl⟩
      | stuck error =>
          rw [hprogress] at h
          cases h
      | moved next =>
          rw [hprogress] at h
          obtain ⟨last, hmoves, hlast, hstop, hprobes⟩ := ih h
          refine ⟨last, .head hprogress hmoves, hlast, hstop, ?_⟩
          rw [List.mem_append]
          rcases hprobes with heq | hmem
          · rw [heq]
            exact (Moves.point_mem_probes hprogress).imp_right Or.inl
          · exact Or.inr (Or.inr hmem)

/-- **A search that answers** has gone from its first state along moves to a last one, whose point
it answers.  It has looked at that point, and if it reports convergence, the last iteration has
arrived. -/
theorem minimize_spec {start : List α} {m : Minimum α}
    (h : (minimize config start).runPure f = .ok m) :
    Scalar.isFinite (f start) = true ∧ m.solution ∈ (minimize config start).probes f ∧
    ∃ last, Leads config f (first config f start) last ∧
      m.solution = last.point ∧
      (m.stop = .converged → (iteration config last).runPure f = .arrived) := by
  have hminimize : minimize config start = Search.eval start >>= fun value =>
      if (!Scalar.isFinite value) = true then pure (.error .nonFiniteStart)
      else gradient config.finiteDifferenceStep start >>= fun gradient =>
        iterate config config.maxIterations 0 ⟨start, value, gradient, unitMatrix start.length⟩ :=
    rfl
  have hfinite : ¬ (!Scalar.isFinite (f start)) = true := by
    intro hinfinite
    rw [hminimize, Search.runPure_bind, Search.runPure_eval, if_pos hinfinite] at h
    cases h
  rw [hminimize, Search.runPure_bind, Search.runPure_eval, if_neg hfinite,
    Search.runPure_bind] at h
  obtain ⟨last, hmoves, hlast, hstop, hprobes⟩ := iterate_spec h
  refine ⟨by simpa using hfinite, ?_, last, hmoves, hlast, hstop⟩
  rw [hminimize, Search.probes_bind, Search.runPure_eval, if_neg hfinite, Search.probes_bind,
    Search.probes_eval]
  rcases hprobes with heq | hmem
  · simp [heq]
  · simp [hmem]

/-! ## What every state knows -/

/-- A state knows the objective and its gradient at a point of so many components. -/
structure State.Sound (config : Config α) (f : List α → α) (n : Nat) (s : State α) : Prop where
  length : s.point.length = n
  rows : s.inverseHessian.length = n
  value : s.value = f s.point
  gradient : s.gradient = (Bfgs.gradient config.finiteDifferenceStep s.point).runPure f

/-- A trial knows the objective at a point of so many components. -/
structure Trial.Sound (f : List α → α) (n : Nat) (trial : Trial α) : Prop where
  length : trial.point.length = n
  length_step : trial.step.length = n
  value : trial.value = f trial.point

variable {n : Nat} {trial : Trial α}

lemma length_update (h : List (List α)) {v w : List α} (hv : v.length = h.length) :
    (update h v w).length = h.length := by
  rw [update]
  split_ifs
  · simp [mulVec, hv]
  · rfl

lemma State.length_step (s : State α) : s.step.length = s.inverseHessian.length := by
  simp [State.step, mulVec]

namespace State.Sound

lemma untried (hs : s.Sound config f n) : s.untried.Sound f n :=
  ⟨hs.length, s.length_step.trans hs.rows, hs.value⟩

lemma attempt (hs : s.Sound config f n) (factor : α) : (s.attempt f factor).Sound f n where
  length := by simp [State.attempt, s.length_step, hs.length, hs.rows]
  length_step := by simp [State.attempt, s.length_step, hs.rows]
  value := rfl

lemma tried (hs : s.Sound config f n) (k : Nat) : (s.tried f k).Sound f n := by
  cases k with
  | zero => exact hs.untried
  | succ k =>
      obtain ⟨hlength, hstep, hvalue⟩ := hs.attempt (halved k)
      exact ⟨hlength, hstep, hvalue⟩

lemma finds (hs : s.Sound config f n) (h : s.Finds config f (some trial)) : trial.Sound f n := by
  cases h with
  | accepted => exact hs.attempt _
  | short => exact hs.tried _

lemma moves (hs : s.Sound config f n) (h : Moves config f s t) : t.Sound config f n := by
  have hcomes := comes_iteration config f s
  rw [show (iteration config s).runPure f = .moved t from h] at hcomes
  cases hcomes with
  | moved _ hfound =>
      obtain ⟨hlength, hstep, hvalue⟩ := hs.finds hfound
      exact ⟨hlength, (length_update _ (hstep.trans hs.rows.symm)).trans hs.rows, hvalue, rfl⟩

lemma first (config : Config α) (f : List α → α) (start : List α) :
    (Bfgs.first config f start).Sound config f start.length :=
  ⟨rfl, by simp [Bfgs.first, unitMatrix], rfl, rfl⟩

/-- **Along the way**, every state knows the objective and its gradient. -/
lemma leads (hs : s.Sound config f n) (h : Leads config f s t) : t.Sound config f n := by
  induction h with
  | refl => exact hs
  | tail _ hmove ih => exact ih.moves hmove

end State.Sound

end Bfgs

end SketchSolver
