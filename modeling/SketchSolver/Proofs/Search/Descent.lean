import SketchSolver.Proofs.Double
import SketchSolver.Proofs.Search.Iteration

/-!
# Does a quasi-Newton search go downhill?

A trial is accepted when the objective changes by less than a tenth of what the slope along the step
promises.  Where the slope is not positive this means that the objective falls (`Accepts.lt`), and
so it does from any state to any later one (`Leads.le_or_ascends`).

But the approximation of the inverse Hessian is updated whether or not the objective is convex
along the step, so it may send the search along a direction of ascent.  There the same test accepts
points that are higher: `hump_ascends` is a run that ends above the point where it started.

`minimize_descends` therefore says that a search goes downhill except where it moves along an
ascending direction, and that it has looked at its answer, where the objective is finite.
-/

namespace SketchSolver

namespace Bfgs

open Scalar State

variable {α : Type} [Scalar α] [Lawful α] {config : Config α} {f : List α → α} {s t last : State α}
variable {k : Nat} {v : List α}

/-! ## Factors and norms -/

lemma isFinite_halved (k : Nat) : isFinite (halved k : α) = true := by
  induction k with
  | zero => exact Lawful.isFinite_one
  | succ k ih => exact Lawful.isFinite_half ih

lemma halved_nonneg (k : Nat) : ¬ (halved k : α) < 0 := by
  induction k with
  | zero => exact Lawful.one_nonneg
  | succ k ih => exact Lawful.mul_nonneg ih Lawful.half_nonneg

lemma isFinite_maxNorm (hv : allFinite v = true) : isFinite (maxNorm v) = true := by
  refine isFinite_foldl_greatest (fun size hsize => ?_) Lawful.isFinite_zero
  obtain ⟨x, hx, rfl⟩ := List.mem_map.1 hsize
  exact Lawful.isFinite_abs (List.all_eq_true.1 hv x hx)

/-! ## One move -/

/-- Along a direction that does not ascend, the objective falls. -/
lemma State.Accepts.lt (haccept : s.Accepts (s.attempt f (halved k)))
    (hfinite : isFinite s.value = true) (hslope : ¬ 0 < s.slope) :
    (s.attempt f (halved k)).value < s.value :=
  Lawful.lt_of_sub_lt haccept.1 hfinite haccept.2
    (Lawful.mul_nonpos (Lawful.mul_nonneg Lawful.tenth_nonneg (halved_nonneg k)) hslope)

/-- The full step is tried at least: it cannot become too short and long enough at once. -/
lemma State.Halves.eq_zero (hk : s.Halves config f k) (hstep : allFinite s.step = true)
    (hshort : ¬ config.stepTolerance ≤ halved k * maxNorm s.step)
    (hlong : ¬ halved k * maxNorm s.step < config.stepTolerance) : k = 0 := by
  by_contra hne
  have hdefined := Lawful.isUndefined_mul (isFinite_halved k) (isFinite_maxNorm hstep)
  exact hlong (Lawful.lt_of_not_le (hk 0 (Nat.pos_of_ne_zero hne)).1 hdefined hshort)

/-- A move leads to a point that was accepted, or nowhere. -/
lemma Moves.point (h : Moves config f s t) :
    (∃ k, s.Accepts (s.attempt f (halved k)) ∧ t = s.after config f (s.attempt f (halved k))) ∨
      t = s.after config f s.untried := by
  have hcomes := comes_iteration config f s
  rw [show (iteration config s).runPure f = .moved t from h] at hcomes
  cases hcomes with
  | moved hstep hfound hlong =>
      cases hfound with
      | accepted _ _ haccept => exact Or.inl ⟨_, haccept, rfl⟩
      | short hk hshort =>
          rw [factor_tried] at hlong
          cases hk.eq_zero hstep hshort hlong
          exact Or.inr rfl

lemma Moves.isFinite_value (h : Moves config f s t) (hs : isFinite s.value = true) :
    isFinite t.value = true := by
  rcases h.point with ⟨k, haccept, rfl⟩ | rfl
  · exact haccept.1
  · exact hs

/-- **One move** does not lead uphill, unless the direction ascends. -/
lemma Moves.le (h : Moves config f s t) (hs : isFinite s.value = true) (hslope : ¬ 0 < s.slope) :
    t.value < s.value ∨ t.value = s.value := by
  rcases h.point with ⟨k, haccept, rfl⟩ | rfl
  · exact Or.inl (haccept.lt hs hslope)
  · exact Or.inr rfl

/-! ## A whole run -/

/-- From one state to another the search moves along an ascending direction. -/
def Ascends (config : Config α) (f : List α → α) (s last : State α) : Prop :=
  ∃ u v, Leads config f s u ∧ 0 < u.slope ∧ Moves config f u v ∧ Leads config f v last

lemma Leads.isFinite_value (h : Leads config f s t) (hs : isFinite s.value = true) :
    isFinite t.value = true := by
  induction h with
  | refl => exact hs
  | tail _ hmove ih => exact hmove.isFinite_value ih

/-- **Along the way** the objective does not rise, unless a direction ascends. -/
lemma Leads.le_or_ascends (h : Leads config f s last) (hs : isFinite s.value = true) :
    ¬ s.value < last.value ∨ Ascends config f s last := by
  induction h with
  | refl => exact Or.inl (Lawful.irrefl _)
  | @tail u v hleads hmove ih =>
      have hu := Leads.isFinite_value hleads hs
      by_cases hslope : 0 < u.slope
      · exact Or.inr ⟨u, v, hleads, hslope, hmove, .refl⟩
      rcases ih with hle | ⟨u', v', hbefore, hslope', hmove', hafter⟩
      · left
        rcases hmove.le hu hslope with hlt | heq
        · exact fun h => hle (Lawful.trans h hlt)
        · rwa [heq]
      · exact Or.inr ⟨u', v', hbefore, hslope', hmove', hafter.tail hmove⟩

/-- **A search goes downhill**, except where it moves along an ascending direction.  It answers a
point with as many components as it started from, at which it has found the objective finite, and
which is not higher than any point on the way unless a direction ascended after that point. -/
theorem minimize_descends {start : List α} {m : Minimum α}
    (h : (minimize config start).runPure f = .ok m) :
    m.solution.length = start.length ∧
    m.solution ∈ (minimize config start).probes f ∧ isFinite (f m.solution) = true ∧
    ∃ last, Leads config f (first config f start) last ∧ m.solution = last.point ∧
      ∀ t, Leads config f (first config f start) t → Leads config f t last →
        f m.solution ≤ f t.point ∨ Ascends config f t last := by
  obtain ⟨hstart, hprobes, last, hleads, hlast, -⟩ := minimize_spec h
  have hsound := Sound.first config f start
  have hfinite : ∀ {t}, Leads config f (first config f start) t → isFinite (f t.point) = true :=
    fun ht => (hsound.leads ht).value ▸ Leads.isFinite_value ht hstart
  refine ⟨?_, hprobes, ?_, last, hleads, hlast, fun t ht hrest => ?_⟩
  · rw [hlast, (hsound.leads hleads).length]
  · rw [hlast]
    exact hfinite hleads
  · refine (Leads.le_or_ascends hrest (Leads.isFinite_value ht hstart)).imp_left fun hle => ?_
    rw [(hsound.leads ht).value, (hsound.leads hleads).value] at hle
    rw [hlast]
    exact Lawful.le_of_not_lt (Lawful.isUndefined_of_isFinite (hfinite ht))
      (Lawful.isUndefined_of_isFinite (hfinite hleads)) hle

/-- A bowl. -/
def bowl (point : List Float) : Float :=
  point.headD 0 * point.headD 0

theorem minimize_bowl : ∃ m, (minimize Config.standard [1]).runPure bowl = .ok m ∧
    m.solution.length = 1 ∧ isFinite (bowl m.solution) = true ∧
    (bowl m.solution ≤ bowl [1] ∨
      ∃ last, Ascends Config.standard bowl (first Config.standard bowl [1]) last) := by
  have hok : ((minimize Config.standard [1]).runPure bowl).isOk = true := by decide +kernel
  cases h : (minimize Config.standard [1]).runPure bowl with
  | error e =>
      rw [h] at hok
      cases hok
  | ok m =>
      obtain ⟨hlength, -, hfinite, last, hleads, -, hdescends⟩ := minimize_descends h
      exact ⟨m, rfl, hlength, hfinite,
        (hdescends _ .refl hleads).imp_right fun hascends => ⟨last, hascends⟩⟩

/-- Falls from zero to one, by way of a trough and a hump. -/
def hump (point : List Float) : Float :=
  let x := point.headD 0
  0 - x + 12 * x * x - 12 * x * x * x

/-- The standard tuning, for two iterations. -/
def twice : Config Float :=
  { Config.standard with maxIterations := 2 }

/-- A search that ends above the point it started from.  The full step leads to one, beyond the
hump; the curvature on the way was negative, and so the next direction leads back up. -/
theorem hump_ascends : ∃ m, (minimize twice [0]).runPure hump = .ok m ∧
    ¬ hump m.solution ≤ hump [0] := by
  have hrun : ((minimize twice [0]).runPure hump).toOption.any
      (fun m => decide (¬ hump m.solution ≤ hump [0])) = true := by decide +kernel
  cases h : (minimize twice [0]).runPure hump with
  | error e =>
      rw [h] at hrun
      cases hrun
  | ok m =>
      rw [h] at hrun
      exact ⟨m, rfl, of_decide_eq_true hrun⟩

end Bfgs

end SketchSolver
