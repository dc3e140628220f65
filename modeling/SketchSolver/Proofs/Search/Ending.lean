import SketchSolver.Proofs.Double.Product
import SketchSolver.Proofs.Search.Always
import SketchSolver.Proofs.Search.Descent

/-!
# Does a quasi-Newton search end?

A line search has no count of its own: it halves the step until the objective falls far enough or
the step is shorter than the tolerance.  A double that is halved often enough is zero
(`halved_eq_zero`), and from there on nothing changes any more.  So

* with a tolerance that is not met by zero, the step becomes too short in the end, whatever the
  objective answers (`always_lineSearch`);
* otherwise the search for a factor goes on for ever exactly where no factor is accepted, and then
  `lineSearch` runs out of halvings and says so (`lineSearch_eq_none_iff`).

`minimize_ends` carries this through the iterations.  Their number is limited, so a search that does
not end is stuck in one of its line searches (`State.Stalls`); the tolerances of `exacting` allow
for that at the bottom of a bowl (`bowl_stalls`).
-/

namespace SketchSolver

namespace Double

open Float.Model Float.Model.UnpackedFloat

/-- Half of a number is half of its significand, or has the next lower exponent. -/
lemma unpack_mul_half {x : Float} {m m' k : Nat} {e e' : Int} {hm : 0 < m}
    (hx : x.toModel.unpack = .finite .positive m e hm) (hm' : 0 < m') (hu : Full m' e')
    (hmantissa : m * 2 ^ 52 = m' * 2 ^ k) (hexponent : e + -53 = e' - k) :
    (x * 0.5).toModel.unpack = .finite .positive m' e' hm' := by
  have hproduct : UnpackedFloat.mul .binary64 x.toModel.unpack (0.5 : Float).toModel.unpack =
      .finite .positive m' e' hm' := by
    rw [hx, unpack_half, UnpackedFloat.mul, hmantissa, hexponent]
    exact round_shifted .positive k hm' hu
  show stored (UnpackedFloat.mul .binary64 x.toModel.unpack (0.5 : Float).toModel.unpack) = _
  rw [hproduct, stored_of_full _ _ hu]

/-- Half of the least positive number is zero. -/
lemma mul_half_of_least {x : Float}
    (hx : x.toModel.unpack = .finite .positive 1 (-1074) (by decide)) : x * 0.5 = 0 := by
  show Float.ofModel (Float.Model.pack
    (UnpackedFloat.mul .binary64 x.toModel.unpack (0.5 : Float).toModel.unpack)) = 0
  rw [hx]
  rfl

/-- Nothing times a finite number is nothing. -/
lemma measure_zero_mul {x : Float} (hx : Scalar.isFinite x = true) : measure (0 * x) = 0 := by
  have hx : x.toModel.unpack.isFinite = true := hx
  show units (stored (UnpackedFloat.mul .binary64 (.zero .positive) x.toModel.unpack)) = 0
  rcases cases_of_isFinite hx with ⟨s, hu⟩ | ⟨s, m, e, hm, hu⟩ <;>
    rw [hu] <;> exact units_stored_zero _

lemma le_zero_mul_iff (x : Float) {y : Float} (hy : Scalar.isFinite y = true) :
    x ≤ 0 * y ↔ x ≤ 0 := by
  have hzero : measure 0 = 0 := rfl
  have hdefined : Defined (0 * y) := (isUndefined_eq_false_iff _).1
    (Scalar.Lawful.isUndefined_mul Scalar.Lawful.isFinite_zero hy)
  rw [le_iff, le_iff, measure_zero_mul hy, hzero]
  exact ⟨fun h => ⟨h.1, defined_zero, h.2.2⟩, fun h => ⟨h.1, hdefined, h.2.2⟩⟩

end Double

namespace Bfgs

open Scalar State Double

/-! ## Factors -/

open Float.Model Float.Model.UnpackedFloat in
/-- A factor is a power of two, down to the least one that is a number. -/
lemma unpack_halved {k : Nat} (hk : k ≤ 1074) :
    (halved k : Float).toModel.unpack =
      .finite .positive (2 ^ min 52 (1074 - k)) (max (-52 - k) (-1074)) (by positivity) := by
  induction k with
  | zero => rfl
  | succ k ih =>
      have ih := ih (by omega)
      have hfull : Full (2 ^ min 52 (1074 - (k + 1))) (max (-52 - (k + 1 : Nat)) (-1074)) := by
        refine ⟨Nat.pow_lt_pow_right (by decide) (by omega), by omega, by omega, ?_⟩
        rcases Nat.lt_or_ge k 1022 with hk | hk
        · exact Or.inl (Nat.pow_le_pow_right (by decide) (by omega))
        · exact Or.inr (by omega)
      rcases Nat.lt_or_ge k 1022 with hk | hk
      · have hmantissa : min 52 (1074 - k) = min 52 (1074 - (k + 1)) := by omega
        exact unpack_mul_half (k := 52) ih _ hfull (by rw [hmantissa]) (by omega)
      · have hmantissa : min 52 (1074 - k) + 52 = min 52 (1074 - (k + 1)) + 53 := by omega
        exact unpack_mul_half (k := 53) ih _ hfull (by rw [← pow_add, ← pow_add, hmantissa])
          (by omega)

/-- **Halving ends in zero.** -/
lemma halved_eq_zero {k : Nat} (hk : 1075 ≤ k) : (halved k : Float) = 0 := by
  induction k, hk using Nat.le_induction with
  | base => exact mul_half_of_least (unpack_halved (le_refl 1074))
  | succ k _ ih =>
      rw [halved, ih]
      rfl

section

variable {config : Config Float} {f : List Float → Float} {s t : State Float} {k : Nat}

/-- Whether a step that was halved so often is long enough. -/
lemma stepTolerance_le_iff (hstep : allFinite s.step = true) (hk : 1075 ≤ k) :
    config.stepTolerance ≤ halved k * maxNorm s.step ↔ config.stepTolerance ≤ 0 := by
  rw [halved_eq_zero hk]
  exact le_zero_mul_iff _ (isFinite_maxNorm hstep)

/-! ## One line search -/

/-- **A line search ends**, whatever the objective answers, unless zero is long enough. -/
lemma always_lineSearch (hstep : allFinite s.step = true) (htolerance : ¬ config.stepTolerance ≤ 0)
    {limit : Nat} {trial : Trial Float} (hfactor : trial.factor = halved k)
    (hlimit : 1075 ≤ k + limit) :
    (s.lineSearch config limit trial).Always (· ≠ none) := by
  induction limit generalizing k trial with
  | zero =>
      rw [lineSearch_of_short]
      · exact Search.always_pure (Option.some_ne_none _)
      · rwa [hfactor, stepTolerance_le_iff hstep (by omega)]
  | succ limit ih =>
      by_cases hlong : config.stepTolerance ≤ trial.factor * maxNorm s.step
      · rw [State.lineSearch, Bfgs.lineSearch, if_pos hlong]
        refine Search.always_eval_bind fun value => ?_
        split_ifs
        · exact Option.some_ne_none _
        · exact ih (k := k + 1) (congrArg (· * 0.5) hfactor) (by omega)
      · rw [lineSearch_of_short hlong]
        exact Search.always_pure (Option.some_ne_none _)

/-- The step is halved for ever. -/
def State.Endless (config : Config Float) (f : List Float → Float) (s : State Float) : Prop :=
  ∀ k, s.Halves config f k

/-- When a line search runs out of halvings. -/
lemma lineSearch_eq_none_iff_halves {limit : Nat} (hk : s.Halves config f k) :
    (s.lineSearch config limit (s.tried f k)).runPure f = none ↔
      s.Halves config f (k + limit) ∧
        config.stepTolerance ≤ halved (k + limit) * maxNorm s.step := by
  have hfactor := factor_tried f s k
  induction limit generalizing k with
  | zero =>
      by_cases hlong : config.stepTolerance ≤ (s.tried f k).factor * maxNorm s.step
      · rw [lineSearch_zero hlong]
        exact iff_of_true rfl ⟨hk, hfactor ▸ hlong⟩
      · rw [lineSearch_of_short hlong]
        exact iff_of_false (Option.some_ne_none _) fun h => hlong (hfactor ▸ h.2)
  | succ limit ih =>
      by_cases hlong : config.stepTolerance ≤ (s.tried f k).factor * maxNorm s.step
      · obtain ⟨next, hsearch, haccepted, hrejected⟩ := lineSearch_succ f limit hlong
        rw [hsearch, Search.runPure_bind]
        rw [hfactor] at haccepted hrejected hlong ⊢
        change (next (s.attempt f (halved k)).value).runPure f = none ↔ _
        by_cases haccept : s.Accepts (s.attempt f (halved k))
        · rw [haccepted haccept]
          exact iff_of_false (Option.some_ne_none _) fun h => (h.1 k (by omega)).2 haccept
        · have hcount : k + (limit + 1) = k + 1 + limit := by omega
          rw [hrejected haccept, hcount]
          refine ih (k := k + 1) (fun j hj => ?_) (factor_tried f s (k + 1))
          rcases Nat.lt_succ_iff_lt_or_eq.1 hj with hj | rfl
          · exact hk j hj
          · exact ⟨hlong, haccept⟩
      · rw [lineSearch_of_short hlong]
        exact iff_of_false (Option.some_ne_none _) fun h => hlong (hfactor ▸ (h.1 k (by omega)).1)

/-- **The halvings suffice**: a line search runs out of them only if the step is halved for ever. -/
lemma lineSearch_eq_none_iff :
    (s.lineSearch config halvings s.untried).runPure f = none ↔ s.Endless config f := by
  have hnone : s.Halves config f 0 := fun j hj => absurd hj j.not_lt_zero
  have hiff := @lineSearch_eq_none_iff_halves config f s 0 halvings hnone
  rw [Nat.zero_add] at hiff
  refine hiff.trans ⟨fun ⟨hhalves, hlong⟩ k j _ => ?_, fun h => ⟨h _, (h (halvings + 1) _ ?_).1⟩⟩
  · rcases Nat.lt_or_ge j halvings with hj | hj
    · exact hhalves j hj
    · -- where the factor is zero, each attempt repeats the one before
      have hsame : (halved j : Float) = halved 1075 := by
        rw [halved_eq_zero ((by decide : 1075 ≤ halvings).trans hj), halved_eq_zero le_rfl]
      rw [hsame]
      exact hhalves 1075 (by decide)
  · exact Nat.lt_succ_self _

/-! ## Iterations -/

/-- The search is stuck here: it needs a step, and the step is halved for ever. -/
structure State.Stalls (config : Config Float) (f : List Float → Float) (s : State Float) :
    Prop where
  finite_gradient : allFinite s.gradient = true
  steep : ¬ maxNorm s.gradient < config.gradientTolerance
  finite_step : allFinite s.step = true
  long : ¬ maxNorm s.step < config.stepTolerance
  endless : s.Endless config f

/-- An iteration does not end where its line search does not. -/
lemma iteration_eq_endless_iff :
    (iteration config s).runPure f = .stuck .endlessLineSearch ↔ s.Stalls config f := by
  rw [iteration_eq]
  split_ifs with hgradient hflat hstep hsmall
  · exact iff_of_false (by rintro ⟨⟩) fun h => by simp [h.finite_gradient] at hgradient
  · exact iff_of_false (by rintro ⟨⟩) fun h => h.steep hflat
  · exact iff_of_false (by rintro ⟨⟩) fun h => by simp [h.finite_step] at hstep
  · exact iff_of_false (by rintro ⟨⟩) fun h => h.long hsmall
  · have hstalls : s.Stalls config f ↔ s.Endless config f :=
      ⟨State.Stalls.endless, fun h => ⟨by simpa using hgradient, hflat, by simpa using hstep,
        hsmall, h⟩⟩
    rw [hstalls, ← lineSearch_eq_none_iff, Search.runPure_bind]
    cases (s.lineSearch config halvings s.untried).runPure f with
    | none => exact iff_of_true rfl rfl
    | some trial =>
        refine iff_of_false ?_ (Option.some_ne_none _)
        rw [State.conclude]
        split_ifs
        · rintro ⟨⟩
        · rw [Search.runPure_bind]
          rintro ⟨⟩

/-- One state leads to another along so many moves. -/
def LeadsIn (config : Config Float) (f : List Float → Float) :
    Nat → State Float → State Float → Prop
  | 0, s, t => s = t
  | k + 1, s, t => ∃ u, Moves config f s u ∧ LeadsIn config f k u t

/-- Iterations do not end where they lead to a state from which none does. -/
lemma iterate_eq_endless_iff {left taken : Nat} :
    (iterate config left taken s).runPure f = .error .endlessLineSearch ↔
      ∃ k < left, ∃ t, LeadsIn config f k s t ∧ t.Stalls config f := by
  induction left generalizing taken s with
  | zero => exact iff_of_false (by rintro ⟨⟩) fun ⟨k, hk, _⟩ => k.not_lt_zero hk
  | succ left ih =>
      -- the search stalls where it is, or after a move
      have hsplit : (∃ k < left + 1, ∃ t, LeadsIn config f k s t ∧ t.Stalls config f) ↔
          s.Stalls config f ∨ ∃ u, Moves config f s u ∧
            ∃ k < left, ∃ t, LeadsIn config f k u t ∧ t.Stalls config f := by
        constructor
        · rintro ⟨_ | k, hk, t, hleads, ht⟩
          · exact Or.inl ((show s = t from hleads) ▸ ht)
          · obtain ⟨u, hmove, hleads⟩ := hleads
            exact Or.inr ⟨u, hmove, k, Nat.lt_of_succ_lt_succ hk, t, hleads, ht⟩
        · rintro (hs | ⟨u, hmove, k, hk, t, hleads, ht⟩)
          · exact ⟨0, left.succ_pos, s, rfl, hs⟩
          · exact ⟨k + 1, Nat.succ_lt_succ hk, t, ⟨u, hmove, hleads⟩, ht⟩
      rw [hsplit, iterate, Search.runPure_bind, ← iteration_eq_endless_iff]
      simp only [Moves]
      cases (iteration config s).runPure f with
      | arrived => exact iff_of_false (by rintro ⟨⟩) (by rintro (⟨⟨⟩⟩ | ⟨u, ⟨⟩, _⟩))
      | stuck error =>
          refine ⟨fun h => Or.inl ?_, fun h => ?_⟩
          · cases h
            rfl
          · rcases h with h | ⟨u, h, -⟩
            · cases h
              rfl
            · cases h
      | moved next =>
          refine ih.trans ⟨fun h => Or.inr ⟨next, rfl, h⟩, fun h => ?_⟩
          rcases h with h | ⟨u, h, hleads⟩
          · cases h
          · cases h
            exact hleads

/-- A search does not end where it leads to a state in which it is stuck. -/
lemma minimize_eq_endless_iff {start : List Float} :
    (minimize config start).runPure f = .error .endlessLineSearch ↔
      isFinite (f start) = true ∧ ∃ k < config.maxIterations, ∃ s,
        LeadsIn config f k (first config f start) s ∧ s.Stalls config f := by
  rw [minimize_eq, Search.runPure_bind, Search.runPure_eval]
  by_cases hfinite : isFinite (f start) = true
  · rw [if_neg (by simp [hfinite]), Search.runPure_bind]
    exact iterate_eq_endless_iff.trans (and_iff_right hfinite).symm
  · rw [if_pos (by simp [hfinite])]
    exact iff_of_false (by rintro ⟨⟩) fun h => hfinite h.1

/-! ## Whatever the objective answers -/

lemma always_iteration (htolerance : ¬ config.stepTolerance ≤ 0) (s : State Float) :
    (iteration config s).Always (· ≠ .stuck .endlessLineSearch) := by
  rw [iteration_eq]
  split_ifs with _ _ hstep
  · exact Search.always_pure (by rintro ⟨⟩)
  · exact Search.always_pure (by rintro ⟨⟩)
  · exact Search.always_pure (by rintro ⟨⟩)
  · exact Search.always_pure (by rintro ⟨⟩)
  · have hstep : allFinite s.step = true := by simpa using hstep
    refine Search.always_bind (always_lineSearch (k := 0) hstep htolerance rfl (by decide))
      fun found hfound => ?_
    cases found with
    | none => exact absurd rfl hfound
    | some trial =>
        rw [State.conclude]
        split_ifs
        · exact Search.always_pure (by rintro ⟨⟩)
        · exact Search.always_bind (P := fun _ => True) (Search.always_of_forall fun _ => trivial)
            fun _ _ => Search.always_pure (by rintro ⟨⟩)

/-- No search takes more iterations than it may; and none is stuck in a line search, unless zero
meets the tolerance. -/
lemma always_iterate (config : Config Float) (left taken : Nat) (s : State Float) :
    (iterate config left taken s).Always fun answer =>
      (∀ m, answer = .ok m → m.iterations ≤ taken + left) ∧
      (¬ config.stepTolerance ≤ 0 → answer ≠ .error .endlessLineSearch) := by
  induction left generalizing taken s with
  | zero =>
      refine Search.always_pure ⟨fun m hm => ?_, fun _ => by rintro ⟨⟩⟩
      cases hm
      exact Nat.mod_le taken _
  | succ left ih =>
      have hiteration : (iteration config s).Always fun progress =>
          ¬ config.stepTolerance ≤ 0 → progress ≠ .stuck .endlessLineSearch := by
        by_cases htolerance : config.stepTolerance ≤ 0
        · exact Search.always_of_forall fun _ h => absurd htolerance h
        · exact (always_iteration htolerance s).mono fun _ h _ => h
      refine Search.always_bind hiteration fun progress hprogress => ?_
      cases progress with
      | arrived =>
          refine Search.always_pure ⟨fun m hm => ?_, fun _ => by rintro ⟨⟩⟩
          cases hm
          exact (Nat.mod_le taken _).trans (Nat.le_add_right taken _)
      | stuck error =>
          refine Search.always_pure ⟨by rintro m ⟨⟩, fun htolerance herror => ?_⟩
          cases herror
          exact hprogress htolerance rfl
      | moved next =>
          have hrest := ih (taken + 1) next
          rwa [Nat.add_right_comm taken 1 left] at hrest

lemma always_minimize (config : Config Float) (start : List Float) :
    (minimize config start).Always fun answer =>
      (∀ m, answer = .ok m → m.iterations ≤ config.maxIterations) ∧
      (¬ config.stepTolerance ≤ 0 → answer ≠ .error .endlessLineSearch) := by
  rw [minimize_eq]
  refine Search.always_eval_bind fun value => ?_
  split_ifs
  · exact Search.always_pure ⟨by rintro m ⟨⟩, fun _ => by rintro ⟨⟩⟩
  · refine Search.always_bind (P := fun _ => True) (Search.always_of_forall fun _ => trivial)
      fun gradient _ => ?_
    have hrest := always_iterate config config.maxIterations 0
      ⟨start, value, gradient, unitMatrix start.length⟩
    rwa [Nat.zero_add] at hrest

/-- **A search ends** after as many iterations as it may take, if it ends; and it ends unless zero
meets the tolerance for steps, whatever the objective answers and remembers.  On an objective that
is a function, it does not end where it leads, in fewer moves than that, to a state that needs a
step and halves it for ever. -/
theorem minimize_ends (config : Config Float) (start : List Float) :
    (∀ {σ : Type} (objective : List Float → σ → Float × σ) (memory : σ) (m : Minimum Float),
      ((minimize config start).run objective memory).1 = .ok m →
        m.iterations ≤ config.maxIterations) ∧
    (¬ config.stepTolerance ≤ 0 →
      ∀ {σ : Type} (objective : List Float → σ → Float × σ) (memory : σ),
        ((minimize config start).run objective memory).1 ≠ .error .endlessLineSearch) ∧
    ∀ f : List Float → Float,
      (minimize config start).runPure f = .error .endlessLineSearch ↔
        isFinite (f start) = true ∧ ∃ k < config.maxIterations, ∃ s,
          LeadsIn config f k (first config f start) s ∧ s.Stalls config f :=
  ⟨fun objective memory => ((always_minimize config start).run objective memory).1,
    fun htolerance _ objective memory =>
      ((always_minimize config start).run objective memory).2 htolerance,
    fun _ => minimize_eq_endless_iff⟩

end

/-! ## A search that does not end -/

/-- The standard tuning, without any tolerance. -/
def exacting : Config Float :=
  { Config.standard with gradientTolerance := 0, stepTolerance := 0 }

open Float.Model Float.Model.UnpackedFloat in
/-- A step of length zero leads nowhere, however it is shortened. -/
lemma zero_add_mul_halved (k : Nat) : (0 : Float) + -0 * halved k = 0 := by
  have hfinite : Scalar.isFinite (halved k : Float) = true := isFinite_halved k
  show Float.ofModel (Float.Model.pack (UnpackedFloat.add .binary64 (.zero .positive)
    (stored (UnpackedFloat.mul .binary64 (.zero .negative) (halved k : Float).toModel.unpack)))) = 0
  obtain ⟨t, ht⟩ : ∃ t, UnpackedFloat.mul .binary64 (.zero .negative)
      (halved k : Float).toModel.unpack = .zero t := by
    rcases cases_of_isFinite hfinite with ⟨s, hu⟩ | ⟨s, m, e, hm, hu⟩ <;>
      rw [hu] <;> exact ⟨_, rfl⟩
  rw [ht]
  cases t <;> rfl

/-- At the bottom of a bowl nothing falls, and without a tolerance no step is too short. -/
lemma stalls_bowl : (first exacting bowl [0]).Stalls exacting bowl := by
  have hstep : (first exacting bowl [0]).step = [-0] := rfl
  have hnorm : maxNorm (first exacting bowl [0]).step = 0 := by decide +kernel
  have hbowl : bowl [0] = 0 := by decide +kernel
  have hvalue : ∀ j, ((first exacting bowl [0]).attempt bowl (halved j)).value = 0 := by
    intro j
    have hpoint : ((first exacting bowl [0]).attempt bowl (halved j)).point =
        [0 + -0 * halved j] := by
      rw [State.attempt, hstep]
      rfl
    show bowl ((first exacting bowl [0]).attempt bowl (halved j)).point = 0
    rw [hpoint, zero_add_mul_halved, hbowl]
  have hfinite : Scalar.isFinite (0 : Float) = true := rfl
  refine ⟨rfl, Lawful.irrefl 0, rfl, Lawful.irrefl 0, fun k j _ => ⟨?_, fun haccept => ?_⟩⟩
  · have hproduct : isUndefined (halved j * (0 : Float)) = false :=
      Lawful.isUndefined_mul (isFinite_halved j) hfinite
    rw [hnorm]
    exact Lawful.le_of_not_lt hproduct (Lawful.isUndefined_of_isFinite hfinite)
      (Lawful.mul_nonneg (halved_nonneg j) (Lawful.irrefl 0))
  · have hlt := haccept.2
    rw [hvalue] at hlt
    exact Lawful.mul_nonpos (Lawful.mul_nonneg Lawful.tenth_nonneg (halved_nonneg j))
      (Lawful.irrefl 0) hlt

/-- Without any tolerance the search that starts at the bottom of a bowl does not end. -/
theorem bowl_stalls : (∀ k, (first exacting bowl [0]).Halves exacting bowl k) ∧
    (minimize exacting [0]).runPure bowl = .error .endlessLineSearch :=
  ⟨stalls_bowl.endless, minimize_eq_endless_iff.2
    ⟨rfl, 0, by decide, first exacting bowl [0], rfl, stalls_bowl⟩⟩

end Bfgs

end SketchSolver
