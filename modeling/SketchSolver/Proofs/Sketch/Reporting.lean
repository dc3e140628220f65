import Mathlib
import SketchSolver.Proofs.Sketch.Consistent
import SketchSolver.Proofs.Solve.Calls

/-!
# What a solve asks of the minimizer, and what it reports

A solve of a reachable sketch takes its clusters one by one, whatever comes of them.  It calls the
minimizer once for each cluster in which something is left to search for, and for no other.  It
reports the first failure of the minimizer and nothing else, or sums up all turns
(`reachable_calls`).  Iterations are added up in 64 bits.
-/

namespace SketchSolver

namespace Sketch

variable {α σ : Type} [Scalar α] {s : Sketch α}

/-- **Calls and report.**  A solve of a reachable sketch can always be clustered, and every cluster
has its turn.  If the minimizer writes down how it is called, then the solve comes to the same, and
the log consists of the calls of these turns. -/
theorem reachable_calls (h : Reachable s) (m : Minimizer σ α) (memory : σ) :
    ∃ (cs : List (Cluster α)) (s' t : Sketch α) (turns : List (Option (Call α)))
        (answer : Except SolverError Report) (after : σ),
      s.clustered = .ok (cs, s') ∧ turns.length = cs.length ∧
      s.solveWith m memory = (answer, after, t) ∧
      s.solveWith m.logged (memory, []) = (answer, (after, turns.reduceOption), t) ∧
      -- every cluster has its turn, and calls for its parameters if there are any
      (∀ before c rest, cs = before ++ c :: rest → c.constraints ≠ [] ∧
        ∃ outcomes memory₁ a₁ p a₂ turn,
          solveClusters s'.solveContext m before memory s'.arena = .ok (outcomes, memory₁, a₁) ∧
          Problem.prepare s'.solveContext c a₁ = .ok (p, a₂) ∧
          turns[before.length]? = some turn ∧ p.Called s'.fingerOfGod m memory₁ a₂ turn ∧
          (∀ v, v ∈ p.parameters ↔ v ∈ c.vars ∧ ¬ v ∈ p.knowns ∧ ¬ v ∈ p.free) ∧
          (∀ v ∈ p.parameters, a₂.canonical v = v) ∧ p.parameters.Nodup) ∧
      -- the first call that fails is reported, and no other error
      (∀ e, answer = .error e ↔
        ∃ before call rest source, turns = before ++ some call :: rest ∧
          call.answer = .error source ∧ (∀ d, some d ∈ before → ¬ d.Fails) ∧
          e = .minimizer before.length source) ∧
      ((∃ e, answer = .error e) ↔ ∃ call, some call ∈ turns ∧ call.Fails) ∧
      -- otherwise the turns are counted
      ∀ r, answer = .ok r → r.clusters = cs.length ∧ r.failed = 0 ∧
        r.solved + r.abandoned = r.clusters ∧
        r.fullyDetermined = turns.countP Option.isNone ∧
        r.abandoned = turns.reduceOption.countP Call.ranOut ∧
        r.iterations = (turns.reduceOption.map Call.iterations).sum ∧
        -- a sum that does not fit wraps around, any other one is exact
        let total := (turns.reduceOption.map fun call => (call.iterations : Nat)).sum
        (r.iterations : Nat) = total % UInt64.size ∧
          (total < UInt64.size → (r.iterations : Nat) = total) := by
  obtain ⟨cs, s', outcomes, after, b, hclustered, hs', hcs, hsolve, -, hwhole⟩ :=
    h.intact.solveWith_spec m memory
  obtain ⟨turns, rfl, hlength, hlogged, hturns⟩ := solveClusters_called hsolve
  refine ⟨cs, s', { s' with arena := b }, turns, _, after, hclustered, hlength, hwhole, ?_, ?_,
    fun e => Report.conclude_eq_error_iff, Report.exists_conclude_eq_error_iff, fun r hr => ?_⟩
  · simp only [solveWith, hclustered, hlogged, List.nil_append]
  · rintro before c rest rfl
    obtain ⟨i, rest', hconstraints, -⟩ := ((hs'.current hcs).sound c (by simp)).oldest
    refine ⟨by simp [hconstraints], ?_⟩
    obtain ⟨earlier, memory₁, a₁, p, a₂, turn, hbefore, hprepare, hturn, hcalled⟩ :=
      hturns before c rest rfl
    obtain ⟨_, _, _, hbefore', hwf, -, hready⟩ := hs'.solve_before hcs m memory
    rw [hbefore] at hbefore'
    cases hbefore'
    obtain ⟨held, n, k, -, hpasses, -, hprepare'⟩ := hready.prepare_spec hwf
    rw [hprepare] at hprepare'
    cases hprepare'
    have hready₂ := hready.congr ((hpasses.marks hwf).within hwf).shape
    exact ⟨earlier, memory₁, a₁, _, _, turn, hbefore, hprepare, hturn, hcalled,
      hready₂.mem_parameters_iff,
      fun v hv => (hready₂.root v (hready₂.fits_problem.parameters v hv)).2,
      hready₂.fits_problem.nodup⟩
  · obtain ⟨hall, rfl⟩ := Report.conclude_eq_ok_iff.1 hr
    obtain ⟨hclusters, htotal, hdetermined, habandoned, hiterations, hfailed⟩ :=
      Report.ofOutcomes_turns turns
    rw [hfailed hall, Nat.add_zero] at htotal
    refine ⟨hclusters.trans hlength, hfailed hall, htotal.trans hclusters.symm, hdetermined,
      habandoned, hiterations, ?_⟩
    have hwrapped := Count.val_sum (turns.reduceOption.map Call.iterations)
    rw [← hiterations, List.map_map] at hwrapped
    exact ⟨hwrapped, fun hfits => hwrapped.trans (Nat.mod_eq_of_lt hfits)⟩

/-- A minimizer that counts its calls, fails the first time, and stays where it begins from then
on. -/
def failsFirst {α : Type} : Minimizer Nat α where
  minimize count start := .done
    (if count = 0 then .error .nonFiniteStart else .ok ⟨start, .converged, 7⟩, count + 1)

/-- A failure on the first handle is reported, and the second handle is solved all the same. -/
theorem calls_dragged :
    ∃ turns : List (Option (Call Float)), turns.length = 2 ∧
      (dragged.solveWith failsFirst 0).2.1 = 2 ∧
      dragged.solveWith failsFirst.logged (0, []) =
        (.error (.minimizer 0 .nonFiniteStart), (2, turns.reduceOption),
          (dragged.solveWith failsFirst 0).2.2) := by
  obtain ⟨cs, s', t, turns, answer, after, hclustered, hlength, hsolve, hlogged, -⟩ :=
    reachable_calls reachable_dragged failsFirst 0
  cases hclustered
  have hanswer : (dragged.solveWith failsFirst 0).1 = .error (.minimizer 0 .nonFiniteStart) := by
    decide +kernel
  have hafter : (dragged.solveWith failsFirst 0).2.1 = 2 := by decide +kernel
  refine ⟨turns, hlength, hafter, ?_⟩
  rw [hsolve] at hanswer hafter ⊢
  rw [hlogged, ← hanswer, ← hafter]

end Sketch

end SketchSolver
