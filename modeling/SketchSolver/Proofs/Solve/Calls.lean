import Mathlib
import SketchSolver.Proofs.Solve.Clusters
import SketchSolver.Proofs.Solve.Known

/-!
# Calls of the minimizer

A minimizer may write down how it is called.  It answers as it did without, so a solve comes to the
same, and the log says what the solver has asked for.

* `Minimizer.logged` — the minimizer with its log.
* `Problem.Called` — a problem without parameters does not call the minimizer.  Any other problem
  calls it once, with the present values of its parameters.
* `Outcome.ofTurn` — what comes of a cluster depends on the answer alone.
* `solveClusters_called` — all clusters, one after the other: the log is what their turns have
  called for, in order.
* `Report.conclude_eq_error_iff`, `Report.conclude_eq_ok_iff`, `Report.ofOutcomes_turns` — the
  report is the first failure of a turn, or a summary of the turns.
-/

namespace SketchSolver

open Arena

variable {α σ : Type}

/-! ## A log -/

/-- One call of a minimizer. -/
structure Call (α : Type) where
  /-- Where it was to begin. -/
  start : List α
  /-- What it answered. -/
  answer : Except MinimizerError (Minimum α)

namespace Call

/-- The minimizer has failed. -/
def Fails (call : Call α) : Prop :=
  ∃ e, call.answer = .error e

/-- How many iterations the call has taken; a failure does not count any. -/
def iterations (call : Call α) : Count :=
  match call.answer with
  | .ok minimum => minimum.iterations
  | .error _ => 0

/-- The minimizer has run out of iterations. -/
def ranOut (call : Call α) : Bool :=
  match call.answer with
  | .ok ⟨_, .iterationLimit, _⟩ => true
  | _ => false

end Call

/-- A sum of counts wraps around. -/
lemma Count.val_sum (counts : List Count) :
    (counts.sum : Nat) = (counts.map Fin.val).sum % UInt64.size := by
  induction counts with
  | nil => rfl
  | cons n counts ih => rw [List.sum_cons, Fin.val_add, ih, Nat.add_mod_mod, List.map_cons,
      List.sum_cons]

/-- The same minimizer, which writes down every call beside what it remembers. -/
def Minimizer.logged (m : Minimizer σ α) : Minimizer (σ × List (Call α)) α where
  minimize := fun (memory, calls) start =>
    (m.minimize memory start).bind fun (answer, after) =>
      .done (answer, after, calls ++ [⟨start, answer⟩])

/-- It looks where the minimizer looks, and answers as it does. -/
lemma Minimizer.run_logged {υ : Type} {m : Minimizer σ α} {memory after : σ} {start : List α}
    {objective : List α → υ → α × υ} {state state' : υ} {answer : Except MinimizerError (Minimum α)}
    (h : (m.minimize memory start).run objective state = ((answer, after), state'))
    (calls : List (Call α)) :
    (m.logged.minimize (memory, calls) start).run objective state =
      ((answer, after, calls ++ [⟨start, answer⟩]), state') := by
  rw [logged, Search.run_bind, h]
  rfl

/-! ## The report -/

/-- What comes of a cluster whose turn does not call the minimizer, or calls it once. -/
def Outcome.ofTurn : Option (Call α) → Outcome
  | none => .determined
  | some call =>
    match call.answer with
    | .ok ⟨_, .converged, iterations⟩ => .solved iterations
    | .ok ⟨_, .iterationLimit, iterations⟩ => .abandoned iterations
    | .error e => .failed e

namespace Outcome

lemma ofTurn_eq_failed_iff {turn : Option (Call α)} {e : MinimizerError} :
    Outcome.ofTurn turn = .failed e ↔ ∃ call, turn = some call ∧ call.answer = .error e := by
  rcases turn with _ | ⟨start, e' | ⟨solution, stop, iterations⟩⟩
  · simp [ofTurn]
  · simp [ofTurn]
  · cases stop <;> simp [ofTurn]

end Outcome

namespace Report

/-- The first failure is a failure before which there is none. -/
lemma firstFailure_eq_some_iff {outcomes : List Outcome} {k : Nat} {e : MinimizerError} :
    firstFailure outcomes = some (k, e) ↔ ∃ before rest, outcomes = before ++ .failed e :: rest ∧
      before.length = k ∧ ∀ e', .failed e' ∉ before := by
  have hnone := firstFailure_eq_none_iff
  simp only [firstFailure, List.findSome?_eq_none_iff] at hnone
  rw [firstFailure, List.findSome?_eq_some_iff]
  constructor
  · rintro ⟨l₁, ⟨x, i⟩, l₂, hsplit, hx, hl₁⟩
    obtain ⟨before, rest, rfl, rfl, hrest⟩ := List.zipIdx_eq_append_iff.1 hsplit
    obtain ⟨y, rest', rfl, hy, -⟩ := List.zipIdx_eq_cons_iff.1 hrest.symm
    cases hy
    cases x with
    | failed e' =>
        cases hx
        exact ⟨before, rest', rfl, (Nat.zero_add _).symm, (hnone before).1 hl₁⟩
    | _ => cases hx
  · rintro ⟨before, rest, rfl, rfl, hbefore⟩
    refine ⟨before.zipIdx, (.failed e, before.length), rest.zipIdx (before.length + 1), ?_, rfl,
      (hnone before).2 hbefore⟩
    rw [List.zipIdx_append, List.zipIdx_cons, Nat.zero_add]

/-- **The first failure.**  What comes of some turns is an error of the minimizer exactly if a call
of theirs has failed, and then it is that of the first one. -/
theorem conclude_eq_error_iff {turns : List (Option (Call α))} {e : SolverError} :
    conclude (turns.map Outcome.ofTurn) = .error e ↔
      ∃ before call rest source, turns = before ++ some call :: rest ∧
        call.answer = .error source ∧ (∀ d, some d ∈ before → ¬ d.Fails) ∧
        e = .minimizer before.length source := by
  have hfirst : conclude (turns.map Outcome.ofTurn) = .error e ↔
      ∃ k source, firstFailure (turns.map Outcome.ofTurn) = some (k, source) ∧
        e = .minimizer k source := by
    rw [conclude]
    split
    · rename_i k source hfound
      rw [hfound]
      constructor
      · rintro ⟨⟩
        exact ⟨k, source, rfl, rfl⟩
      · rintro ⟨_, _, ⟨⟩, rfl⟩
        rfl
    · rename_i hnone
      simp [hnone]
  rw [hfirst]
  constructor
  · rintro ⟨k, source, hfound, rfl⟩
    obtain ⟨before, rest, hsplit, rfl, hbefore⟩ := firstFailure_eq_some_iff.1 hfound
    obtain ⟨before, later, rfl, rfl, hlater⟩ := List.map_eq_append_iff.1 hsplit
    obtain ⟨turn, rest, rfl, hturn, rfl⟩ := List.map_eq_cons_iff.1 hlater
    obtain ⟨call, rfl, hanswer⟩ := Outcome.ofTurn_eq_failed_iff.1 hturn
    refine ⟨before, call, rest, source, rfl, hanswer, ?_, by rw [List.length_map]⟩
    rintro d hd ⟨e', he'⟩
    exact hbefore e' (List.mem_map.2 ⟨some d, hd, Outcome.ofTurn_eq_failed_iff.2 ⟨d, rfl, he'⟩⟩)
  · rintro ⟨before, call, rest, source, rfl, hanswer, hbefore, rfl⟩
    refine ⟨before.length, source, firstFailure_eq_some_iff.2
      ⟨before.map Outcome.ofTurn, rest.map Outcome.ofTurn, ?_, List.length_map _, ?_⟩, rfl⟩
    · rw [List.map_append, List.map_cons, Outcome.ofTurn_eq_failed_iff.2 ⟨call, rfl, hanswer⟩]
    · intro e' hmem
      obtain ⟨turn, hturn, hfailed⟩ := List.mem_map.1 hmem
      obtain ⟨d, rfl, hd⟩ := Outcome.ofTurn_eq_failed_iff.1 hfailed
      exact hbefore d hturn ⟨e', hd⟩

/-- Otherwise it is the summary. -/
theorem conclude_eq_ok_iff {turns : List (Option (Call α))} {r : Report} :
    conclude (turns.map Outcome.ofTurn) = .ok r ↔
      (∀ call, some call ∈ turns → ¬ call.Fails) ∧ r = ofOutcomes (turns.map Outcome.ofTurn) := by
  have hnone : firstFailure (turns.map Outcome.ofTurn) = none ↔
      ∀ call, some call ∈ turns → ¬ call.Fails := by
    rw [firstFailure_eq_none_iff]
    constructor
    · rintro h call hcall ⟨e, he⟩
      exact h e (List.mem_map.2 ⟨_, hcall, Outcome.ofTurn_eq_failed_iff.2 ⟨call, rfl, he⟩⟩)
    · intro h e hmem
      obtain ⟨turn, hturn, hfailed⟩ := List.mem_map.1 hmem
      obtain ⟨call, rfl, he⟩ := Outcome.ofTurn_eq_failed_iff.1 hfailed
      exact h call hturn ⟨e, he⟩
  rw [← hnone, conclude]
  split
  · rename_i hfound
    simp [hfound]
  · rename_i hfound
    rw [Except.ok.injEq, hfound, eq_self_iff_true, true_and, eq_comm]

/-- There is an error exactly if a call has failed. -/
lemma exists_conclude_eq_error_iff {turns : List (Option (Call α))} :
    (∃ e, conclude (turns.map Outcome.ofTurn) = .error e) ↔
      ∃ call, some call ∈ turns ∧ call.Fails := by
  rcases hanswer : conclude (turns.map Outcome.ofTurn) with e | r
  · obtain ⟨before, call, rest, source, rfl, hcall, -⟩ := conclude_eq_error_iff.1 hanswer
    exact iff_of_true ⟨e, rfl⟩ ⟨call, by simp, source, hcall⟩
  · refine iff_of_false (by simp) ?_
    rintro ⟨call, hcall, hfails⟩
    exact (conclude_eq_ok_iff.1 hanswer).1 call hcall hfails

lemma ofOutcomes_concat (outcomes : List Outcome) (outcome : Outcome) :
    ofOutcomes (outcomes ++ [outcome]) = (ofOutcomes outcomes).add outcome := by
  rw [ofOutcomes, List.foldl_concat]
  rfl

/-- **What is counted** are the turns of all clusters. -/
theorem ofOutcomes_turns (turns : List (Option (Call α))) :
    let r := ofOutcomes (turns.map Outcome.ofTurn)
    r.clusters = turns.length ∧ r.solved + r.abandoned + r.failed = turns.length ∧
      r.fullyDetermined = turns.countP Option.isNone ∧
      r.abandoned = turns.reduceOption.countP Call.ranOut ∧
      r.iterations = (turns.reduceOption.map Call.iterations).sum ∧
      ((∀ d, some d ∈ turns → ¬ d.Fails) → r.failed = 0) := by
  induction turns using List.reverseRecOn with
  | nil => simp [ofOutcomes]
  | append_singleton turns turn ih =>
      obtain ⟨hclusters, htotal, hdetermined, habandoned, hiterations, hfailed⟩ := ih
      have hearlier : (∀ d, some d ∈ turns ++ [turn] → ¬ d.Fails) →
          (ofOutcomes (turns.map Outcome.ofTurn)).failed = 0 := fun hall =>
        hfailed fun d hd => hall d (List.mem_append_left _ hd)
      simp only [List.map_append, List.map_cons, List.map_nil, ofOutcomes_concat,
        List.length_append, List.length_singleton, List.countP_append, List.reduceOption_append,
        List.sum_append]
      rcases turn with _ | ⟨start, e | ⟨solution, stop, iterations⟩⟩
      · refine ⟨?_, ?_, ?_, ?_, ?_, hearlier⟩ <;>
          simp [Outcome.ofTurn, add, hclusters, hdetermined, habandoned, hiterations]
        omega
      · refine ⟨?_, ?_, ?_, ?_, ?_, fun hall =>
            absurd ⟨e, rfl⟩ (hall ⟨start, .error e⟩ (by simp))⟩ <;>
          simp [Outcome.ofTurn, Call.ranOut, Call.iterations, add, hclusters, hdetermined,
            habandoned, hiterations]
        omega
      · cases stop <;> refine ⟨?_, ?_, ?_, ?_, ?_, hearlier⟩ <;>
          simp [Outcome.ofTurn, Call.ranOut, Call.iterations, add, hclusters, hdetermined,
            habandoned, hiterations] <;> omega

end Report

/-! ## One cluster -/

variable [Scalar α] {ctx : SolveContext α} {c : Cluster α} {p : Problem α} {m : Minimizer σ α}
  {memory after : σ} {a b : Arena α} {outcome : Outcome} {fingerOfGod : Bool}

namespace Problem

/-- How a problem calls the minimizer: not at all if there are no parameters, and otherwise once,
with their present values. -/
inductive Called (p : Problem α) (fingerOfGod : Bool) (m : Minimizer σ α) (memory : σ)
    (a : Arena α) : Option (Call α) → Prop
  | never : p.parameters = [] → Called p fingerOfGod m memory a none
  | once {call : Call α} {after : σ} {state : Arena α × Option SolverError} :
      p.parameters ≠ [] → p.parameters.mapM a.value = .ok call.start →
      (m.minimize memory call.start).run (p.objective fingerOfGod) (a, none) =
        ((call.answer, after), state) →
      Called p fingerOfGod m memory a (some call)

/-- **A search** calls the minimizer once. -/
lemma search_called (h : p.search fingerOfGod m memory a = .ok (outcome, after, b))
    (hparameters : p.parameters ≠ []) :
    ∃ call, p.Called fingerOfGod m memory a (some call) ∧ outcome = .ofTurn (some call) ∧
      ∀ calls, p.search fingerOfGod m.logged (memory, calls) a =
        .ok (outcome, (after, calls ++ [call]), b) := by
  rw [search, bind_eq_ok_iff] at h
  obtain ⟨start, hstart, h⟩ := h
  obtain ⟨free, hfree, h⟩ := bind_eq_ok_iff.1 h
  rcases hrun : (m.minimize memory start).run (p.objective fingerOfGod) (a, none) with
    ⟨⟨answer, after'⟩, probed, _ | e⟩
  · have hlogged := Minimizer.run_logged hrun
    simp only [hrun] at h
    refine ⟨⟨start, answer⟩, .once hparameters hstart hrun, ?_⟩
    rcases answer with e | ⟨solution, stop, iterations⟩
    · obtain ⟨b', hrestore, hpure⟩ := bind_eq_ok_iff.1 h
      cases hpure
      exact ⟨rfl, fun calls => by
        simp only [search, hstart, hfree, ok_bind, hlogged, hrestore, pure_eq_ok]⟩
    · cases stop with
      | iterationLimit =>
          obtain ⟨b', hrestore, hpure⟩ := bind_eq_ok_iff.1 h
          cases hpure
          exact ⟨rfl, fun calls => by
            simp only [search, hstart, hfree, ok_bind, hlogged, hrestore, pure_eq_ok]⟩
      | converged =>
          obtain ⟨⟨total, b'⟩, hevaluate, hpure⟩ := bind_eq_ok_iff.1 h
          cases hpure
          exact ⟨rfl, fun calls => by
            simp only [search, hstart, hfree, ok_bind, hlogged, hevaluate, pure_eq_ok]⟩
  · simp only [hrun] at h
    cases h

end Problem

/-- **The turn of a cluster** calls the minimizer at most once. -/
lemma solveCluster_called (h : solveCluster ctx m memory c a = .ok (outcome, after, b)) :
    ∃ p a' turn, Problem.prepare ctx c a = .ok (p, a') ∧
      p.Called ctx.fingerOfGod m memory a' turn ∧ outcome = .ofTurn turn ∧
      ∀ calls, solveCluster ctx m.logged (memory, calls) c a =
        .ok (outcome, (after, calls ++ turn.toList), b) := by
  obtain ⟨⟨p, a'⟩, hprepare, h⟩ := bind_eq_ok_iff.1 h
  dsimp only at h
  by_cases hparameters : p.parameters = []
  · rw [if_pos (List.isEmpty_iff.2 hparameters)] at h
    obtain ⟨⟨total, b'⟩, htotal, hpure⟩ := bind_eq_ok_iff.1 h
    cases hpure
    refine ⟨p, a', none, hprepare, .never hparameters, rfl, fun calls => ?_⟩
    rw [solveCluster, hprepare, ok_bind]
    dsimp only
    rw [if_pos (List.isEmpty_iff.2 hparameters), htotal, Option.toList_none, List.append_nil]
    rfl
  · rw [if_neg (fun hempty => hparameters (List.isEmpty_iff.1 hempty))] at h
    obtain ⟨call, hcalled, houtcome, hlogged⟩ := Problem.search_called h hparameters
    refine ⟨p, a', some call, hprepare, hcalled, houtcome, fun calls => ?_⟩
    rw [solveCluster, hprepare, ok_bind]
    dsimp only
    rw [if_neg (fun hempty => hparameters (List.isEmpty_iff.1 hempty)), hlogged]
    rfl

/-! ## All clusters -/

/-- **All clusters.**  Every cluster has its turn, whatever came of those before it, and what the
log gains are the calls of their turns, in order. -/
theorem solveClusters_called {cs : List (Cluster α)} {outcomes : List Outcome}
    (h : solveClusters ctx m cs memory a = .ok (outcomes, after, b)) :
    ∃ turns : List (Option (Call α)), outcomes = turns.map .ofTurn ∧
      turns.length = cs.length ∧
      (∀ calls, solveClusters ctx m.logged cs (memory, calls) a =
        .ok (outcomes, (after, calls ++ turns.reduceOption), b)) ∧
      ∀ before c rest, cs = before ++ c :: rest →
        ∃ earlier memory₁ a₁ p a₂ turn,
          solveClusters ctx m before memory a = .ok (earlier, memory₁, a₁) ∧
          Problem.prepare ctx c a₁ = .ok (p, a₂) ∧ turns[before.length]? = some turn ∧
          p.Called ctx.fingerOfGod m memory₁ a₂ turn := by
  induction cs generalizing memory a outcomes with
  | nil =>
      cases h
      refine ⟨[], rfl, rfl, fun calls => ?_, fun before c rest heq => ?_⟩
      · rw [List.reduceOption_nil, List.append_nil]
        rfl
      · simp at heq
  | cons c cs ih =>
      obtain ⟨⟨outcome, memory₁, a₁⟩, hsolve, h⟩ := bind_eq_ok_iff.1 h
      obtain ⟨⟨later, _, _⟩, hrest, hpure⟩ := bind_eq_ok_iff.1 h
      cases hpure
      obtain ⟨p, a', turn, hprepare, hcalled, rfl, hlogged⟩ := solveCluster_called hsolve
      obtain ⟨turns, rfl, hlength, hlater, hturns⟩ := ih hrest
      refine ⟨turn :: turns, rfl, congrArg (· + 1) hlength, fun calls => ?_,
        fun before d rest heq => ?_⟩
      · rw [solveClusters, hlogged]
        simp only [ok_bind, hlater, pure_eq_ok, List.append_assoc]
        cases turn <;> rfl
      · rcases before with _ | ⟨first, before⟩
        · obtain ⟨rfl, rfl⟩ := List.cons.inj heq
          exact ⟨[], memory, a, p, a', turn, rfl, hprepare, rfl, hcalled⟩
        · obtain ⟨rfl, rfl⟩ := List.cons.inj heq
          obtain ⟨earlier, memory₂, a₂, p', a₃, turn', hbefore, hturn⟩ := hturns _ _ _ rfl
          refine ⟨.ofTurn turn :: earlier, memory₂, a₂, p', a₃, turn', ?_, hturn⟩
          rw [solveClusters, hsolve]
          simp only [ok_bind, hbefore]
          rfl

/-- The parameters are exactly the variables of the cluster that are neither known nor free. -/
lemma Cluster.Ready.mem_parameters_iff {constraints : ConstraintTable α} {t : HandleTable}
    {k : KnownArena α} (hready : c.Ready constraints t k.arena) (v : VarId) :
    v ∈ (c.problem k).parameters ↔
      v ∈ c.vars ∧ ¬ v ∈ (c.problem k).knowns ∧ ¬ v ∈ (c.problem k).free := by
  rw [problem, parameters, List.mem_filter, ← OrderedSet.mem_def, Bool.and_eq_true,
    Bool.not_eq_true', Bool.not_eq_true', ← Bool.not_eq_true, ← Bool.not_eq_true,
    KnownArena.isKnown_iff, OrderedSet.contains_eq_true_iff]
  refine and_congr_right fun hv => ?_
  rw [(hready.root v hv).2]

end SketchSolver
