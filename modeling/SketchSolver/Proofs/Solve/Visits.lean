import Mathlib
import SketchSolver.Proofs.Solve.Clusters
import SketchSolver.Proofs.Solve.Free
import SketchSolver.Proofs.Solve.Known

/-!
# The states that a solve passes through

A solve writes while it learns, whenever the minimizer probes the objective, and when a solution is
taken over or earlier values are put back.  What it leaves behind says nothing about the values in
between, so the states after every single write are collected here.  A traversal of a list has
passed through what it comes to on each beginning of the list.

* `Cluster.Learning` — what propagating a cluster passes through, down to the single mark.
* `Problem.Evaluating`, `Problem.Probing`, `Problem.Searching` — what one look at the objective, all
  looks of a search, and a whole search pass through.
* `Cluster.Solving`, `SolvingAll` — what solving one cluster, and several, passes through.
* `Cluster.Later` — of what a solve passes through, what comes after some state of learning.

Each of them changes groups of its own only, and `Cluster.Ready.kept` puts this together: what is
known in one state has the same value in every later one.
-/

namespace SketchSolver

open Arena KnownArena

variable {α σ : Type} [Scalar α] {W : VarId → Prop} {a a' b : Arena α}

/-! ## Learning -/

namespace Cluster

variable {constraints : ConstraintTable α} {t : HandleTable} {fingerOfGod : Bool} {c : Cluster α}
  {k l m : KnownArena α} {n : Nat}

/-- Taking turns passes through `m`: some turns have been taken, and `m` lies between the marks of
the next one. -/
def Taking {β : Type} (step : β → KnownArena α → Except SolverError (Bool × KnownArena α))
    (items : List β) (k m : KnownArena α) : Prop :=
  ∃ before item learned l x, before ++ [item] <+: items ∧
    learnAll step before k = .ok (learned, l) ∧ step item l = .ok x ∧ Marks l m ∧ Marks m x.2

/-- What propagating a cluster passes through: in each pass first the turns of the constraints and
then those of the residuals, and another pass after one that learned something. -/
inductive Learning (c : Cluster α) (constraints : ConstraintTable α) (t : HandleTable)
    (fingerOfGod : Bool) : KnownArena α → KnownArena α → Prop
  | start (k : KnownArena α) : Learning c constraints t fingerOfGod k k
  | constraints {k m : KnownArena α} :
      Taking (fun id k => do (← constraints.find id).propagate t k) c.constraints k m →
      Learning c constraints t fingerOfGod k m
  | residuals {k l m : KnownArena α} {learned : Bool} :
      learnAll (fun id k => do (← constraints.find id).propagate t k) c.constraints k =
        .ok (learned, l) →
      Taking (fun r k => r.propagate fingerOfGod k) c.residuals l m →
      Learning c constraints t fingerOfGod k m
  | again {k l m : KnownArena α} :
      c.pass constraints t fingerOfGod k = .ok (true, l) →
      Learning c constraints t fingerOfGod l m → Learning c constraints t fingerOfGod k m

/-- Marks lead to every state that taking turns passes through, and on to the end. -/
lemma Taking.marks {β : Type} {rules : β → List Rule}
    {step : β → KnownArena α → Except SolverError (Bool × KnownArena α)} {items : List β}
    {x : Bool × KnownArena α} (h : Taking step items k m)
    (hstep : ∀ item ∈ items, ∀ k x, k.arena.WellFormed → step item k = .ok x →
      Learns (rules item) k x)
    (hk : k.arena.WellFormed) (hall : learnAll step items k = .ok x) :
    Marks k m ∧ Marks m x.2 := by
  obtain ⟨before, item, learned, l, y, ⟨after, rfl⟩, hbefore, hitem, hlm, hmy⟩ := h
  have hl : Learns (before.flatMap rules) k (learned, l) :=
    learns_learnAll (fun i hi => hstep i (by simp [hi])) hk hbefore
  have hy : Learns (rules item) l y :=
    hstep item (by simp) l y (hl.marks.within hk).wellFormed hitem
  rw [learnAll, List.append_assoc, List.foldlM_append] at hall
  obtain ⟨_, hbefore', hafter⟩ := bind_eq_ok_iff.1 hall
  rw [learnAll] at hbefore
  rw [hbefore] at hbefore'
  cases hbefore'
  rw [List.singleton_append, List.foldlM_cons] at hafter
  obtain ⟨_, hturn, hafter⟩ := bind_eq_ok_iff.1 hafter
  obtain ⟨_, hitem', hpure⟩ := bind_eq_ok_iff.1 hturn
  rw [hitem] at hitem'
  cases hitem'
  cases hpure
  obtain ⟨z, hz, rfl⟩ := learns_foldlM (fun i hi => hstep i (by simp [hi]))
    (hy.marks.within (hl.marks.within hk).wellFormed).wellFormed hafter
  exact ⟨hl.marks.trans hlm, hmy.trans hz.marks⟩

/-- Marks lead from the end of the first pass to the end. -/
lemma Passes.first (h : c.Passes constraints t fingerOfGod n k l) (hk : k.arena.WellFormed) :
    ∃ learned m, c.pass constraints t fingerOfGod k = .ok (learned, m) ∧ Marks m l := by
  cases h with
  | last hpass => exact ⟨_, _, hpass, .refl⟩
  | more hpass hrest =>
      exact ⟨_, _, hpass, hrest.marks ((learns_pass hk hpass).marks.within hk).wellFormed⟩

/-- **Marks lead to every state that learning passes through, and on to the end.** -/
theorem Learning.marks (h : c.Learning constraints t fingerOfGod k m) (hk : k.arena.WellFormed)
    (hpasses : c.Passes constraints t fingerOfGod n k l) : Marks k m ∧ Marks m l := by
  have hconstraint : ∀ id ∈ c.constraints, ∀ k x, k.arena.WellFormed →
      (do (← constraints.find id).propagate t k) = .ok x → Learns (rulesOf constraints t id) k x :=
    fun id _ k x hk hturn => learns_turn hk hturn
  have hresidual : ∀ r ∈ c.residuals, ∀ k x, k.arena.WellFormed →
      r.propagate fingerOfGod k = .ok x → Learns (r.rules fingerOfGod) k x :=
    fun r _ k x hk hturn => Residual.learns_propagate hturn hk
  induction h generalizing n with
  | start k => exact ⟨.refl, hpasses.marks hk⟩
  | constraints htaking =>
      obtain ⟨_, _, hpass, hend⟩ := hpasses.first hk
      obtain ⟨y, hy, hpass⟩ := bind_eq_ok_iff.1 hpass
      obtain ⟨z, hz, hpure⟩ := bind_eq_ok_iff.1 hpass
      cases hpure
      have hywf := ((learns_learnAll hconstraint hk hy).marks.within hk).wellFormed
      obtain ⟨hkm, hmy⟩ := htaking.marks hconstraint hk hy
      exact ⟨hkm, (hmy.trans (learns_learnAll hresidual hywf hz).marks).trans hend⟩
  | residuals hy htaking =>
      obtain ⟨_, _, hpass, hend⟩ := hpasses.first hk
      obtain ⟨_, hy', hpass⟩ := bind_eq_ok_iff.1 hpass
      rw [hy] at hy'
      cases hy'
      obtain ⟨z, hz, hpure⟩ := bind_eq_ok_iff.1 hpass
      cases hpure
      have hfirst := (learns_learnAll hconstraint hk hy).marks
      obtain ⟨hlm, hmz⟩ := htaking.marks hresidual (hfirst.within hk).wellFormed hz
      exact ⟨hfirst.trans hlm, hmz.trans hend⟩
  | again hpass _ ih =>
      have hfirst := (learns_pass hk hpass).marks
      cases hpasses with
      | last hpass' =>
          rw [hpass] at hpass'
          cases hpass'
      | more hpass' hrest =>
          rw [hpass] at hpass'
          cases hpass'
          obtain ⟨hlm, hend⟩ := ih (hfirst.within hk).wellFormed hrest
          exact ⟨hfirst.trans hlm, hend⟩

end Cluster

/-! ## Searching -/

namespace Problem

variable {p : Problem α} {fingerOfGod : Bool} {c : Cluster α} {ctx : SolveContext α}

/-- What writing several values passes through. -/
def Writing (ids : List VarId) (values : List α) (a b : Arena α) : Prop :=
  ∃ written, written <+: ids ∧ write written values a = .ok b

/-- What summing up the residuals passes through. -/
def Summing (p : Problem α) (fingerOfGod : Bool) (a b : Arena α) : Prop :=
  ∃ summed total, summed <+: p.residuals ∧
    totalError { p with residuals := summed } fingerOfGod a = .ok (total, b)

/-- What one look at the objective passes through. -/
inductive Evaluating (p : Problem α) (fingerOfGod : Bool) (values : List α) (a : Arena α) :
    Arena α → Prop
  | writing {b : Arena α} : Writing p.parameters values a b → Evaluating p fingerOfGod values a b
  | summing {a' b : Arena α} : write p.parameters values a = .ok a' →
      p.Summing fingerOfGod a' b → Evaluating p fingerOfGod values a b

/-- What the looks of a search at the objective pass through. -/
inductive Probing {β : Type} (p : Problem α) (fingerOfGod : Bool) :
    Search α β → Arena α → Arena α → Prop
  | here {point : List α} {next : α → Search α β} {a b : Arena α} :
      p.Evaluating fingerOfGod point a b → Probing p fingerOfGod (.probe point next) a b
  | next {point : List α} {next : α → Search α β} {total : α} {a a' b : Arena α} :
      p.evaluate fingerOfGod point a = .ok (total, a') →
      Probing p fingerOfGod (next total) a' b → Probing p fingerOfGod (.probe point next) a b

/-- What putting back earlier values passes through. -/
inductive Restoring (p : Problem α) (parameters free : List α) (a : Arena α) : Arena α → Prop
  | parameters {b : Arena α} :
      Writing p.parameters parameters a b → Restoring p parameters free a b
  | free {a' b : Arena α} : write p.parameters parameters a = .ok a' →
      Writing p.free.toList free a' b → Restoring p parameters free a b

/-- What a search passes through: the probes of the minimizer, and then either its solution is
written or the earlier values are. -/
inductive Searching (p : Problem α) (fingerOfGod : Bool) (m : Minimizer σ α) (memory : σ)
    (a : Arena α) : Arena α → Prop
  | probing {start : List α} {b : Arena α} : p.parameters.mapM a.value = .ok start →
      p.Probing fingerOfGod (m.minimize memory start) a b →
      Searching p fingerOfGod m memory a b
  | writing {start : List α} {minimum : Minimum α} {after : σ} {probed b : Arena α} :
      p.parameters.mapM a.value = .ok start →
      (m.minimize memory start).run (p.objective fingerOfGod) (a, none) =
        ((.ok minimum, after), probed, none) →
      p.Evaluating fingerOfGod minimum.solution probed b →
      Searching p fingerOfGod m memory a b
  | restoring {start free : List α} {answer : Except MinimizerError (Minimum α)} {after : σ}
      {probed b : Arena α} :
      p.parameters.mapM a.value = .ok start → p.free.toList.mapM a.value = .ok free →
      (m.minimize memory start).run (p.objective fingerOfGod) (a, none) =
        ((answer, after), probed, none) →
      p.Restoring start free probed b → Searching p fingerOfGod m memory a b

/-- Writing changes the groups that are written to. -/
lemma within_write (ha : a.WellFormed) {ids : List VarId} (hids : ∀ v ∈ ids, W (a.canonical v))
    {values : List α} (h : write ids values a = .ok b) : Within W a b := by
  refine foldlM_keeps (P := Within W a) ?_ (.refl ha) h
  rintro b ⟨v, x⟩ hvx b' hb hset
  refine hb.trans (hb.wellFormed.within_setValue hset ?_)
  rw [hb.canonical]
  exact hids v (List.of_mem_zip hvx).1

lemma Writing.within {ids : List VarId} {values : List α} (h : Writing ids values a b)
    (ha : a.WellFormed) (hids : ∀ v ∈ ids, W (a.canonical v)) : Within W a b := by
  obtain ⟨written, hinitial, hwrite⟩ := h
  exact within_write ha (fun v hv => hids v (hinitial.subset hv)) hwrite

/-- Summing up residuals writes free groups only. -/
lemma Summing.within (h : p.Summing fingerOfGod a b) (ha : a.WellFormed) :
    Within (· ∈ p.free) a b := by
  obtain ⟨summed, total, -, htotal⟩ := h
  exact (foldlM_error_within (p := { p with residuals := summed }) ha htotal).mono
    fun v hv => hv.1

section

variable (hready : c.Ready ctx.constraints ctx.handles a) (hfits : Fits c p)
  (hwithin : Within p.Unknown a a')

include hready hfits hwithin

/-- Parameters are written as what stands for their groups. -/
lemma parameters_unknown : ∀ v ∈ p.parameters, p.Unknown (a'.canonical v) := by
  intro v hv
  rw [hwithin.canonical, (hready.root v (hfits.parameters v hv)).2]
  exact Or.inl hv

lemma Evaluating.within {values : List α} (h : p.Evaluating fingerOfGod values a' b) :
    Within p.Unknown a b := by
  have hparameters := parameters_unknown hready hfits hwithin
  cases h with
  | writing hwriting => exact hwithin.trans (hwriting.within hwithin.wellFormed hparameters)
  | summing hwrite hsumming =>
      have hwritten := hwithin.trans (within_write hwithin.wellFormed hparameters hwrite)
      exact hwritten.trans ((hsumming.within hwritten.wellFormed).mono fun v hv => Or.inr hv)

lemma Restoring.within {parameters free : List α} (h : p.Restoring parameters free a' b) :
    Within p.Unknown a b := by
  have hparameters := parameters_unknown hready hfits hwithin
  cases h with
  | parameters hwriting => exact hwithin.trans (hwriting.within hwithin.wellFormed hparameters)
  | free hwrite hwriting =>
      have hwritten := hwithin.trans (within_write hwithin.wellFormed hparameters hwrite)
      refine hwritten.trans (hwriting.within hwritten.wellFormed fun v hv => ?_)
      rw [hwritten.canonical, (hready.root v (hfits.free v hv)).2]
      exact Or.inr hv

lemma within_evaluate {values : List α} {total : α}
    (h : p.evaluate fingerOfGod values a' = .ok (total, b)) : Within p.Unknown a b := by
  obtain ⟨x, hwrite, htotal⟩ := bind_eq_ok_iff.1 h
  exact Evaluating.within hready hfits hwithin
    (.summing hwrite ⟨p.residuals, total, List.prefix_rfl, htotal⟩)

lemma Probing.within {β : Type} {search : Search α β} (h : p.Probing fingerOfGod search a' b) :
    Within p.Unknown a b := by
  induction h with
  | here hevaluating => exact hevaluating.within hready hfits hwithin
  | next hevaluate _ ih => exact ih (within_evaluate hready hfits hwithin hevaluate)

end

/-- **A search** passes through changes of parameters and free variables only. -/
theorem Searching.within {m : Minimizer σ α} {memory : σ}
    (h : p.Searching fingerOfGod m memory a b) (hready : c.Ready ctx.constraints ctx.handles a)
    (hfits : Fits c p) (ha : a.WellFormed) : Within p.Unknown a b := by
  have hprobed : ∀ {start : List α} {answer after probed},
      (m.minimize memory start).run (p.objective fingerOfGod) (a, none) =
        ((answer, after), probed, none) → Within p.Unknown a probed := by
    intro start answer after probed hrun
    have htwins := (run_objective hready hfits (m.minimize memory start) fingerOfGod
      (.self ha)).2.2.2.left
    rwa [hrun] at htwins
  cases h with
  | probing _ hprobing => exact hprobing.within hready hfits (.refl ha)
  | writing _ hrun hevaluating => exact hevaluating.within hready hfits (hprobed hrun)
  | restoring _ _ hrun hrestoring => exact hrestoring.within hready hfits (hprobed hrun)

/-- What a search comes to is the last state it passes through. -/
lemma searching_of_search {m : Minimizer σ α} {memory memory' : σ} {outcome : Outcome}
    (h : p.search fingerOfGod m memory a = .ok (outcome, memory', b)) :
    p.Searching fingerOfGod m memory a b := by
  rw [search, bind_eq_ok_iff] at h
  obtain ⟨start, hstart, h⟩ := h
  obtain ⟨free, hfree, h⟩ := bind_eq_ok_iff.1 h
  rcases hrun : (m.minimize memory start).run (p.objective fingerOfGod) (a, none) with
    ⟨⟨answer, after⟩, probed, _ | e⟩
  · simp only [hrun] at h
    -- putting everything back
    have hrestore : ∀ o, (do return (o, after, ← p.restore start free probed)) =
        (.ok (outcome, memory', b) : Except SolverError (Outcome × σ × Arena α)) →
        p.Searching fingerOfGod m memory a b := by
      intro o h
      obtain ⟨b', hrestore, hpure⟩ := bind_eq_ok_iff.1 h
      cases hpure
      obtain ⟨x, hwrite, hfreed⟩ := bind_eq_ok_iff.1 hrestore
      exact .restoring hstart hfree hrun (.free hwrite ⟨_, List.prefix_rfl, hfreed⟩)
    rcases answer with e | ⟨solution, stop, iterations⟩
    · exact hrestore _ h
    · cases stop with
      | iterationLimit => exact hrestore _ h
      | converged =>
          obtain ⟨⟨total, b'⟩, hevaluate, hpure⟩ := bind_eq_ok_iff.1 h
          cases hpure
          obtain ⟨x, hwrite, htotal⟩ := bind_eq_ok_iff.1 hevaluate
          exact .writing hstart hrun (.summing hwrite ⟨_, total, List.prefix_rfl, htotal⟩)
  · simp only [hrun] at h
    cases h

end Problem

/-! ## Solving -/

section

variable {ctx : SolveContext α} {c : Cluster α} {m : Minimizer σ α} {memory : σ}

namespace Cluster

/-- What solving a cluster passes through after it has been prepared. -/
inductive Finding (ctx : SolveContext α) (m : Minimizer σ α) (memory : σ) (c : Cluster α)
    (a : Arena α) : Arena α → Prop
  | summing {p : Problem α} {a' b : Arena α} : Problem.prepare ctx c a = .ok (p, a') →
      p.Summing ctx.fingerOfGod a' b → Finding ctx m memory c a b
  | searching {p : Problem α} {a' b : Arena α} : Problem.prepare ctx c a = .ok (p, a') →
      p.Searching ctx.fingerOfGod m memory a' b → Finding ctx m memory c a b

/-- What solving a cluster passes through. -/
inductive Solving (ctx : SolveContext α) (m : Minimizer σ α) (memory : σ) (c : Cluster α)
    (a : Arena α) : Arena α → Prop
  | learning {held : Knowns} {k : KnownArena α} : c.preset ctx a = .ok held →
      c.Learning ctx.constraints ctx.handles ctx.fingerOfGod ⟨a, held⟩ k →
      Solving ctx m memory c a k.arena
  | finding {b : Arena α} : c.Finding ctx m memory a b → Solving ctx m memory c a b

lemma Finding.within {k : KnownArena α}
    (h : c.Finding ctx m memory a b) (hready : c.Ready ctx.constraints ctx.handles k.arena)
    (hk : k.arena.WellFormed) (hprepare : Problem.prepare ctx c a = .ok (c.problem k, k.arena)) :
    Within (c.problem k).Unknown k.arena b := by
  cases h with
  | summing hprepare' hsumming =>
      rw [hprepare] at hprepare'
      cases hprepare'
      exact (hsumming.within hk).mono fun v hv => Or.inr hv
  | searching hprepare' hsearching =>
      rw [hprepare] at hprepare'
      cases hprepare'
      exact hsearching.within hready hready.fits_problem hk

/-- What solving a cluster comes to is the last state it passes through. -/
lemma finding_of_solveCluster {memory' : σ} {outcome : Outcome}
    (h : solveCluster ctx m memory c a = .ok (outcome, memory', b)) :
    c.Finding ctx m memory a b := by
  obtain ⟨⟨p, a'⟩, hprepare, h⟩ := bind_eq_ok_iff.1 h
  dsimp only at h
  split at h
  · obtain ⟨⟨total, b'⟩, htotal, hpure⟩ := bind_eq_ok_iff.1 h
    cases hpure
    exact .summing hprepare ⟨p.residuals, total, List.prefix_rfl, htotal⟩
  · exact .searching hprepare (Problem.searching_of_search h)

/-- What becomes known in a cluster that is ready are variables of the cluster. -/
lemma Passes.mem_vars {fingerOfGod : Bool} {n : Nat} {k l : KnownArena α}
    (h : c.Passes ctx.constraints ctx.handles fingerOfGod n k l)
    (hready : c.Ready ctx.constraints ctx.handles k.arena) (hk : k.arena.WellFormed)
    (hknowns : ∀ v ∈ k.knowns, v ∈ c.vars) : ∀ v ∈ l.knowns, v ∈ c.vars :=
  (h.least hk).least _ hknowns fun _ hrule _ => hready.conclusion_mem hrule

/-- **Solving a cluster** passes through changes of its own groups only. -/
theorem Solving.within (h : c.Solving ctx m memory a b)
    (hready : c.Ready ctx.constraints ctx.handles a) (ha : a.WellFormed) :
    Within (· ∈ c.vars) a b := by
  obtain ⟨held, n, k, hheld, hpasses, -, hprepare⟩ := hready.prepare_spec ha
  obtain ⟨held', hheld', hinside, -⟩ := hready.preset_spec
  rw [hheld] at hheld'
  cases hheld'
  have hmarks : Marks ⟨a, held⟩ k := hpasses.marks ha
  have hlearned : ∀ l, Marks ⟨a, held⟩ l → Marks l k → Within (· ∈ c.vars) a l.arena := by
    intro l hl hlk
    refine (hl.within ha).mono fun v hv => hpasses.mem_vars hready ha hinside v ?_
    exact (hlk.spec (hl.within ha).wellFormed).1 v hv.1
  have hk := hlearned k hmarks .refl
  have hready' := hready.congr hk.shape
  cases h with
  | learning hheld' hlearning =>
      rw [hheld] at hheld'
      cases hheld'
      obtain ⟨hl, hlk⟩ := hlearning.marks ha hpasses
      exact hlearned _ hl hlk
  | finding hfinding =>
      refine hk.trans ((hfinding.within hready' hk.wellFormed hprepare).mono fun v hv => ?_)
      exact hready'.fits_problem.mem_vars hv

end Cluster

/-- What solving clusters one after the other passes through. -/
inductive SolvingAll (ctx : SolveContext α) (m : Minimizer σ α) :
    List (Cluster α) → σ → Arena α → Arena α → Prop
  | here {c : Cluster α} {rest : List (Cluster α)} {memory : σ} {a b : Arena α} :
      c.Solving ctx m memory a b → SolvingAll ctx m (c :: rest) memory a b
  | later {c : Cluster α} {rest : List (Cluster α)} {memory memory' : σ} {outcome : Outcome}
      {a a' b : Arena α} : solveCluster ctx m memory c a = .ok (outcome, memory', a') →
      SolvingAll ctx m rest memory' a' b → SolvingAll ctx m (c :: rest) memory a b

/-- **Solving clusters** passes through changes of their groups only. -/
theorem SolvingAll.within {cs : List (Cluster α)} (h : SolvingAll ctx m cs memory a b)
    (hready : ∀ d ∈ cs, d.Ready ctx.constraints ctx.handles a) (ha : a.WellFormed) :
    Within (Covers cs) a b := by
  induction h with
  | here hsolving =>
      exact (hsolving.within (hready _ List.mem_cons_self) ha).mono
        fun v hv => ⟨_, List.mem_cons_self, hv⟩
  | @later c rest memory memory' outcome a a' b hsolve _ ih =>
      obtain ⟨_, _, _, hsolve', hwithin⟩ :=
        solveCluster_spec m memory ha (hready _ List.mem_cons_self)
      rw [hsolve] at hsolve'
      cases hsolve'
      have hrest := ih (fun d hd => (hready d (List.mem_cons_of_mem _ hd)).congr hwithin.shape)
        hwithin.wellFormed
      exact (hwithin.mono fun v hv => ⟨_, List.mem_cons_self, hv⟩).trans
        (hrest.mono fun v ⟨d, hd, hv⟩ => ⟨d, List.mem_cons_of_mem _ hd, hv⟩)

/-! ## What comes later -/

namespace Cluster

/-- Of what a solve passes through from the turn of a cluster on, what comes after a state `k` of
its learning: whatever is marked from there, whatever is found for the cluster, and the turns of the
clusters after it. -/
inductive Later (ctx : SolveContext α) (m : Minimizer σ α) (memory : σ) (c : Cluster α)
    (after : List (Cluster α)) (a : Arena α) (k : KnownArena α) : Arena α → Prop
  | learning {l : KnownArena α} : Marks k l → Later ctx m memory c after a k l.arena
  | finding {b : Arena α} : c.Finding ctx m memory a b → Later ctx m memory c after a k b
  | others {outcome : Outcome} {memory' : σ} {a' b : Arena α} :
      solveCluster ctx m memory c a = .ok (outcome, memory', a') →
      SolvingAll ctx m after memory' a' b → Later ctx m memory c after a k b

/-- **What is known is kept.**  When the turn of a cluster comes, whatever is known in a state that
its learning passes through has the same value ever after: in every later state of the learning, of
the search and of solving other clusters, and in the end. -/
theorem Ready.kept {after : List (Cluster α)} (hready : c.Ready ctx.constraints ctx.handles a)
    (hafter : ∀ d ∈ after, d.Ready ctx.constraints ctx.handles a)
    (hdisjoint : ∀ d ∈ after, ∀ v ∈ c.vars, ¬ v ∈ d.vars) (ha : a.WellFormed) {held : Knowns}
    (hheld : c.preset ctx a = .ok held) {k : KnownArena α}
    (hlearning : c.Learning ctx.constraints ctx.handles ctx.fingerOfGod ⟨a, held⟩ k) {v : VarId}
    (hv : k.isKnown v = true) :
    (∀ b, c.Later ctx m memory after a k b → b.value? v = k.arena.value? v) ∧
      ∀ outcomes memory' b, solveClusters ctx m (c :: after) memory a = .ok (outcomes, memory', b) →
        b.value? v = k.arena.value? v := by
  obtain ⟨held', n, l, hheld', hpasses, -, hprepare⟩ := hready.prepare_spec ha
  obtain ⟨held'', hheld'', hinside, -⟩ := hready.preset_spec
  rw [hheld] at hheld' hheld''
  cases hheld'
  cases hheld''
  obtain ⟨hak, hkl⟩ := hlearning.marks ha hpasses
  have hk := (hak.within ha).wellFormed
  have hl : Within _ a l.arena := (hpasses.marks ha).within ha
  have hreadyl := hready.congr hl.shape
  have hknown : l.arena.canonical v ∈ l.knowns := (l.isKnown_iff v).1 (hkl.isKnown hk hv)
  have hvars : a.canonical v ∈ c.vars := by
    rw [← hl.canonical]
    exact hpasses.mem_vars hready ha hinside _ hknown
  have hsame : l.arena.value? v = k.arena.value? v := hkl.value? hk hv
  -- the search writes what is not known, and other clusters have other groups
  have hfound : ∀ b, Within (c.problem l).Unknown l.arena b → b.value? v = k.arena.value? v := by
    intro b hb
    rw [← hsame]
    exact hb.frame v fun hunknown => not_known_of_unknown hreadyl hunknown hknown
  have hsolved : ∀ {outcome memory' b}, solveCluster ctx m memory c a = .ok (outcome, memory', b) →
      Within (· ∈ c.vars) a b ∧ b.value? v = k.arena.value? v := by
    intro outcome memory' b hsolve
    have hfinding := finding_of_solveCluster hsolve
    exact ⟨Solving.within (.finding hfinding) hready ha,
      hfound b (hfinding.within hreadyl hl.wellFormed hprepare)⟩
  have hothers : ∀ {a' b}, Within (· ∈ c.vars) a a' → Within (Covers after) a' b →
      b.value? v = a'.value? v := by
    intro a' b ha' hb
    refine hb.frame v ?_
    rintro ⟨d, hd, hgroup⟩
    rw [ha'.canonical] at hgroup
    exact hdisjoint d hd _ hvars hgroup
  refine ⟨fun b hlater => ?_, fun outcomes memory' b hsolve => ?_⟩
  · cases hlater with
    | learning hmarks => exact hmarks.value? hk hv
    | finding hfinding => exact hfound b (hfinding.within hreadyl hl.wellFormed hprepare)
    | others hsolve hall =>
        obtain ⟨ha', hvalue⟩ := hsolved hsolve
        rw [hothers ha' (hall.within (fun d hd => (hafter d hd).congr ha'.shape) ha'.wellFormed),
          hvalue]
  · obtain ⟨⟨outcome, memory₁, a'⟩, hfirst, hrest⟩ := bind_eq_ok_iff.1 hsolve
    obtain ⟨⟨others, memory₂, b'⟩, hrest, hpure⟩ := bind_eq_ok_iff.1 hrest
    cases hpure
    obtain ⟨ha', hvalue⟩ := hsolved hfirst
    obtain ⟨_, _, _, hrest', hwithin⟩ := solveClusters_spec m memory₁ ha'.wellFormed
      fun d hd => (hafter d hd).congr ha'.shape
    rw [hrest] at hrest'
    cases hrest'
    rw [hothers ha' hwithin, hvalue]

end Cluster

end

end SketchSolver
