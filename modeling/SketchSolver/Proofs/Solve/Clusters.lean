import Mathlib
import SketchSolver.Proofs.Solve.Search

/-!
# Solving clusters one after the other

The clusters of a clustering have disjoint groups, and solving one of them reads and writes its own
groups only.  So each of them finds what it reads as it was before the first one was solved, and
comes to what it would have come to by itself.

* `both_solveCluster` — solving a cluster takes twins to twins.
* `solveClusters_spec` — solving all clusters never fails and changes groups of clusters only.
* `solveClusters_alone` — with a forgetful minimizer, each cluster comes to what it would have come
  to by itself.
* `solveClusters_perm` — so the order of the clusters is no matter.
* `Report.conclude_perm` — nor is it for the report.
-/

namespace SketchSolver

open Arena

variable {α σ : Type} [Scalar α] {a b a₀ b₀ : Arena α} {ctx : SolveContext α} {c : Cluster α}
  {m : Minimizer σ α}

/-! ## One cluster -/

/-- **Solving one cluster.**  Two twins come to the same, if the minimizer makes the same searches
with either memory. -/
theorem both_solveCluster {memory memory' : σ} (hready : c.Ready ctx.constraints ctx.handles a₀)
    (hm : ∀ start, Prod.fst <$> m.minimize memory start = Prod.fst <$> m.minimize memory' start)
    (h : Twins (· ∈ c.vars) (· ∈ c.vars) a₀ b₀ a b) :
    Both (fun x y => x.1 = y.1 ∧ Twins (· ∈ c.vars) (· ∈ c.vars) a₀ b₀ x.2.2 y.2.2)
      (solveCluster ctx m memory c a) (solveCluster ctx m memory' c b) := by
  rw [solveCluster, solveCluster]
  refine (Problem.both_prepare hready h).bind ?_
  rintro ⟨p, a₁⟩ ⟨-, b₁⟩ ⟨rfl, hfits, h₁⟩
  have hready₁ : c.Ready ctx.constraints ctx.handles a₁ := hready.congr h₁.shape_left
  dsimp only
  split
  · refine (Problem.both_totalError hready₁ hfits (fun v hv => hv) h₁.restart _).bind ?_
    rintro ⟨total, a₂⟩ ⟨-, b₂⟩ ⟨rfl, h₂⟩
    exact both_ok.2 ⟨rfl, h₁.trans h₂ hfits.free⟩
  · refine (Problem.both_search hready₁ hfits hm h₁.restart _).imp ?_
    rintro ⟨outcome, after, a₂⟩ ⟨-, after', b₂⟩ ⟨rfl, h₂⟩
    exact ⟨rfl, h₁.trans h₂ fun v hv => hfits.mem_vars hv⟩

/-- Solving a cluster never fails and changes its own groups only. -/
lemma solveCluster_spec (m : Minimizer σ α) (memory : σ) (ha : a.WellFormed)
    (hready : c.Ready ctx.constraints ctx.handles a) :
    ∃ outcome after b, solveCluster ctx m memory c a = .ok (outcome, after, b) ∧
      Within (· ∈ c.vars) a b := by
  have hm : ∀ start, Prod.fst <$> m.minimize memory start = Prod.fst <$> m.minimize memory start :=
    fun _ => rfl
  obtain ⟨⟨outcome, after, b⟩, _, hsolve, -, -, htwins⟩ := both_solveCluster hready hm (.self ha)
  exact ⟨outcome, after, b, hsolve, htwins.left⟩

/-! ## All clusters -/

/-- The variables of some clusters. -/
def Covers (cs : List (Cluster α)) (v : VarId) : Prop :=
  ∃ c ∈ cs, v ∈ c.vars

/-- **Solving all clusters** never fails and changes groups of clusters only. -/
theorem solveClusters_spec (m : Minimizer σ α) (memory : σ) {cs : List (Cluster α)}
    (ha : a.WellFormed) (hready : ∀ c ∈ cs, c.Ready ctx.constraints ctx.handles a) :
    ∃ outcomes after b, solveClusters ctx m cs memory a = .ok (outcomes, after, b) ∧
      Within (Covers cs) a b := by
  induction cs generalizing a memory with
  | nil => exact ⟨[], memory, a, rfl, .refl ha⟩
  | cons c cs ih =>
      obtain ⟨outcome, memory₁, a₁, hsolve, hwithin₁⟩ :=
        solveCluster_spec m memory ha (hready c List.mem_cons_self)
      obtain ⟨outcomes, after, b, hrest, hwithin⟩ := ih memory₁ hwithin₁.wellFormed
        fun d hd => (hready d (List.mem_cons_of_mem _ hd)).congr hwithin₁.shape
      refine ⟨outcome :: outcomes, after, b, ?_, (hwithin₁.mono fun v hv => ?_).trans
        (hwithin.mono fun v hv => ?_)⟩
      · rw [solveClusters, hsolve]
        simp only [ok_bind, hrest]
        rfl
      · exact ⟨c, List.mem_cons_self, hv⟩
      · obtain ⟨d, hd, hv⟩ := hv
        exact ⟨d, List.mem_cons_of_mem _ hd, hv⟩

/-- Some clusters, and then some others. -/
lemma solveClusters_append {before after : List (Cluster α)} {memory memory₁ memory₂ : σ}
    {outcomes outcomes' : List Outcome} {a₁ : Arena α}
    (hbefore : solveClusters ctx m before memory a = .ok (outcomes, memory₁, a₁))
    (hafter : solveClusters ctx m after memory₁ a₁ = .ok (outcomes', memory₂, b)) :
    solveClusters ctx m (before ++ after) memory a = .ok (outcomes ++ outcomes', memory₂, b) := by
  induction before generalizing a memory outcomes with
  | nil =>
      cases hbefore
      exact hafter
  | cons c before ih =>
      obtain ⟨⟨outcome, memory₀, a₀⟩, hsolve, hrest⟩ := bind_eq_ok_iff.1 hbefore
      obtain ⟨⟨rest, _, _⟩, hrest, hpure⟩ := bind_eq_ok_iff.1 hrest
      cases hpure
      rw [List.cons_append, solveClusters, hsolve]
      simp only [ok_bind, ih hrest]
      rfl

/-- What comes of a cluster that is solved by itself: its outcome, and the arena afterwards. -/
def solveAlone (ctx : SolveContext α) (m : Minimizer σ α) (memory : σ) (a : Arena α)
    (c : Cluster α) : Outcome × Arena α :=
  match solveCluster ctx m memory c a with
  | .ok (outcome, _, b) => (outcome, b)
  | .error _ => (.determined, a)

/-- Clusters have no variable in common. -/
abbrev Disjoint (cs : List (Cluster α)) : Prop :=
  cs.Pairwise fun c d => ∀ v ∈ c.vars, ¬ v ∈ d.vars

/-- Arenas that agree on the groups of a cluster, and memories that make no difference, bring it to
the same by itself. -/
lemma solveAlone_congr (hm : m.Forgetful) (memory memory' : σ)
    (hready : c.Ready ctx.constraints ctx.handles a) (ha : a.WellFormed) (hb : b.WellFormed)
    (hshape : b.shape = a.shape) (hagree : ∀ v, a.canonical v ∈ c.vars → a.value? v = b.value? v) :
    (solveAlone ctx m memory a c).1 = (solveAlone ctx m memory' b c).1 ∧
      ∀ v, a.canonical v ∈ c.vars →
        (solveAlone ctx m memory a c).2.value? v = (solveAlone ctx m memory' b c).2.value? v := by
  obtain ⟨x, y, hx, hy, heq, htwins⟩ := both_solveCluster (m := m) hready
    (hm memory memory') (.start ha hb hshape hagree)
  simp only [solveAlone, hx, hy]
  exact ⟨heq, htwins.agree⟩

/-- **Each cluster by itself.**  With a forgetful minimizer, solving disjoint clusters one after the
other brings each of them to what it would have come to by itself. -/
theorem solveClusters_alone (hm : m.Forgetful) {cs : List (Cluster α)} (ha : a.WellFormed)
    (hready : ∀ c ∈ cs, c.Ready ctx.constraints ctx.handles a) (hdisjoint : Disjoint cs)
    (memory first : σ) :
    ∃ after b, solveClusters ctx m cs memory a =
        .ok (cs.map fun c => (solveAlone ctx m first a c).1, after, b) ∧
      Within (Covers cs) a b ∧
      ∀ c ∈ cs, ∀ v, a.canonical v ∈ c.vars →
        b.value? v = (solveAlone ctx m first a c).2.value? v := by
  induction cs generalizing a memory with
  | nil => exact ⟨memory, a, rfl, .refl ha, by simp⟩
  | cons c cs ih =>
      obtain ⟨hapart, hdisjoint⟩ := List.pairwise_cons.1 hdisjoint
      have hc := hready c List.mem_cons_self
      have hcs : ∀ d ∈ cs, d.Ready ctx.constraints ctx.handles a :=
        fun d hd => hready d (List.mem_cons_of_mem _ hd)
      obtain ⟨outcome, memory₁, a₁, hsolve, hwithin₁⟩ := solveCluster_spec m memory ha hc
      obtain ⟨after, b, hrest, hwithin, hvalues⟩ := ih hwithin₁.wellFormed
        (fun d hd => (hcs d hd).congr hwithin₁.shape) hdisjoint memory₁
      have hself := solveAlone_congr hm memory first hc ha ha rfl
        fun _ _ => rfl
      have halone : solveAlone ctx m memory a c = (outcome, a₁) := by rw [solveAlone, hsolve]
      rw [halone] at hself
      -- the groups of a later cluster have not been touched
      have hlater : ∀ d ∈ cs, (solveAlone ctx m first a d).1 = (solveAlone ctx m first a₁ d).1 ∧
          ∀ v, a.canonical v ∈ d.vars →
            (solveAlone ctx m first a d).2.value? v =
              (solveAlone ctx m first a₁ d).2.value? v := by
        intro d hd
        refine solveAlone_congr hm first first (hcs d hd) ha hwithin₁.wellFormed hwithin₁.shape
          fun v hv => (hwithin₁.frame v ?_).symm
        exact fun hvc => hapart d hd _ hvc hv
      refine ⟨after, b, ?_, (hwithin₁.mono fun v hv => ⟨c, List.mem_cons_self, hv⟩).trans
        (hwithin.mono fun v ⟨d, hd, hv⟩ => ⟨d, List.mem_cons_of_mem _ hd, hv⟩), ?_⟩
      · rw [solveClusters, hsolve]
        simp only [ok_bind, hrest, List.map_cons]
        rw [List.map_congr_left fun d hd => (hlater d hd).1, ← hself.1]
        rfl
      · intro d hd v hv
        rcases List.mem_cons.1 hd with rfl | hd
        · rw [← hself.2 v hv]
          refine hwithin.frame v ?_
          rintro ⟨e, he, hve⟩
          rw [hwithin₁.canonical] at hve
          exact hapart e he _ hv hve
        · rw [(hlater d hd).2 v hv]
          exact hvalues d hd v (by rwa [hwithin₁.canonical])

/-- **The order is no matter.**  Solving disjoint clusters in another order leads to the same
arena and to the same outcomes in that order. -/
theorem solveClusters_perm (hm : m.Forgetful) {cs cs' : List (Cluster α)} (hperm : cs.Perm cs')
    (ha : a.WellFormed) (hready : ∀ c ∈ cs, c.Ready ctx.constraints ctx.handles a)
    (hdisjoint : Disjoint cs) (memory : σ) :
    ∃ outcomes outcomes' after after' b,
      solveClusters ctx m cs memory a = .ok (outcomes, after, b) ∧
        solveClusters ctx m cs' memory a = .ok (outcomes', after', b) ∧
        outcomes.Perm outcomes' := by
  have hready' : ∀ c ∈ cs', c.Ready ctx.constraints ctx.handles a :=
    fun c hc => hready c (hperm.mem_iff.2 hc)
  have hdisjoint' : Disjoint cs' :=
    (hperm.pairwise_iff fun {c d} hcd v hv hv' => hcd v hv' hv).1 hdisjoint
  obtain ⟨after, b, hsolve, hwithin, hvalues⟩ :=
    solveClusters_alone hm ha hready hdisjoint memory memory
  obtain ⟨after', b', hsolve', hwithin', hvalues'⟩ :=
    solveClusters_alone hm ha hready' hdisjoint' memory memory
  have hsame : b = b' := by
    refine ext_of_shape (hwithin.shape.trans hwithin'.shape.symm) fun v => ?_
    by_cases hcovered : Covers cs (a.canonical v)
    · obtain ⟨c, hc, hv⟩ := hcovered
      rw [hvalues c hc v hv, hvalues' c (hperm.mem_iff.1 hc) v hv]
    · have hcovered' : ¬ Covers cs' (a.canonical v) := by
        rintro ⟨c, hc, hv⟩
        exact hcovered ⟨c, hperm.mem_iff.2 hc, hv⟩
      rw [hwithin.frame v hcovered, hwithin'.frame v hcovered']
  subst hsame
  exact ⟨_, _, after, after', b, hsolve, hsolve', hperm.map _⟩

/-! ## The report -/

namespace Report

lemma add_comm (r : Report) (x y : Outcome) : (r.add x).add y = (r.add y).add x := by
  cases x <;> cases y <;> simp only [add, add_right_comm]

lemma ofOutcomes_perm {xs ys : List Outcome} (h : xs.Perm ys) : ofOutcomes xs = ofOutcomes ys :=
  h.foldl_eq' (fun x _ y _ r => add_comm r x y) {}

/-- There is a first failure exactly if there is a failure. -/
lemma firstFailure_eq_none_iff (xs : List Outcome) :
    firstFailure xs = none ↔ ∀ e, Outcome.failed e ∉ xs := by
  rw [firstFailure, List.findSome?_eq_none_iff]
  constructor
  · intro h e he
    obtain ⟨i, hi⟩ := List.mem_iff_getElem?.1 he
    cases h _ (List.mk_mem_zipIdx_iff_getElem?.2 hi)
  · rintro h ⟨x, i⟩ hx
    have hmem : x ∈ xs := List.fst_mem_of_mem_zipIdx hx
    cases x with
    | failed e => exact absurd hmem (h e)
    | _ => rfl

/-- **Same report.**  Outcomes in another order fail as well, or give the same report. -/
theorem conclude_perm {xs ys : List Outcome} (h : xs.Perm ys) :
    (∃ r, conclude xs = .ok r ∧ conclude ys = .ok r) ∨
      ∃ e e', conclude xs = .error e ∧ conclude ys = .error e' := by
  have hfailure : firstFailure xs = none ↔ firstFailure ys = none := by
    rw [firstFailure_eq_none_iff, firstFailure_eq_none_iff]
    simp only [h.mem_iff]
  rw [conclude, conclude]
  rcases hx : firstFailure xs with _ | ⟨i, e⟩
  · rw [hfailure.1 hx]
    exact Or.inl ⟨ofOutcomes xs, rfl, by rw [ofOutcomes_perm h]⟩
  · rcases hy : firstFailure ys with _ | ⟨j, e'⟩
    · rw [hfailure.2 hy] at hx
      cases hx
    · exact Or.inr ⟨_, _, rfl, rfl⟩

end Report

end SketchSolver
