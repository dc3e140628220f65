import Mathlib
import SketchSolver.Proofs.Arena.Affine
import SketchSolver.Proofs.Cluster.Unifies
import SketchSolver.Proofs.Sketch.Solving
import SketchSolver.Proofs.Solve.Free

/-!
# Free variables after a solve

A residual has the variable it owns for itself if nothing else refers to it.  Then the minimizer
does not search for it, and its owner writes to it what follows from everything else.

* `Reachable.invertible` — with exact numbers, every unification of a reachable sketch can be
  undone, so a value that is written to a variable can be read from it again.
* `Sketch.Turn` — what becomes of one cluster in a solve.
* `reachable_free_consistent` — after a solve, what was free measures what its owner says, if its
  owner does not read it.
* `looped_inconsistent` — if its owner reads it, it need not.
-/

namespace SketchSolver

namespace Sketch

/-! ## Inverses -/

section

variable {α : Type} [Exact α] {s s' : Sketch α}

theorem Change.invertible (hchange : Change s s') (hs : s.Intact) (h : s.arena.Invertible) :
    s'.arena.Invertible := by
  cases hchange with
  | revalue hwf hshape =>
      exact h.of_sheds (.of_shape hshape)
  | addVariable x label => exact h.insert _ _ _
  | addHandle position => exact (h.insert _ _ _).insert _ _ _
  | addConstraint hadd hprepared hrelate =>
      exact (hprepared.intact hs).arena.invertible_unifies (h.of_sheds hprepared.sheds)
        (Constraint.unifies_relate hrelate)
  | replace hold hkey hkey' howned hlive hrelate =>
      exact hs.arena.invertible_unifies h (Constraint.unifies_relate hrelate)
  | remove hremoved => exact h.of_sheds hremoved.removals.sheds
  | detach v => exact h.detach v
  | cluster hbuild =>
      exact (Arena.wellFormed_reset _).invertible_unifies (Arena.invertible_reset _)
        (Cluster.unifies_build hbuild)
  | _ => exact h

/-- **Every unification of a reachable sketch can be undone.** -/
theorem Reachable.invertible (h : Reachable s) : s.arena.Invertible := by
  have hinvariant : Invariant fun s : Sketch α => s.Intact ∧ s.arena.Invertible :=
    invariant_intact.of_change fun hs h hchange => hchange.invertible hs h
  refine (h.invariant hinvariant fun config => ⟨intact_withConfig config, ?_⟩).2
  rintro id into offset ⟨⟩

end

/-! ## One cluster in a solve -/

section

variable {α σ : Type} [Scalar α]

/-- The turn of a cluster when a sketch is solved.  The clusters before it have been solved, its
direct consequences are drawn, which leaves this problem, and this is what comes of it. -/
inductive Turn (s : Sketch α) (m : Minimizer σ α) (memory : σ) (c : Cluster α) (p : Problem α)
    (outcome : Outcome) : Prop
  | intro {before after : List (Cluster α)} {s' : Sketch α} {outcomes : List Outcome}
      {memory₁ memory₂ : σ} {a₁ a₂ a₃ : Arena α} :
      s.clustered = .ok (before ++ c :: after, s') →
      solveClusters s'.solveContext m before memory s'.arena = .ok (outcomes, memory₁, a₁) →
      Problem.prepare s'.solveContext c a₁ = .ok (p, a₂) →
      solveCluster s'.solveContext m memory₁ c a₁ = .ok (outcome, memory₂, a₃) →
      Turn s m memory c p outcome

variable {s s' : Sketch α} {m : Minimizer σ α} {memory : σ} {c : Cluster α} {p : Problem α}
  {outcome : Outcome}

/-- Every cluster has its turn. -/
lemma Intact.exists_turn (h : s.Intact) {cs : List (Cluster α)}
    (hclustered : s.clustered = .ok (cs, s')) (hc : c ∈ cs) (m : Minimizer σ α) (memory : σ) :
    ∃ p outcome, s.Turn m memory c p outcome := by
  obtain ⟨hs', hcs⟩ := h.of_clustered hclustered
  obtain ⟨before, after, rfl⟩ := List.append_of_mem hc
  obtain ⟨outcomes, memory₁, a₁, hbefore, hwf, -, hready⟩ := hs'.solve_before hcs m memory
  obtain ⟨⟨p, a₂⟩, -, hprepare, -⟩ := Problem.both_prepare hready (.self hwf)
  obtain ⟨outcome, memory₂, a₃, hsolve, -⟩ := solveCluster_spec m memory₁ hwf hready
  exact ⟨p, outcome, .intro hclustered hbefore hprepare hsolve⟩

/-- **Nothing afterwards.**  What a cluster has made of its free variables is there after the
solve: the clusters that come later have none of its groups. -/
theorem Intact.solveWith_computes (h : s.Intact) (hturn : s.Turn m memory c p outcome)
    (hupdated : outcome.Updated) {r : Residual α} {v : VarId} (hr : r ∈ c.residuals)
    (hcomputes : p.Computes (s.solveWith m memory).2.2.arena r v) :
    let b := (s.solveWith m memory).2.2.arena
    ∃ y, r.Measures b y ∧ b.value? v = some (b.lower v (b.lift v y)) := by
  obtain @⟨before, after, s', outcomes, memory₁, memory₂, a₁, a₂, a₃, hclustered, hbefore, hprepare,
    hsolve⟩ := hturn
  obtain ⟨hs', hcs⟩ := h.of_clustered hclustered
  obtain ⟨_, _, _, _, _, _, hbefore', hwf₁, hshape₁, hready, hsolve', hleft⟩ :=
    hs'.turn hcs m memory
  rw [hbefore] at hbefore'
  cases hbefore'
  rw [hsolve] at hsolve'
  cases hsolve'
  rw [h.solveWith_clustered hclustered] at hleft
  intro b
  have hshape : b.shape = a₃.shape := by
    obtain ⟨_, _, _, hsolve', hown⟩ := solveCluster_spec m memory₁ hwf₁ hready
    rw [hsolve] at hsolve'
    cases hsolve'
    rw [hown.shape, hshape₁]
    exact h.shape_solveWith hclustered m memory
  obtain ⟨y, hmeasures, hvalue⟩ := solveCluster_computes hready hwf₁ hprepare hsolve hupdated hr
    (hcomputes.congr (Arena.canonical_congr hshape).symm)
  have hkept : ∀ u ∈ r.vars, b.value? u = a₃.value? u := by
    intro u hu
    refine (hleft u ?_).2
    rw [← Arena.canonical_congr hshape₁]
    exact (hready.residual r hr u hu).group
  refine ⟨y, hmeasures.congr fun u hu => hkept u (Residual.mem_vars_of_inputs hu), ?_⟩
  rw [hkept v (Residual.mem_vars_of_owned hcomputes.owned), hvalue,
    Arena.lower_congr hshape, Arena.lift_congr hshape]

/-- What is written to a variable can be read from it again, if it stands for its group or numbers
are exact. -/
lemma Reachable.lower_lift (h : Reachable s) {v : VarId}
    (hv : s.arena.canonical v = v ∨ Scalar.IsExact α) (y : α) :
    s.arena.lower v (s.arena.lift v y) = y := by
  rcases hv with hroot | ⟨field, rfl⟩
  · rw [Arena.lift_of_canonical hroot, Arena.lower_of_canonical hroot]
  · have hlinked := h.intact.arena.toLinked
    rw [hlinked.lift_eq, hlinked.lower_apply h.invertible]

/-! ## Main result -/

/-- **Free variables are consistent.**  When a reachable sketch is solved, every cluster has its
turn.  If its values are updated then, after the solve, every free variable of the cluster has the
value that its owner asks for — the distance of the ends, an angle of the vector, or the value of
the formula, at the final values — unless its owner reads the variable it writes.  With machine
numbers this is said of variables that stand for their group, with exact numbers of all. -/
theorem reachable_free_consistent (h : Reachable s) {cs : List (Cluster α)}
    (hclustered : s.clustered = .ok (cs, s')) (hc : c ∈ cs) (m : Minimizer σ α) (memory : σ) :
    let b := (s.solveWith m memory).2.2.arena
    (∃ p outcome, s.Turn m memory c p outcome) ∧
      ∀ p outcome, s.Turn m memory c p outcome → outcome.Updated →
        ∀ r ∈ c.residuals, ∀ v, p.Computes b r v → (b.canonical v = v ∨ Scalar.IsExact α) →
          ∃ y, r.Measures b y ∧ b.value? v = some y := by
  refine ⟨h.intact.exists_turn hclustered hc m memory, ?_⟩
  intro p outcome hturn hupdated r hr v hcomputes hv
  obtain ⟨y, hmeasures, hvalue⟩ := h.intact.solveWith_computes hturn hupdated hr hcomputes
  rw [(h.solveWith m memory).lower_lift hv] at hvalue
  exact ⟨y, hmeasures, hvalue⟩

end

/-! ## A formula by itself -/

deriving instance DecidableEq for OrderedSet, Residual, Cluster, Problem

/-- An answer the first part of which has been computed. -/
lemma exists_eq_ok {ε β γ : Type} {x : Except ε (β × γ)} {y : β}
    (h : x.toOption.map Prod.fst = some y) : ∃ z, x = .ok (y, z) := by
  rcases x with e | ⟨y', z⟩
  · cases h
  · cases h
    exact ⟨z, rfl⟩

/-- The turn of the only cluster of a sketch can be computed. -/
lemma Intact.turn_only {α σ : Type} [Scalar α] {s : Sketch α} (h : s.Intact) (m : Minimizer σ α)
    (memory : σ) (c : Cluster α) (p : Problem α) (outcome : Outcome) :
    let s' := Operation.cluster.perform.after s
    s'.clusters = some [c] →
      (Problem.prepare s'.solveContext c s'.arena).toOption.map Prod.fst = some p →
      (solveCluster s'.solveContext m memory c s'.arena).toOption.map Prod.fst = some outcome →
      s.clustered = .ok ([c], s') ∧ s.Turn m memory c p outcome := by
  intro s' hclusters hprepare hsolve
  have hclustered := (h.clustered_eq hclusters).1
  obtain ⟨_, hprepare⟩ := exists_eq_ok hprepare
  obtain ⟨⟨_, _⟩, hsolve⟩ := exists_eq_ok hsolve
  have hfirst : s.clustered = .ok ([] ++ c :: [], s') := hclustered
  exact ⟨hclustered, .intro hfirst rfl hprepare hsolve⟩

/-- A minimizer that stays where it begins. -/
def stay {α : Type} : Minimizer Unit α where
  minimize _ start := .done (.ok ⟨start, .converged, 0⟩, ())

/-- A formula, one input of which has changed since. -/
def edited : Sketch Float :=
  (Operation.setValue ⟨1⟩ 5).perform.after <|
    (Operation.formula ⟨0⟩ ⟨1⟩ ⟨2⟩).perform.after <|
      (Operation.addVariable 1 none).perform.after <|
        (Operation.addVariable 3 none).perform.after <|
          (Operation.addVariable 2 none).perform.after empty

lemma reachable_edited : Reachable edited :=
  .perform _ (.perform _ (.perform _ (.perform _ (.perform _ (.withConfig _)))))

/-- A formula the result of which follows another variable, after one of its inputs has changed. -/
def rescaled : Sketch ℚ :=
  (Operation.setValue ⟨1⟩ 5).perform.after <|
    (Operation.linear ⟨5⟩ 2 ⟨4⟩ 1).perform.after <|
      (Operation.addVariable 4 none).perform.after <|
        (Operation.formula ⟨0⟩ ⟨1⟩ ⟨2⟩).perform.after <|
          (Operation.addVariable 1 none).perform.after <|
            (Operation.addVariable 3 none).perform.after <|
              (Operation.addVariable 2 none).perform.after empty

lemma reachable_rescaled : Reachable rescaled :=
  .perform _ (.perform _ (.perform _ (.perform _ (.perform _ (.perform _ (.perform _
    (.withConfig _)))))))

/-- Solving brings the results of both formulas up to date. -/
theorem free_consistent_edited :
    (let b := (edited.solveWith stay ()).2.2.arena
      ∃ y, Residual.Measures b (.formula ⟨0⟩ ⟨1⟩ ⟨2⟩ ⟨4⟩) y ∧ b.value? ⟨4⟩ = some y) ∧
    let b := (rescaled.solveWith stay ()).2.2.arena
    ∃ y, Residual.Measures b (.formula ⟨0⟩ ⟨1⟩ ⟨2⟩ ⟨4⟩) y ∧ b.value? ⟨4⟩ = some y := by
  constructor
  · obtain ⟨hclustered, hturn⟩ := reachable_edited.intact.turn_only stay ()
      ⟨[⟨3⟩], [.formula ⟨0⟩ ⟨1⟩ ⟨2⟩ ⟨4⟩], [⟨0⟩, ⟨1⟩, ⟨2⟩, ⟨4⟩], .ofList [⟨0⟩, ⟨1⟩, ⟨2⟩, ⟨4⟩]⟩
      ⟨[.formula ⟨0⟩ ⟨1⟩ ⟨2⟩ ⟨4⟩], .empty, .ofList [⟨4⟩], [⟨0⟩, ⟨1⟩, ⟨2⟩]⟩
      (.solved 0) (by decide +kernel) (by decide +kernel) (by decide +kernel)
    obtain ⟨-, hall⟩ :=
      reachable_free_consistent reachable_edited hclustered List.mem_cons_self stay ()
    exact hall _ _ hturn trivial _ List.mem_cons_self ⟨4⟩
      ⟨rfl, by decide +kernel, by decide +kernel⟩ (Or.inl (by decide +kernel))
  · obtain ⟨hclustered, hturn⟩ := reachable_rescaled.intact.turn_only stay ()
      ⟨[⟨3⟩, ⟨6⟩], [.formula ⟨0⟩ ⟨1⟩ ⟨2⟩ ⟨4⟩], [⟨0⟩, ⟨1⟩, ⟨2⟩, ⟨4⟩, ⟨5⟩, ⟨4⟩],
        .ofList [⟨0⟩, ⟨1⟩, ⟨2⟩, ⟨5⟩]⟩
      ⟨[.formula ⟨0⟩ ⟨1⟩ ⟨2⟩ ⟨4⟩], .empty, .ofList [⟨5⟩], [⟨0⟩, ⟨1⟩, ⟨2⟩]⟩
      (.solved 0) (by decide +kernel) (by decide +kernel) (by decide +kernel)
    obtain ⟨-, hall⟩ :=
      reachable_free_consistent reachable_rescaled hclustered List.mem_cons_self stay ()
    exact hall _ _ hturn trivial _ List.mem_cons_self ⟨4⟩
      ⟨rfl, by decide +kernel, by decide +kernel⟩ (Or.inr ⟨inferInstance, rfl⟩)

/-- A formula whose result is one of its inputs: `r = 0.5 · r + 1`. -/
def looped : Sketch Float :=
  (Operation.linear ⟨4⟩ 1 ⟨2⟩ 0).perform.after <|
    (Operation.constant ⟨1⟩ 1).perform.after <|
      (Operation.constant ⟨0⟩ 0.5).perform.after <|
        (Operation.formula ⟨0⟩ ⟨2⟩ ⟨1⟩).perform.after <|
          (Operation.addVariable 0 none).perform.after <|
            (Operation.addVariable 1 none).perform.after <|
              (Operation.addVariable 0.5 none).perform.after empty

lemma reachable_looped : Reachable looped :=
  .perform _ (.perform _ (.perform _ (.perform _ (.perform _ (.perform _ (.perform _
    (.withConfig _)))))))

/-- **A loop.**  A result that has been unified with an input of its formula counts as free, since
the formula refers to their group once.  Writing it moves the input: here the formula has the
value 1.75 after the solve, and its result is 1.5. -/
theorem looped_inconsistent :
    let m := Bfgs.minimizer looped.config
    let b := (looped.solveWith m ()).2.2.arena
    let r : Residual Float := .formula ⟨0⟩ ⟨2⟩ ⟨1⟩ ⟨4⟩
    Reachable looped ∧
      (∃ c p, looped.Turn m () c p .determined ∧ r ∈ c.residuals ∧ b.canonical ⟨4⟩ ∈ p.free) ∧
      b.canonical ⟨4⟩ = ⟨4⟩ ∧ r.Measures b 1.75 ∧ b.value? ⟨4⟩ = some 1.5 ∧
      ¬ ∃ y, r.Measures b y ∧ b.value? ⟨4⟩ = some y := by
  intro m b r
  obtain ⟨-, hturn⟩ := reachable_looped.intact.turn_only m ()
    ⟨[⟨3⟩, ⟨5⟩, ⟨6⟩, ⟨7⟩], [r], [⟨0⟩, ⟨2⟩, ⟨1⟩, ⟨4⟩, ⟨0⟩, ⟨1⟩, ⟨4⟩, ⟨2⟩],
      .ofList [⟨0⟩, ⟨4⟩, ⟨1⟩]⟩
    ⟨[r], .ofList [⟨0⟩, ⟨1⟩], .ofList [⟨4⟩], []⟩
    .determined (by decide +kernel) (by decide +kernel) (by decide +kernel)
  have hvalues : b.value? ⟨0⟩ = some 0.5 ∧ b.value? ⟨1⟩ = some 1 ∧ b.value? ⟨2⟩ = some 1.5 ∧
      b.value? ⟨4⟩ = some 1.5 := by decide +kernel
  simp only [← Arena.value_eq_ok_iff b] at hvalues ⊢
  obtain ⟨hm, hc, hx, hresult⟩ := hvalues
  have hformula : Residual.formulaValue b ⟨0⟩ ⟨2⟩ ⟨1⟩ = .ok 1.75 := by
    have hnumber : (0.5 * 1.5 + 1 : Float) = 1.75 := by decide +kernel
    rw [Residual.formulaValue, hm, hx, hc, ← hnumber]
    rfl
  refine ⟨reachable_looped, ⟨_, _, hturn, List.mem_cons_self, by decide +kernel⟩,
    by decide +kernel, Residual.measures_formula.2 hformula, hresult, ?_⟩
  rintro ⟨y, hmeasures, hvalue⟩
  rw [Residual.measures_formula, hformula] at hmeasures
  cases hmeasures
  rw [hresult, Except.ok.injEq] at hvalue
  exact absurd hvalue (by decide +kernel)

end Sketch

end SketchSolver
