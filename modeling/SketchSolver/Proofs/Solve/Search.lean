import Mathlib
import SketchSolver.Proofs.Solve.Prepare

/-!
# Searching for the parameters of a problem

The search of one cluster, seen from two sides.

**Footprint.**  Looking at the objective reads groups of the cluster and writes the groups of
parameters and free variables only; it never fails.  So whatever a search probes, two twins answer
it alike (`run_objective`), and the whole of `Problem.search` takes twins to twins
(`Problem.both_search`), if the minimizer does not let its memory decide what it does.

**Outcome.**  After a convergence the parameters have the values that were answered, because
the free variables that are written afterwards are in other groups.  After a failure the groups
that were written get back the values of their roots, and every other member of them follows from
its root (`Problem.search_spec`).
-/

namespace SketchSolver

open Arena

variable {α : Type} [Scalar α] {R W : VarId → Prop} {a b a₀ b₀ : Arena α}

/-! ## Writing several values -/

namespace Problem

/-- Writing the same values keeps twins. -/
lemma both_write (h : Twins R W a₀ b₀ a b) {ids : List VarId} (hids : ∀ v ∈ ids, Inside W a₀ v)
    (values : List α) :
    Both (Twins R W a₀ b₀) (write ids values a) (write ids values b) := by
  refine both_foldlM ?_ h
  rintro ⟨v, x⟩ hvx a b h
  exact h.both_setValue (hids v (List.of_mem_zip hvx).1) x

/-- Writing to different roots gives each of them its value. -/
lemma write_spec (ha : a.WellFormed) {ids : List VarId} (hnodup : ids.Nodup)
    (hids : ∀ v ∈ ids, a.contains v = true ∧ a.canonical v = v) (values : List α) :
    ∃ b, write ids values a = .ok b ∧ Within (· ∈ ids) a b ∧
      ∀ v x, (v, x) ∈ ids.zip values → b.value? v = some x := by
  induction ids generalizing a values with
  | nil => exact ⟨a, rfl, .refl ha, by simp⟩
  | cons id ids ih =>
      cases values with
      | nil => exact ⟨a, rfl, .refl ha, by simp⟩
      | cons x values =>
          obtain ⟨hnotin, hnodup⟩ := List.nodup_cons.1 hnodup
          obtain ⟨hid, hroot⟩ := hids id List.mem_cons_self
          obtain ⟨a₁, hset, hwf₁, hshape₁, hvalue₁⟩ := ha.setValue_spec hid x
          have hids₁ : ∀ v ∈ ids, a₁.contains v = true ∧ a₁.canonical v = v := by
            intro v hv
            rw [contains_congr hshape₁, canonical_congr hshape₁]
            exact hids v (List.mem_cons_of_mem _ hv)
          obtain ⟨b, hwrite, hwithin, hvalues⟩ := ih hwf₁ hnodup hids₁ values
          have hfirst : Within (· ∈ id :: ids) a a₁ := ⟨hwf₁, hshape₁, fun v hv => by
            rw [hvalue₁, if_neg]
            rw [hroot]
            exact fun heq => hv (heq ▸ List.mem_cons_self)⟩
          refine ⟨b, ?_, hfirst.trans (hwithin.mono fun v => List.mem_cons_of_mem _), ?_⟩
          · rw [write, List.zip_cons_cons, List.foldlM_cons]
            simp only [hset, ok_bind]
            exact hwrite
          · intro v y hvy
            rcases List.mem_cons.1 hvy with heq | hvy
            · cases heq
              have hlast : ¬ a₁.canonical id ∈ ids := by
                rw [canonical_congr hshape₁, hroot]
                exact hnotin
              rw [hwithin.frame id hlast, hvalue₁, if_pos rfl, lift_of_canonical hroot,
                lower_of_canonical hroot]
            · exact hvalues v y hvy

end Problem

omit [Scalar α] in
/-- Reading several variables. -/
lemma mapM_value_eq_ok_iff {ids : List VarId} {values : List α} :
    ids.mapM a.value = .ok values ↔
      List.Forall₂ (fun v x => a.value? v = some x) ids values := by
  induction ids generalizing values with
  | nil =>
      rw [List.forall₂_nil_left_iff, List.mapM_nil, pure_eq_ok, Except.ok.injEq, eq_comm]
  | cons id ids ih =>
      rw [List.mapM_cons, bind_eq_ok_iff]
      constructor
      · rintro ⟨x, hx, hrest⟩
        obtain ⟨xs, hxs, hcons⟩ := bind_eq_ok_iff.1 hrest
        cases hcons
        exact .cons ((value_eq_ok_iff a id x).1 hx) (ih.1 hxs)
      · rintro (_ | ⟨hx, hxs⟩)
        exact ⟨_, (value_eq_ok_iff a id _).2 hx, by rw [ih.2 hxs]; rfl⟩

omit [Scalar α] in
/-- What was read from a variable. -/
lemma exists_mem_zip {ids : List VarId} {values : List α}
    (h : List.Forall₂ (fun v x => a.value? v = some x) ids values) {v : VarId} (hv : v ∈ ids) :
    ∃ x, (v, x) ∈ ids.zip values ∧ a.value? v = some x := by
  induction h with
  | nil => cases hv
  | @cons id x ids values hx _ ih =>
      rcases List.mem_cons.1 hv with rfl | hv
      · exact ⟨x, List.mem_cons_self, hx⟩
      · obtain ⟨y, hy, hvalue⟩ := ih hv
        exact ⟨y, List.mem_cons_of_mem _ hy, hvalue⟩

omit [Scalar α] in
/-- Running a search and looking at a part of its answer only. -/
lemma Search.run_map {β γ σ : Type} (f : β → γ) (search : Search α β)
    (objective : List α → σ → α × σ) (s : σ) :
    (f <$> search).run objective s = (f (search.run objective s).1, (search.run objective s).2) :=
  Search.run_bind objective search (fun answer => .done (f answer)) s

/-- The search a minimizer makes from a starting point does not depend on what it remembers: where
it looks next, and what it answers in the end, depends on the starting point and on what it has seen
of the objective. -/
def Minimizer.Forgetful {σ : Type} (m : Minimizer σ α) : Prop :=
  ∀ memory memory' start,
    Prod.fst <$> m.minimize memory start = Prod.fst <$> m.minimize memory' start

/-! ## The objective -/

namespace Residual

variable {r : Residual α} {free : OrderedSet VarId}

/-- **One term.**  It reads groups in `R` and writes free groups only. -/
theorem both_error (h : Twins R W a₀ b₀ a b) (hinside : ∀ v ∈ r.vars, Inside R a₀ v)
    (knowns : Knowns) (hfree : ∀ v ∈ free, W v) (fingerOfGod : Bool) :
    Both (Agreed R W a₀ b₀) (r.error knowns free fingerOfGod a)
      (r.error knowns free fingerOfGod b) := by
  have hcanonical : b.canonical = a.canonical :=
    h.canonical_right.trans h.canonical_left.symm
  have howned : ∀ v ∈ r.vars, free.contains (a.canonical v) = true → Inside W a₀ v := by
    intro v hv hmem
    rw [OrderedSet.contains_eq_true_iff, h.canonical_left] at hmem
    exact ⟨(hinside v hv).contains, hfree _ hmem⟩
  cases r with
  | finger p position =>
      rw [error, error]
      split
      · exact both_ok.2 ⟨rfl, h⟩
      · have hp : p.Inside R a₀ := ⟨hinside _ (by simp [vars]), hinside _ (by simp [vars])⟩
        refine (Coords.both_read h hp).bind_eq fun u => ?_
        exact both_ok.2 ⟨rfl, h⟩
  | distance p q length =>
      have hp : p.Inside R a₀ := ⟨hinside _ (by simp [vars]), hinside _ (by simp [vars])⟩
      have hq : q.Inside R a₀ := ⟨hinside _ (by simp [vars]), hinside _ (by simp [vars])⟩
      have hlength := mem_vars_of_owned (r := (.distance p q length : Residual α)) rfl
      simp only [error, hcanonical]
      refine (Coords.both_read h hp).bind_eq fun u => ?_
      refine (Coords.both_read h hq).bind_eq fun w => ?_
      split
      · rename_i hisFree
        refine (h.both_setValue (howned length hlength hisFree) _).bind fun a b h => ?_
        exact both_ok.2 ⟨rfl, h⟩
      · refine (h.both_value (hinside length hlength)).bind_eq fun x => ?_
        exact both_ok.2 ⟨rfl, h⟩
  | angle p q bearing =>
      have hp : p.Inside R a₀ := ⟨hinside _ (by simp [vars]), hinside _ (by simp [vars])⟩
      have hq : q.Inside R a₀ := ⟨hinside _ (by simp [vars]), hinside _ (by simp [vars])⟩
      have hbearing := mem_vars_of_owned (r := (.angle p q bearing : Residual α)) rfl
      simp only [error, hcanonical]
      refine (Coords.both_read h hp).bind_eq fun u => ?_
      refine (Coords.both_read h hq).bind_eq fun w => ?_
      refine (h.both_value (hinside bearing hbearing)).bind_eq fun x => ?_
      split
      · rename_i hisFree
        refine (h.both_setValue (howned bearing hbearing hisFree) _).bind fun a b h => ?_
        exact both_ok.2 ⟨rfl, h⟩
      · exact both_ok.2 ⟨rfl, h⟩
  | formula m x c result =>
      have hresult := mem_vars_of_owned (r := (.formula m x c result : Residual α)) rfl
      simp only [error, hcanonical]
      refine (both_formulaValue h (hinside _ (by simp [vars])) (hinside _ (by simp [vars]))
        (hinside _ (by simp [vars]))).bind_eq fun v => ?_
      split
      · rename_i hisFree
        refine (h.both_setValue (howned result hresult hisFree) _).bind fun a b h => ?_
        exact both_ok.2 ⟨rfl, h⟩
      · refine (h.both_value (hinside result hresult)).bind_eq fun y => ?_
        exact both_ok.2 ⟨rfl, h⟩

end Residual

namespace Problem

variable {ctx : SolveContext α} {c : Cluster α} {p : Problem α}

/-- What a search determines: the parameters and the free variables. -/
def Unknown (p : Problem α) (v : VarId) : Prop :=
  v ∈ p.parameters ∨ v ∈ p.free

omit [Scalar α] in
lemma Fits.mem_vars (hfits : Fits c p) {v : VarId} (hv : p.Unknown v) : v ∈ c.vars :=
  hv.elim (hfits.parameters v) (hfits.free v)

/-- Roots of a cluster are inside any set of groups they are in. -/
lemma inside_of_root {constraints : ConstraintTable α} {t : HandleTable}
    (hready : c.Ready constraints t a₀) {v : VarId} (hv : v ∈ c.vars) (hW : W v) :
    Inside W a₀ v := by
  obtain ⟨hcontains, hroot⟩ := hready.root v hv
  exact ⟨hcontains, by rwa [hroot]⟩

section

variable (hready : c.Ready ctx.constraints ctx.handles a₀) (hfits : Fits c p)

include hready hfits

/-- The sum of the residuals writes free groups only. -/
lemma both_totalError (hW : ∀ v ∈ p.free, W v) (h : Twins (· ∈ c.vars) W a₀ b₀ a b)
    (fingerOfGod : Bool) :
    Both (Agreed (· ∈ c.vars) W a₀ b₀) (p.totalError fingerOfGod a)
      (p.totalError fingerOfGod b) := by
  refine both_foldlM ?_ ⟨rfl, h⟩
  rintro r hr ⟨total, a⟩ ⟨-, b⟩ ⟨rfl, h⟩
  rw [hfits.residuals] at hr
  refine (Residual.both_error h (hready.residual r hr) p.knowns hW fingerOfGod).bind ?_
  rintro ⟨e, a'⟩ ⟨-, b'⟩ ⟨rfl, h'⟩
  exact both_ok.2 ⟨rfl, h'⟩

/-- **The objective** writes parameters and free variables only. -/
lemma both_evaluate (h : Twins (· ∈ c.vars) p.Unknown a₀ b₀ a b) (fingerOfGod : Bool)
    (values : List α) :
    Both (Agreed (· ∈ c.vars) p.Unknown a₀ b₀) (p.evaluate fingerOfGod values a)
      (p.evaluate fingerOfGod values b) := by
  rw [evaluate, evaluate]
  refine (both_write h (fun v hv => ?_) values).bind fun a b h => ?_
  · exact inside_of_root hready (hfits.parameters v hv) (Or.inl hv)
  · exact both_totalError hready hfits (fun v => Or.inr) h fingerOfGod

/-- **Probing.**  Whatever a search probes, two twins answer it alike and stay twins, and no
evaluation fails. -/
theorem run_objective {β : Type} (search : Search α β) (fingerOfGod : Bool)
    (h : Twins (· ∈ c.vars) p.Unknown a₀ b₀ a b) :
    let x := search.run (p.objective fingerOfGod) (a, none)
    let y := search.run (p.objective fingerOfGod) (b, none)
    x.1 = y.1 ∧ x.2.2 = none ∧ y.2.2 = none ∧
      Twins (· ∈ c.vars) p.Unknown a₀ b₀ x.2.1 y.2.1 := by
  induction search generalizing a b with
  | done answer => exact ⟨rfl, rfl, rfl, h⟩
  | probe point next ih =>
      obtain ⟨⟨total, a'⟩, ⟨total', b'⟩, hx, hy, heq, h'⟩ :=
        both_evaluate hready hfits h fingerOfGod point
      obtain rfl : total = total' := heq
      have hobjx : p.objective fingerOfGod point (a, none) = (total, a', none) := by
        rw [objective, hx]
      have hobjy : p.objective fingerOfGod point (b, none) = (total, b', none) := by
        rw [objective, hy]
      simp only [Search.run, hobjx, hobjy]
      exact ih total h'

/-- Putting values back. -/
lemma both_restore (h : Twins (· ∈ c.vars) p.Unknown a₀ b₀ a b) (parameters free : List α) :
    Both (Twins (· ∈ c.vars) p.Unknown a₀ b₀) (p.restore parameters free a)
      (p.restore parameters free b) := by
  rw [restore, restore]
  refine (both_write h (fun v hv => ?_) parameters).bind fun a b h => ?_
  · exact inside_of_root hready (hfits.parameters v hv) (Or.inl hv)
  · refine both_write h (fun v hv => ?_) free
    exact inside_of_root hready (hfits.free v hv) (Or.inr hv)

/-! ## Two searches side by side -/

/-- What two minimizations with either memory come to. -/
lemma run_minimizer {σ : Type} {m : Minimizer σ α} {memory memory' : σ} {start : List α}
    (hm : Prod.fst <$> m.minimize memory start = Prod.fst <$> m.minimize memory' start)
    (h : Twins (· ∈ c.vars) p.Unknown a₀ b₀ a b) (fingerOfGod : Bool) :
    ∃ answer after after' a' b',
      (m.minimize memory start).run (p.objective fingerOfGod) (a, none) =
          ((answer, after), a', none) ∧
        (m.minimize memory' start).run (p.objective fingerOfGod) (b, none) =
          ((answer, after'), b', none) ∧
        Twins (· ∈ c.vars) p.Unknown a₀ b₀ a' b' := by
  have hrun := run_objective hready hfits (Prod.fst <$> m.minimize memory start) fingerOfGod h
  have hmap := Search.run_map Prod.fst (m.minimize memory' start) (p.objective fingerOfGod)
    (b, none)
  rw [← hm] at hmap
  rw [Search.run_map, hmap] at hrun
  rcases hx : (m.minimize memory start).run (p.objective fingerOfGod) (a, none) with
    ⟨⟨answer, after⟩, a', failure⟩
  rcases hy : (m.minimize memory' start).run (p.objective fingerOfGod) (b, none) with
    ⟨⟨answer', after'⟩, b', failure'⟩
  rw [hx, hy] at hrun
  obtain ⟨heq, hfailure, hfailure', htwins⟩ := hrun
  simp only at heq hfailure hfailure' htwins
  subst heq hfailure hfailure'
  exact ⟨answer, after, after', a', b', rfl, rfl, htwins⟩

/-- **Searching.**  Two twins are searched alike, if the minimizer makes the same searches with
either memory. -/
theorem both_search {σ : Type} {m : Minimizer σ α} {memory memory' : σ}
    (hm : ∀ start, Prod.fst <$> m.minimize memory start = Prod.fst <$> m.minimize memory' start)
    (h : Twins (· ∈ c.vars) p.Unknown a₀ b₀ a b) (fingerOfGod : Bool) :
    Both (fun x y => x.1 = y.1 ∧ Twins (· ∈ c.vars) p.Unknown a₀ b₀ x.2.2 y.2.2)
      (p.search fingerOfGod m memory a) (p.search fingerOfGod m memory' b) := by
  rw [search, search]
  refine (both_mapM _ fun v hv => h.both_value ?_).bind_eq fun start => ?_
  · exact inside_of_root hready (hfits.parameters v hv) (hfits.parameters v hv)
  refine (both_mapM _ fun v hv => h.both_value ?_).bind_eq fun freeBefore => ?_
  · exact inside_of_root hready (hfits.free v hv) (hfits.free v hv)
  obtain ⟨answer, after, after', a', b', hx, hy, h'⟩ :=
    run_minimizer hready hfits (hm start) h fingerOfGod
  simp only [hx, hy]
  have hback := both_restore hready hfits h' start freeBefore
  rcases answer with e | ⟨solution, stop, iterations⟩
  · exact hback.bind fun a b h => both_ok.2 ⟨rfl, h⟩
  · cases stop with
    | converged =>
        refine (both_evaluate hready hfits h' fingerOfGod solution).bind ?_
        rintro ⟨total, a⟩ ⟨-, b⟩ ⟨rfl, h⟩
        exact both_ok.2 ⟨rfl, h⟩
    | iterationLimit => exact hback.bind fun a b h => both_ok.2 ⟨rfl, h⟩

end

/-! ## What comes of a search -/

section

variable (hready : c.Ready ctx.constraints ctx.handles a) (hfits : Fits c p)

include hready hfits

/-- **Putting back.**  If only parameters and free variables have changed, restoring what they were
brings every value back. -/
theorem restore_spec (ha : a.WellFormed) (h : Within p.Unknown a b) {start free : List α}
    (hstart : p.parameters.mapM a.value = .ok start)
    (hfree : p.free.toList.mapM a.value = .ok free) :
    ∃ b', p.restore start free b = .ok b' ∧ Within p.Unknown a b' ∧
      ∀ v, b'.value? v = a.value? v := by
  have hroots : ∀ v, v ∈ c.vars → b.contains v = true ∧ b.canonical v = v := by
    intro v hv
    rw [h.contains, h.canonical]
    exact hready.root v hv
  obtain ⟨b₁, hwrite₁, hwithin₁, hvalues₁⟩ := write_spec h.wellFormed hfits.nodup
    (fun v hv => hroots v (hfits.parameters v hv)) start
  have hroots₁ : ∀ v ∈ p.free.toList, b₁.contains v = true ∧ b₁.canonical v = v := by
    intro v hv
    rw [hwithin₁.contains, hwithin₁.canonical]
    exact hroots v (hfits.free v hv)
  obtain ⟨b₂, hwrite₂, hwithin₂, hvalues₂⟩ :=
    write_spec hwithin₁.wellFormed p.free.nodup hroots₁ free
  have hwithin : Within p.Unknown a b₂ :=
    (h.trans ((hwithin₁.mono fun v => Or.inl).trans (hwithin₂.mono fun v => Or.inr)))
  refine ⟨b₂, by rw [restore, hwrite₁, ok_bind, hwrite₂], hwithin, fun v => ?_⟩
  refine ha.value?_congr_of_roots hwithin.wellFormed hwithin.shape ?_
  -- a root is free, or a parameter, or was never written
  have hroot : a.canonical (a.canonical v) = a.canonical v := ha.canonical_canonical v
  have hroot₁ : b₁.canonical (a.canonical v) = a.canonical v := by
    rw [hwithin₁.canonical, h.canonical, hroot]
  by_cases hinFree : a.canonical v ∈ p.free
  · obtain ⟨x, hx, hvalue⟩ := exists_mem_zip (mapM_value_eq_ok_iff.1 hfree)
      (OrderedSet.mem_def.1 hinFree)
    rw [hvalues₂ _ x hx, hvalue]
  · rw [hwithin₂.frame _ (by rw [hroot₁]; exact hinFree)]
    by_cases hinParameters : a.canonical v ∈ p.parameters
    · obtain ⟨x, hx, hvalue⟩ := exists_mem_zip (mapM_value_eq_ok_iff.1 hstart) hinParameters
      rw [hvalues₁ _ x hx, hvalue]
    · rw [hwithin₁.frame _ (by rw [h.canonical, hroot]; exact hinParameters)]
      exact h.frame _ (by rw [hroot]; exact fun hor => hor.elim hinParameters hinFree)

/-- Looking at the objective leaves the parameters at the values it was given. -/
lemma evaluate_spec (h : Within p.Unknown a b) (fingerOfGod : Bool) (solution : List α) :
    ∃ total b', p.evaluate fingerOfGod solution b = .ok (total, b') ∧ Within p.Unknown a b' ∧
      ∀ v x, (v, x) ∈ p.parameters.zip solution → b'.value? v = some x := by
  have hroots : ∀ v ∈ p.parameters, b.contains v = true ∧ b.canonical v = v := by
    intro v hv
    rw [h.contains, h.canonical]
    exact hready.root v (hfits.parameters v hv)
  obtain ⟨b₁, hwrite, hwithin₁, hvalues⟩ := write_spec h.wellFormed hfits.nodup hroots solution
  have hready₁ : c.Ready ctx.constraints ctx.handles b₁ :=
    hready.congr (hwithin₁.shape.trans h.shape)
  -- the sum of the residuals writes free groups, and no parameter is free
  obtain ⟨⟨total, b'⟩, _, htotal, -, -, htwins⟩ := both_totalError (W := (· ∈ p.free)) hready₁
    hfits (fun v hv => hv) (.self hwithin₁.wellFormed) fingerOfGod
  refine ⟨total, b', by rw [evaluate, hwrite, ok_bind, htotal], ?_, fun v x hvx => ?_⟩
  · exact h.trans ((hwithin₁.mono fun v => Or.inl).trans (htwins.left.mono fun v => Or.inr))
  · have hv := (List.of_mem_zip hvx).1
    have hapart : ¬ b₁.canonical v ∈ p.free := by
      rw [hwithin₁.canonical, (hroots v hv).2]
      exact hfits.apart v hv
    rw [htwins.left.frame v hapart]
    exact hvalues v x hvx

/-- What an answer of the minimizer makes of the values before it was called: the solution, if it
converged with a full one, and otherwise the same values. -/
def Concludes (p : Problem α) (a : Arena α) :
    Except MinimizerError (Minimum α) → Arena α → Prop
  | .ok ⟨solution, .converged, _⟩, b =>
      solution.length = p.parameters.length →
        List.Forall₂ (fun v x => b.value? v = some x) p.parameters solution
  | _, b => ∀ v, b.value? v = a.value? v

/-- **The outcome of a search**, for any minimizer. -/
theorem search_spec {σ : Type} (m : Minimizer σ α) (memory : σ) (ha : a.WellFormed)
    (fingerOfGod : Bool) :
    ∃ start answer after failure outcome b, p.parameters.mapM a.value = .ok start ∧
      (m.minimize memory start).run (p.objective fingerOfGod) (a, none) =
        ((answer, after), failure) ∧
      p.search fingerOfGod m memory a = .ok (outcome, after, b) ∧ Within p.Unknown a b ∧
      Concludes p a answer b := by
  have hself : Twins (· ∈ c.vars) p.Unknown a a a a := .self ha
  obtain ⟨start, _, hstart, -, -⟩ := both_mapM p.parameters fun v hv =>
    hself.both_value (inside_of_root hready (hfits.parameters v hv) (hfits.parameters v hv))
  obtain ⟨free, _, hfree, -, -⟩ := both_mapM p.free.toList fun v hv =>
    hself.both_value (inside_of_root hready (hfits.free v hv) (hfits.free v hv))
  have hm : Prod.fst <$> m.minimize memory start = Prod.fst <$> m.minimize memory start := rfl
  obtain ⟨answer, after, _, b, _, hrun, -, htwins⟩ :=
    run_minimizer hready hfits hm hself fingerOfGod
  obtain ⟨b', hrestore, hback, hsame⟩ := restore_spec hready hfits ha htwins.left hstart hfree
  refine ⟨start, answer, after, (b, none), ?_⟩
  rcases answer with e | ⟨solution, stop, iterations⟩
  · refine ⟨.failed e, b', hstart, hrun, ?_, hback, hsame⟩
    simp only [search, hstart, hfree, ok_bind, hrun, hrestore, pure_eq_ok]
  · cases stop with
    | iterationLimit =>
        refine ⟨.abandoned iterations, b', hstart, hrun, ?_, hback, hsame⟩
        simp only [search, hstart, hfree, ok_bind, hrun, hrestore, pure_eq_ok]
    | converged =>
        obtain ⟨total, b₁, hevaluate, hwithin, hvalues⟩ :=
          evaluate_spec hready hfits htwins.left fingerOfGod solution
        refine ⟨.solved iterations, b₁, hstart, hrun, ?_, hwithin, fun hlength => ?_⟩
        · simp only [search, hstart, hfree, ok_bind, hrun, hevaluate, pure_eq_ok]
        · exact List.forall₂_iff_zip.2 ⟨hlength.symm, fun {v x} hvx => hvalues v x hvx⟩

end

end Problem

end SketchSolver
