import Mathlib
import SketchSolver.Proofs.Solve.Search

/-!
# Free variables

A free variable is computed by its owner and never searched for.  Only one residual refers to its
group, so whatever is computed after it changes neither the variable nor what it was computed from.

* `Residual.Measures` — what a residual says of the variable it owns.
* `Residual.error_spec` — evaluating a residual writes what it owns, if that is free, and nothing
  else.
* `Problem.totalError_computes` — after all residuals have been evaluated, each free variable has
  the value that its inputs have now.
* `solveCluster_computes` — so it is after the cluster has been solved.

All this is for an owner that does not read what it writes.  If one of its inputs has been unified
with the variable it owns, it still is the only one that refers to the group.
-/

namespace SketchSolver

open Arena

variable {α σ : Type} [Scalar α] {a b : Arena α}

namespace Residual

/-! ## What a residual says of what it owns -/

omit [Scalar α] in
/-- The variables from which a residual computes what it owns. -/
def inputs : Residual α → List VarId
  | .finger .. => []
  | .distance p q _ => [p.x, p.y, q.x, q.y]
  | .angle p q _ => [p.x, p.y, q.x, q.y]
  | .formula m x b _ => [m, x, b]

/-- At the present values, a residual asks for this value of the variable it owns: the distance of
two points, an angle of the vector between them, or the value of a formula. -/
inductive Measures (a : Arena α) : Residual α → α → Prop
  | distance {p q : Coords} {u w : Point α} (length : VarId) :
      p.read a = .ok u → q.read a = .ok w → Measures a (.distance p q length) (u.distance w)
  | angle {p q : Coords} {u w : Point α} (bearing : VarId) (previous : α) :
      p.read a = .ok u → q.read a = .ok w →
      Measures a (.angle p q bearing) (angleBetween u w previous)
  | formula {m x c : VarId} {y : α} (result : VarId) :
      formulaValue a m x c = .ok y → Measures a (.formula m x c result) y

variable {r : Residual α} {v : VarId} {y : α}

omit [Scalar α] in
lemma mem_vars_of_inputs {u : VarId} (hu : u ∈ r.inputs) : u ∈ r.vars := by
  cases r with
  | finger => cases hu
  | distance | angle | formula => exact List.mem_cons_of_mem _ hu

lemma measures_formula {m x c result : VarId} :
    Measures a (.formula m x c result) y ↔ formulaValue a m x c = .ok y := by
  constructor
  · rintro ⟨⟩
    assumption
  · exact .formula result

/-- What a residual asks for depends on its inputs only. -/
lemma Measures.congr (h : r.Measures a y) (hsame : ∀ u ∈ r.inputs, b.value? u = a.value? u) :
    r.Measures b y := by
  have hvalue : ∀ u ∈ r.inputs, b.value u = a.value u := fun u hu => value_congr (hsame u hu)
  have hread : ∀ p : Coords, p.x ∈ r.inputs → p.y ∈ r.inputs → p.read b = p.read a :=
    fun p hx hy => by rw [Coords.read, Coords.read, hvalue _ hx, hvalue _ hy]
  cases h with
  | distance length hp hq =>
      refine .distance length ?_ ?_
      · rwa [hread _ (by simp [inputs]) (by simp [inputs])]
      · rwa [hread _ (by simp [inputs]) (by simp [inputs])]
  | angle bearing previous hp hq =>
      refine .angle bearing previous ?_ ?_
      · rwa [hread _ (by simp [inputs]) (by simp [inputs])]
      · rwa [hread _ (by simp [inputs]) (by simp [inputs])]
  | formula result hy =>
      refine .formula result ?_
      rwa [formulaValue, hvalue _ (by simp [inputs]), hvalue _ (by simp [inputs]),
        hvalue _ (by simp [inputs])]

/-! ## Evaluating one residual -/

variable {knowns : Knowns} {free : OrderedSet VarId} {fingerOfGod : Bool} {e : α}

/-- Writing the owned variable if it is free, and only looking otherwise. -/
lemma settle_spec {w : VarId} {written : Except SolverError (Arena α)}
    {look : Except SolverError (α × Arena α)} (hlook : ∀ e b, look = .ok (e, b) → b = a)
    (h : (if free.contains w = true then do return (0, ← written) else look) = .ok (e, b)) :
    b = a ∧ ¬ w ∈ free ∨ w ∈ free ∧ e = 0 ∧ written = .ok b := by
  rw [← OrderedSet.contains_eq_true_iff]
  split at h
  · rename_i hfree
    obtain ⟨b', hwritten, h⟩ := bind_eq_ok_iff.1 h
    cases h
    exact Or.inr ⟨hfree, rfl, hwritten⟩
  · rename_i hfree
    exact Or.inl ⟨hlook e b h, hfree⟩

/-- **One term.**  What a residual owns takes the value it asks for if it is free, and then the
residual is zero; nothing is written otherwise. -/
lemma error_spec (h : r.error knowns free fingerOfGod a = .ok (e, b)) :
    (b = a ∧ ∀ v, r.owned = some v → ¬ a.canonical v ∈ free) ∨
      ∃ v y, r.owned = some v ∧ a.canonical v ∈ free ∧ e = 0 ∧ r.Measures a y ∧
        a.setValue v y = .ok b := by
  have hread : ∀ {v : VarId} {f : α → α} (e b),
      (a.value v >>= fun x => pure (f x, a)) = .ok (e, b) → b = a := by
    intro v f e b h
    obtain ⟨x, -, h⟩ := bind_eq_ok_iff.1 h
    cases h
    rfl
  cases r with
  | finger p position =>
      refine Or.inl ⟨?_, by rintro v ⟨⟩⟩
      rw [error] at h
      split at h
      · cases h
        rfl
      · obtain ⟨u, -, h⟩ := bind_eq_ok_iff.1 h
        cases h
        rfl
  | distance p q length =>
      simp only [error, bind_eq_ok_iff] at h
      obtain ⟨u, hp, w, hq, h⟩ := h
      rcases settle_spec hread h with ⟨rfl, hnot⟩ | ⟨hfree, hzero, hset⟩
      · exact Or.inl ⟨rfl, by rintro _ ⟨⟩; exact hnot⟩
      · exact Or.inr ⟨length, _, rfl, hfree, hzero, .distance length hp hq, hset⟩
  | angle p q bearing =>
      simp only [error, bind_eq_ok_iff] at h
      obtain ⟨u, hp, w, hq, previous, -, h⟩ := h
      rcases settle_spec (by rintro e b ⟨⟩; rfl) h with ⟨rfl, hnot⟩ | ⟨hfree, hzero, hset⟩
      · exact Or.inl ⟨rfl, by rintro _ ⟨⟩; exact hnot⟩
      · exact Or.inr ⟨bearing, _, rfl, hfree, hzero, .angle bearing previous hp hq, hset⟩
  | formula m x c result =>
      simp only [error, bind_eq_ok_iff] at h
      obtain ⟨y, hy, h⟩ := h
      rcases settle_spec hread h with ⟨rfl, hnot⟩ | ⟨hfree, hzero, hset⟩
      · exact Or.inl ⟨rfl, by rintro _ ⟨⟩; exact hnot⟩
      · exact Or.inr ⟨result, y, rfl, hfree, hzero, .formula result hy, hset⟩

/-- Evaluating a residual writes the group of what it owns, and only if that is free. -/
lemma error_within (ha : a.WellFormed) (h : r.error knowns free fingerOfGod a = .ok (e, b)) :
    Within (fun w => w ∈ free ∧ ∃ v, r.owned = some v ∧ a.canonical v = w) a b := by
  rcases error_spec h with ⟨rfl, -⟩ | ⟨v, y, howned, hfree, -, -, hset⟩
  · exact .refl ha
  · obtain ⟨hwf, hshape, hvalue⟩ := ha.of_setValue hset
    refine ⟨hwf, hshape, fun u hu => ?_⟩
    rw [hvalue, if_neg]
    intro hgroup
    exact hu ⟨hgroup ▸ hfree, v, howned, hgroup.symm⟩

end Residual

namespace Cluster

/-- If a group is referred to once, the residuals after one that refers to it do not. -/
lemma not_referenced {c : Cluster α} {r : Residual α} {before after : List (Residual α)}
    (hsplit : c.residuals = before ++ r :: after) {u : VarId} (hu : u ∈ r.vars)
    (hone : c.references a (a.canonical u) = 1) :
    ∀ d ∈ after, ∀ w ∈ d.vars, a.canonical w ≠ a.canonical u := by
  intro d hd w hw heq
  have hr : ((r.vars.map a.canonical).contains (a.canonical u)) = true := by
    rw [List.contains_iff_mem]
    exact List.mem_map_of_mem hu
  have hd' : ((d.vars.map a.canonical).contains (a.canonical u)) = true := by
    rw [List.contains_iff_mem, ← heq]
    exact List.mem_map_of_mem hw
  rw [references, hsplit, List.countP_append, List.countP_cons, if_pos hr] at hone
  have hpos : 0 < after.countP fun r => (r.vars.map a.canonical).contains (a.canonical u) :=
    List.countP_pos_iff.2 ⟨d, hd, hd'⟩
  omega

end Cluster

namespace Problem

variable {ctx : SolveContext α} {c : Cluster α} {p : Problem α} {r : Residual α} {v : VarId}
  {fingerOfGod : Bool} {total : α}

/-! ## Evaluating all residuals -/

/-- The residual owns the variable, which is free, and reads nothing of its group. -/
structure Computes (p : Problem α) (a : Arena α) (r : Residual α) (v : VarId) : Prop where
  owned : r.owned = some v
  free : a.canonical v ∈ p.free
  apart : ∀ u ∈ r.inputs, a.canonical u ≠ a.canonical v

lemma Computes.congr (h : p.Computes a r v) (hcanonical : b.canonical = a.canonical) :
    p.Computes b r v :=
  ⟨h.owned, hcanonical ▸ h.free, hcanonical ▸ h.apart⟩

/-- Evaluating some residuals writes the free groups of what they own. -/
lemma foldlM_error_within (ha : a.WellFormed) {rs : List (Residual α)} {start : α}
    (h : rs.foldlM (fun (total, arena) r => do
        let (e, arena) ← r.error p.knowns p.free fingerOfGod arena
        return (total + e * e, arena)) (start, a) = .ok (total, b)) :
    Within (fun w => w ∈ p.free ∧ ∃ r ∈ rs, ∃ v, r.owned = some v ∧ a.canonical v = w) a b := by
  refine foldlM_keeps (P := fun x => Within _ a x.2) ?_ (.refl ha) h
  rintro ⟨t, a₁⟩ r hr ⟨t', a₂⟩ hwithin hstep
  simp only [bind_eq_ok_iff] at hstep
  obtain ⟨⟨e, a₃⟩, herror, hstep⟩ := hstep
  cases hstep
  refine hwithin.trans ((Residual.error_within hwithin.wellFormed herror).mono ?_)
  rintro w ⟨hw, v, howned, hcanonical⟩
  exact ⟨hw, r, hr, v, howned, by rw [← hcanonical, hwithin.canonical]⟩

/-- **Free variables are computed.**  After all residuals have been evaluated, the group of a free
variable has the value that its owner asks for now: what has been evaluated later writes neither
the group nor any input of its owner. -/
theorem totalError_computes (ha : a.WellFormed) (hresiduals : p.residuals = c.residuals)
    (honce : ∀ w ∈ p.free, c.references a w = 1) (hr : r ∈ c.residuals)
    (hcomputes : p.Computes a r v) (h : p.totalError fingerOfGod a = .ok (total, b)) :
    ∃ y, r.Measures b y ∧
      ∀ k, a.canonical k = a.canonical v → b.value? k = some (a.lower k (a.lift v y)) := by
  obtain ⟨before, after, hsplit⟩ := List.append_of_mem hr
  rw [totalError, hresiduals, hsplit, List.foldlM_append, bind_eq_ok_iff] at h
  obtain ⟨⟨t₁, a₁⟩, hbefore, h⟩ := h
  rw [List.foldlM_cons, bind_eq_ok_iff] at h
  obtain ⟨⟨t₂, a₂⟩, hstep, hafter⟩ := h
  obtain ⟨⟨e, a₃⟩, herror, hstep⟩ := bind_eq_ok_iff.1 hstep
  cases hstep
  have hwithin₁ := foldlM_error_within ha hbefore
  rcases Residual.error_spec herror with ⟨-, hnot⟩ | ⟨v', y, howned', -, -, hmeasures, hset⟩
  · exact absurd (by rw [hwithin₁.canonical]; exact hcomputes.free) (hnot v hcomputes.owned)
  obtain rfl : v' = v := Option.some.inj (howned'.symm.trans hcomputes.owned)
  obtain ⟨ha₂, hshape₂, hvalue₂⟩ := hwithin₁.wellFormed.of_setValue hset
  have hcanonical₂ : a₂.canonical = a.canonical :=
    (canonical_congr hshape₂).trans hwithin₁.canonical
  have hwithin₂ := foldlM_error_within ha₂ hafter
  -- what comes later leaves the groups alone that this residual refers to
  have hlater : ∀ u ∈ r.vars, ∀ k, a.canonical k = a.canonical u → b.value? k = a₂.value? k := by
    intro u hu k hk
    refine hwithin₂.frame k ?_
    rintro ⟨hw, d, hd, w, hdowned, hdw⟩
    rw [hcanonical₂, hk] at hw hdw
    exact Cluster.not_referenced hsplit hu (honce _ hw) d hd w
      (Residual.mem_vars_of_owned hdowned) hdw
  refine ⟨y, hmeasures.congr fun u hu => ?_, fun k hk => ?_⟩
  · rw [hlater u (Residual.mem_vars_of_inputs hu) u rfl, hvalue₂, if_neg]
    rw [hwithin₁.canonical]
    exact hcomputes.apart u hu
  · rw [hlater _ (Residual.mem_vars_of_owned hcomputes.owned) k hk, hvalue₂, if_pos,
      lower_congr hwithin₁.shape, lift_congr hwithin₁.shape]
    rw [hwithin₁.canonical, hk]

/-! ## Solving a cluster -/

/-- What a problem consists of, in terms of what is known after the propagation. -/
lemma eq_of_prepare (h : prepare ctx c a = .ok (p, b)) :
    ∃ k : KnownArena α, p = ⟨c.residuals, k.knowns, c.free k, c.parameters k (c.free k)⟩ ∧
      b = k.arena := by
  rw [prepare] at h
  split at h
  all_goals
    obtain ⟨preset, -, h⟩ := bind_eq_ok_iff.1 h
    obtain ⟨k, -, h⟩ := bind_eq_ok_iff.1 h
    cases h
    exact ⟨k, rfl, rfl⟩

/-- Preparing takes over the residuals of a cluster, and one of them alone refers to each free
variable. -/
lemma prepare_free (h : prepare ctx c a = .ok (p, b)) :
    p.residuals = c.residuals ∧ ∀ w ∈ p.free, c.references b w = 1 := by
  obtain ⟨k, rfl, rfl⟩ := eq_of_prepare h
  refine ⟨rfl, fun w hw => ?_⟩
  rw [Cluster.free, OrderedSet.mem_ofList, List.mem_filter] at hw
  simpa using (Bool.and_eq_true_iff.1 hw.2).2

end Problem

/-- Were the values of the cluster updated? -/
def Outcome.Updated : Outcome → Prop
  | .determined => True
  | .solved _ => True
  | .abandoned _ => False
  | .failed _ => False

section

variable {ctx : SolveContext α} {c : Cluster α} {p : Problem α} {m : Minimizer σ α}
  {memory memory' : σ} {outcome : Outcome} {a' : Arena α}

/-- The last thing that happens to a cluster whose values are updated: all residuals are evaluated,
after the parameters have been written, if there are any. -/
lemma solveCluster_evaluates (hready : c.Ready ctx.constraints ctx.handles a) (ha : a.WellFormed)
    (hprepare : Problem.prepare ctx c a = .ok (p, a'))
    (hsolve : solveCluster ctx m memory c a = .ok (outcome, memory', b))
    (hupdated : outcome.Updated) :
    ∃ x total, x.WellFormed ∧ x.shape = a'.shape ∧
      p.totalError ctx.fingerOfGod x = .ok (total, b) := by
  obtain ⟨⟨_, _⟩, _, hprepare', -, -, hfits, htwins⟩ := Problem.both_prepare hready (.self ha)
  rw [hprepare] at hprepare'
  cases hprepare'
  rw [solveCluster, hprepare] at hsolve
  simp only [ok_bind] at hsolve
  split at hsolve
  · obtain ⟨⟨total, b'⟩, htotal, hsolve⟩ := bind_eq_ok_iff.1 hsolve
    cases hsolve
    exact ⟨a', total, htwins.left.wellFormed, rfl, htotal⟩
  · rw [Problem.search, bind_eq_ok_iff] at hsolve
    obtain ⟨start, -, hsolve⟩ := hsolve
    obtain ⟨freeBefore, -, hsolve⟩ := bind_eq_ok_iff.1 hsolve
    have hready' := hready.congr htwins.shape_left
    have hm : Prod.fst <$> m.minimize memory start = Prod.fst <$> m.minimize memory start := rfl
    obtain ⟨answer, after, _, probed, _, hrun, -, hprobed⟩ :=
      Problem.run_minimizer hready' hfits hm (.self htwins.left.wellFormed) ctx.fingerOfGod
    simp only [hrun] at hsolve
    rcases answer with e | ⟨solution, stop, iterations⟩
    · obtain ⟨b', -, hsolve⟩ := bind_eq_ok_iff.1 hsolve
      cases hsolve
      exact hupdated.elim
    · cases stop with
      | iterationLimit =>
          obtain ⟨b', -, hsolve⟩ := bind_eq_ok_iff.1 hsolve
          cases hsolve
          exact hupdated.elim
      | converged =>
          obtain ⟨⟨total, b'⟩, hevaluate, hsolve⟩ := bind_eq_ok_iff.1 hsolve
          cases hsolve
          obtain ⟨x, hwrite, htotal⟩ := bind_eq_ok_iff.1 hevaluate
          obtain ⟨x', _, hwrite', -, hwritten⟩ := Problem.both_write hprobed (fun v hv =>
            Problem.inside_of_root hready' (hfits.parameters v hv) (Or.inl hv)) solution
          rw [hwrite] at hwrite'
          cases hwrite'
          exact ⟨x, total, hwritten.left.wellFormed, hwritten.shape_left, htotal⟩

/-- **Free variables of a solved cluster.**  If the values of a cluster were updated, every free
variable has the value that its owner asks for, unless its owner reads what it writes. -/
theorem solveCluster_computes (hready : c.Ready ctx.constraints ctx.handles a) (ha : a.WellFormed)
    (hprepare : Problem.prepare ctx c a = .ok (p, a'))
    (hsolve : solveCluster ctx m memory c a = .ok (outcome, memory', b))
    (hupdated : outcome.Updated) {r : Residual α} {v : VarId} (hr : r ∈ c.residuals)
    (hcomputes : p.Computes b r v) :
    ∃ y, r.Measures b y ∧ b.value? v = some (b.lower v (b.lift v y)) := by
  obtain ⟨hresiduals, honce⟩ := Problem.prepare_free hprepare
  obtain ⟨x, total, hx, hshape, htotal⟩ := solveCluster_evaluates hready ha hprepare hsolve hupdated
  have hb : b.shape = x.shape := (Problem.foldlM_error_within hx htotal).shape
  have honce' : ∀ w ∈ p.free, c.references x w = 1 := by
    intro w hw
    rw [Cluster.references, canonical_congr hshape]
    exact honce w hw
  obtain ⟨y, hmeasures, hgroup⟩ := Problem.totalError_computes hx hresiduals honce' hr
    (hcomputes.congr (canonical_congr hb).symm) htotal
  rw [lower_congr hb, lift_congr hb]
  exact ⟨y, hmeasures, hgroup v rfl⟩

end

end SketchSolver
