import Mathlib
import SketchSolver.Solve
import SketchSolver.Proofs.Arena.Twins
import SketchSolver.Proofs.Cluster.Build

/-!
# Preparing a cluster

What follows directly from a cluster is computed before the search.  All of this reads and writes
groups of the cluster only, and it never fails: two arenas that agree on the groups of the cluster
are prepared in the same way.

* `KnownArena.Twins` — two runs that also know the same.
* `both_mark`, `Constraint.both_propagate`, `Residual.both_propagate` — one step of learning, for
  each kind of constraint and of residual.
* `Cluster.Ready` — what the solver relies on when it is given a cluster.
* `Problem.both_prepare` — two twins are prepared to the same problem.
-/

namespace SketchSolver

open Arena

variable {α : Type} [Scalar α] {G W : VarId → Prop} {a b a₀ b₀ : Arena α}

/-- Both coordinates of a point are inside. -/
structure Coords.Inside (G : VarId → Prop) (a : Arena α) (c : Coords) : Prop where
  x : Arena.Inside G a c.x
  y : Arena.Inside G a c.y

lemma Coords.both_read (h : Twins G W a₀ b₀ a b) {c : Coords} (hc : c.Inside G a₀) :
    Both Eq (c.read a) (c.read b) := by
  rw [Coords.read, Coords.read]
  refine (h.both_value hc.x).bind_eq fun x => ?_
  refine (h.both_value hc.y).bind_eq fun y => ?_
  exact both_ok.2 rfl

/-! ## Learning one thing -/

namespace KnownArena

variable {k l : KnownArena α}

/-- Two runs side by side that know the same. -/
structure Twins (G : VarId → Prop) (a₀ b₀ : Arena α) (k l : KnownArena α) : Prop where
  arena : Arena.Twins G G a₀ b₀ k.arena l.arena
  knowns : k.knowns = l.knowns

/-- Two runs side by side that know the same and have both learned something, or neither. -/
def Learned (G : VarId → Prop) (a₀ b₀ : Arena α) (x y : Bool × KnownArena α) : Prop :=
  x.1 = y.1 ∧ Twins G a₀ b₀ x.2 y.2

namespace Twins

lemma canonical (h : Twins G a₀ b₀ k l) : l.arena.canonical = k.arena.canonical :=
  h.arena.canonical_right.trans h.arena.canonical_left.symm

lemma isKnown (h : Twins G a₀ b₀ k l) : l.isKnown = k.isKnown := by
  funext v
  rw [KnownArena.isKnown, KnownArena.isKnown, h.knowns, h.canonical]

lemma isKnownPoint (h : Twins G a₀ b₀ k l) : l.isKnownPoint = k.isKnownPoint := by
  funext c
  rw [KnownArena.isKnownPoint, KnownArena.isKnownPoint, h.isKnown]

/-- Learning nothing. -/
lemma both_idle (h : Twins G a₀ b₀ k l) :
    Both (ε := SolverError) (Learned G a₀ b₀) (.ok (false, k)) (.ok (false, l)) :=
  both_ok.2 ⟨rfl, h⟩

lemma both_mark (h : Twins G a₀ b₀ k l) {v : VarId} (hv : Inside G a₀ v) (x : α) :
    Both (Learned G a₀ b₀) (k.mark v x) (l.mark v x) := by
  rw [mark, mark, h.knowns, h.canonical]
  split
  · exact h.both_idle
  · refine (h.arena.both_setValue hv x).bind fun a b hab => ?_
    exact both_ok.2 ⟨rfl, hab, rfl⟩

lemma both_markPoint (h : Twins G a₀ b₀ k l) {c : Coords} (hc : c.Inside G a₀) (p : Point α) :
    Both (Learned G a₀ b₀) (k.markPoint c p) (l.markPoint c p) := by
  rw [markPoint, markPoint]
  refine (h.both_mark hc.x p.x).bind ?_
  rintro ⟨x, k₁⟩ ⟨-, l₁⟩ ⟨rfl, h₁⟩
  refine (h₁.both_mark hc.y p.y).bind ?_
  rintro ⟨y, k₂⟩ ⟨-, l₂⟩ ⟨rfl, h₂⟩
  exact both_ok.2 ⟨rfl, h₂⟩

end Twins

end KnownArena

/-! ## Learning from a constraint -/

namespace Constraint

variable {c : Constraint α} {t : HandleTable} {k l : KnownArena α}

/-- The coordinates of the handles of a constraint that refers to groups in `G` only. -/
lemma coords_inside (hlive : c.Live t a₀) (hinside : ∀ v, c.Uses t v → Inside G a₀ v)
    {i : HandleId} (hi : i ∈ c.handles) : ∃ p, t.coords i = .ok p ∧ p.Inside G a₀ := by
  obtain ⟨p, hp, hx, hy⟩ := hlive.coords_ok hi
  exact ⟨p, hp, hinside _ hx, hinside _ hy⟩

/-- **One constraint's turn.**  A live constraint that refers to groups in `G` only teaches two
twins the same. -/
theorem both_propagate (h : KnownArena.Twins G a₀ b₀ k l) (hlive : c.Live t a₀)
    (hinside : ∀ v, c.Uses t v → Inside G a₀ v) :
    Both (KnownArena.Learned G a₀ b₀) (c.propagate t k) (c.propagate t l) := by
  have hnamed : ∀ v ∈ c.inputs ++ c.owned, Inside G a₀ v := fun v hv =>
    hinside v ((hlive.uses_iff v).2 (Or.inr hv))
  cases c with
  | constant v x => exact h.both_mark (hnamed v List.mem_cons_self) x
  | pin i position =>
      obtain ⟨p, hp, hinp⟩ := coords_inside hlive hinside (List.mem_singleton_self i)
      rw [propagate, propagate, hp, ok_bind, ok_bind]
      exact h.both_markPoint hinp position
  | linear y m x b =>
      rw [propagate, propagate]
      split
      · exact h.both_mark (hnamed y List.mem_cons_self) b
      · exact h.both_idle
  | polar start finish length bearing =>
      obtain ⟨p, hp, hinp⟩ := coords_inside hlive hinside (i := start) List.mem_cons_self
      obtain ⟨q, hq, hinq⟩ := coords_inside hlive hinside (i := finish)
        (List.mem_cons_of_mem _ List.mem_cons_self)
      have hlength : Inside G a₀ length := hnamed length List.mem_cons_self
      have hbearing : Inside G a₀ bearing :=
        hnamed bearing (List.mem_cons_of_mem _ List.mem_cons_self)
      rw [propagate, propagate, h.isKnown, h.isKnownPoint, hp, hq]
      split
      · simp only [ok_bind]
        refine (h.arena.both_value hbearing).bind_eq fun x => ?_
        refine (h.arena.both_value hlength).bind_eq fun r => ?_
        split
        · refine (Coords.both_read h.arena hinp).bind_eq fun z => ?_
          exact h.both_markPoint hinq _
        · refine (Coords.both_read h.arena hinq).bind_eq fun z => ?_
          exact h.both_markPoint hinp _
        · exact h.both_idle
      · exact h.both_idle
  | finger i position => exact h.both_idle
  | absorb parent child => exact h.both_idle
  | distance start finish length => exact h.both_idle
  | angle start finish bearing => exact h.both_idle
  | formula m x b result => exact h.both_idle

end Constraint

/-! ## Learning from a residual -/

namespace Residual

variable {r : Residual α} {k l : KnownArena α}

lemma both_formulaValue (h : Twins G W a₀ b₀ a b) {m x c : VarId} (hm : Inside G a₀ m)
    (hx : Inside G a₀ x) (hc : Inside G a₀ c) :
    Both Eq (formulaValue a m x c) (formulaValue b m x c) := by
  rw [formulaValue, formulaValue]
  refine (h.both_value hm).bind_eq fun u => ?_
  refine (h.both_value hx).bind_eq fun v => ?_
  refine (h.both_value hc).bind_eq fun w => ?_
  exact both_ok.2 rfl

/-- **One residual's turn.** -/
theorem both_propagate (h : KnownArena.Twins G a₀ b₀ k l) (hinside : ∀ v ∈ r.vars, Inside G a₀ v)
    (fingerOfGod : Bool) :
    Both (KnownArena.Learned G a₀ b₀) (r.propagate fingerOfGod k) (r.propagate fingerOfGod l) := by
  cases r with
  | finger p position =>
      rw [propagate, propagate]
      split
      · exact h.both_markPoint ⟨hinside _ (by simp [vars]), hinside _ (by simp [vars])⟩ position
      · exact h.both_idle
  | distance p q length =>
      have hp : p.Inside G a₀ := ⟨hinside _ (by simp [vars]), hinside _ (by simp [vars])⟩
      have hq : q.Inside G a₀ := ⟨hinside _ (by simp [vars]), hinside _ (by simp [vars])⟩
      rw [propagate, propagate, h.isKnown, h.isKnownPoint]
      split
      · refine (Coords.both_read h.arena hp).bind_eq fun u => ?_
        refine (Coords.both_read h.arena hq).bind_eq fun w => ?_
        exact h.both_mark (hinside _ (by simp [vars])) _
      · exact h.both_idle
  | angle p q bearing =>
      have hp : p.Inside G a₀ := ⟨hinside _ (by simp [vars]), hinside _ (by simp [vars])⟩
      have hq : q.Inside G a₀ := ⟨hinside _ (by simp [vars]), hinside _ (by simp [vars])⟩
      have hbearing : Inside G a₀ bearing := hinside _ (by simp [vars])
      rw [propagate, propagate, h.isKnown, h.isKnownPoint]
      split
      · refine (h.arena.both_value hbearing).bind_eq fun x => ?_
        refine (Coords.both_read h.arena hp).bind_eq fun u => ?_
        refine (Coords.both_read h.arena hq).bind_eq fun w => ?_
        exact h.both_mark hbearing _
      · exact h.both_idle
  | formula m x c result =>
      rw [propagate, propagate, h.isKnown]
      split
      · refine (both_formulaValue h.arena (hinside _ (by simp [vars]))
          (hinside _ (by simp [vars])) (hinside _ (by simp [vars]))).bind_eq fun v => ?_
        exact h.both_mark (hinside _ (by simp [vars])) v
      · exact h.both_idle

end Residual

/-! ## Learning from a cluster -/

namespace Cluster

variable {constraints : ConstraintTable α} {t : HandleTable} {c : Cluster α} {k l : KnownArena α}

/-- What the solver relies on: everything the constraints and residuals of the cluster refer to is
there and in a group of the cluster, and the variables of the cluster are the roots of these
groups. -/
structure Ready (constraints : ConstraintTable α) (t : HandleTable) (a : Arena α)
    (c : Cluster α) : Prop where
  constraint : ∀ id ∈ c.constraints, ∃ k, constraints.get? id = some k ∧ k.Live t a ∧
    ∀ v, k.Uses t v → Inside (· ∈ c.vars) a v
  residual : ∀ r ∈ c.residuals, ∀ v ∈ r.vars, Inside (· ∈ c.vars) a v
  root : ∀ v ∈ c.vars, a.contains v = true ∧ a.canonical v = v

/-- The clusters of a clustering are ready for arenas of the same shape. -/
lemma Ready.congr (h : Ready constraints t a c) (hshape : b.shape = a.shape) :
    Ready constraints t b c := by
  have hcontains : ∀ v, b.contains v = a.contains v := contains_congr hshape
  have hcanonical : b.canonical = a.canonical := canonical_congr hshape
  have hinside : ∀ {v}, Inside (· ∈ c.vars) a v → Inside (· ∈ c.vars) b v := by
    intro v hv
    exact ⟨(hcontains v).trans hv.contains, by rw [hcanonical]; exact hv.group⟩
  refine ⟨fun id hid => ?_, fun r hr v hv => hinside (h.residual r hr v hv), fun v hv => ?_⟩
  · obtain ⟨k, hget, hlive, huses⟩ := h.constraint id hid
    exact ⟨k, hget, hlive.congr rfl fun v hv => (hcontains v).trans hv,
      fun v hv => hinside (huses v hv)⟩
  · rw [hcontains, hcanonical]
    exact h.root v hv

lemma both_learnAll {β : Type} {step : β → KnownArena α → Except SolverError (Bool × KnownArena α)}
    {items : List β} (h : KnownArena.Twins G a₀ b₀ k l)
    (hstep : ∀ x ∈ items, ∀ {k l}, KnownArena.Twins G a₀ b₀ k l →
      Both (KnownArena.Learned G a₀ b₀) (step x k) (step x l)) :
    Both (KnownArena.Learned G a₀ b₀) (learnAll step items k) (learnAll step items l) := by
  refine both_foldlM (fun x hx => ?_) ⟨rfl, h⟩
  rintro ⟨changed, k⟩ ⟨-, l⟩ ⟨rfl, h⟩
  refine (hstep x hx h).bind ?_
  rintro ⟨learned, k₁⟩ ⟨-, l₁⟩ ⟨rfl, h₁⟩
  exact both_ok.2 ⟨rfl, h₁⟩

variable (hready : Ready constraints t a₀ c)

include hready

lemma Ready.both_pass (h : KnownArena.Twins (· ∈ c.vars) a₀ b₀ k l) (fingerOfGod : Bool) :
    Both (KnownArena.Learned (· ∈ c.vars) a₀ b₀) (c.pass constraints t fingerOfGod k)
      (c.pass constraints t fingerOfGod l) := by
  rw [pass, pass]
  refine (both_learnAll h fun id hid {k l} h => ?_).bind ?_
  · obtain ⟨d, hget, hlive, huses⟩ := hready.constraint id hid
    rw [ConstraintTable.find, hget, ok_bind, ok_bind]
    exact Constraint.both_propagate h hlive huses
  · rintro ⟨x, k₁⟩ ⟨-, l₁⟩ ⟨rfl, h₁⟩
    refine (both_learnAll h₁ fun r hr {k l} h => ?_).bind ?_
    · exact Residual.both_propagate h (hready.residual r hr) fingerOfGod
    · rintro ⟨y, k₂⟩ ⟨-, l₂⟩ ⟨rfl, h₂⟩
      exact both_ok.2 ⟨rfl, h₂⟩

lemma Ready.both_propagateWithin (h : KnownArena.Twins (· ∈ c.vars) a₀ b₀ k l)
    (fingerOfGod : Bool) (limit : Nat) :
    Both (KnownArena.Twins (· ∈ c.vars) a₀ b₀)
      (c.propagateWithin constraints t fingerOfGod limit k)
      (c.propagateWithin constraints t fingerOfGod limit l) := by
  induction limit generalizing k l with
  | zero => exact both_ok.2 h
  | succ limit ih =>
      rw [propagateWithin, propagateWithin]
      refine (hready.both_pass h fingerOfGod).bind ?_
      rintro ⟨changed, k₁⟩ ⟨-, l₁⟩ ⟨rfl, h₁⟩
      cases changed with
      | true => exact ih h₁
      | false => exact both_ok.2 h₁

/-- Finding the rods never fails. -/
lemma Ready.gizmoKnowns_ok : ∃ knowns, c.gizmoKnowns constraints t a₀ = .ok knowns := by
  have hfind : ∀ id ∈ c.constraints, ∃ k, constraints.find id = .ok k ∧ k.Live t a₀ := by
    intro id hid
    obtain ⟨k, hget, hlive, -⟩ := hready.constraint id hid
    exact ⟨k, by rw [ConstraintTable.find, hget], hlive⟩
  have hequals : ∀ i j, t.contains i = true → t.contains j = true →
      ∃ b, t.equals a₀ i j = .ok b := by
    intro i j hi hj
    obtain ⟨u, hu, -⟩ := HandleTable.find_ok hi
    obtain ⟨v, hv, -⟩ := HandleTable.find_ok hj
    exact ⟨_, by rw [HandleTable.equals, hu, hv]; rfl⟩
  obtain ⟨ks, hks, hlive⟩ := mapM_ok hfind
  rw [gizmoKnowns, hks, ok_bind]
  refine foldlM_succeeds _ ?_
  rintro ⟨start, finish, length, bearing⟩ hrod knowns
  obtain ⟨k, hk, hpolar⟩ := List.mem_filterMap.1 hrod
  have hends : t.contains start = true ∧ t.contains finish = true := by
    cases k with
    | polar i j v w =>
        cases hpolar
        exact ⟨(hlive _ hk).handles _ List.mem_cons_self,
          (hlive _ hk).handles _ (List.mem_cons_of_mem _ List.mem_cons_self)⟩
    | _ => cases hpolar
  -- a rod is held against every handle under a finger, all of which are there
  have htouched : ∀ (fingered : List HandleId) (rigid : Knowns),
      (∀ f ∈ fingered, t.contains f = true) → ∃ known, (do
        let touched ← fingered.anyM fun f => do
          return (← t.equals a₀ start f) || (← t.equals a₀ finish f)
        if touched then return knowns else return rigid) = .ok known := by
    intro fingered rigid hfingered
    obtain ⟨touched, hok⟩ := anyM_ok fingered
      (p := fun f => do return (← t.equals a₀ start f) || (← t.equals a₀ finish f)) (by
        intro f hf
        obtain ⟨x, hx⟩ := hequals start f hends.1 (hfingered f hf)
        obtain ⟨y, hy⟩ := hequals finish f hends.2 (hfingered f hf)
        exact ⟨x || y, by rw [hx, ok_bind, hy]; rfl⟩)
    rw [hok, ok_bind]
    cases touched with
    | true => exact ⟨knowns, rfl⟩
    | false => exact ⟨rigid, rfl⟩
  refine htouched _ _ fun f hf => ?_
  obtain ⟨k', hk', hfinger⟩ := List.mem_filterMap.1 hf
  cases k' with
  | finger i position =>
      cases hfinger
      exact (hlive _ hk').handles _ List.mem_cons_self
  | _ => cases hfinger

omit hready in
lemma gizmoKnowns_congr (h : b.shape = a.shape) (c : Cluster α) :
    c.gizmoKnowns constraints t b = c.gizmoKnowns constraints t a := by
  have hequals : ∀ i j, t.equals b i j = t.equals a i j := fun i j => by
    rw [HandleTable.equals, HandleTable.equals, equals_congr h]
  simp only [gizmoKnowns, hequals, canonical_congr h]

end Cluster

/-! ## The problem -/

namespace Problem

variable {ctx : SolveContext α} {c : Cluster α} {p : Problem α}

/-- What a problem is made of: free variables and parameters are different variables of the
cluster. -/
structure Fits (c : Cluster α) (p : Problem α) : Prop where
  residuals : p.residuals = c.residuals
  free : ∀ v ∈ p.free, v ∈ c.vars
  parameters : ∀ v ∈ p.parameters, v ∈ c.vars
  apart : ∀ v ∈ p.parameters, ¬ v ∈ p.free
  nodup : p.parameters.Nodup

lemma fits_prepared {k : KnownArena α}
    (hready : c.Ready ctx.constraints ctx.handles k.arena) :
    Fits c ⟨c.residuals, k.knowns, c.free k, c.parameters k (c.free k)⟩ where
  residuals := rfl
  free v hv := by
    rw [Cluster.free, OrderedSet.mem_ofList, List.mem_filter, List.mem_map] at hv
    obtain ⟨⟨w, hw, rfl⟩, -⟩ := hv
    obtain ⟨r, hr, howned⟩ := List.mem_filterMap.1 hw
    exact (hready.residual r hr w (Residual.mem_vars_of_owned howned)).group
  parameters v hv := OrderedSet.mem_def.2 (List.mem_filter.1 hv).1
  apart v hv := by
    have hnot := (List.mem_filter.1 hv).2
    simp only [Bool.and_eq_true, Bool.not_eq_true', ← Bool.not_eq_true,
      OrderedSet.contains_eq_true_iff] at hnot
    exact hnot.2
  nodup := c.vars.nodup.filter _

/-- **Preparing.**  Two runs on a cluster that is ready are prepared to the same problem. -/
theorem both_prepare (hready : c.Ready ctx.constraints ctx.handles a₀)
    (h : Twins (· ∈ c.vars) (· ∈ c.vars) a₀ b₀ a b) :
    Both (fun x y => x.1 = y.1 ∧ Fits c x.1 ∧ Twins (· ∈ c.vars) (· ∈ c.vars) a₀ b₀ x.2 y.2)
      (prepare ctx c a) (prepare ctx c b) := by
  have hsize : b.size = a.size := size_congr (h.shape_right.trans h.shape_left.symm)
  -- whatever is known from the start
  have hrest : ∀ preset : Knowns, Both
      (fun x y => x.1 = y.1 ∧ Fits c x.1 ∧ Twins (· ∈ c.vars) (· ∈ c.vars) a₀ b₀ x.2 y.2)
      (do
        let k ← c.propagate ctx.constraints ctx.handles ctx.fingerOfGod ⟨a, preset⟩
        return (⟨c.residuals, k.knowns, c.free k, c.parameters k (c.free k)⟩, k.arena))
      (do
        let k ← c.propagate ctx.constraints ctx.handles ctx.fingerOfGod ⟨b, preset⟩
        return (⟨c.residuals, k.knowns, c.free k, c.parameters k (c.free k)⟩, k.arena)) := by
    intro preset
    have hk : KnownArena.Twins (· ∈ c.vars) a₀ b₀ ⟨a, preset⟩ ⟨b, preset⟩ := ⟨h, rfl⟩
    rw [Cluster.propagate, Cluster.propagate]
    simp only [hsize]
    refine (hready.both_propagateWithin hk ctx.fingerOfGod (a.size + 1)).bind fun k l hkl => ?_
    have hreferences : c.references l.arena = c.references k.arena := by
      funext v
      rw [Cluster.references, Cluster.references, hkl.canonical]
    have hfree : c.free l = c.free k := by
      rw [Cluster.free, Cluster.free, hkl.canonical, hkl.isKnown, hreferences]
    have hparameters : c.parameters l (c.free k) = c.parameters k (c.free k) := by
      simp only [Cluster.parameters, hkl.isKnown]
    refine both_ok.2 ⟨?_, fits_prepared (hready.congr hkl.arena.shape_left), hkl.arena⟩
    simp only [hfree, hparameters, hkl.knowns]
  rw [prepare, prepare]
  split
  · obtain ⟨knowns, hknowns⟩ := hready.gizmoKnowns_ok
    rw [Cluster.gizmoKnowns_congr h.shape_left, Cluster.gizmoKnowns_congr h.shape_right, hknowns]
    exact hrest knowns
  · exact hrest .empty

end Problem

end SketchSolver
