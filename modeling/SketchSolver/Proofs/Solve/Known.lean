import Mathlib
import SketchSolver.Proofs.Cluster.Closure
import SketchSolver.Proofs.Solve.Search

/-!
# What is known in a problem

When the turn of a cluster comes, its rods are held, if gizmos are stabilised, and what follows is
computed.  What is left to determine is unknown then, and remains so.

* `Cluster.Rod` — a polar vector neither end of which is under a finger.
* `Cluster.preset` — what is known from the start: the lengths and the angles of the rods
  (`Cluster.Ready.preset_spec`), or nothing.
* `Cluster.Ready.prepare_spec` — what a problem is prepared from.
* `Cluster.not_known_of_unknown` — neither parameters nor free variables are known.
-/

namespace SketchSolver

open Arena KnownArena

variable {α : Type} [Scalar α]

namespace Cluster

variable {constraints : ConstraintTable α} {t : HandleTable} {a : Arena α} {c : Cluster α}
  {ctx : SolveContext α} {v : VarId}

/-! ## Rods -/

/-- A polar vector of the cluster with this length and this angle, neither end of which is under a
finger of the cluster. -/
def Rod (c : Cluster α) (constraints : ConstraintTable α) (t : HandleTable) (a : Arena α)
    (length bearing : VarId) : Prop :=
  ∃ id ∈ c.constraints, ∃ start finish,
    constraints.get? id = some (.polar start finish length bearing) ∧
    ∀ j ∈ c.constraints, ∀ f position, constraints.get? j = some (.finger f position) →
      t.equals a start f = .ok false ∧ t.equals a finish f = .ok false

/-- Which polar vectors are rods depends on the unifications alone. -/
lemma rod_congr {b : Arena α} (h : b.shape = a.shape) :
    c.Rod constraints t b = c.Rod constraints t a := by
  have hequals : ∀ i j, t.equals b i j = t.equals a i j := fun i j => by
    rw [HandleTable.equals, HandleTable.equals, equals_congr h]
  funext length bearing
  simp only [Rod, hequals]

omit [Scalar α] in
/-- Looking up several constraints. -/
lemma mem_of_mapM_find {ids : List ConstraintId} {ks : List (Constraint α)}
    (h : ids.mapM constraints.find = .ok ks) (k : Constraint α) :
    k ∈ ks ↔ ∃ id ∈ ids, constraints.get? id = some k := by
  induction ids generalizing ks with
  | nil =>
      cases h
      simp
  | cons id ids ih =>
      rw [List.mapM_cons] at h
      obtain ⟨d, hd, h⟩ := bind_eq_ok_iff.1 h
      obtain ⟨ds, hds, hpure⟩ := bind_eq_ok_iff.1 h
      cases hpure
      rw [ConstraintTable.find] at hd
      split at hd
      · rename_i d' hget
        cases hd
        simp only [List.mem_cons, ih hds, exists_eq_or_imp, hget, Option.some.injEq]
        rw [eq_comm]
      · cases hd

omit [Scalar α] in
/-- The vectors among constraints. -/
lemma mem_filterMap_polar {ks : List (Constraint α)} {start finish : HandleId}
    {length bearing : VarId} :
    (start, finish, length, bearing) ∈ (ks.filterMap fun
      | .polar start finish length bearing => some (start, finish, length, bearing)
      | _ => none) ↔ .polar start finish length bearing ∈ ks := by
  rw [List.mem_filterMap]
  constructor
  · rintro ⟨k, hk, hsome⟩
    cases k <;> cases hsome
    exact hk
  · intro hk
    exact ⟨_, hk, rfl⟩

omit [Scalar α] in
/-- The fingers among constraints. -/
lemma mem_filterMap_finger {ks : List (Constraint α)} {f : HandleId} :
    f ∈ (ks.filterMap fun
      | .finger handle _ => some handle
      | _ => none) ↔ ∃ position, .finger f position ∈ ks := by
  rw [List.mem_filterMap]
  constructor
  · rintro ⟨k, hk, hsome⟩
    cases k <;> cases hsome
    exact ⟨_, hk⟩
  · rintro ⟨position, hk⟩
    exact ⟨_, hk, rfl⟩

/-- No finger touches either end. -/
lemma touched_eq_ok_false_iff {start finish : HandleId} {fingered : List HandleId} :
    (fingered.anyM fun f => do return (← t.equals a start f) || (← t.equals a finish f)) =
      .ok false ↔
      ∀ f ∈ fingered, t.equals a start f = .ok false ∧ t.equals a finish f = .ok false := by
  induction fingered with
  | nil => exact iff_of_true rfl (by simp)
  | cons f fingered ih =>
      have hhead : (do return (← t.equals a start f) || (← t.equals a finish f)) =
          (.ok false : Except SolverError Bool) ↔
            t.equals a start f = .ok false ∧ t.equals a finish f = .ok false := by
        simp only [bind_eq_ok_iff, pure_eq_ok, Except.ok.injEq, Bool.or_eq_false_iff]
        constructor
        · rintro ⟨x, hx, y, hy, rfl, rfl⟩
          exact ⟨hx, hy⟩
        · rintro ⟨hx, hy⟩
          exact ⟨false, hx, false, hy, rfl, rfl⟩
      rw [List.anyM, bind_eq_ok_iff, List.forall_mem_cons, ← ih, ← hhead]
      constructor
      · rintro ⟨b, hb, h⟩
        cases b with
        | true => cases h
        | false => exact ⟨hb, h⟩
      · rintro ⟨hf, h⟩
        exact ⟨false, hf, h⟩

/-- Holding what no finger touches. -/
lemma mem_foldlM_hold {fingered : List HandleId}
    {rods : List (HandleId × HandleId × VarId × VarId)} {held knowns : Knowns}
    (h : rods.foldlM (fun held rod => do
      let touched ← fingered.anyM fun f => do
        return (← t.equals a rod.1 f) || (← t.equals a rod.2.1 f)
      if touched then
        return held
      else
        return (held.insert (a.canonical rod.2.2.1)).insert (a.canonical rod.2.2.2)) held =
      .ok knowns) :
    v ∈ knowns ↔ v ∈ held ∨ ∃ start finish length bearing,
      (start, finish, length, bearing) ∈ rods ∧
        (∀ f ∈ fingered, t.equals a start f = .ok false ∧ t.equals a finish f = .ok false) ∧
        (v = a.canonical length ∨ v = a.canonical bearing) := by
  simp only [← touched_eq_ok_false_iff]
  induction rods generalizing held with
  | nil =>
      cases h
      simp
  | cons rod rods ih =>
      obtain ⟨start, finish, length, bearing⟩ := rod
      rw [List.foldlM_cons] at h
      obtain ⟨held', hstep, hrest⟩ := bind_eq_ok_iff.1 h
      obtain ⟨b, hb, hstep⟩ := bind_eq_ok_iff.1 hstep
      rw [ih hrest]
      cases b with
      | true =>
          cases hstep
          grind
      | false =>
          cases hstep
          simp only [OrderedSet.mem_insert]
          grind

/-- **The rods are held.** -/
theorem mem_gizmoKnowns_iff {knowns : Knowns}
    (h : c.gizmoKnowns constraints t a = .ok knowns) :
    v ∈ knowns ↔ ∃ length bearing, c.Rod constraints t a length bearing ∧
      (v = a.canonical length ∨ v = a.canonical bearing) := by
  obtain ⟨ks, hks, h⟩ := bind_eq_ok_iff.1 h
  have hmem := mem_of_mapM_find hks
  dsimp only at h
  rw [mem_foldlM_hold h]
  simp only [OrderedSet.not_mem_empty, false_or]
  constructor
  · rintro ⟨start, finish, length, bearing, hrod, hapart, hv⟩
    obtain ⟨id, hid, hget⟩ := (hmem _).1 (mem_filterMap_polar.1 hrod)
    exact ⟨length, bearing, ⟨id, hid, start, finish, hget, fun j hj f position hget' =>
      hapart f (mem_filterMap_finger.2 ⟨position, (hmem _).2 ⟨j, hj, hget'⟩⟩)⟩, hv⟩
  · rintro ⟨length, bearing, ⟨id, hid, start, finish, hget, hapart⟩, hv⟩
    refine ⟨start, finish, length, bearing, mem_filterMap_polar.2 ((hmem _).2 ⟨id, hid, hget⟩),
      fun f hf => ?_, hv⟩
    obtain ⟨position, hf⟩ := mem_filterMap_finger.1 hf
    obtain ⟨j, hj, hget'⟩ := (hmem _).1 hf
    exact hapart j hj f position hget'

/-- What is known from the start. -/
def preset (ctx : SolveContext α) (c : Cluster α) (arena : Arena α) : Except SolverError Knowns :=
  if ctx.stabilizeGizmos then c.gizmoKnowns ctx.constraints ctx.handles arena
  else pure .empty

/-- **What is known from the start** are the lengths and the angles of the rods, if gizmos are
stabilised. -/
theorem Ready.preset_spec (hready : c.Ready ctx.constraints ctx.handles a) :
    ∃ held, c.preset ctx a = .ok held ∧ (∀ v ∈ held, v ∈ c.vars) ∧
      ∀ v, v ∈ held ↔ ctx.stabilizeGizmos = true ∧ ∃ length bearing,
        c.Rod ctx.constraints ctx.handles a length bearing ∧
          (v = a.canonical length ∨ v = a.canonical bearing) := by
  rw [preset]
  split
  · rename_i hstabilize
    obtain ⟨held, hheld⟩ := hready.gizmoKnowns_ok
    refine ⟨held, hheld, fun v hv => ?_, fun v => ?_⟩
    · obtain ⟨length, bearing, ⟨id, hid, start, finish, hget, -⟩, hv⟩ :=
        (mem_gizmoKnowns_iff hheld).1 hv
      obtain ⟨k, hget', hlive, huses⟩ := hready.constraint id hid
      rw [hget] at hget'
      cases hget'
      have howned : ∀ u ∈ [length, bearing], a.canonical u ∈ c.vars := fun u hu =>
        (huses u ((hlive.uses_iff u).2 (Or.inr (List.mem_append_right _ hu)))).group
      rcases hv with rfl | rfl
      · exact howned length List.mem_cons_self
      · exact howned bearing (List.mem_cons_of_mem _ List.mem_cons_self)
    · rw [mem_gizmoKnowns_iff hheld, and_iff_right hstabilize]
  · rename_i hstabilize
    exact ⟨.empty, rfl, by simp, by simp [hstabilize]⟩

/-! ## The problem that is left -/

/-- What is left to determine once this is known. -/
def problem (c : Cluster α) (k : KnownArena α) : Problem α :=
  ⟨c.residuals, k.knowns, c.free k, c.parameters k (c.free k)⟩

/-- **Preparing** a cluster that is ready: first the rods are held, and then what follows is
computed. -/
theorem Ready.prepare_spec (hready : c.Ready ctx.constraints ctx.handles a) (ha : a.WellFormed) :
    ∃ held n k, c.preset ctx a = .ok held ∧
      c.Passes ctx.constraints ctx.handles ctx.fingerOfGod n ⟨a, held⟩ k ∧
      c.propagate ctx.constraints ctx.handles ctx.fingerOfGod ⟨a, held⟩ = .ok k ∧
      Problem.prepare ctx c a = .ok (c.problem k, k.arena) := by
  obtain ⟨held, hheld, hinside, -⟩ := hready.preset_spec
  obtain ⟨n, k, -, hpasses, hpropagate⟩ :=
    hready.propagate_spec (k := ⟨a, held⟩) ha hinside ctx.fingerOfGod
  have hsteps : Problem.prepare ctx c a = (do
      let held ← c.preset ctx a
      let k ← c.propagate ctx.constraints ctx.handles ctx.fingerOfGod ⟨a, held⟩
      return (c.problem k, k.arena)) := by
    rw [Problem.prepare, preset]
    split <;> rfl
  refine ⟨held, n, k, hheld, hpasses, hpropagate, ?_⟩
  rw [hsteps, hheld, ok_bind, hpropagate]
  rfl

lemma Ready.fits_problem {k : KnownArena α} (hready : c.Ready constraints t k.arena) :
    Problem.Fits c (c.problem k) := by
  let ctx : SolveContext α := ⟨constraints, t, false, false⟩
  exact Problem.fits_prepared (show c.Ready ctx.constraints ctx.handles k.arena from hready)

/-- Neither parameters nor free variables are known. -/
lemma not_known_of_unknown {k : KnownArena α} (hready : c.Ready constraints t k.arena)
    (hv : (c.problem k).Unknown v) : ¬ v ∈ k.knowns := by
  have hunknown : ∀ u, (!k.isKnown u) = true → k.arena.canonical u = u → ¬ u ∈ k.knowns := by
    intro u hu hroot hknown
    rw [Bool.not_eq_true', ← Bool.not_eq_true, isKnown_iff, hroot] at hu
    exact hu hknown
  rcases hv with hv | hv
  · obtain ⟨hv, hnot⟩ := List.mem_filter.1 hv
    exact hunknown v (Bool.and_eq_true _ _ ▸ hnot).1 (hready.root v hv).2
  · have hroot := (hready.root v (hready.fits_problem.free v hv)).2
    rw [problem, free, OrderedSet.mem_ofList, List.mem_filter] at hv
    exact hunknown v (Bool.and_eq_true _ _ ▸ hv.2).1 hroot

end Cluster

end SketchSolver
