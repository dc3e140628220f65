import Mathlib
import SketchSolver.Proofs.Known

/-!
# Everything that follows

A cluster is propagated by passes, until one of them learns nothing.  Which variables are known then
is a closure: the least set of groups that contains what was known at first and to which no rule of
the cluster has anything to add.

* `Cluster.rules` — the rules of all constraints and of all residuals of a cluster.
* `Rule.Least` — the least set that is closed under some rules.
* `Cluster.Passes` — so many passes, of which the last one learns nothing and every other one
  something.
* `Cluster.Passes.least` — what is known after the last pass is the closure.
* `Cluster.Ready.exists_passes` — every pass but the last one makes another variable of the cluster
  known, so there is a last one.  The bound of `Cluster.propagate` is never reached.
-/

namespace SketchSolver

open Arena KnownArena

variable {α : Type}

/-! ## Closures -/

namespace Rule

/-- `S` is the least set of groups that contains `P` and to which the rules have nothing to add. -/
structure Least [Scalar α] (rules : List Rule) (a : Arena α) (P S : VarId → Prop) : Prop where
  contains : ∀ v, P v → S v
  closed : ∀ rule ∈ rules, rule.Holds a S
  least : ∀ T : VarId → Prop, (∀ v, P v → T v) → (∀ rule ∈ rules, rule.Holds a T) → ∀ v, S v → T v

/-- The order of the rules is no matter. -/
lemma Least.unique [Scalar α] {rules rules' : List Rule} {a : Arena α} {P S T : VarId → Prop}
    (h : Least rules a P S) (h' : Least rules' a P T) (hperm : rules'.Perm rules) (v : VarId) :
    T v ↔ S v :=
  ⟨h'.least S h.contains (fun r hr => h.closed r (hperm.mem_iff.1 hr)) v,
    h.least T h'.contains (fun r hr => h'.closed r (hperm.mem_iff.2 hr)) v⟩

end Rule

namespace OrderedSet

variable {β : Type} {s t : OrderedSet β}

lemma size_le (hst : ∀ x ∈ s, x ∈ t) : s.size ≤ t.size :=
  s.nodup.length_le_of_subset hst

/-- A set that lacks a member of a larger one has fewer members. -/
lemma size_lt (hst : ∀ x ∈ s, x ∈ t) {y : β} (hy : y ∈ t) (hnew : ¬ y ∈ s) : s.size < t.size := by
  have hnodup : (y :: s.toList).Nodup := List.nodup_cons.2 ⟨hnew, s.nodup⟩
  exact hnodup.length_le_of_subset (List.cons_subset.2 ⟨hy, hst⟩)

end OrderedSet

/-! ## The rules of a cluster -/

section

variable [Scalar α] {t : HandleTable} {a : Arena α} {rule : Rule}

/-- What a live constraint makes known are variables it refers to. -/
lemma Constraint.uses_conclusion {c : Constraint α} (hlive : c.Live t a) (h : rule ∈ c.rules t) :
    c.Uses t rule.conclusion := by
  have hpoint : ∀ {premises i p}, i ∈ c.handles → t.coords? i = some p →
      rule ∈ Rule.toPoint premises p → c.Uses t rule.conclusion := by
    intro premises i p hi hp hrule
    refine (hlive.uses_iff _).2 (Or.inl ⟨i, hi, p, hp, ?_⟩)
    simp only [Rule.toPoint, List.mem_cons, List.not_mem_nil, or_false] at hrule
    exact hrule.imp (congrArg _) (congrArg _)
  have hnamed : ∀ v ∈ c.inputs ++ c.owned, c.Uses t v := fun v hv =>
    (hlive.uses_iff v).2 (Or.inr hv)
  cases c with
  | constant v x =>
      obtain rfl := List.mem_singleton.1 h
      exact hnamed v List.mem_cons_self
  | pin i position =>
      rw [rules] at h
      split at h
      · rename_i p hp
        exact hpoint List.mem_cons_self hp h
      · cases h
  | linear y m x b =>
      rw [rules] at h
      split at h
      · obtain rfl := List.mem_singleton.1 h
        exact hnamed y List.mem_cons_self
      · cases h
  | polar start finish length bearing =>
      rw [rules] at h
      split at h
      · rename_i p q hp hq
        rcases List.mem_append.1 h with h | h
        · exact hpoint (List.mem_cons_of_mem _ List.mem_cons_self) hq h
        · exact hpoint List.mem_cons_self hp h
      · cases h
  | _ => cases h

omit [Scalar α] in
lemma Residual.conclusion_mem_vars {r : Residual α} {fingerOfGod : Bool}
    (h : rule ∈ r.rules fingerOfGod) : rule.conclusion ∈ r.vars := by
  cases r with
  | finger p position =>
      rw [rules] at h
      split at h
      · simp only [Rule.toPoint, List.mem_cons, List.not_mem_nil, or_false] at h
        rcases h with rfl | rfl <;> simp [vars]
      · cases h
  | _ =>
      obtain rfl := List.mem_singleton.1 h
      exact List.mem_cons_self

end

namespace Cluster

variable [Scalar α] {constraints : ConstraintTable α} {t : HandleTable} {fingerOfGod : Bool}
  {c : Cluster α} {k l : KnownArena α} {x : Bool × KnownArena α} {n : Nat}

/-- The rules of a constraint that a cluster names. -/
def rulesOf (constraints : ConstraintTable α) (t : HandleTable) (id : ConstraintId) : List Rule :=
  match constraints.get? id with
  | some k => k.rules t
  | none => []

/-- The rules of the constraints of a cluster, and then those of its residuals. -/
def rules (c : Cluster α) (constraints : ConstraintTable α) (t : HandleTable)
    (fingerOfGod : Bool) : List Rule :=
  c.constraints.flatMap (rulesOf constraints t) ++ c.residuals.flatMap (·.rules fingerOfGod)

/-- What a cluster makes known are variables of the cluster. -/
lemma Ready.conclusion_mem (hready : c.Ready constraints t k.arena) {rule : Rule}
    (h : rule ∈ c.rules constraints t fingerOfGod) :
    k.arena.canonical rule.conclusion ∈ c.vars := by
  rcases List.mem_append.1 h with h | h
  · obtain ⟨id, hid, hrule⟩ := List.mem_flatMap.1 h
    obtain ⟨d, hget, hlive, huses⟩ := hready.constraint id hid
    rw [rulesOf, hget] at hrule
    exact (huses _ (Constraint.uses_conclusion hlive hrule)).group
  · obtain ⟨r, hr, hrule⟩ := List.mem_flatMap.1 h
    exact (hready.residual r hr _ (Residual.conclusion_mem_vars hrule)).group

/-! ## Passes -/

/-- Taking turns follows the rules of each, and the flag collects what the turns answer. -/
lemma learns_foldlM {β : Type} {rules : β → List Rule}
    {step : β → KnownArena α → Except SolverError (Bool × KnownArena α)} {items : List β}
    (hstep : ∀ item ∈ items, ∀ k x, k.arena.WellFormed → step item k = .ok x →
      Learns (rules item) k x)
    (hk : k.arena.WellFormed) {changed : Bool}
    (h : items.foldlM (fun (changed, k) item => do
      let (learned, k) ← step item k
      return (changed || learned, k)) (changed, k) = .ok x) :
    ∃ y, Learns (items.flatMap rules) k y ∧ x = (changed || y.1, y.2) := by
  induction items generalizing changed k with
  | nil =>
      cases h
      exact ⟨(false, k), .nothing (by simp), by simp⟩
  | cons item items ih =>
      rw [List.foldlM_cons] at h
      obtain ⟨_, hfirst, hrest⟩ := bind_eq_ok_iff.1 h
      obtain ⟨y, hy, hpure⟩ := bind_eq_ok_iff.1 hfirst
      cases hpure
      have hlearns := hstep item List.mem_cons_self k y hk hy
      obtain ⟨z, hz, rfl⟩ := ih (fun i hi => hstep i (List.mem_cons_of_mem _ hi))
        (hlearns.marks.within hk).wellFormed hrest
      exact ⟨(y.1 || z.1, z.2), hlearns.append hz hk, by rw [Bool.or_assoc]⟩

lemma learns_learnAll {β : Type} {rules : β → List Rule}
    {step : β → KnownArena α → Except SolverError (Bool × KnownArena α)} {items : List β}
    (hstep : ∀ item ∈ items, ∀ k x, k.arena.WellFormed → step item k = .ok x →
      Learns (rules item) k x)
    (hk : k.arena.WellFormed) (h : learnAll step items k = .ok x) :
    Learns (items.flatMap rules) k x := by
  obtain ⟨y, hy, rfl⟩ := learns_foldlM hstep hk h
  simpa using hy

/-- A constraint of a cluster takes its turn. -/
lemma learns_turn {id : ConstraintId} (hk : k.arena.WellFormed)
    (h : (do (← constraints.find id).propagate t k) = .ok x) :
    Learns (rulesOf constraints t id) k x := by
  obtain ⟨d, hfind, hturn⟩ := bind_eq_ok_iff.1 h
  rw [ConstraintTable.find] at hfind
  split at hfind
  · rename_i hget
    cases hfind
    rw [rulesOf, hget]
    exact Constraint.learns_propagate hturn hk
  · cases hfind

/-- **One pass** follows the rules of the cluster. -/
theorem learns_pass (hk : k.arena.WellFormed) (h : c.pass constraints t fingerOfGod k = .ok x) :
    Learns (c.rules constraints t fingerOfGod) k x := by
  obtain ⟨y, hconstraints, h⟩ := bind_eq_ok_iff.1 h
  obtain ⟨z, hresiduals, hpure⟩ := bind_eq_ok_iff.1 h
  cases hpure
  have hy : Learns (c.constraints.flatMap (rulesOf constraints t)) k y :=
    learns_learnAll (fun id _ k x hk hturn => learns_turn hk hturn) hk hconstraints
  have hz : Learns (c.residuals.flatMap (·.rules fingerOfGod)) y.2 z :=
    learns_learnAll (fun r _ k x hk hturn => Residual.learns_propagate hturn hk)
      (hy.marks.within hk).wellFormed hresiduals
  exact hy.append hz hk

/-- A pass over a cluster that is ready never fails.  It makes variables of the cluster known, and
more of them if it answers that it learned something. -/
lemma Ready.pass_spec (hready : c.Ready constraints t k.arena) (hk : k.arena.WellFormed)
    (hknowns : ∀ v ∈ k.knowns, v ∈ c.vars) (fingerOfGod : Bool) :
    ∃ learned l, c.pass constraints t fingerOfGod k = .ok (learned, l) ∧ l.arena.WellFormed ∧
      c.Ready constraints t l.arena ∧ (∀ v ∈ l.knowns, v ∈ c.vars) ∧
      (learned = true → k.knowns.size < l.knowns.size) := by
  obtain ⟨⟨learned, l⟩, -, hpass, -⟩ := hready.both_pass ⟨Arena.Twins.self hk, rfl⟩ fingerOfGod
  have hlearns := learns_pass hk hpass
  have hwithin := hlearns.marks.within hk
  refine ⟨learned, l, hpass, hwithin.wellFormed, hready.congr hwithin.shape,
    hlearns.sound _ hknowns fun rule hrule _ => hready.conclusion_mem hrule, fun hlearned => ?_⟩
  obtain ⟨v, hv, hnew⟩ := hlearns.fresh hlearned
  exact OrderedSet.size_lt (hlearns.marks.spec hk).1 hv hnew

/-- So many passes: the last one learns nothing, and every one before it something. -/
inductive Passes (c : Cluster α) (constraints : ConstraintTable α) (t : HandleTable)
    (fingerOfGod : Bool) : Nat → KnownArena α → KnownArena α → Prop
  | last {k l : KnownArena α} : c.pass constraints t fingerOfGod k = .ok (false, l) →
      Passes c constraints t fingerOfGod 1 k l
  | more {n : Nat} {k l m : KnownArena α} : c.pass constraints t fingerOfGod k = .ok (true, l) →
      Passes c constraints t fingerOfGod n l m → Passes c constraints t fingerOfGod (n + 1) k m

namespace Passes

/-- If there is room for the last pass then it is the last one. -/
lemma propagateWithin (h : c.Passes constraints t fingerOfGod n k l) {limit : Nat}
    (hlimit : n ≤ limit) : c.propagateWithin constraints t fingerOfGod limit k = .ok l := by
  induction h generalizing limit with
  | last hpass =>
      obtain ⟨limit, rfl⟩ := Nat.exists_eq_add_of_le' hlimit
      rw [Cluster.propagateWithin, hpass]
      rfl
  | more hpass _ ih =>
      obtain ⟨limit, rfl⟩ := Nat.exists_eq_add_of_le' (le_trans (Nat.le_add_left 1 _) hlimit)
      rw [Cluster.propagateWithin, hpass]
      exact ih (by omega)

/-- What passes do is mark. -/
lemma marks (h : c.Passes constraints t fingerOfGod n k l) (hk : k.arena.WellFormed) :
    Marks k l := by
  induction h with
  | last hpass => exact (learns_pass hk hpass).marks
  | more hpass _ ih =>
      have hmarks := (learns_pass hk hpass).marks
      exact hmarks.trans (ih (hmarks.within hk).wellFormed)

/-- **The closure.**  After the last pass, what is known is the least set that contains what was
known at first and to which the rules of the cluster have nothing to add. -/
theorem least (h : c.Passes constraints t fingerOfGod n k l) (hk : k.arena.WellFormed) :
    Rule.Least (c.rules constraints t fingerOfGod) k.arena (· ∈ k.knowns) (· ∈ l.knowns) := by
  induction h with
  | last hpass =>
      have hlearns := learns_pass hk hpass
      obtain ⟨rfl, hrules⟩ := hlearns.idle rfl
      exact ⟨fun v hv => hv, hrules, fun T hT _ => hT⟩
  | more hpass _ ih =>
      have hlearns := learns_pass hk hpass
      have hwithin := hlearns.marks.within hk
      obtain ⟨hcontains, hclosed, hleast⟩ := ih hwithin.wellFormed
      simp only [Rule.holds_congr hwithin.canonical] at hclosed hleast
      exact ⟨fun v hv => hcontains v ((hlearns.marks.spec hk).1 v hv), hclosed,
        fun T hT hrules => hleast T (hlearns.sound T hT hrules) hrules⟩

end Passes

/-- **The last pass.**  Every pass but the last one makes another variable of the cluster known. -/
theorem Ready.exists_passes (hready : c.Ready constraints t k.arena) (hk : k.arena.WellFormed)
    (hknowns : ∀ v ∈ k.knowns, v ∈ c.vars) (fingerOfGod : Bool) :
    ∃ n l, n ≤ c.vars.size + 1 ∧ c.Passes constraints t fingerOfGod n k l := by
  -- induction on how many variables of the cluster may still become known
  have hgeneral : ∀ (d : Nat) (k : KnownArena α), c.Ready constraints t k.arena →
      k.arena.WellFormed → (∀ v ∈ k.knowns, v ∈ c.vars) → c.vars.size ≤ k.knowns.size + d →
      ∃ n l, n ≤ d + 1 ∧ c.Passes constraints t fingerOfGod n k l := by
    intro d
    induction d with
    | zero =>
        intro k hready hk hknowns hsize
        obtain ⟨learned, l, hpass, -, -, hinside, hmore⟩ :=
          hready.pass_spec hk hknowns fingerOfGod
        cases learned with
        | false => exact ⟨1, l, le_rfl, .last hpass⟩
        | true =>
            have hgrown := hmore rfl
            have hmost := OrderedSet.size_le hinside
            omega
    | succ d ih =>
        intro k hready hk hknowns hsize
        obtain ⟨learned, l, hpass, hl, hready', hinside, hmore⟩ :=
          hready.pass_spec hk hknowns fingerOfGod
        cases learned with
        | false => exact ⟨1, l, by omega, .last hpass⟩
        | true =>
            have hgrown := hmore rfl
            obtain ⟨n, m, hn, hpasses⟩ := ih l hready' hl hinside (by omega)
            exact ⟨n + 1, m, by omega, .more hpass hpasses⟩
  exact hgeneral c.vars.size k hready hk hknowns (Nat.le_add_left _ _)

/-- The variables of a cluster are variables of the arena. -/
lemma Ready.size_vars_le {a : Arena α} (hready : c.Ready constraints t a) :
    c.vars.size ≤ a.size := by
  rw [Arena.size, OrderedMap.size_eq_length_keys]
  exact c.vars.nodup.length_le_of_subset fun v hv =>
    (a.contains_iff_mem_ids v).1 (hready.root v hv).1

/-- **Propagating** a cluster that is ready ends after its last pass. -/
theorem Ready.propagate_spec (hready : c.Ready constraints t k.arena) (hk : k.arena.WellFormed)
    (hknowns : ∀ v ∈ k.knowns, v ∈ c.vars) (fingerOfGod : Bool) :
    ∃ n l, n ≤ c.vars.size + 1 ∧ c.Passes constraints t fingerOfGod n k l ∧
      c.propagate constraints t fingerOfGod k = .ok l := by
  obtain ⟨n, l, hn, hpasses⟩ := hready.exists_passes hk hknowns fingerOfGod
  exact ⟨n, l, hn, hpasses, hpasses.propagateWithin (hn.trans (by
    have := hready.size_vars_le
    omega))⟩

end Cluster

end SketchSolver
