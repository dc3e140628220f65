import Mathlib
import SketchSolver.Proofs.Sketch.Atomic
import SketchSolver.Proofs.Sketch.Dependency
import SketchSolver.Proofs.Cluster.Requests

/-!
# What breaking off removes

Breaking two variables off from each other removes the constraints that join them.

* `Sketch.Ties` — a constraint asks to unify these two variables: a linear relationship between
  them, or a merge of two handles where they stand for the same coordinate.
* `Sketch.Crosses` — a constraint merges the handles of these two variables, which stand for
  different coordinates.
* `Registered.joins_iff` — the search for joining constraints looks at the handles only, so that it
  finds both.
* `reachable_breakOff` — what goes and what stays.
* `paired_parted` — a merge goes although it ties neither variable to the other.
-/

namespace SketchSolver

open Arena

namespace Sketch

open Edit

variable {α : Type} [Scalar α] {s : Sketch α} {E : Sketch α → Prop}

/-! ## Constraints that join two variables -/

/-- The constraint asks for a tie between these two variables, in either order. -/
def Ties (s : Sketch α) (u v : VarId) (c : Constraint α) : Prop :=
  ∃ e ∈ c.ties s.handles, (e.this = u ∧ e.that = v) ∨ (e.this = v ∧ e.that = u)

/-- The constraint merges the handles of these two variables, of which one is an abscissa and the
other an ordinate. -/
def Crosses (s : Sketch α) (u v : VarId) (c : Constraint α) : Prop :=
  ∃ parent child p q, c = .absorb parent child ∧
    s.handles.coords? parent = some p ∧ s.handles.coords? child = some q ∧
    ∃ k l, k ≠ l ∧
      ((p.component k = u ∧ q.component l = v) ∨ (p.component k = v ∧ q.component l = u))

variable {u v : VarId} {parent child : HandleId}

lemma ties_absorb_iff : s.Ties u v (.absorb parent child) ↔
    ∃ p q, s.handles.coords? parent = some p ∧ s.handles.coords? child = some q ∧
      ∃ k : Component,
        (p.component k = u ∧ q.component k = v) ∨ (p.component k = v ∧ q.component k = u) := by
  rw [Ties, Constraint.ties]
  constructor
  · rintro ⟨e, he, hsides⟩
    split at he
    · rename_i p q hp hq
      refine ⟨p, q, hp, hq, ?_⟩
      rcases List.mem_pair.1 he with rfl | rfl
      · exact ⟨.x, hsides⟩
      · exact ⟨.y, hsides⟩
    · cases he
  · rintro ⟨p, q, hp, hq, k, hsides⟩
    simp only [hp, hq]
    cases k with
    | x => exact ⟨_, List.mem_cons_self, hsides⟩
    | y => exact ⟨_, List.mem_cons_of_mem _ List.mem_cons_self, hsides⟩

omit [Scalar α] in
/-- A merge is taken to join two variables if one belongs to each of its handles. -/
lemma Registered.joins_absorb_iff (h : s.Registered) :
    s.joins u v (.absorb parent child) = true ↔
    ∃ p q, s.handles.coords? parent = some p ∧ s.handles.coords? child = some q ∧
      ∃ k l : Component,
        (p.component k = u ∧ q.component l = v) ∨ (p.component k = v ∧ q.component l = u) := by
  have howner : ∀ {w : VarId} {i : HandleId}, some i = s.handles.ownerOf w ↔
      ∃ p, s.handles.coords? i = some p ∧ ∃ k, p.component k = w := by
    intro w i
    constructor
    · exact fun hw => HandleTable.component_of_ownerOf hw.symm
    · rintro ⟨p, hp, k, rfl⟩
      exact (h.ownerOf_component hp k).symm
  simp only [joins, Bool.or_eq_true, decide_eq_true_eq, Prod.mk.injEq, howner]
  constructor
  · rintro (⟨⟨p, hp, k, hk⟩, q, hq, l, hl⟩ | ⟨⟨q, hq, l, hl⟩, p, hp, k, hk⟩)
    · exact ⟨p, q, hp, hq, k, l, Or.inl ⟨hk, hl⟩⟩
    · exact ⟨p, q, hp, hq, k, l, Or.inr ⟨hk, hl⟩⟩
  · rintro ⟨p, q, hp, hq, k, l, ⟨hk, hl⟩ | ⟨hk, hl⟩⟩
    · exact Or.inl ⟨⟨p, hp, k, hk⟩, q, hq, l, hl⟩
    · exact Or.inr ⟨⟨q, hq, l, hl⟩, p, hp, k, hk⟩

/-- **What joins two variables** ties them to each other or merges their handles crosswise. -/
theorem Registered.joins_iff (h : s.Registered) (c : Constraint α) :
    s.joins u v c = true ↔ s.Ties u v c ∨ s.Crosses u v c := by
  cases c with
  | linear y m x b => simp [joins, Ties, Crosses, Constraint.ties]
  | absorb parent child =>
      rw [h.joins_absorb_iff, ties_absorb_iff]
      constructor
      · rintro ⟨p, q, hp, hq, k, l, hsides⟩
        by_cases hkl : k = l
        · subst hkl
          exact Or.inl ⟨p, q, hp, hq, k, hsides⟩
        · exact Or.inr ⟨parent, child, p, q, rfl, hp, hq, k, l, hkl, hsides⟩
      · rintro (⟨p, q, hp, hq, k, hsides⟩ | ⟨_, _, p, q, heq, hp, hq, k, l, -, hsides⟩)
        · exact ⟨p, q, hp, hq, k, k, hsides⟩
        · cases heq
          exact ⟨p, q, hp, hq, k, l, hsides⟩
  | _ => simp [joins, Ties, Crosses, Constraint.ties]

/-! ## Breaking off -/

omit [Scalar α] in
/-- Removing what joins two variables removes nothing else. -/
lemma ensures_remove_joining (s t : Sketch α) (this that : VarId)
    (hsame : t.constraints = s.constraints) :
    Ensures E ((s.joining this that).forM removeConstraint) (fun _ s' => s'.arena = t.arena ∧
      s'.handles = t.handles ∧
      ∀ id c, s'.constraints.get? id = some c ↔
        s.constraints.get? id = some c ∧ ¬ s.joins this that c = true) t := by
  have hjoining : ∀ id c, s.constraints.get? id = some c →
      (id ∈ s.joining this that ↔ s.joins this that c = true) := by
    intro id c hget
    simp [joining, OrderedMap.mem_entries_iff, hget]
  refine (ensures_removeAll_of_owned_eq_nil (s.nodup_joining this that) fun id hid =>
    hsame ▸ owned_of_mem_joining hid).imp fun _ s' hs' => ?_
  obtain ⟨harena, hhandles, hget⟩ := hs'
  refine ⟨harena, hhandles, fun id c => ?_⟩
  rw [hget, hsame]
  constructor
  · intro hc
    split_ifs at hc with hid
    exact ⟨hc, fun hjoins => hid ((hjoining id c hc).2 hjoins)⟩
  · rintro ⟨hc, hjoins⟩
    rw [if_neg fun hid => hjoins ((hjoining id c hc).1 hid), hc]

/-- Two variables that share their root have different roots once one of them has left. -/
lemma canonical_detach_ne {a : Arena α} (h : a.WellFormed) {this that : VarId} (hne : this ≠ that)
    (hsame : a.canonical this = a.canonical that) {leaving : VarId}
    (hleaving : leaving = if a.canonical this = that then this else that) :
    (a.detach leaving).canonical this ≠ (a.detach leaving).canonical that := by
  rw [h.canonical_detach, h.canonical_detach, hleaving]
  by_cases hroot : a.canonical this = that
  · rw [if_pos hroot, if_pos rfl, if_neg hne.symm, ← hsame, hroot]
    exact hne
  · rw [if_neg hroot, if_neg hne, if_pos rfl]
    exact hroot

/-- **Breaking off is exact**, up to merges of two handles across their coordinates.  In a reachable
sketch, breaking two variables off from each other never fails.  Values and handles stay as they
are, the two variables have different roots afterwards, and all others have the root they had.  The
constraints that go are those that tie the two variables to each other and those that merge their
handles although they stand for different coordinates. -/
theorem reachable_breakOff (h : Reachable s) {this that : VarId}
    (hthis : s.arena.contains this = true) (hthat : s.arena.contains that = true)
    (hne : this ≠ that) :
    ∃ s', breakOff this that s = .ok ⟨⟩ s' ∧
      (∀ u, s'.arena.value? u = s.arena.value? u) ∧ s'.handles = s.handles ∧
      s'.arena.canonical this ≠ s'.arena.canonical that ∧
      (∀ u, u ≠ this → u ≠ that → s'.arena.canonical u = s.arena.canonical u) ∧
      ∀ id c, s'.constraints.get? id = some c ↔ s.constraints.get? id = some c ∧
        ¬ s.Ties this that c ∧ ¬ s.Crosses this that c := by
  have ha := h.intact.arena
  obtain ⟨x, hx⟩ := find_ok hthis
  obtain ⟨y, hy⟩ := find_ok hthat
  refine Exists.elim (Ensures.exists_ok ?_) fun _ h => h
  rw [breakOff, ensures_get_bind]
  simp only [ensures_bind, ensures_discard, ensures_ofExcept, hx, hy, Except.ok.injEq,
    reduceCtorEq, false_implies, implies_true, and_true, forall_eq', ← not_or,
    ← h.registered.joins_iff]
  split
  · rename_i hsame
    set leaving := if s.arena.canonical this = that then this else that with hleaving
    simp only [ensures_bind, ensures_set, ensures_modify]
    refine (ensures_remove_joining s { s with arena := s.arena.detach leaving } this that rfl).imp
      fun _ s' hs' => ?_
    obtain ⟨harena, hhandles, hget⟩ := hs'
    have hroot := ha.canonical_detach leaving
    simp only [invalidate, harena]
    refine ⟨fun u => value?_detach _ _ _, hhandles, canonical_detach_ne ha hne hsame hleaving,
      fun u hthis hthat => ?_, hget⟩
    rw [hroot, if_neg]
    rw [hleaving]
    split_ifs <;> assumption
  · rename_i hapart
    simp only [ensures_bind, ensures_modify]
    refine (ensures_remove_joining s s this that rfl).imp fun _ s' hs' => ?_
    obtain ⟨harena, hhandles, hget⟩ := hs'
    simp only [invalidate, harena]
    exact ⟨fun _ => trivial, hhandles, hapart, fun _ _ _ => trivial, hget⟩

/-- Two handles that are merged, one coordinate of each with the one of the same kind. -/
def paired : Sketch Float :=
  (Operation.absorb ⟨0⟩ ⟨3⟩).perform.after <|
    (Operation.addHandle ⟨3, 4⟩).perform.after <|
      (Operation.addHandle ⟨1, 2⟩).perform.after empty

lemma reachable_paired : Reachable paired :=
  .perform _ (.perform _ (.perform _ (.withConfig _)))

lemma coords_paired : paired.handles.coords? ⟨0⟩ = some ⟨⟨1⟩, ⟨2⟩⟩ ∧
    paired.handles.coords? ⟨3⟩ = some ⟨⟨4⟩, ⟨5⟩⟩ := by
  decide +kernel

/-- The merge is there: its kind and its handles determine it. -/
lemma get?_paired : paired.constraints.get? ⟨6⟩ = some (.absorb ⟨0⟩ ⟨3⟩) := by
  have hshown : (paired.constraints.get? ⟨6⟩).map (fun c => (c.kind, c.handles)) =
      some ("Absorb", [⟨0⟩, ⟨3⟩]) := by
    decide +kernel
  obtain ⟨c, hget, hc⟩ := Option.map_eq_some_iff.1 hshown
  rw [hget]
  cases c <;> simp_all [Constraint.kind, Constraint.handles]

/-- Breaking off the abscissas, which share a root, removes the merge. -/
theorem breakOff_paired :
    paired.arena.canonical ⟨1⟩ = paired.arena.canonical ⟨4⟩ ∧
    ∃ s', breakOff ⟨1⟩ ⟨4⟩ paired = .ok ⟨⟩ s' ∧
      s'.arena.canonical ⟨1⟩ ≠ s'.arena.canonical ⟨4⟩ ∧
      s'.constraints.get? ⟨6⟩ ≠ some (.absorb ⟨0⟩ ⟨3⟩) := by
  have hthis : paired.arena.contains ⟨1⟩ = true := by decide +kernel
  have hthat : paired.arena.contains ⟨4⟩ = true := by decide +kernel
  obtain ⟨s', hrun, -, -, hroots, -, hget⟩ :=
    reachable_breakOff reachable_paired hthis hthat (by decide)
  have hties : paired.Ties ⟨1⟩ ⟨4⟩ (.absorb ⟨0⟩ ⟨3⟩) :=
    ties_absorb_iff.2 ⟨_, _, coords_paired.1, coords_paired.2, .x, Or.inl ⟨rfl, rfl⟩⟩
  exact ⟨by decide +kernel, s', hrun, hroots, fun hkept => ((hget _ _).1 hkept).2.1 hties⟩

/-- An abscissa and an ordinate are not tied by the merge, and yet breaking them off from each other
removes it. -/
theorem paired_parted :
    ¬ ∀ (s : Sketch Float) (this that : VarId), Reachable s → s.arena.contains this = true →
      s.arena.contains that = true → this ≠ that → ∀ id c, s.constraints.get? id = some c →
        ¬ s.Ties this that c → ((breakOff this that).after s).constraints.get? id = some c := by
  intro hkept
  have huntied : ¬ paired.Ties ⟨1⟩ ⟨5⟩ (.absorb ⟨0⟩ ⟨3⟩) := by
    rw [ties_absorb_iff, coords_paired.1, coords_paired.2]
    rintro ⟨_, _, ⟨⟩, ⟨⟩, k, hsides⟩
    cases k <;> simp [Coords.component] at hsides
  have hget := hkept paired ⟨1⟩ ⟨5⟩ reachable_paired (by decide +kernel) (by decide +kernel)
    (by decide) ⟨6⟩ (.absorb ⟨0⟩ ⟨3⟩) get?_paired huntied
  have hgone : (((breakOff ⟨1⟩ ⟨5⟩).after paired).constraints.get? ⟨6⟩).isSome = false := by
    decide +kernel
  rw [hget] at hgone
  cases hgone

end Sketch

end SketchSolver
