import Mathlib
import SketchSolver.Proofs.Document.Describe

/-!
# Which documents can be loaded

The identifiers of constraints are checked against the constraints that are there, and a constraint
that takes the place of an earlier one is there under the identifier of the earlier one.  So its own
identifier can be used once more, and a document in which it is loads without complaint.

* `Document.Consistent` — every identifier stands once in its list, and whatever is referred to is
  listed.
* `Document.Admissible` — what loading asks for.  It is the same unless a constraint re-issues
  another one (`Admissible.consistent`).
* `accepts_toSketch` — loading succeeds exactly for admissible documents, and then the sketch is as
  the document says.
* `loads_iff_admissible` — which documents can be loaded.
* `repeated_loads` — a document with an identifier that stands twice, which can be loaded.
-/

namespace SketchSolver

namespace Document

open Sketch

variable {α : Type} {d : Document α}

/-! ## Consistent and admissible documents -/

/-- No identifier stands twice among variables or among handles, and everything that handles and
constraints refer to is listed. -/
structure Complete (d : Document α) : Prop where
  vars : (d.vars.map SavedVariable.id).Nodup
  handles : (d.handles.map SavedHandle.id).Nodup
  coordinates : ∀ h ∈ d.handles,
    h.x ∈ d.vars.map SavedVariable.id ∧ h.y ∈ d.vars.map SavedVariable.id
  references : ∀ k ∈ d.constraints, d.Lists k.constraint

/-- Nor does an identifier stand twice among constraints. -/
structure Consistent (d : Document α) : Prop extends Complete d where
  constraints : (d.constraints.map SavedConstraint.id).Nodup

/-- The identifier of a constraint stands once more only if the constraint re-issued an earlier one,
and so was put under the identifier of that one. -/
structure Admissible (d : Document α) : Prop extends Complete d where
  constraints : ∀ before k between c after,
    d.constraints = before ++ k :: (between ++ c :: after) → k.id = c.id →
      ∃ e ∈ before, k.constraint.Reissues e.constraint

/-- Consistent documents are admissible. -/
lemma Consistent.admissible (h : d.Consistent) : d.Admissible := by
  refine ⟨h.toComplete, fun before k between c after hsplit hid => ?_⟩
  have hnew := nodup_iff_split.2 h.constraints (before ++ k :: between) c after
    (by rw [hsplit, List.append_assoc, List.cons_append])
  exact absurd (List.mem_map.2 ⟨k, by simp, hid⟩) hnew

/-- Where no constraint re-issues another one, admissible documents are consistent. -/
lemma Admissible.consistent (h : d.Admissible)
    (hkeys : d.constraints.Pairwise fun k c => ¬ c.constraint.Reissues k.constraint) :
    d.Consistent := by
  refine ⟨h.toComplete, nodup_iff_split.1 fun before c after hsplit hmem => ?_⟩
  obtain ⟨k, hk, hid⟩ := List.mem_map.1 hmem
  obtain ⟨first, between, rfl⟩ := List.append_of_mem hk
  rw [List.append_assoc, List.cons_append] at hsplit
  obtain ⟨e, he, hre⟩ := h.constraints first k between c after hsplit hid
  rw [hsplit, List.pairwise_append] at hkeys
  exact hkeys.2.2 e he k List.mem_cons_self hre

/-! ## What can be loaded -/

/-- Loading compares with the identifiers that are in use. -/
lemma constraints_iff {ks : List (SavedConstraint α)} :
    (∀ before c after, ks = before ++ c :: after → c.id ∉ (settled before).map Prod.fst) ↔
      ∀ before k between c after, ks = before ++ k :: (between ++ c :: after) → k.id = c.id →
        ∃ e ∈ before, k.constraint.Reissues e.constraint := by
  simp only [mem_ids_settled, not_exists]
  constructor
  · intro h before k between c after hsplit hid
    by_contra hno
    refine h (before ++ k :: between) c after (by simp [hsplit]) before k between ⟨rfl, hid, ?_⟩
    simpa using hno
  · rintro h _ c after hsplit before k between ⟨rfl, hid, hno⟩
    obtain ⟨e, he⟩ := h before k between c after (by simp [hsplit]) hid
    exact hno e he

variable [Scalar α]

/-- **Loading** succeeds exactly for admissible documents, and then the sketch is as the document
says. -/
theorem accepts_toSketch (d : Document α) : Accepts d.Admissible d.Describes d.toSketch := by
  have hvars := Accepts.foldlM d.vars (P := fun before s => Describes ⟨before, [], []⟩ s)
    (fun _ v _ _ h => accepts_addVariable h v) describes_empty
  have hhandles := fun s (h : Describes ⟨d.vars, [], []⟩ s) =>
    Accepts.foldlM d.handles (P := fun before s => Describes ⟨d.vars, before, []⟩ s)
      (fun _ k _ _ h => accepts_addHandle h k) h
  have hconstraints := fun s (h : Describes ⟨d.vars, d.handles, []⟩ s) =>
    Accepts.foldlM d.constraints (P := fun before s => Describes { d with constraints := before } s)
      (C := fun before k => k.id ∉ (settled before).map Prod.fst ∧ d.Lists k.constraint)
      (fun _ k _ _ h => ((accepts_addConstraint h k).of_iff (and_congr_right' lists_congr)).imp
        fun _ => And.left) h
  rw [toSketch]
  refine (hvars.bind fun s _ h => (hhandles s h).bind fun s _ h => hconstraints s h).of_iff ?_
  rw [nodup_iff_split, forall_split_and_iff, nodup_iff_split, forall_split_and_iff, constraints_iff]
  constructor
  · rintro ⟨hvars, ⟨hhandles, hcoordinates⟩, hconstraints, hreferences⟩
    exact ⟨⟨hvars, hhandles, hcoordinates, hreferences⟩, hconstraints⟩
  · rintro ⟨⟨hvars, hhandles, hcoordinates, hreferences⟩, hconstraints⟩
    exact ⟨hvars, ⟨hhandles, hcoordinates⟩, hconstraints, hreferences⟩

/-- **What can be loaded.**  Loading answers with a sketch exactly if the document is admissible,
and with an error otherwise.  So it does for every consistent document, and for no other one unless
a constraint re-issues another one. -/
theorem loads_iff_admissible (d : Document α) :
    ((∃ s, d.toSketch = .ok s) ↔ d.Admissible) ∧
      ((∃ e, d.toSketch = .error e) ↔ ¬ d.Admissible) ∧
      (d.Consistent → ∃ s, d.toSketch = .ok s) ∧
      ((d.constraints.Pairwise fun k c => ¬ c.constraint.Reissues k.constraint) →
        ((∃ s, d.toSketch = .ok s) ↔ d.Consistent)) := by
  have hloads := (accepts_toSketch d).iff
  refine ⟨hloads, ?_, fun h => hloads.2 h.admissible, fun hkeys => ?_⟩
  · rw [← hloads]
    cases d.toSketch <;> simp
  · exact hloads.trans ⟨fun h => h.consistent hkeys, Consistent.admissible⟩

/-- A variable with a constant. -/
def single : Document Float where
  vars := [⟨⟨0⟩, 0⟩]
  handles := []
  constraints := [⟨⟨5⟩, .constant ⟨0⟩ 1⟩]

/-- It is consistent, and can be loaded. -/
theorem single_loads : single.Consistent ∧ ∃ s, single.toSketch = .ok s := by
  have hconsistent : single.Consistent := by
    refine ⟨⟨by decide, by decide, by simp [single], ?_⟩, by decide⟩
    rintro k hk
    obtain rfl := List.mem_singleton.1 hk
    exact ⟨by simp [Constraint.handles], by decide⟩
  exact ⟨hconsistent, (loads_iff_admissible single).2.2.1 hconsistent⟩

/-- The second of three constants re-issues the first one, and the third one has the identifier of
the second. -/
def repeated : Document Float where
  vars := [⟨⟨0⟩, 0⟩]
  handles := []
  constraints := [⟨⟨5⟩, .constant ⟨0⟩ 1⟩, ⟨⟨6⟩, .constant ⟨0⟩ 2⟩, ⟨⟨6⟩, .constant ⟨0⟩ 3⟩]

/-- The document can be loaded, although it is not consistent. -/
theorem repeated_loads : (∃ s, repeated.toSketch = .ok s) ∧ ¬ repeated.Consistent :=
  ⟨⟨_, rfl⟩, fun h => absurd h.constraints (by decide)⟩

end Document

end SketchSolver
