import Mathlib
import SketchSolver.Document
import SketchSolver.Proofs.Traversal

/-!
# The constraints of a document

A constraint with the key of an earlier one takes its place, under the identifier of the earlier
one.  The identifier that it is saved with comes to nothing.

* `Constraint.Reissues` — a constraint takes the place of another one.
* `Document.settled` — the constraints of a document as they are in the end, one after the other.
  This is what a table of constraints and its memo come to, without either of them.
* `mem_ids_settled` — the identifiers that come to be used are those of constraints that re-issue
  none before them.
-/

namespace SketchSolver

variable {α : Type}

/-- The constraint takes the place of the other one, because both have the same key. -/
def Constraint.Reissues (c d : Constraint α) : Prop :=
  c.key ≠ none ∧ c.key = d.key

instance (c d : Constraint α) : Decidable (c.Reissues d) :=
  inferInstanceAs (Decidable (_ ∧ _))

lemma Constraint.reissues_iff {c d : Constraint α} :
    c.Reissues d ↔ ∃ key, c.key = some key ∧ d.key = some key := by
  rw [Reissues, Option.ne_none_iff_exists']
  constructor
  · rintro ⟨⟨key, hkey⟩, hsame⟩
    exact ⟨key, hkey, hsame ▸ hkey⟩
  · rintro ⟨key, hkey, hkey'⟩
    exact ⟨⟨key, hkey⟩, hkey.trans hkey'.symm⟩

namespace Document

/-- Constraints, and one more: it takes the place of the one that it re-issues, or else comes
last. -/
def settle (es : List (ConstraintId × Constraint α)) (k : SavedConstraint α) :
    List (ConstraintId × Constraint α) :=
  if ∃ e ∈ es, k.constraint.Reissues e.2 then
    es.map fun e => if k.constraint.Reissues e.2 then (e.1, k.constraint) else e
  else
    es ++ [(k.id, k.constraint)]

/-- Saved constraints as they are after loading. -/
def settled (ks : List (SavedConstraint α)) : List (ConstraintId × Constraint α) :=
  ks.foldl settle []

variable {ks : List (SavedConstraint α)} {k : SavedConstraint α}

lemma settled_append (ks : List (SavedConstraint α)) (k : SavedConstraint α) :
    settled (ks ++ [k]) = settle (settled ks) k := by
  rw [settled, List.foldl_append]
  rfl

/-- The keys of some constraints, each with the identifier that it stands under. -/
def entryKeys (es : List (ConstraintId × Constraint α)) :
    List (ConstraintId × Option ConstraintKey) :=
  es.map fun e => (e.1, e.2.key)

lemma map_fst_entryKeys (es : List (ConstraintId × Constraint α)) :
    (entryKeys es).map Prod.fst = es.map Prod.fst := by
  rw [entryKeys, List.map_map]
  rfl

lemma mem_entryKeys {es : List (ConstraintId × Constraint α)} {id : ConstraintId}
    {key : Option ConstraintKey} :
    (id, key) ∈ entryKeys es ↔ ∃ c, (id, c) ∈ es ∧ c.key = key := by
  simp [entryKeys]

lemma reissues_iff_entryKeys {es : List (ConstraintId × Constraint α)} {c : Constraint α} :
    (∃ e ∈ es, c.Reissues e.2) ↔ ∃ key id, c.key = some key ∧ (id, some key) ∈ entryKeys es := by
  simp only [mem_entryKeys, Constraint.reissues_iff]
  constructor
  · rintro ⟨⟨id, d⟩, hd, key, hkey, hsame⟩
    exact ⟨key, id, hkey, d, hd, hsame⟩
  · rintro ⟨key, id, hkey, d, hd, hsame⟩
    exact ⟨(id, d), hd, key, hkey, hsame⟩

/-- A constraint that re-issues another one keeps its key and its identifier. -/
lemma entryKeys_settle (es : List (ConstraintId × Constraint α)) (k : SavedConstraint α) :
    entryKeys (settle es k) =
      if ∃ e ∈ es, k.constraint.Reissues e.2 then entryKeys es
      else entryKeys es ++ [(k.id, k.constraint.key)] := by
  rw [settle]
  split_ifs with h
  · rw [entryKeys, entryKeys, List.map_map]
    refine List.map_congr_left fun e _ => ?_
    simp only [Function.comp_apply]
    split_ifs with hre
    · rw [hre.2]
    · rfl
  · rw [entryKeys, entryKeys, List.map_append]
    rfl

lemma exists_entryKeys_settled {key : ConstraintKey} :
    (∃ id, (id, some key) ∈ entryKeys (settled ks)) ↔ ∃ k ∈ ks, k.constraint.key = some key := by
  induction ks using List.reverseRecOn with
  | nil => simp [settled, entryKeys]
  | append_singleton ks k ih =>
      rw [settled_append, entryKeys_settle]
      simp only [List.mem_append, List.mem_singleton, or_and_right, exists_or, exists_eq_left, ← ih]
      split_ifs with h
      · obtain ⟨l, id, hk, hmem⟩ := reissues_iff_entryKeys.1 h
        refine (or_iff_left_of_imp fun hkey => ?_).symm
        rw [hk] at hkey
        cases hkey
        exact ⟨id, hmem⟩
      · simp [exists_or, eq_comm]

/-- What re-issues one of the constraints that are there re-issues one that has been loaded. -/
lemma reissues_settled {c : Constraint α} :
    (∃ e ∈ settled ks, c.Reissues e.2) ↔ ∃ k ∈ ks, c.Reissues k.constraint := by
  rw [reissues_iff_entryKeys]
  simp only [exists_and_left, exists_entryKeys_settled, Constraint.reissues_iff]
  constructor
  · rintro ⟨key, hkey, k, hk, hsame⟩
    exact ⟨k, hk, key, hkey, hsame⟩
  · rintro ⟨k, hk, key, hkey, hsame⟩
    exact ⟨key, hkey, k, hk, hsame⟩

/-- The identifiers that are in use: those of the constraints that re-issue none before them. -/
lemma mem_ids_settled {id : ConstraintId} :
    id ∈ (settled ks).map Prod.fst ↔ ∃ before k after, ks = before ++ k :: after ∧ k.id = id ∧
      ¬ ∃ e ∈ before, k.constraint.Reissues e.constraint := by
  induction ks using List.reverseRecOn with
  | nil => simp [settled]
  | append_singleton ks k ih =>
      rw [exists_split_append, ← ih, settled_append, ← map_fst_entryKeys, ← map_fst_entryKeys,
        entryKeys_settle, ← reissues_settled]
      split_ifs with h
      · exact (or_iff_left fun hk => hk.2 h).symm
      · rw [List.map_append, List.mem_append, List.map_singleton, List.mem_singleton,
          and_iff_left h, eq_comm (a := k.id)]

end Document

end SketchSolver
