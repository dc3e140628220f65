import Mathlib
import SketchSolver.Proofs.Arena.Unify

/-!
# Rewriting requests

A request that names absorbed variables is rewritten until it names canonical ones: a unification
on either side, the left one first, and a write on its only side.  A request counts how often it
has been rewritten.

Because no group is deeper than one level, rewriting ends after two steps for a unification
(`Linked.unifyRequest_depth`) and after one for a write (`Linked.writeRequest_depth`), whatever the
maps between the variables are.  Rewriting changes nothing about what is asked for
(`Linked.unify_rewritten`, `Linked.setValue_rewritten`).
-/

namespace SketchSolver

namespace Arena

variable {α : Type} [Scalar α] {a : Arena α}

/-! ## Unifications -/

/-- `UnifyRequest a this that offset n t u f`: the request to make `this` equal to `offset` applied
to `that` becomes, after `n` steps, the request to make `t` equal to `f` applied to `u`. -/
inductive UnifyRequest (a : Arena α) (this that : VarId) (offset : Affine α) :
    Nat → VarId → VarId → Affine α → Prop where
  | start : UnifyRequest a this that offset 0 this that offset
  | left {n t u f} : UnifyRequest a this that offset n t u f → a.canonical t ≠ t →
      UnifyRequest a this that offset (n + 1) (a.canonical t) u ((a.offset t).comp f)
  | right {n t u f} : UnifyRequest a this that offset n t u f → a.canonical t = t →
      a.canonical u ≠ u →
      UnifyRequest a this that offset (n + 1) t (a.canonical u) (f.comp (a.offset u).inverse)

variable {this that t u : VarId} {offset f : Affine α} {n : Nat}

/-- How many sides of a request still name absorbed variables. -/
def absorbedSides (a : Arena α) (t u : VarId) : Nat :=
  (if a.canonical t = t then 0 else 1) + if a.canonical u = u then 0 else 1

/-- Every step leaves one absorbed side less. -/
lemma Linked.unifyRequest_sides (h : a.Linked)
    (hrequest : a.UnifyRequest this that offset n t u f) :
    n + a.absorbedSides t u = a.absorbedSides this that := by
  induction hrequest with
  | start => exact Nat.zero_add _
  | @left n t u f _ ht ih =>
      rw [← ih, absorbedSides, absorbedSides, if_pos (h.canonical_canonical t), if_neg ht]
      omega
  | @right n t u f _ ht hu ih =>
      rw [← ih, absorbedSides, absorbedSides, if_pos (h.canonical_canonical u), if_pos ht,
        if_neg hu]

/-- **A unification is rewritten at most twice.** -/
theorem Linked.unifyRequest_depth (h : a.Linked)
    (hrequest : a.UnifyRequest this that offset n t u f) : n ≤ 2 := by
  have hsides := h.unifyRequest_sides hrequest
  have hmost : a.absorbedSides this that ≤ 2 := by
    rw [absorbedSides]
    split <;> split <;> omega
  omega

/-- A rewritten unification is about the same roots and the same map between them. -/
lemma Linked.joint_rewritten (h : a.Linked) (hrequest : a.UnifyRequest this that offset n t u f) :
    a.canonical t = a.canonical this ∧ a.canonical u = a.canonical that ∧
      a.jointOffset t u f = a.jointOffset this that offset := by
  induction hrequest with
  | start => exact ⟨rfl, rfl, rfl⟩
  | @left n t u f _ ht ih =>
      obtain ⟨hthis, hthat, hjoint⟩ := ih
      refine ⟨(h.canonical_canonical t).trans hthis, hthat, ?_⟩
      rw [← hjoint, jointOffset, jointOffset, if_pos (h.canonical_canonical t), if_neg ht]
  | @right n t u f _ ht hu ih =>
      obtain ⟨hthis, hthat, hjoint⟩ := ih
      refine ⟨hthis, (h.canonical_canonical u).trans hthat, ?_⟩
      rw [← hjoint, jointOffset, jointOffset, if_pos (h.canonical_canonical u), if_neg hu,
        if_pos ht, if_pos ht]

/-- A rewritten unification of live variables does what the original one does. -/
theorem Linked.unify_rewritten (h : a.Linked) (hthis : a.contains this = true)
    (hthat : a.contains that = true) (hrequest : a.UnifyRequest this that offset n t u f) :
    a.unify t u f = a.unify this that offset := by
  obtain ⟨ht, hu, hjoint⟩ := h.joint_rewritten hrequest
  have hlive : ∀ {v w}, a.canonical v = a.canonical w → a.contains w = true →
      a.contains v = true := by
    intro v w heq hw
    rw [← h.contains_canonical_iff, heq, h.contains_canonical_iff]
    exact hw
  rw [h.unify_eq hthis hthat, h.unify_eq (hlive ht hthis) (hlive hu hthat), ht, hu, hjoint]

/-! ## Writes -/

/-- `WriteRequest a id x n k y`: the request to set `id` to `x` becomes, after `n` steps, the
request to set `k` to `y`. -/
inductive WriteRequest (a : Arena α) (id : VarId) (x : α) : Nat → VarId → α → Prop where
  | start : WriteRequest a id x 0 id x
  | step {n k y} : WriteRequest a id x n k y → a.canonical k ≠ k →
      WriteRequest a id x (n + 1) (a.canonical k) ((a.offset k).apply y)

variable {id k : VarId} {x y : α}

/-- A write that has been rewritten names a canonical variable. -/
lemma Linked.writeRequest_cases (h : a.Linked) (hrequest : a.WriteRequest id x n k y) :
    n = 0 ∧ k = id ∧ y = x ∨
      n = 1 ∧ a.canonical id ≠ id ∧ k = a.canonical id ∧ y = (a.offset id).apply x := by
  induction hrequest with
  | start => exact Or.inl ⟨rfl, rfl, rfl⟩
  | step _ hk ih =>
      rcases ih with ⟨rfl, rfl, rfl⟩ | ⟨-, -, rfl, -⟩
      · exact Or.inr ⟨rfl, hk, rfl, rfl⟩
      · exact absurd (h.canonical_canonical id) hk

/-- **A write is rewritten at most once.** -/
theorem Linked.writeRequest_depth (h : a.Linked) (hrequest : a.WriteRequest id x n k y) :
    n ≤ 1 := by
  rcases h.writeRequest_cases hrequest with ⟨rfl, -⟩ | ⟨rfl, -⟩
  · exact Nat.zero_le 1
  · exact le_rfl

/-- A rewritten write does what the original one does. -/
theorem Linked.setValue_rewritten (h : a.Linked) (hid : a.contains id = true)
    (hrequest : a.WriteRequest id x n k y) : a.setValue k y = a.setValue id x := by
  rcases h.writeRequest_cases hrequest with ⟨-, rfl, rfl⟩ | ⟨-, hne, rfl, rfl⟩
  · rfl
  · rw [h.setValue_eq hid, h.setValue_eq (h.contains_canonical hid), h.canonical_canonical, lift,
      lift, if_pos (h.canonical_canonical id), if_neg hne]

end Arena

end SketchSolver
