import Mathlib
import SketchSolver.Proofs.Arena.Bound
import SketchSolver.Proofs.Cluster.Distinct
import SketchSolver.Proofs.Cluster.Requests

/-!
# Measured variables that nothing else ties

Residuals are dropped one by one.  What is asked for one of them joins the group of what it measures
to the group of what another one measures, and it never has a part in a request again.  So if the
groups are apart in the beginning, then every request finds two groups, and merges them.

* `Residual.Loose` — what some residuals measure is apart, and scaled as its group is.
* `Residual.Collects.merges` — then every request merges two groups.
* `Residual.loose_of_untied` — so it is to begin with, if no tie has a measured variable at an end.
-/

namespace SketchSolver

open Arena

variable {α : Type} [Exact α] {a b : Arena α} {x y : Residual α} {rs : List (Request α)}

lemma Exact.leastNormal_le_one : (Scalar.leastNormal : α) ≤ 1 := by
  have hliteral : (2.2250738585072014e-308 : ℚ≥0) ≤ 1 := by decide +kernel
  rw [Exact.leastNormal_eq]
  exact_mod_cast hliteral

/-- A shift is not degenerate. -/
lemma Affine.isDegenerate_of_scale_eq_one {f : Affine α} (hf : f.scale = 1) :
    f.isDegenerate = false := by
  have hone : ¬ |(1 : α)| < Scalar.leastNormal := by
    rw [abs_one]
    exact Exact.leastNormal_le_one.not_gt
  rw [isDegenerate, decide_eq_false_iff_not, hf]
  exact hone

namespace Residual

/-- What two residuals measure is unified by a shift. -/
lemma scale_of_clash {e : VarId × VarId × Affine α} (h : x.clash a y = some e) :
    e.2.2.scale = 1 := by
  cases x <;> cases y <;> simp only [clash] at h
  case distance.distance =>
      cases (Option.ite_none_right_eq_some.1 h).2
      rfl
  case angle.angle =>
      split_ifs at h <;> cases h <;> rfl
  all_goals cases h

/-- What the residuals measure is apart, and a shift leads from it to its root. -/
structure Loose (a : Arena α) (xs : List (Residual α)) : Prop where
  apart : xs.Pairwise fun x y =>
    ∀ u ∈ x.measured, ∀ v ∈ y.measured, a.canonical u ≠ a.canonical v
  plain : ∀ x ∈ xs, ∀ u ∈ x.measured, (a.offset u).scale = 1

lemma Loose.perm {xs ys : List (Residual α)} (h : Loose a xs) (hperm : xs.Perm ys) :
    Loose a ys where
  apart := hperm.pairwise h.apart fun hxy u hu v hv heq => hxy v hv u hu heq.symm
  plain x hx := h.plain x (hperm.mem_iff.2 hx)

/-- **Every request merges two groups**, if what is measured is apart. -/
theorem Collects.merges {before after : List (Residual α)} (h : Collects before a rs after b)
    (ha : a.WellFormed) (hinv : a.Invertible) (hloose : Loose a before) :
    ∀ r ∈ rs, r.Merges := by
  induction h with
  | keep => simp
  | @drop before others after x y e merged a b c rs hperm hclash hunify _ ih =>
      obtain ⟨hy, hx⟩ := measured_of_clash hclash
      have hloose' := hloose.perm hperm
      have hapart := (List.pairwise_cons.1 hloose'.apart).1
      have hdiff : a.canonical e.this ≠ a.canonical e.that := fun heq =>
        hapart y List.mem_cons_self _ hx _ hy heq.symm
      have hregular : (a.jointOffset e.this e.that e.offset).isDegenerate = false := by
        refine Affine.isDegenerate_of_scale_eq_one ?_
        rw [ha.jointOffset_eq, Affine.scale_comp, Affine.scale_comp, Affine.scale_inverse,
          hloose'.plain x List.mem_cons_self _ hx,
          hloose'.plain y (List.mem_cons_of_mem _ List.mem_cons_self) _ hy]
        simpa using scale_of_clash hclash
      have hmerged : a.Merged b (a.canonical e.this) (a.canonical e.that)
          (a.jointOffset e.this e.that e.offset) := by
        obtain ⟨hthis, hthat⟩ := contains_of_unify hunify
        rcases ha.unify_cases hthis hthat e.offset with ⟨hnot, -⟩ | ⟨-, b', hunify', hm⟩
        · rcases hnot with hsame | hdegenerate
          · exact absurd hsame hdiff
          · rw [hregular] at hdegenerate
            cases hdegenerate
        · rw [hunify] at hunify'
          cases hunify'
          exact hm
      -- the group that is absorbed is that of the residual that is dropped
      have hothers : ∀ z ∈ y :: others, ∀ u ∈ z.measured,
          b.canonical u = a.canonical u ∧ b.offset u = a.offset u := by
        intro z hz u hu
        have hne : a.canonical u ≠ a.canonical e.that := fun heq =>
          hapart z hz _ hx _ hu heq.symm
        rw [hmerged.canonical, hmerged.offset_eq_comp ha.toLinked, if_neg hne, if_neg hne]
        exact ⟨rfl, rfl⟩
      have hloose'' : Loose b (y :: others) := by
        refine ⟨(List.pairwise_cons.1 hloose'.apart).2.imp_of_mem fun hz hw hzw u hu v hv => ?_,
          fun z hz u hu => ?_⟩
        · rw [(hothers _ hz u hu).1, (hothers _ hw v hv).1]
          exact hzw u hu v hv
        · rw [(hothers z hz u hu).2]
          exact hloose'.plain z (List.mem_cons_of_mem _ hz) u hu
      have hab := unifies_of_unify hunify
      intro r hr
      rcases List.mem_cons.1 hr with rfl | hr
      · exact ⟨hdiff, hregular⟩
      · exact ih (ha.unifies hab).1 (ha.invertible_unifies hinv hab) hloose'' r hr

omit [Exact α] in
/-- A variable at no end of a tie is chained to itself only. -/
lemma eq_of_chained {T : Tie α → Prop} {u v : VarId} (h : Chained T u v)
    (hu : ∀ e, T e → e.this ≠ u ∧ e.that ≠ u) : v = u := by
  have hsame := h.eq (f := fun w => decide (w = u)) fun e he => by simp [hu e he]
  simpa using hsame.symm

/-- **What no tie has at an end is apart**, once the ties have been asked for. -/
lemma loose_of_untied (hrun : a.reset.Requests rs b) {xs : List (Residual α)}
    (huntied : ∀ x ∈ xs, ∀ u ∈ x.measured, ∀ r ∈ rs, r.this ≠ u ∧ r.that ≠ u)
    (hdistinct : xs.Pairwise fun x y => ∀ u ∈ x.measured, ∀ v ∈ y.measured, u ≠ v) :
    Loose b xs := by
  have halone : ∀ x ∈ xs, ∀ u ∈ x.measured, ∀ v, b.canonical u = b.canonical v → v = u := by
    intro x hx u hu v heq
    refine eq_of_chained ((canonical_eq_iff_chained hrun u v).1 heq) ?_
    rintro _ ⟨r, hr, -, rfl⟩
    exact huntied x hx u hu r hr
  have hb := ((wellFormed_reset a).unifies hrun.unifies).1
  refine ⟨hdistinct.imp_of_mem fun hx _ hxy u hu v hv heq => ?_, fun x hx u hu => ?_⟩
  · exact hxy u hu v hv (halone _ hx u hu v heq).symm
  · have hroot := halone x hx u hu _ (hb.canonical_canonical u).symm
    rw [hb.offset_of_canonical hroot, Affine.scale_identity]

end Residual

end SketchSolver
