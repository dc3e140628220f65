import Mathlib
import SketchSolver.Proofs.Arena.Alike
import SketchSolver.Proofs.Exact

/-!
# Unification as affine relations

With exact numbers a group of variables that are unified is a set of affine relations: the values
of any two of its variables determine each other through `Arena.between`.  Unifying adds exactly
one relation, the one that was asked for, and setting a variable sets its group as the relations
dictate (`WellFormed.affine_relations`).
-/

namespace SketchSolver

namespace Arena

variable {α : Type}

/-- Every map between variables has an inverse. -/
def Invertible [Zero α] (a : Arena α) : Prop :=
  ∀ id into offset, a.link? id = some (.absorbed into offset) → offset.scale ≠ 0

/-- The map from the value of one variable to that of another one in its group. -/
def between [Scalar α] (a : Arena α) (u w : VarId) : Affine α :=
  (a.offset w).inverse.comp (a.offset u)

variable [Exact α] {a b : Arena α}

lemma Linked.offset_of_canonical (h : a.Linked) {id : VarId} (hid : a.canonical id = id) :
    a.offset id = .identity := by
  rcases hl : a.link? id with _ | l
  · rw [link?_eq_none_iff] at hl
    rw [Arena.offset, resolve_of_absent hl]
  · cases l with
    | canonical members => rw [Arena.offset, resolve_of_root hl]
    | absorbed into offset =>
        rw [h.canonical_absorbed hl] at hid
        exact absurd hid (h.into_ne hl)

lemma Linked.scale_offset_ne_zero (h : a.Linked) (hinv : a.Invertible) (id : VarId) :
    (a.offset id).scale ≠ 0 := by
  by_cases hid : a.canonical id = id
  · rw [h.offset_of_canonical hid]
    exact one_ne_zero
  · exact hinv _ _ _ (h.absorbed_iff.2 ⟨rfl, Ne.symm hid⟩)

lemma Linked.lift_eq (h : a.Linked) (id : VarId) (x : α) : a.lift id x = (a.offset id).apply x := by
  rw [lift]
  split
  · rename_i hid
    rw [h.offset_of_canonical hid, Affine.apply_identity]
  · rfl

lemma Linked.lower_eq (h : a.Linked) (id : VarId) (x : α) :
    a.lower id x = (a.offset id).inverse.apply x := by
  rw [lower]
  split
  · rename_i hid
    rw [h.offset_of_canonical hid, Affine.inverse_identity, Affine.apply_identity]
  · rfl

/-- From the value of a root to that of a variable, and back. -/
lemma Linked.apply_lower (h : a.Linked) (hinv : a.Invertible) (id : VarId) (x : α) :
    (a.offset id).apply (a.lower id x) = x := by
  rw [h.lower_eq, ← Affine.apply_comp, Affine.comp_inverse (h.scale_offset_ne_zero hinv id),
    Affine.apply_identity]

/-- From the value of a variable to that of its root, and back. -/
lemma Linked.lower_apply (h : a.Linked) (hinv : a.Invertible) (id : VarId) (y : α) :
    a.lower id ((a.offset id).apply y) = y := by
  rw [h.lower_eq, ← Affine.apply_comp, Affine.inverse_comp (h.scale_offset_ne_zero hinv id),
    Affine.apply_identity]

lemma Linked.jointOffset_eq (h : a.Linked) (this that : VarId) (offset : Affine α) :
    a.jointOffset this that offset =
      ((a.offset this).comp offset).comp (a.offset that).inverse := by
  rw [jointOffset]
  by_cases hthis : a.canonical this = this <;> by_cases hthat : a.canonical that = that <;>
    simp [hthis, hthat, h.offset_of_canonical]

/-! ## Relations after a merge -/

section

variable {winner loser : VarId} {offset : Affine α}

/-- The maps to the roots after a merge, in one formula. -/
lemma Merged.offset_eq_comp (hm : a.Merged b winner loser offset) (ha : a.Linked) (k : VarId) :
    b.offset k = if a.canonical k = loser then offset.comp (a.offset k) else a.offset k := by
  obtain ⟨theirs, htheirs⟩ := hm.loserRoot
  rw [hm.offset_eq ha]
  split
  · rename_i hk
    have hroot := canonical_of_root htheirs
    rw [hk, if_pos hroot, ha.offset_of_canonical hroot, Affine.comp_identity]
  · rfl

/-- A merge keeps the relations within both groups. -/
lemma Merged.between_eq (hm : a.Merged b winner loser offset) (ha : a.Linked) (hinv : a.Invertible)
    (hoffset : offset.scale ≠ 0) {u w : VarId} (huw : a.canonical u = a.canonical w) :
    b.between u w = a.between u w := by
  rw [between, between, hm.offset_eq_comp ha, hm.offset_eq_comp ha, huw]
  split
  · calc (offset.comp (a.offset w)).inverse.comp (offset.comp (a.offset u))
        = (a.offset w).inverse.comp ((offset.inverse.comp offset).comp (a.offset u)) := by
          rw [Affine.inverse_comp_rev hoffset (ha.scale_offset_ne_zero hinv w)]
          simp only [Affine.comp_assoc]
      _ = (a.offset w).inverse.comp (a.offset u) := by
          rw [Affine.inverse_comp hoffset, Affine.identity_comp]
  · rfl

lemma Merged.invertible (hm : a.Merged b winner loser offset) (ha : a.Linked)
    (hinv : a.Invertible) (hoffset : offset.scale ≠ 0) : b.Invertible := by
  intro id into o hid
  rw [← hm.wellFormed.offset_absorbed hid, hm.offset_eq_comp ha]
  split
  · exact mul_ne_zero hoffset (ha.scale_offset_ne_zero hinv id)
  · exact ha.scale_offset_ne_zero hinv id

end

/-! ## Every change keeps the inverses -/

lemma Invertible.of_sheds (h : a.Invertible) (hsheds : a.Sheds b) : b.Invertible :=
  fun id into offset hid => h id into offset (hsheds.absorbed hid)

lemma Invertible.insert (h : a.Invertible) (id : VarId) (x : α) (represents : Option Represents) :
    (a.insert id x represents).Invertible :=
  h.of_sheds (sheds_insert a id x represents)

lemma invertible_reset (a : Arena α) : a.reset.Invertible := by
  intro id into offset hid
  cases link?_reset_eq_some hid

lemma Invertible.detach (h : a.Invertible) (id : VarId) : (a.detach id).Invertible :=
  h.of_sheds (sheds_detach a id)

/-- A map that is not degenerate has an inverse, and the others unify nothing. -/
lemma WellFormed.invertible_unifies (ha : a.WellFormed) (hinv : a.Invertible) (h : a.Unifies b) :
    b.Invertible := by
  induction h with
  | refl => exact hinv
  | tail hbefore hstep ih =>
      have hwf := (ha.unifies hbefore).1
      obtain ⟨this, that, offset, merged, hunify⟩ := hstep
      rcases hwf.of_unify hunify with rfl | ⟨hregular, hm⟩
      · exact ih
      · exact hm.invertible hwf.toLinked ih (Affine.scale_ne_zero hregular)

/-! ## Main result -/

/-- A unification of something that is not there fails. -/
lemma unify_eq_error {this that : VarId} (offset : Affine α)
    (h : a.contains this = false ∨ a.contains that = false) :
    ∃ id, a.unify this that offset = .error (.variableNotFound id) := by
  have hfind : ∀ {id}, a.contains id = false → a.find id = .error (.variableNotFound id) := by
    intro id hid
    rw [contains, OrderedMap.contains, Option.isSome_eq_false_iff, Option.isNone_iff_eq_none] at hid
    rw [find, get?, hid]
  rw [unify]
  by_cases hthis : a.contains this = true
  · obtain ⟨v, hv⟩ := find_ok hthis
    have hthat : a.contains that = false := by
      rcases h with h | h
      · rw [hthis] at h
        cases h
      · exact h
    exact ⟨that, by rw [hv, hfind hthat]; rfl⟩
  · rw [Bool.not_eq_true] at hthis
    exact ⟨this, by rw [hfind hthis]; rfl⟩

/-- **Unifications are affine relations.**  In a well-formed arena whose maps have inverses:

* unifying two live variables answers; if it has merged nothing, nothing has changed;
* if it has merged their groups, `this` is `offset` of `that` from now on, all relations within
  both groups and the value of `this` are as before, and other groups are not touched;
* it merges unless both variables have one root or the map between the roots is degenerate, and
  fails only if a variable is not there;
* setting a live variable sets its group as the relations dictate, and nothing else. -/
theorem WellFormed.affine_relations (h : a.WellFormed) (hinv : a.Invertible) :
    (∀ this that offset, a.contains this = true → a.contains that = true →
      ∃ merged b, a.unify this that offset = .ok (merged, b) ∧
        (merged = true ↔ a.canonical this ≠ a.canonical that ∧
          (a.jointOffset this that offset).isDegenerate = false) ∧
        (merged = false → b = a) ∧
        (merged = true →
          b.WellFormed ∧ b.Invertible ∧ b.ids = a.ids ∧
          b.canonical this = b.canonical that ∧ (b.offset this).comp offset = b.offset that ∧
          (∀ u w, a.canonical u = a.canonical w →
            b.canonical u = b.canonical w ∧ b.between u w = a.between u w) ∧
          b.value? this = a.value? this ∧
          ∀ u, a.canonical u ≠ a.canonical this → a.canonical u ≠ a.canonical that →
            b.link? u = a.link? u ∧ b.value? u = a.value? u)) ∧
    (∀ this that offset, a.contains this = false ∨ a.contains that = false →
      ∃ id, a.unify this that offset = .error (.variableNotFound id)) ∧
    (∀ v x, a.contains v = true ↔ ∃ b, a.setValue v x = .ok b) ∧
    ∀ v x b, a.setValue v x = .ok b →
      b.shape = a.shape ∧ b.value? v = some x ∧
      (∀ u, a.canonical u = a.canonical v → b.value? u = some ((a.between v u).apply x)) ∧
      ∀ u, a.canonical u ≠ a.canonical v → b.value? u = a.value? u := by
  refine ⟨fun this that offset hthis hthat => ?_, fun this that offset => unify_eq_error offset,
    fun v x => ⟨fun hv => ?_, fun ⟨b, hb⟩ => h.contains_of_setValue hb⟩, fun v x b hb => ?_⟩
  · rcases h.unify_cases hthis hthat offset with ⟨hsame, hunify⟩ | ⟨hdiff, b, hunify, hm⟩
    · refine ⟨false, a, hunify, ⟨by rintro ⟨⟩, fun ⟨hne, hdegenerate⟩ => ?_⟩, fun _ => rfl,
        by rintro ⟨⟩⟩
      rcases hsame with hsame | hsame
      · exact absurd hsame hne
      · rw [hdegenerate] at hsame
        cases hsame
    · have hscale := Affine.scale_ne_zero hdiff.2
      have hthat' := h.scale_offset_ne_zero hinv that
      refine ⟨true, b, hunify, ⟨fun _ => hdiff, fun _ => rfl⟩, by rintro ⟨⟩, fun _ =>
        ⟨hm.wellFormed, hm.invertible h.toLinked hinv hscale, hm.ids, ?_, ?_,
          fun u w huw => ⟨?_, ?_⟩, ?_,
          fun u hu hu' => ⟨hm.link_apart h.toLinked hu hu', hm.value_apart h hu'⟩⟩⟩
      · rw [hm.canonical, hm.canonical, if_neg hdiff.1, if_pos rfl]
      · rw [hm.offset_eq_comp h.toLinked, hm.offset_eq_comp h.toLinked, if_neg hdiff.1, if_pos rfl,
          h.jointOffset_eq, Affine.comp_assoc _ _ (a.offset that), Affine.inverse_comp hthat',
          Affine.comp_identity]
      · rw [hm.canonical, hm.canonical, huw]
      · exact hm.between_eq h.toLinked hinv hscale huw
      · exact hm.value_apart h hdiff.1
  · obtain ⟨b, hb, -⟩ := h.setValue_spec hv x
    exact ⟨b, hb⟩
  · obtain ⟨-, hshape, hvalue⟩ := h.of_setValue hb
    have hgroup : ∀ u, a.canonical u = a.canonical v →
        b.value? u = some ((a.between v u).apply x) := by
      intro u hu
      rw [hvalue, if_pos hu, h.lower_eq, h.lift_eq, between, Affine.apply_comp]
    refine ⟨hshape, ?_, hgroup, fun u hu => by rw [hvalue, if_neg hu]⟩
    rw [hgroup v rfl, between, Affine.inverse_comp (h.scale_offset_ne_zero hinv v),
      Affine.apply_identity]

/-- Three rational variables that stand alone. -/
def three : Arena ℚ :=
  ((empty.insert ⟨0⟩ 7 none).insert ⟨1⟩ 1 none).insert ⟨2⟩ 4 none

lemma three_spec : three.WellFormed ∧ three.Invertible := by
  refine ⟨((wellFormed_empty.insert rfl 7 none).insert rfl 1 none).insert rfl 4 none, ?_⟩
  intro id into offset hid
  simp only [three, link?_insert] at hid
  split_ifs at hid <;> cases hid

/-- The first of the three variables is twice the second one and three. -/
def doubled : Arena ℚ :=
  match three.unify ⟨0⟩ ⟨1⟩ ⟨2, 3⟩ with
  | .ok (_, b) => b
  | .error _ => three

lemma doubled_spec : doubled.WellFormed ∧ doubled.Invertible := by
  obtain ⟨hapart, hinv⟩ := three_spec
  have hthis : three.contains ⟨0⟩ = true := rfl
  have hthat : three.contains ⟨1⟩ = true := rfl
  rcases hapart.unify_cases hthis hthat ⟨2, 3⟩ with ⟨-, hunify⟩ | ⟨hmerge, b, hunify, hm⟩
  · simp only [doubled, hunify]
    exact ⟨hapart, hinv⟩
  · simp only [doubled, hunify]
    exact ⟨hm.wellFormed, hm.invertible hapart.toLinked hinv (Affine.scale_ne_zero hmerge.2)⟩

/-- Unifying the third variable with five times the second one takes the first one along, in the
same relation to the second. -/
theorem affine_relations_doubled :
    ∃ b, doubled.unify ⟨2⟩ ⟨1⟩ ⟨5, 0⟩ = .ok (true, b) ∧
      (b.offset ⟨2⟩).comp ⟨5, 0⟩ = b.offset ⟨1⟩ ∧ b.between ⟨0⟩ ⟨1⟩ = doubled.between ⟨0⟩ ⟨1⟩ ∧
      b.value? ⟨2⟩ = doubled.value? ⟨2⟩ := by
  obtain ⟨hunify, -⟩ := doubled_spec.1.affine_relations doubled_spec.2
  obtain ⟨merged, b, heq, hmerged, -, hrest⟩ :=
    hunify ⟨2⟩ ⟨1⟩ ⟨5, 0⟩ (by decide +kernel) (by decide +kernel)
  obtain rfl : merged = true := hmerged.2 ⟨by decide +kernel, by decide +kernel⟩
  obtain ⟨-, -, -, -, hoffset, hbetween, hvalue, -⟩ := hrest rfl
  exact ⟨b, heq, hoffset, (hbetween ⟨0⟩ ⟨1⟩ (by decide +kernel)).2, hvalue⟩

end Arena

end SketchSolver
