import Mathlib
import SketchSolver.Proofs.Arena.Bound

/-!
# Forests of ties

In a forest a chain of ties that comes back to where it started composes to the identity, since it
takes back every tie that it has gone along.  So the map along a chain is composed of each tie at
most once, and its scale is bounded by those of the ties.

* `Composes.goes_once` — with one more tie, a chain goes along it once at most.
* `Composes.eq_identity` — a chain that comes back composes to the identity.
* `Composes.pow_le_scale` — how small the scale of a chain can get.
* `regular_of_forest` — up to 102 ties whose scales are within a factor of 1000 of one compose to no
  degenerate map.
* `Requests.refused_rung` — the last one of 103 such ties in a row can be refused.
-/

namespace SketchSolver

variable {α : Type} {e d : Tie α} {ties ties' : List (Tie α)}

lemma Forest.sublist (h : Forest ties) (hsub : ties'.Sublist ties) : Forest ties' := by
  intro before e after hsplit hchained
  rw [hsplit, List.append_sublist_iff] at hsub
  obtain ⟨left, right, rfl, hbefore, hright⟩ := hsub
  obtain ⟨middle, rest, rfl, he, hafter⟩ := List.cons_sublist_iff.1 hright
  obtain ⟨left', right', rfl⟩ := List.append_of_mem he
  refine h (left ++ left') e (right' ++ rest) (by simp) (hchained.mono fun t ht => ?_)
  rcases List.mem_append.1 ht with ht | ht
  · simp [hbefore.subset ht]
  · simp [hafter.subset ht]

lemma Forest.head (h : Forest (e :: ties)) : ¬ Chained (· ∈ ties) e.this e.that :=
  h [] e ties rfl

variable [Exact α]

/-- A tie, or the same tie read from its other end. -/
inductive Tie.Reads (e : Tie α) : Tie α → Prop where
  | forth : e.Reads e
  | back : e.Reads ⟨e.that, e.this, e.offset.inverse⟩

namespace Arena.Composes

variable {T U : Tie α → Prop} {u v w : VarId} {f : Affine α} {l : α}

lemma mono (h : Composes T u v f) (hTU : ∀ e, T e → U e) : Composes U u v f := by
  induction h with
  | refl u => exact .refl u
  | forth he _ ih => exact .forth (hTU _ he) ih
  | back he _ ih => exact .back (hTU _ he) ih

lemma chained (h : Composes T u v f) : Chained T u v := by
  induction h with
  | refl u => exact .refl u
  | forth he _ ih => exact (Chained.of_tie he).trans ih
  | back he _ ih => exact (Chained.of_tie he).symm.trans ih

/-- A chain goes along ties in reach only. -/
lemma within_reach (h : Composes T u v f) :
    Composes (fun e => T e ∧ Chained T e.this u) u v f := by
  induction h with
  | refl u => exact .refl u
  | forth he _ ih =>
      have hback := (Chained.of_tie he).symm
      exact .forth ⟨he, .refl _⟩ (ih.mono fun t ht => ⟨ht.1, ht.2.trans hback⟩)
  | back he _ ih =>
      have hforth := Chained.of_tie he
      exact .back ⟨he, hforth⟩ (ih.mono fun t ht => ⟨ht.1, ht.2.trans hforth⟩)

lemma step (he : T e) (hd : e.Reads d) (h : Composes T d.that v f) :
    Composes T d.this v (d.offset.comp f) := by
  cases hd with
  | forth => exact .forth he h
  | back => exact .back he h

/-- A chain goes along one tie once at most, and apart from that along others. -/
inductive Once (e : Tie α) (ties : List (Tie α)) (u v : VarId) : Affine α → Prop where
  | never {f : Affine α} : Composes (· ∈ ties) u v f → Once e ties u v f
  | once {d : Tie α} {g g' : Affine α} : e.Reads d → Composes (· ∈ ties) u d.this g →
      Composes (· ∈ ties) d.that v g' → Once e ties u v (g.comp (d.offset.comp g'))

section

variable (hloop : ∀ {u f}, Composes (· ∈ ties) u u f → f = .identity)
  (hapart : ¬ Chained (· ∈ ties) e.this e.that) (hscale : e.offset.scale ≠ 0)

include hloop hapart hscale

lemma Once.step {t : Tie α} (ht : t ∈ e :: ties) (hd : t.Reads d) (h : Once e ties d.that v f) :
    Once e ties d.this v (d.offset.comp f) := by
  cases h with
  | never hrest =>
      rcases List.mem_cons.1 ht with rfl | ht
      · rw [← Affine.identity_comp (d.offset.comp f)]
        exact .once hd (.refl _) hrest
      · exact .never (.step ht hd hrest)
  | @once d' g g' hd' hg hg' =>
      rcases List.mem_cons.1 ht with rfl | ht
      · -- the chain goes along the tie twice in the same direction, or it takes it back at once
        cases hd <;> cases hd'
        · exact absurd hg.chained.symm hapart
        · rw [hloop hg, Affine.identity_comp, ← Affine.comp_assoc, Affine.comp_inverse hscale,
            Affine.identity_comp]
          exact .never hg'
        · rw [hloop hg, Affine.identity_comp, ← Affine.comp_assoc, Affine.inverse_comp hscale,
            Affine.identity_comp]
          exact .never hg'
        · exact absurd hg.chained hapart
      · rw [← Affine.comp_assoc]
        exact .once hd' (.step ht hd hg) hg'

/-- With one more tie between what is apart without it, a chain goes along that tie once at most,
provided that what comes back without it composes to the identity. -/
lemma goes_once (h : Composes (· ∈ e :: ties) u v f) : Once e ties u v f := by
  induction h with
  | refl u => exact .never (.refl u)
  | forth he _ ih => exact ih.step hloop hapart hscale he .forth
  | back he _ ih => exact ih.step hloop hapart hscale he .back

end

/-- In a forest, a chain that comes back composes to the identity. -/
lemma eq_identity (hforest : Forest ties) (hscales : ∀ e ∈ ties, e.offset.scale ≠ 0)
    (h : Composes (· ∈ ties) u u f) : f = .identity := by
  induction ties generalizing u f with
  | nil =>
      cases h with
      | refl => rfl
      | forth he => cases he
      | back he => cases he
  | cons e ties ih =>
      have hloop : ∀ {u f}, Composes (· ∈ ties) u u f → f = .identity :=
        ih (hforest.sublist (List.sublist_cons_self e ties)) fun t ht =>
          hscales t (List.mem_cons_of_mem e ht)
      cases goes_once hloop hforest.head (hscales e List.mem_cons_self) h with
      | never hwithout => exact hloop hwithout
      | once hd hg hg' =>
          -- the way back would join the two sides without the tie
          have hjoined := hg'.chained.trans hg.chained
          cases hd with
          | forth => exact absurd hjoined.symm hforest.head
          | back => exact absurd hjoined hforest.head

/-- Two chains that are apart go along different ties. -/
lemma exists_disjoint {w x : VarId} {g g' : Affine α} (hapart : ¬ Chained (· ∈ ties) v w)
    (hg : Composes (· ∈ ties) u v g) (hg' : Composes (· ∈ ties) w x g') :
    ∃ near far : List (Tie α), near.Sublist ties ∧ far.Sublist ties ∧
      ties.length = near.length + far.length ∧
      Composes (· ∈ near) u v g ∧ Composes (· ∈ far) w x g' := by
  classical
  refine ⟨ties.filter fun t => Chained (· ∈ ties) t.this v,
    ties.filter fun t => !Chained (· ∈ ties) t.this v, List.filter_sublist, List.filter_sublist,
    List.length_eq_length_filter_add _, hg.within_reach.mono fun t ht => ?_,
    hg'.within_reach.mono fun t ht => ?_⟩
  · exact List.mem_filter.2 ⟨ht.1, decide_eq_true (ht.2.trans hg.chained)⟩
  · have hfar : ¬ Chained (· ∈ ties) t.this v := fun h => hapart (h.symm.trans ht.2)
    simpa [hfar] using ht.1

/-- In a forest whose maps scale by `l` at least in either direction, a chain scales by no less than
all of its ties together. -/
lemma pow_le_scale (hpos : 0 < l) (hone : l ≤ 1) (hforest : Forest ties)
    (hscales : ∀ e ∈ ties, l ≤ |e.offset.scale| ∧ l ≤ |e.offset.scale|⁻¹)
    (h : Composes (· ∈ ties) u v f) : l ^ ties.length ≤ |f.scale| := by
  induction hn : ties.length using Nat.strong_induction_on generalizing ties u v f with
  | _ n ih =>
  subst hn
  have hregular : ∀ e ∈ ties, e.offset.scale ≠ 0 := fun e he =>
    abs_pos.1 (hpos.trans_le (hscales e he).1)
  cases ties with
  | nil =>
      cases h with
      | refl => simp
      | forth he => cases he
      | back he => cases he
  | cons e ties =>
      have hrest := hforest.sublist (List.sublist_cons_self e ties)
      have hloop : ∀ {u f}, Composes (· ∈ ties) u u f → f = .identity :=
        eq_identity hrest fun t ht => hregular t (List.mem_cons_of_mem e ht)
      have hbound : ∀ {sub : List (Tie α)} {u v : VarId} {f : Affine α}, sub.Sublist ties →
          Composes (· ∈ sub) u v f → l ^ sub.length ≤ |f.scale| := fun hsub hf =>
        ih _ (Nat.lt_succ_of_le hsub.length_le) (hrest.sublist hsub)
          (fun t ht => hscales t (List.mem_cons_of_mem e (hsub.subset ht))) hf rfl
      cases goes_once hloop hforest.head (hregular e List.mem_cons_self) h with
      | never hwithout =>
          calc l ^ (ties.length + 1) ≤ l ^ ties.length :=
                pow_le_pow_of_le_one hpos.le hone (Nat.le_succ _)
            _ ≤ |f.scale| := hbound (List.Sublist.refl ties) hwithout
      | @once d g g' hd hg hg' =>
          have hstep : ¬ Chained (· ∈ ties) d.this d.that ∧ l ≤ |d.offset.scale| := by
            have hscale := hscales e List.mem_cons_self
            cases hd with
            | forth => exact ⟨hforest.head, hscale.1⟩
            | back =>
                rw [Affine.scale_inverse, abs_inv]
                exact ⟨fun hjoined => hforest.head hjoined.symm, hscale.2⟩
          obtain ⟨near, far, hnear, hfar, hlength, hto, hon⟩ := exists_disjoint hstep.1 hg hg'
          calc l ^ (ties.length + 1) = l ^ near.length * (l * l ^ far.length) := by
                rw [hlength]
                ring
            _ ≤ |g.scale| * (|d.offset.scale| * |g'.scale|) := by
                gcongr
                · exact hbound hnear hto
                · exact hstep.2
                · exact hbound hfar hon
            _ = |(g.comp (d.offset.comp g')).scale| := by
                rw [Affine.scale_comp, Affine.scale_comp, abs_mul, abs_mul]

end Arena.Composes

namespace Arena

lemma leastNormal_le : (Scalar.leastNormal : α) ≤ (1 / 1000) ^ 102 := by
  have hliteral : (2.2250738585072014e-308 : ℚ≥0) ≤ (1 / 1000) ^ 102 := by decide +kernel
  calc (Scalar.leastNormal : α) = ((2.2250738585072014e-308 : ℚ≥0) : α) := Exact.leastNormal_eq
    _ ≤ (((1 / 1000) ^ 102 : ℚ≥0) : α) := NNRat.cast_le.2 hliteral
    _ = (1 / 1000) ^ 102 := by norm_num

/-- **A small forest is regular**: no map along a chain is degenerate if there are 102 ties at most,
and each scales by something between a thousandth and a thousand. -/
theorem regular_of_forest (hforest : Forest ties) (hlength : ties.length ≤ 102)
    (hscales : ∀ e ∈ ties, 1 / 1000 ≤ |e.offset.scale| ∧ |e.offset.scale| ≤ 1000) :
    Regular ties := by
  intro u v f hf
  have hpos : (0 : α) < 1 / 1000 := by norm_num
  have hone : (1 / 1000 : α) ≤ 1 := by norm_num
  have hbound := hf.pow_le_scale hpos hone hforest fun e he => ⟨(hscales e he).1, by
    rw [one_div]
    exact inv_anti₀ (hpos.trans_le (hscales e he).1) (hscales e he).2⟩
  rw [Affine.isDegenerate, decide_eq_false_iff_not]
  refine not_lt.2 (leastNormal_le.trans (le_trans ?_ hbound))
  exact pow_le_pow_of_le_one hpos.le hone hlength

end Arena

/-! ## One tie more -/

variable {a b : Arena α} {rs : List (Request α)}

/-- One of many ties in a row. -/
def rung (i : Nat) : Tie α := ⟨⟨i⟩, ⟨i + 1⟩, ⟨1 / 1000, 0⟩⟩

lemma rung_injective : Function.Injective (rung : Nat → Tie α) := fun _ _ heq =>
  VarId.mk.inj (congrArg Tie.this heq)

/-- Ties in a row form a forest: without one of them, nothing leads past it. -/
lemma forest_rungs (n : Nat) : Forest ((List.range n).map (rung : Nat → Tie α)) := by
  intro before e after hsplit hchained
  have hnodup := hsplit ▸ List.nodup_range.map (rung_injective (α := α))
  rw [List.nodup_middle, List.nodup_cons] at hnodup
  have hrung : ∀ t ∈ e :: (before ++ after), ∃ j, rung j = t := by
    intro t ht
    have hmem : t ∈ (List.range n).map (rung : Nat → Tie α) := by
      rw [hsplit]
      exact List.perm_middle.mem_iff.2 ht
    obtain ⟨j, -, hj⟩ := List.mem_map.1 hmem
    exact ⟨j, hj⟩
  obtain ⟨i, rfl⟩ := hrung e List.mem_cons_self
  have hbelow := hchained.eq (f := fun v => decide (v.index ≤ i)) fun t ht => by
    obtain ⟨j, rfl⟩ := hrung t (List.mem_cons_of_mem _ ht)
    have hne : j ≠ i := by
      rintro rfl
      exact hnodup.1 ht
    exact decide_eq_decide.2 (by show j ≤ i ↔ j + 1 ≤ i; omega)
  simp [rung] at hbelow

namespace Arena

/-- The first `n` ties in a row have been granted, and made one group. -/
structure Climbed (a : Arena α) (n : Nat) : Prop where
  joined : ∀ i ≤ n, a.canonical ⟨i⟩ = ⟨0⟩ ∧ a.offset ⟨i⟩ = ⟨(1 / 1000) ^ i, 0⟩
  alone : ∀ i, n < i → a.canonical ⟨i⟩ = ⟨i⟩

/-- The next tie composes to the next power. -/
lemma Climbed.joint {n : Nat} (h : a.Climbed n) (ha : a.Linked) :
    a.jointOffset ⟨n⟩ ⟨n + 1⟩ ⟨1 / 1000, 0⟩ = ⟨(1 / 1000) ^ (n + 1), 0⟩ := by
  rw [ha.jointOffset_eq, (h.joined n le_rfl).2,
    ha.offset_of_canonical (h.alone (n + 1) (Nat.lt_succ_self n)), Affine.inverse_identity,
    Affine.comp_identity, Affine.comp, pow_succ, mul_zero, add_zero]

/-- One more tie is granted, as long as there are not too many. -/
lemma Climbed.step {n : Nat} (h : a.Climbed n) (ha : a.WellFormed) (hn : n + 1 ≤ 102)
    {merged : Bool} (hunify : a.unify ⟨n⟩ ⟨n + 1⟩ ⟨1 / 1000, 0⟩ = .ok (merged, b)) :
    b.Climbed (n + 1) := by
  have hlower := h.joined n le_rfl
  have hnext := h.alone (n + 1) (Nat.lt_succ_self n)
  have hjoint := h.joint ha.toLinked
  obtain ⟨hthis, hthat⟩ := contains_of_unify hunify
  rcases ha.unify_cases hthis hthat ⟨1 / 1000, 0⟩ with
    ⟨hsame | hdegenerate, -⟩ | ⟨-, c, hc, hm⟩
  · rw [hlower.1, hnext] at hsame
    cases hsame
  · have hpow : (1 / 1000 : α) ^ 102 ≤ |(1 / 1000) ^ (n + 1)| := by
      rw [abs_of_pos (by positivity)]
      exact pow_le_pow_of_le_one (by norm_num) (by norm_num) hn
    rw [hjoint, Affine.isDegenerate, decide_eq_true_iff] at hdegenerate
    exact absurd hdegenerate (leastNormal_le.trans hpow).not_gt
  · rw [hunify] at hc
    cases hc
    rw [hlower.1, hnext, hjoint] at hm
    have hbelow : ∀ i ≤ n, a.canonical ⟨i⟩ ≠ ⟨n + 1⟩ := by
      intro i hi heq
      rw [(h.joined i hi).1] at heq
      cases heq
    refine ⟨fun i hi => ?_, fun i hi => ?_⟩
    · rw [hm.canonical, hm.offset_eq_comp ha.toLinked]
      rcases Nat.le_succ_iff.1 hi with hi | rfl
      · rw [if_neg (hbelow i hi), if_neg (hbelow i hi)]
        exact h.joined i hi
      · rw [if_pos hnext, if_pos hnext, ha.offset_of_canonical hnext, Affine.comp_identity]
        exact ⟨rfl, rfl⟩
    · have hroot := h.alone i (Nat.lt_of_succ_lt hi)
      rw [hm.canonical, hroot, if_neg]
      rintro ⟨⟩
      exact Nat.lt_irrefl _ hi

/-- Ties in a row are granted one after the other, as long as there are not too many. -/
lemma climbed_of_requests {n : Nat} (hn : n ≤ 102) (hrun : a.reset.Requests rs b)
    (hties : rs.map Request.toTie = (List.range n).map rung) : b.Climbed n := by
  induction n generalizing rs b with
  | zero =>
      obtain rfl := List.map_eq_nil_iff.1 hties
      cases hrun
      refine ⟨fun i hi => ?_, fun i _ => canonical_reset a _⟩
      obtain rfl := Nat.le_zero.1 hi
      refine ⟨canonical_reset a _, ?_⟩
      rw [(wellFormed_reset a).offset_of_canonical (canonical_reset a _), pow_zero]
      rfl
  | succ n ih =>
      rw [List.range_succ, List.map_append] at hties
      obtain ⟨first, last, rfl, hfirst, hlast⟩ := List.map_eq_append_iff.1 hties
      obtain ⟨c, hbefore, hrest⟩ := hrun.split
      have hc := ih (Nat.le_of_succ_le hn) hbefore hfirst
      obtain ⟨r, rfl, hr⟩ := List.map_eq_singleton_iff.1 hlast
      cases hrest with
      | cons hunify hnil =>
          cases hnil
          cases hr
          exact hc.step ((wellFormed_reset a).unifies hbefore.unifies).1 hn hunify

lemma abs_pow_lt_leastNormal : |((1 / 1000) ^ 103 : α)| < Scalar.leastNormal := by
  have hliteral : ((1 / 1000) ^ 103 : ℚ≥0) < 2.2250738585072014e-308 := by decide +kernel
  calc |((1 / 1000) ^ 103 : α)| = (((1 / 1000) ^ 103 : ℚ≥0) : α) := by
        rw [abs_of_pos (by positivity)]
        norm_num
    _ < ((2.2250738585072014e-308 : ℚ≥0) : α) := NNRat.cast_lt.2 hliteral
    _ = Scalar.leastNormal := Exact.leastNormal_eq.symm

/-- **One tie more is refused**: of 103 ties in a row the last one unifies nothing. -/
theorem Requests.refused_rung (hrun : a.reset.Requests rs b)
    (hties : rs.map Request.toTie = (List.range 103).map rung) :
    b.canonical ⟨102⟩ ≠ b.canonical ⟨103⟩ := by
  rw [List.range_succ, List.map_append] at hties
  obtain ⟨first, last, rfl, hfirst, hlast⟩ := List.map_eq_append_iff.1 hties
  obtain ⟨c, hbefore, hrest⟩ := hrun.split
  have hc := climbed_of_requests le_rfl hbefore hfirst
  have hwf := ((wellFormed_reset a).unifies hbefore.unifies).1
  obtain ⟨r, rfl, hr⟩ := List.map_eq_singleton_iff.1 hlast
  cases hrest with
  | cons hunify hnil =>
      cases hnil
      cases hr
      rcases hwf.of_unify hunify with rfl | ⟨hregular, -⟩
      · rw [(hc.joined 102 le_rfl).1, hc.alone 103 (Nat.lt_succ_self 102)]
        decide
      · have hjoint := (congrArg Affine.isDegenerate (hc.joint hwf.toLinked)).symm.trans hregular
        rw [Affine.isDegenerate, decide_eq_false_iff_not] at hjoint
        exact absurd abs_pow_lt_leastNormal hjoint

end Arena

end SketchSolver
