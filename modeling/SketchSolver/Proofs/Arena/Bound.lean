import Mathlib
import SketchSolver.Proofs.Arena.Affine
import SketchSolver.Proofs.Arena.Request

/-!
# Ties that hold

With exact numbers a tie that has been granted by a merge is an equation between values.

* `Arena.Bound` — the two variables of a tie are unified by its map, so their values satisfy its
  equation (`Bound.value`).  A tie stays bound whatever else is unified, and as long as its two
  variables stay together (`Bound.unifies`, `Bound.sheds`).
* `WellFormed.requests_bound` — a request that merges two groups leaves its tie bound.
* `Arena.Composes` is the map along a chain of ties.  All that ties unify is unified by such a map
  (`Charted.requests`), and the map between the roots of a tie is one (`composes_jointOffset`).
* `bound_of_forest` — so if the ties form a forest and no map along a chain is degenerate, all of
  them are bound.
-/

namespace SketchSolver

variable {α : Type}

namespace Arena

variable [Exact α] {a b c : Arena α} {e : Tie α} {rs : List (Request α)} {T : Tie α → Prop}
  {u v w : VarId}

section

variable (ha : a.Linked) (hinv : a.Invertible)

include ha hinv

lemma Linked.between_self (u : VarId) : a.between u u = .identity :=
  Affine.inverse_comp (ha.scale_offset_ne_zero hinv u)

/-- From one variable to a third one by way of a second. -/
lemma Linked.between_comp (u v w : VarId) :
    (a.between v u).comp (a.between w v) = a.between w u := by
  have hv := Affine.comp_inverse (ha.scale_offset_ne_zero hinv v)
  calc (a.between v u).comp (a.between w v)
      = (a.offset u).inverse.comp
          (((a.offset v).comp (a.offset v).inverse).comp (a.offset w)) := by
        rw [between, between]
        simp only [Affine.comp_assoc]
    _ = a.between w u := by rw [hv, Affine.identity_comp, between]

lemma Linked.scale_between_ne_zero (u v : VarId) : (a.between u v).scale ≠ 0 := by
  rw [between, Affine.scale_comp, Affine.scale_inverse]
  exact mul_ne_zero (inv_ne_zero (ha.scale_offset_ne_zero hinv v)) (ha.scale_offset_ne_zero hinv u)

/-- The way back. -/
lemma Linked.between_swap (u v : VarId) : a.between u v = (a.between v u).inverse := by
  have hscale := ha.scale_between_ne_zero hinv v u
  calc a.between u v
      = (a.between u v).comp ((a.between v u).comp (a.between v u).inverse) := by
        rw [Affine.comp_inverse hscale, Affine.comp_identity]
    _ = ((a.between u v).comp (a.between v u)).comp (a.between v u).inverse := by
        rw [Affine.comp_assoc]
    _ = (a.between v u).inverse := by
        rw [ha.between_comp hinv, ha.between_self hinv, Affine.identity_comp]

end

/-! ## Bound variables -/

/-- The two variables of the tie are unified by its map. -/
structure Bound (a : Arena α) (e : Tie α) : Prop where
  canonical : a.canonical e.this = a.canonical e.that
  between : a.between e.that e.this = e.offset

namespace Bound

/-- The equation that a tie asks for holds of the values. -/
theorem value (h : a.Bound e) (ha : a.WellFormed) (hinv : a.Invertible) :
    a.value? e.this = (a.value? e.that).map e.offset.apply := by
  rw [ha.value?_eq_lower e.this, ha.value?_eq_lower e.that, h.canonical, Option.map_map]
  refine congrArg (Option.map · _) (funext fun x => ?_)
  have hscale := ha.scale_offset_ne_zero hinv e.that
  calc a.lower e.this x
      = (a.offset e.this).inverse.apply
          (((a.offset e.that).comp (a.offset e.that).inverse).apply x) := by
        rw [Affine.comp_inverse hscale, Affine.apply_identity, ha.lower_eq]
    _ = e.offset.apply (a.lower e.that x) := by
        rw [ha.lower_eq, ← h.between, Arena.between, Affine.apply_comp, Affine.apply_comp]

lemma of_shape (h : a.Bound e) (hshape : b.shape = a.shape) : b.Bound e where
  canonical := by
    rw [canonical_congr hshape]
    exact h.canonical
  between := by
    rw [← h.between, Arena.between, Arena.between]
    simp only [Arena.offset, resolve_congr hshape]

/-- Further unifications keep variables bound. -/
lemma unifies (h : a.Bound e) (ha : a.WellFormed) (hinv : a.Invertible) (hab : a.Unifies b) :
    b.Bound e := by
  induction hab with
  | refl => exact h
  | tail hbefore hstep ih =>
      have hwf := (ha.unifies hbefore).1
      obtain ⟨this, that, offset, merged, hunify⟩ := hstep
      rcases hwf.of_unify hunify with rfl | ⟨hregular, hm⟩
      · exact ih
      · refine ⟨(hwf.unifies_coarsens (unifies_of_unify hunify)).canonical ih.canonical, ?_⟩
        rw [hm.between_eq hwf.toLinked (ha.invertible_unifies hinv hbefore)
          (Affine.scale_ne_zero hregular) ih.canonical.symm, ih.between]

/-- So does taking groups apart, as long as the two stay together. -/
lemma sheds (h : a.Bound e) (hab : a.Sheds b) (ha : a.Linked) (hinv : a.Invertible) (hb : b.Linked)
    (htogether : b.canonical e.this = b.canonical e.that) : b.Bound e := by
  refine ⟨htogether, ?_⟩
  by_cases hne : e.this = e.that
  · rw [← h.between, hne, ha.between_self hinv, hb.between_self (hinv.of_sheds hab)]
  · rw [← h.between, Arena.between, Arena.between]
    simp only [Arena.offset, hab.resolve ha hb htogether hne,
      hab.resolve ha hb htogether.symm (Ne.symm hne)]

end Bound

/-- A merge binds what it was asked to unify. -/
lemma Merged.bound (ha : a.Linked) (hinv : a.Invertible)
    (hdiff : a.canonical e.this ≠ a.canonical e.that)
    (hm : a.Merged b (a.canonical e.this) (a.canonical e.that)
      (a.jointOffset e.this e.that e.offset)) : b.Bound e := by
  refine ⟨by rw [hm.canonical, hm.canonical, if_neg hdiff, if_pos rfl], ?_⟩
  have hthis := Affine.inverse_comp (ha.scale_offset_ne_zero hinv e.this)
  have hthat := Affine.inverse_comp (ha.scale_offset_ne_zero hinv e.that)
  rw [between, hm.offset_eq_comp ha, hm.offset_eq_comp ha, if_neg hdiff, if_pos rfl,
    ha.jointOffset_eq, Affine.comp_assoc _ _ (a.offset e.that), hthat, Affine.comp_identity,
    ← Affine.comp_assoc, hthis, Affine.identity_comp]

/-- Requests that merge groups bind what they were asked to unify. -/
theorem WellFormed.requests_bound (ha : a.WellFormed) (hinv : a.Invertible)
    (h : a.Requests rs b) : ∀ r ∈ rs, r.Merges → b.Bound r.toTie := by
  induction h with
  | nil => simp
  | @cons a b c e merged rs hunify hrest ih =>
      have hab := unifies_of_unify hunify
      have hb := (ha.unifies hab).1
      have hinv' := ha.invertible_unifies hinv hab
      intro r hr hmerges
      rcases List.mem_cons.1 hr with rfl | hr
      · refine Bound.unifies ?_ hb hinv' hrest.unifies
        obtain ⟨hthis, hthat⟩ := contains_of_unify hunify
        rcases ha.unify_cases hthis hthat e.offset with ⟨hnot, -⟩ | ⟨hdiff, b', hunify', hm⟩
        · rcases hnot with hsame | hdegenerate
          · exact absurd hsame hmerges.1
          · exact absurd hdegenerate (by rw [hmerges.2]; exact Bool.false_ne_true)
        · rw [hunify] at hunify'
          cases hunify'
          exact Merged.bound ha.toLinked hinv hdiff.1 hm
      · exact ih hb hinv' r hr hmerges

/-! ## Chains of maps -/

/-- The map composed along a chain of ties: it takes the value of `v` to that of `u`. -/
inductive Composes (T : Tie α → Prop) : VarId → VarId → Affine α → Prop where
  | refl (u : VarId) : Composes T u u .identity
  | forth {e : Tie α} {v : VarId} {f : Affine α} : T e → Composes T e.that v f →
      Composes T e.this v (e.offset.comp f)
  | back {e : Tie α} {v : VarId} {f : Affine α} : T e → Composes T e.this v f →
      Composes T e.that v (e.offset.inverse.comp f)

lemma Composes.trans {f g : Affine α} (h : Composes T u v f) (h' : Composes T v w g) :
    Composes T u w (f.comp g) := by
  induction h with
  | refl u => rwa [Affine.identity_comp]
  | forth he _ ih =>
      rw [Affine.comp_assoc]
      exact .forth he (ih h')
  | back he _ ih =>
      rw [Affine.comp_assoc]
      exact .back he (ih h')

/-- All that is unified is unified by the map along a chain. -/
def Charted (T : Tie α → Prop) (a : Arena α) : Prop :=
  ∀ u v, a.canonical u = a.canonical v → Composes T u v (a.between v u)

lemma charted_reset (T : Tie α → Prop) (a : Arena α) : a.reset.Charted T := by
  intro u v huv
  rw [canonical_reset, canonical_reset] at huv
  subst huv
  rw [(wellFormed_reset a).between_self (invertible_reset a)]
  exact .refl u

namespace Charted

lemma unify (h : a.Charted T) (ha : a.WellFormed) (hinv : a.Invertible) (he : T e) {merged : Bool}
    (hunify : a.unify e.this e.that e.offset = .ok (merged, b)) : b.Charted T := by
  obtain ⟨hthis, hthat⟩ := contains_of_unify hunify
  rcases ha.unify_cases hthis hthat e.offset with ⟨-, hunify'⟩ | ⟨hdiff, b', hunify', hm⟩
  · rw [hunify] at hunify'
    cases hunify'
    exact h
  · rw [hunify] at hunify'
    cases hunify'
    have hscale := Affine.scale_ne_zero hdiff.2
    have hbound := Merged.bound ha.toLinked hinv hdiff.1 hm
    have hb := hm.wellFormed.toLinked
    have hinv' := hm.invertible ha.toLinked hinv hscale
    -- a variable that was in the group of another one is still unified with it as before
    have hold : ∀ {u v}, a.canonical u = a.canonical v → Composes T u v (b.between v u) := by
      intro u v huv
      rw [hm.between_eq ha.toLinked hinv hscale huv.symm]
      exact h u v huv
    intro u v huv
    rw [hm.canonical, hm.canonical] at huv
    split_ifs at huv with hu hv hv
    · exact hold (hu.trans hv.symm)
    · rw [← hb.between_comp hinv' u e.that v, ← hb.between_comp hinv' e.that e.this v,
        hb.between_swap hinv' e.this e.that, hbound.between]
      exact (hold hu).trans (.back he (hold huv))
    · rw [← hb.between_comp hinv' u e.this v, ← hb.between_comp hinv' e.this e.that v,
        hbound.between]
      exact (hold huv).trans (.forth he (hold hv.symm))
    · exact hold huv

lemma requests (h : a.Charted T) (ha : a.WellFormed) (hinv : a.Invertible)
    (hrs : a.Requests rs b) (hT : ∀ r ∈ rs, T r.toTie) : b.Charted T := by
  induction hrs with
  | nil => exact h
  | cons hunify _ ih =>
      have hab := unifies_of_unify hunify
      exact ih (h.unify ha hinv (hT _ List.mem_cons_self) hunify) (ha.unifies hab).1
        (ha.invertible_unifies hinv hab) fun r hr => hT r (List.mem_cons_of_mem _ hr)

/-- The map between the roots of two variables that are to be tied is one along a chain. -/
lemma composes_jointOffset (h : a.Charted T) (ha : a.Linked) (he : T e) :
    Composes T (a.canonical e.this) (a.canonical e.that)
      (a.jointOffset e.this e.that e.offset) := by
  have hroot := fun u => ha.offset_of_canonical (ha.canonical_canonical u)
  have hup : Composes T (a.canonical e.this) e.this (a.offset e.this) := by
    have := h _ _ (ha.canonical_canonical e.this)
    rwa [between, hroot, Affine.inverse_identity, Affine.identity_comp] at this
  have hdown : Composes T e.that (a.canonical e.that) (a.offset e.that).inverse := by
    have := h _ _ (ha.canonical_canonical e.that).symm
    rwa [between, hroot, Affine.comp_identity] at this
  rw [ha.jointOffset_eq, Affine.comp_assoc]
  exact hup.trans (.forth he hdown)

end Charted

/-! ## Forests -/

/-- No map along a chain of ties is degenerate. -/
def Regular (ties : List (Tie α)) : Prop :=
  ∀ u v f, Composes (· ∈ ties) u v f → f.isDegenerate = false

/-- The ties of a forest do not stand in each other's way: all of them are bound, whatever is asked
for after them. -/
theorem bound_of_forest {first rest : List (Request α)}
    (hrun : a.reset.Requests (first ++ rest) b) (hforest : Forest (first.map Request.toTie))
    (hregular : Regular (first.map Request.toTie)) :
    ∀ e ∈ first.map Request.toTie, b.Bound e := by
  intro e he
  obtain ⟨r, hr, rfl⟩ := List.mem_map.1 he
  obtain ⟨before, after, rfl⟩ := List.append_of_mem hr
  rw [List.map_append, List.map_cons] at hforest hregular
  have hall : r.toTie ∈ before.map Request.toTie ++ r.toTie :: after.map Request.toTie :=
    List.mem_append_right _ List.mem_cons_self
  -- the arena that the request finds is what the ties before it have led to
  have hfound : a.reset.Requests before r.found := by
    rw [List.append_assoc] at hrun
    obtain ⟨c, hbefore, hrest⟩ := hrun.split
    cases hrest
    exact hbefore
  have ha := wellFormed_reset a
  refine ha.requests_bound (invertible_reset a) hrun r (List.mem_append_left _ hr) ⟨?_, ?_⟩
  · intro hsame
    rw [canonical_eq_iff_chained hfound] at hsame
    refine hforest _ _ _ rfl (hsame.mono fun e ⟨q, hq, _, he⟩ => ?_)
    exact List.mem_append_left _ (he ▸ List.mem_map_of_mem hq)
  · have hcharted := (charted_reset (· ∈ before.map Request.toTie ++
      r.toTie :: after.map Request.toTie) a).requests ha (invertible_reset a) hfound
      fun q hq => List.mem_append_left _ (List.mem_map_of_mem hq)
    exact hregular _ _ _
      (hcharted.composes_jointOffset (ha.unifies hfound.unifies).1.toLinked hall)

end Arena

end SketchSolver
