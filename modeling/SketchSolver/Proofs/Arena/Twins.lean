import Mathlib
import SketchSolver.Proofs.Arena.WellFormed
import SketchSolver.Proofs.Traversal

/-!
# Two arenas side by side

What a computation reads and writes is a matter of groups: a write to one variable changes its
whole group.  A set of groups is given by a predicate on canonical variables.

* `Arena.Within W a b` — `b` differs from `a` at most in the values of the groups in `W`.
* `Arena.Twins R W a₀ b₀ a b` — two runs, which began at `a₀` and `b₀` and are now at `a` and `b`:
  each has changed groups in `W` only, and they agree on the groups in `R`.

A computation that reads groups in `R` only and writes groups in `W` only takes twins to twins, with
the same answer.  Reading (`Twins.both_value`) and writing (`Twins.both_setValue`) do so; the rest
is built from these two.
-/

namespace SketchSolver

namespace Arena

variable {α : Type} [Scalar α] {R W W' : VarId → Prop} {a b c a₀ b₀ a₁ b₁ : Arena α}

/-! ## Changes within some groups -/

/-- The second arena is well-formed and differs from the first at most in the values of some
groups. -/
structure Within (W : VarId → Prop) (a b : Arena α) : Prop where
  wellFormed : b.WellFormed
  shape : b.shape = a.shape
  frame : ∀ v, ¬ W (a.canonical v) → b.value? v = a.value? v

namespace Within

lemma refl (h : a.WellFormed) : Within W a a := ⟨h, rfl, fun _ _ => rfl⟩

lemma canonical (h : Within W a b) : b.canonical = a.canonical := canonical_congr h.shape

lemma contains (h : Within W a b) (v : VarId) : b.contains v = a.contains v :=
  contains_congr h.shape v

lemma trans (hab : Within W a b) (hbc : Within W b c) : Within W a c where
  wellFormed := hbc.wellFormed
  shape := hbc.shape.trans hab.shape
  frame v hv := by
    rw [hbc.frame v (by rwa [hab.canonical]), hab.frame v hv]

lemma mono (h : Within W a b) (hW : ∀ v, W v → W' v) : Within W' a b :=
  ⟨h.wellFormed, h.shape, fun v hv => h.frame v fun hv' => hv (hW _ hv')⟩

end Within

/-- Two well-formed arenas of the same shape whose roots agree have the same values. -/
lemma WellFormed.value?_congr_of_roots (ha : a.WellFormed) (hb : b.WellFormed)
    (hshape : b.shape = a.shape) {v : VarId}
    (hroot : b.value? (a.canonical v) = a.value? (a.canonical v)) : b.value? v = a.value? v := by
  rw [hb.value?_eq_lower, ha.value?_eq_lower, canonical_congr hshape, lower_congr hshape, hroot]

/-- A variable that is there, in one of the groups of `R`. -/
structure Inside (R : VarId → Prop) (a : Arena α) (v : VarId) : Prop where
  contains : a.contains v = true
  group : R (a.canonical v)

/-! ## Twins -/

/-- Two runs that have changed groups in `W` only and agree on the groups in `R`. -/
structure Twins (R W : VarId → Prop) (a₀ b₀ a b : Arena α) : Prop where
  left : Within W a₀ a
  right : Within W b₀ b
  shape : b₀.shape = a₀.shape
  agree : ∀ v, R (a₀.canonical v) → a.value? v = b.value? v

namespace Twins

lemma start (ha : a.WellFormed) (hb : b.WellFormed) (hshape : b.shape = a.shape)
    (hagree : ∀ v, R (a.canonical v) → a.value? v = b.value? v) : Twins R W a b a b :=
  ⟨.refl ha, .refl hb, hshape, hagree⟩

/-- A run is its own twin. -/
lemma self (ha : a.WellFormed) : Twins R W a a a a :=
  start ha ha rfl fun _ _ => rfl

lemma shape_left (h : Twins R W a₀ b₀ a b) : a.shape = a₀.shape := h.left.shape

lemma shape_right (h : Twins R W a₀ b₀ a b) : b.shape = a₀.shape := h.right.shape.trans h.shape

lemma canonical_left (h : Twins R W a₀ b₀ a b) : a.canonical = a₀.canonical :=
  canonical_congr h.shape_left

lemma canonical_right (h : Twins R W a₀ b₀ a b) : b.canonical = a₀.canonical :=
  canonical_congr h.shape_right

/-- Two runs that agree on some groups agree on fewer. -/
lemma weaken {R' : VarId → Prop} (h : Twins R W a₀ b₀ a b) (hR : ∀ v, R' v → R v) :
    Twins R' W a₀ b₀ a b :=
  { h with agree := fun v hv => h.agree v (hR _ hv) }

/-- Starting anew with fewer groups to write. -/
lemma restart (h : Twins R W a₀ b₀ a b) : Twins R W' a b a b :=
  start h.left.wellFormed h.right.wellFormed (h.shape_right.trans h.shape_left.symm)
    fun v hv => h.agree v (by rwa [h.canonical_left] at hv)

/-- One run after the other. -/
lemma trans (h₁ : Twins R W a₀ b₀ a₁ b₁) (h₂ : Twins R W' a₁ b₁ a b) (hW : ∀ v, W' v → W v) :
    Twins R W a₀ b₀ a b where
  left := h₁.left.trans (h₂.left.mono hW)
  right := h₁.right.trans (h₂.right.mono hW)
  shape := h₁.shape
  agree v hv := h₂.agree v (by rwa [h₁.canonical_left])

/-- Reading gives the same value on both sides. -/
lemma both_value (h : Twins R W a₀ b₀ a b) {v : VarId} (hv : Inside R a₀ v) :
    Both Eq (a.value v) (b.value v) := by
  have hcontains : a.contains v = true := (h.left.contains v).trans hv.contains
  obtain ⟨x, hx⟩ := (contains_iff_value? a v).1 hcontains
  have hy : b.value? v = some x := (h.agree v hv.group).symm.trans hx
  exact ⟨x, x, (value_eq_ok_iff a v x).2 hx, (value_eq_ok_iff b v x).2 hy, rfl⟩

/-- Writing the same value on both sides keeps twins. -/
lemma both_setValue (h : Twins R W a₀ b₀ a b) {v : VarId} (hv : Inside W a₀ v) (x : α) :
    Both (Twins R W a₀ b₀) (a.setValue v x) (b.setValue v x) := by
  have hshape : b.shape = a.shape := h.shape_right.trans h.shape_left.symm
  have hcanonical : b.canonical = a.canonical := canonical_congr hshape
  have ha : a.contains v = true := (h.left.contains v).trans hv.contains
  have hb : b.contains v = true := (contains_congr hshape v).trans ha
  obtain ⟨a', hseta, hwfa, hshapea, hvaluea⟩ := h.left.wellFormed.setValue_spec ha x
  obtain ⟨b', hsetb, hwfb, hshapeb, hvalueb⟩ := h.right.wellFormed.setValue_spec hb x
  rw [lower_congr hshape, lift_congr hshape, hcanonical] at hvalueb
  -- a variable outside the groups that may be written is not in the group of `v`
  have hother : ∀ k, ¬ W (a₀.canonical k) → a.canonical k ≠ a.canonical v := by
    intro k hk heq
    rw [h.canonical_left] at heq
    exact hk (heq ▸ hv.group)
  refine ⟨a', b', hseta, hsetb, ⟨hwfa, hshapea.trans h.left.shape, fun k hk => ?_⟩,
    ⟨hwfb, hshapeb.trans h.right.shape, fun k hk => ?_⟩, h.shape, fun k hk => ?_⟩
  · rw [hvaluea, if_neg (hother k hk), h.left.frame k hk]
  · have hk' : ¬ W (a₀.canonical k) := by rwa [← canonical_congr h.shape]
    rw [hvalueb, if_neg (hother k hk'), h.right.frame k hk]
  · rw [hvaluea, hvalueb]
    split
    · rfl
    · exact h.agree k hk

end Twins

/-- Two runs agree on what they agreed on at the start, if neither of them writes it. -/
lemma Within.twins (ha : Within W a₀ a) (hb : Within W b₀ b)
    (h : Twins R W a₀ b₀ a₀ b₀) (hR : ∀ v, R v → ¬ W v) : Twins R W a₀ b₀ a b where
  left := ha
  right := hb
  shape := h.shape
  agree v hv := by
    have hv' : ¬ W (b₀.canonical v) := by
      rw [canonical_congr h.shape]
      exact hR _ hv
    rw [ha.frame v (hR _ hv), hb.frame v hv', h.agree v hv]

/-- Two runs side by side that have given the same answer. -/
def Agreed {β : Type} (R W : VarId → Prop) (a₀ b₀ : Arena α) (x y : β × Arena α) : Prop :=
  x.1 = y.1 ∧ Twins R W a₀ b₀ x.2 y.2

end Arena

end SketchSolver
