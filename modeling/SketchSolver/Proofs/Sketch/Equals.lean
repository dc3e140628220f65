import Mathlib
import SketchSolver.Proofs.Sketch.Consistent

/-!
# Which variables are equal

Two variables count as equal if they have one canonical variable and the maps that lead to it
agree up to the tolerance, scale by scale and shift by shift.  With exact numbers:

* `Affine.nearlyEq_iff`, `Affine.gap_of_nearlyEq` — what it is for maps to agree, and how far apart
  two arguments can be that they take to one value.
* `Arena.WellFormed.coincide_iff` — two variables have the same value under every assignment of a
  canonical variable exactly if it is that of both and their maps to it are the same.
* `Arena.Spaced` — no two of some variables have maps that agree without being the same.
* `equivalence_equals`, `Intact.equivalence_handlesEqual` — then equality is an equivalence
  relation.
* `reachable_equals` — what equality says of variables and handles, spaced or not.
* `drifted_near` — why the tolerance matters: three variables of which the outer two are not equal,
  although the middle one is equal to both.
-/

namespace SketchSolver

/-! ## Maps that agree -/

namespace Affine

variable {α : Type} [Exact α] {f g : Affine α}

lemma nearlyEq_iff :
    f.nearlyEq g = true ↔
      |f.scale - g.scale| < Scalar.tolerance ∧ |f.shift - g.shift| < Scalar.tolerance := by
  rw [nearlyEq, Bool.and_eq_true, decide_eq_true_eq, decide_eq_true_eq]
  rfl

lemma nearlyEq_refl (f : Affine α) : f.nearlyEq f = true := by
  rw [nearlyEq_iff, sub_self, sub_self, abs_zero]
  exact ⟨Exact.tolerance_pos, Exact.tolerance_pos⟩

lemma nearlyEq_comm : f.nearlyEq g = true ↔ g.nearlyEq f = true := by
  rw [nearlyEq_iff, nearlyEq_iff, abs_sub_comm f.scale, abs_sub_comm f.shift]

/-- Maps that agree take no two arguments to one value that are far apart. -/
lemma gap_of_nearlyEq (hnear : f.nearlyEq g = true) {y z : α} (hsame : f.apply y = g.apply z) :
    |f.scale| * |y - z| < Scalar.tolerance * (1 + |z|) := by
  obtain ⟨hscale, hshift⟩ := nearlyEq_iff.1 hnear
  have hdifference : f.scale * (y - z) = (g.scale - f.scale) * z + (g.shift - f.shift) := by
    rw [apply_eq, apply_eq] at hsame
    linear_combination hsame
  calc |f.scale| * |y - z|
      = |(g.scale - f.scale) * z + (g.shift - f.shift)| := by rw [← abs_mul, hdifference]
    _ ≤ |g.scale - f.scale| * |z| + |g.shift - f.shift| := by
        rw [← abs_mul]
        exact abs_add_le _ _
    _ = |f.scale - g.scale| * |z| + |f.shift - g.shift| := by
        rw [abs_sub_comm g.scale, abs_sub_comm g.shift]
    _ < Scalar.tolerance * |z| + Scalar.tolerance :=
        add_lt_add_of_le_of_lt (mul_le_mul_of_nonneg_right hscale.le (abs_nonneg z)) hshift
    _ = Scalar.tolerance * (1 + |z|) := by ring

/-- A map is known by its values. -/
lemma ext_of_apply (hsame : ∀ x, f.apply x = g.apply x) : f = g := by
  have hshift : f.shift = g.shift := by simpa [apply_eq] using hsame 0
  have hscale : f.scale = g.scale := by simpa [apply_eq, hshift] using hsame 1
  exact Affine.ext hscale hshift

end Affine

/-! ## Variables that coincide -/

namespace Arena

variable {α : Type} [Exact α] {a : Arena α} {u v : VarId}

/-- Two variables have one canonical variable, and the same map leads there. -/
def Coincide (a : Arena α) (u v : VarId) : Prop :=
  a.canonical u = a.canonical v ∧ a.offset u = a.offset v

/-- The maps of any two of these variables in one group are the same, or at least the tolerance
apart. -/
def Spaced (a : Arena α) (vars : Set VarId) : Prop :=
  ∀ u ∈ vars, ∀ v ∈ vars, a.canonical u = a.canonical v → a.offset u ≠ a.offset v →
    Scalar.tolerance ≤ |(a.offset u).scale - (a.offset v).scale| ∨
      Scalar.tolerance ≤ |(a.offset u).shift - (a.offset v).shift|

/-- What an assignment of a canonical variable does. -/
lemma WellFormed.setValue_canonical (h : a.WellFormed) (hu : a.contains u = true) (x : α) :
    ∃ b, a.setValue (a.canonical u) x = .ok b ∧
      ∀ k, b.value? k =
        if a.canonical k = a.canonical u then some (a.lower k x) else a.value? k := by
  have hroot := h.canonical_canonical u
  obtain ⟨b, hset, -, -, hvalue⟩ := h.setValue_spec (h.contains_canonical hu) x
  rw [hroot, lift_of_canonical hroot] at hvalue
  exact ⟨b, hset, hvalue⟩

/-- Two variables have the same value under every assignment of a canonical variable exactly if it
is that of both and their maps to it are the same. -/
lemma WellFormed.coincide_iff (h : a.WellFormed) (hinv : a.Invertible) (hu : a.contains u = true) :
    a.Coincide u v ↔
      ∀ x, ∃ b, a.setValue (a.canonical u) x = .ok b ∧ b.value? u = b.value? v := by
  constructor
  · rintro ⟨hsame, hoffset⟩ x
    obtain ⟨b, hset, hvalue⟩ := h.setValue_canonical hu x
    refine ⟨b, hset, ?_⟩
    rw [hvalue, hvalue, if_pos rfl, if_pos hsame.symm, h.lower_eq, h.lower_eq, hoffset]
  · intro hall
    have hread : ∀ x, some (a.lower u x) =
        if a.canonical v = a.canonical u then some (a.lower v x) else a.value? v := by
      intro x
      obtain ⟨b, hset, hvalue⟩ := h.setValue_canonical hu x
      obtain ⟨b', hset', hsame⟩ := hall x
      rw [hset] at hset'
      cases hset'
      rwa [hvalue, hvalue, if_pos rfl] at hsame
    have hgroup : a.canonical v = a.canonical u := by
      by_contra hapart
      -- then `v` does not move, but `u` does
      have hstill : a.lower u 0 = a.lower u 1 :=
        Option.some.inj (by rw [hread 0, hread 1, if_neg hapart, if_neg hapart])
      have hzero := h.toLinked.apply_lower hinv u 0
      rw [hstill, h.apply_lower hinv] at hzero
      exact one_ne_zero hzero
    refine ⟨hgroup.symm, Affine.ext_of_apply fun y => ?_⟩
    have hlower := hread ((a.offset u).apply y)
    rw [if_pos hgroup, Option.some.injEq, h.lower_apply hinv] at hlower
    calc (a.offset u).apply y
        = (a.offset v).apply (a.lower v ((a.offset u).apply y)) := (h.apply_lower hinv v _).symm
      _ = (a.offset v).apply y := by rw [← hlower]

lemma equals_iff : a.equals u v = true ↔
    a.canonical u = a.canonical v ∧ (a.offset u).nearlyEq (a.offset v) = true := by
  rw [equals, Bool.and_eq_true, decide_eq_true_eq]
  rfl

/-- How far apart the values of equal variables are. -/
lemma WellFormed.gap_of_equals (h : a.WellFormed) (hinv : a.Invertible)
    (hequal : a.equals u v = true) {y z : α} (hy : a.value? u = some y) (hz : a.value? v = some z) :
    |(a.offset u).scale| * |y - z| < Scalar.tolerance * (1 + |z|) := by
  obtain ⟨hroot, hnear⟩ := equals_iff.1 hequal
  rw [h.value?_eq_lower, Option.map_eq_some_iff] at hy hz
  obtain ⟨x, hx, rfl⟩ := hy
  obtain ⟨x', hx', rfl⟩ := hz
  rw [hroot, hx'] at hx
  cases hx
  exact Affine.gap_of_nearlyEq hnear (by rw [h.apply_lower hinv, h.apply_lower hinv])

/-- Variables that coincide have the same value. -/
lemma WellFormed.value?_eq_of_coincide (h : a.WellFormed) (hsame : a.Coincide u v) :
    a.value? u = a.value? v := by
  have hlower : a.lower u = a.lower v := by
    funext x
    rw [h.lower_eq, h.lower_eq, hsame.2]
  rw [h.value?_eq_lower, h.value?_eq_lower v, hsame.1, hlower]

lemma equals_of_coincide (hsame : a.Coincide u v) : a.equals u v = true := by
  rw [equals_iff, hsame.2]
  exact ⟨hsame.1, Affine.nearlyEq_refl _⟩

lemma equals_comm : a.equals u v = true ↔ a.equals v u = true := by
  rw [equals_iff, equals_iff, Affine.nearlyEq_comm, eq_comm]

/-- Among spaced variables equality is sound. -/
lemma Spaced.equals_iff_coincide {vars : Set VarId} (hspaced : a.Spaced vars) (hu : u ∈ vars)
    (hv : v ∈ vars) : a.equals u v = true ↔ a.Coincide u v := by
  refine ⟨fun hequal => ?_, equals_of_coincide⟩
  obtain ⟨hroot, hnear⟩ := equals_iff.1 hequal
  obtain ⟨hscale, hshift⟩ := Affine.nearlyEq_iff.1 hnear
  refine ⟨hroot, ?_⟩
  by_contra hdifferent
  rcases hspaced u hu v hv hroot hdifferent with hfar | hfar
  · exact absurd hscale (not_lt.2 hfar)
  · exact absurd hshift (not_lt.2 hfar)

end Arena

/-! ## Equality in a sketch -/

namespace Sketch

section

variable {α : Type} [Scalar α] {s : Sketch α} {u v : VarId} {h k : HandleId} {same : Bool}

lemma equals_eq_ok_iff :
    s.equals u v = .ok same ↔
      s.arena.contains u = true ∧ s.arena.contains v = true ∧ s.arena.equals u v = same := by
  rw [equals]
  constructor
  · intro h
    obtain ⟨⟨⟩, hu, h⟩ := bind_eq_ok_iff.1 h
    obtain ⟨⟨⟩, hv, h⟩ := bind_eq_ok_iff.1 h
    exact ⟨contains_of_discard_find hu, contains_of_discard_find hv, Except.ok.inj h⟩
  · rintro ⟨hu, hv, rfl⟩
    obtain ⟨_, hu⟩ := Arena.find_ok hu
    obtain ⟨_, hv⟩ := Arena.find_ok hv
    rw [hu, hv]
    rfl

lemma handlesEqual_eq_ok_iff :
    s.handlesEqual h k = .ok same ↔
      ∃ c d, s.handles.coords? h = some c ∧ s.handles.coords? k = some d ∧
        c.sameAs d s.arena = same := by
  rw [handlesEqual, HandleTable.equals, HandleTable.find, HandleTable.find, HandleTable.coords?_eq,
    HandleTable.coords?_eq]
  cases s.handles.get? h <;> cases s.handles.get? k <;> simp [Coords.sameAs]

end

section

variable {α : Type} [Exact α] {s : Sketch α} {u v : VarId} {j k : HandleId}

/-- How far apart equal variables are, now and under every assignment of their canonical
variable. -/
lemma Reachable.gap (h : Reachable s) (hequal : s.equals u v = .ok true) {b : Arena α}
    (hb : b = s.arena ∨ ∃ x, s.arena.setValue (s.arena.canonical u) x = .ok b) :
    ∃ y z, b.value? u = some y ∧ b.value? v = some z ∧
      |(s.arena.offset u).scale| * |y - z| < Scalar.tolerance * (1 + |z|) := by
  obtain ⟨hu, hv, hequal⟩ := equals_eq_ok_iff.1 hequal
  have ⟨hwf, hshape⟩ : b.WellFormed ∧ b.shape = s.arena.shape := by
    rcases hb with rfl | ⟨x, hset⟩
    · exact ⟨h.intact.arena, rfl⟩
    · obtain ⟨hwf, hshape, -⟩ := h.intact.arena.of_setValue hset
      exact ⟨hwf, hshape⟩
  rw [← Arena.contains_congr hshape, Arena.contains_iff_value?] at hu hv
  obtain ⟨y, hy⟩ := hu
  obtain ⟨z, hz⟩ := hv
  rw [← Arena.equals_congr hshape] at hequal
  have hgap := hwf.gap_of_equals (h.invertible.of_sheds (.of_shape hshape)) hequal hy hz
  rw [Arena.offset, Arena.resolve_congr hshape] at hgap
  exact ⟨y, z, hy, hz, hgap⟩

/-- Handles are equal if their coordinates are. -/
lemma Intact.handlesEqual_iff (h : s.Intact) {c d : Coords} (hc : s.handles.coords? j = some c)
    (hd : s.handles.coords? k = some d) :
    s.handlesEqual j k = .ok true ↔
      s.equals c.x d.x = .ok true ∧ s.equals c.y d.y = .ok true := by
  obtain ⟨hcx, hcy⟩ := h.grounded j c hc
  obtain ⟨hdx, hdy⟩ := h.grounded k d hd
  simp [handlesEqual_eq_ok_iff, equals_eq_ok_iff, hc, hd, hcx, hcy, hdx, hdy, Coords.sameAs]

lemma equals_refl (hu : s.arena.contains u = true) : s.equals u u = .ok true :=
  equals_eq_ok_iff.2 ⟨hu, hu, Arena.equals_of_coincide ⟨rfl, rfl⟩⟩

lemma equals_symm (hequal : s.equals u v = .ok true) : s.equals v u = .ok true := by
  obtain ⟨hu, hv, hequal⟩ := equals_eq_ok_iff.1 hequal
  exact equals_eq_ok_iff.2 ⟨hv, hu, Arena.equals_comm.1 hequal⟩

lemma Intact.handlesEqual_refl (h : s.Intact) (hj : s.handles.contains j = true) :
    s.handlesEqual j j = .ok true := by
  obtain ⟨c, hc⟩ := (HandleTable.contains_iff_coords? j).1 hj
  obtain ⟨hx, hy⟩ := h.grounded j c hc
  exact (h.handlesEqual_iff hc hc).2 ⟨equals_refl hx, equals_refl hy⟩

lemma Intact.handlesEqual_symm (h : s.Intact) (hequal : s.handlesEqual j k = .ok true) :
    s.handlesEqual k j = .ok true := by
  obtain ⟨c, d, hc, hd, -⟩ := handlesEqual_eq_ok_iff.1 hequal
  obtain ⟨hx, hy⟩ := (h.handlesEqual_iff hc hd).1 hequal
  exact (h.handlesEqual_iff hd hc).2 ⟨equals_symm hx, equals_symm hy⟩

/-- Among spaced variables equality is an equivalence relation. -/
lemma equivalence_equals {vars : Set VarId} (hspaced : s.arena.Spaced vars) :
    Equivalence fun u v : {u // u ∈ vars ∧ s.arena.contains u = true} =>
      s.equals u v = .ok true := by
  refine ⟨fun u => equals_refl u.2.2, equals_symm, ?_⟩
  intro u v w huv hvw
  obtain ⟨hu, -, huv⟩ := equals_eq_ok_iff.1 huv
  obtain ⟨-, hw, hvw⟩ := equals_eq_ok_iff.1 hvw
  obtain ⟨hroot, hoffset⟩ := (hspaced.equals_iff_coincide u.2.1 v.2.1).1 huv
  obtain ⟨hroot', hoffset'⟩ := (hspaced.equals_iff_coincide v.2.1 w.2.1).1 hvw
  exact equals_eq_ok_iff.2
    ⟨hu, hw, Arena.equals_of_coincide ⟨hroot.trans hroot', hoffset.trans hoffset'⟩⟩

/-- Among handles with spaced coordinates equality is an equivalence relation. -/
lemma Intact.equivalence_handlesEqual (h : s.Intact) {vars : Set VarId}
    (hspaced : s.arena.Spaced vars) :
    Equivalence fun j k : {j // ∃ c, s.handles.coords? j = some c ∧ c.x ∈ vars ∧ c.y ∈ vars} =>
      s.handlesEqual j k = .ok true := by
  refine ⟨?_, h.handlesEqual_symm, ?_⟩
  · rintro ⟨j, c, hc, -, -⟩
    exact h.handlesEqual_refl ((HandleTable.contains_iff_coords? j).2 ⟨c, hc⟩)
  · rintro ⟨j, c, hc, hcx, hcy⟩ ⟨k, d, hd, hdx, hdy⟩ ⟨l, e, he, hex, hey⟩ hjk hkl
    have hvars := equivalence_equals hspaced
    obtain ⟨hclive, hclive'⟩ := h.grounded j c hc
    obtain ⟨hdlive, hdlive'⟩ := h.grounded k d hd
    obtain ⟨helive, helive'⟩ := h.grounded l e he
    rw [h.handlesEqual_iff hc hd] at hjk
    rw [h.handlesEqual_iff hd he] at hkl
    refine (h.handlesEqual_iff hc he).2 ⟨?_, ?_⟩
    · exact @Equivalence.trans _ _ hvars ⟨c.x, hcx, hclive⟩ ⟨d.x, hdx, hdlive⟩ ⟨e.x, hex, helive⟩
        hjk.1 hkl.1
    · exact @Equivalence.trans _ _ hvars ⟨c.y, hcy, hclive'⟩ ⟨d.y, hdy, hdlive'⟩
        ⟨e.y, hey, helive'⟩ hjk.2 hkl.2

end

/-! ## Main result -/

variable {α : Type} [Exact α] {s : Sketch α}

/-- **Equality.**  In every reachable sketch with exact numbers:

* equality answers for live variables, and for live handles, only;
* two variables are equal exactly if they have one canonical variable and the scales and the shifts
  of the maps to it differ by less than the tolerance.  So are variables that coincide, which are
  those that have the same value under every assignment of their canonical variable;
* equality is reflexive and symmetric, and now and under every assignment of the canonical variable
  the values of equal variables differ, to the scale of that variable, by less than the tolerance
  allows;
* two handles are equal exactly if their coordinates are, so all of this holds of them;
* among variables whose maps are the same or at least the tolerance apart, equality is sound and an
  equivalence relation, and so it is among the handles with such coordinates. -/
theorem reachable_equals (h : Reachable s) :
    let a := s.arena
    (∀ u v, (∃ same, s.equals u v = .ok same) ↔ a.contains u = true ∧ a.contains v = true) ∧
    (∀ u v, a.contains u = true → a.contains v = true →
      (s.equals u v = .ok true ↔ a.canonical u = a.canonical v ∧
        |(a.offset u).scale - (a.offset v).scale| < Scalar.tolerance ∧
        |(a.offset u).shift - (a.offset v).shift| < Scalar.tolerance) ∧
      (a.Coincide u v ↔ ∀ x, ∃ b, a.setValue (a.canonical u) x = .ok b ∧ b.value? u = b.value? v) ∧
      (a.Coincide u v → s.equals u v = .ok true)) ∧
    (∀ u, a.contains u = true → s.equals u u = .ok true) ∧
    (∀ u v, s.equals u v = .ok true → s.equals v u = .ok true) ∧
    (∀ u v, s.equals u v = .ok true → ∀ b, b = a ∨ (∃ x, a.setValue (a.canonical u) x = .ok b) →
      ∃ y z, b.value? u = some y ∧ b.value? v = some z ∧
        |(a.offset u).scale| * |y - z| < Scalar.tolerance * (1 + |z|)) ∧
    (∀ j k, (∃ same, s.handlesEqual j k = .ok same) ↔
      s.handles.contains j = true ∧ s.handles.contains k = true) ∧
    (∀ j k c d, s.handles.coords? j = some c → s.handles.coords? k = some d →
      (s.handlesEqual j k = .ok true ↔ s.equals c.x d.x = .ok true ∧ s.equals c.y d.y = .ok true)) ∧
    (∀ j, s.handles.contains j = true → s.handlesEqual j j = .ok true) ∧
    (∀ j k, s.handlesEqual j k = .ok true → s.handlesEqual k j = .ok true) ∧
    ∀ vars : Set VarId, a.Spaced vars →
      (Equivalence fun u v : {u // u ∈ vars ∧ a.contains u = true} => s.equals u v = .ok true) ∧
      (∀ u ∈ vars, ∀ v ∈ vars, s.equals u v = .ok true → a.Coincide u v ∧ a.value? u = a.value? v) ∧
      Equivalence fun j k : {j // ∃ c, s.handles.coords? j = some c ∧ c.x ∈ vars ∧ c.y ∈ vars} =>
        s.handlesEqual j k = .ok true := by
  have hwf := h.intact.arena
  refine ⟨fun u v => ?_, fun u v hu hv => ⟨?_, hwf.coincide_iff h.invertible hu, ?_⟩,
    fun u hu => equals_refl hu, fun u v => equals_symm, fun u v hequal b hb => h.gap hequal hb,
    fun j k => ?_, fun j k c d hc hd => h.intact.handlesEqual_iff hc hd,
    fun j hj => h.intact.handlesEqual_refl hj, fun j k => h.intact.handlesEqual_symm,
    fun vars hspaced => ⟨equivalence_equals hspaced, fun u hu v hv hequal => ?_,
      h.intact.equivalence_handlesEqual hspaced⟩⟩
  · simp [equals_eq_ok_iff]
  · rw [equals_eq_ok_iff, Arena.equals_iff, Affine.nearlyEq_iff]
    exact ⟨fun h => h.2.2, fun h => ⟨hu, hv, h⟩⟩
  · intro hsame
    exact equals_eq_ok_iff.2 ⟨hu, hv, Arena.equals_of_coincide hsame⟩
  · rw [HandleTable.contains_iff_coords?, HandleTable.contains_iff_coords?]
    constructor
    · rintro ⟨same, hequal⟩
      obtain ⟨c, d, hc, hd, -⟩ := handlesEqual_eq_ok_iff.1 hequal
      exact ⟨⟨c, hc⟩, ⟨d, hd⟩⟩
    · rintro ⟨⟨c, hc⟩, ⟨d, hd⟩⟩
      exact ⟨_, handlesEqual_eq_ok_iff.2 ⟨c, d, hc, hd, rfl⟩⟩
  · obtain ⟨-, -, hequal⟩ := equals_eq_ok_iff.1 hequal
    have hsame := (hspaced.equals_iff_coincide hu hv).1 hequal
    exact ⟨hsame, hwf.value?_eq_of_coincide hsame⟩

/-- Two variables that are related to a third one, once directly and once through a fourth. -/
def roundabout : Sketch ℚ :=
  (Operation.linear ⟨0⟩ 2 ⟨3⟩ 3.5).perform.after <|
    (Operation.linear ⟨1⟩ 2 ⟨2⟩ 3).perform.after <|
      (Operation.linear ⟨0⟩ 1 ⟨1⟩ 0.5).perform.after <|
        (Operation.addVariable 4 none).perform.after <|
          (Operation.addVariable 3 none).perform.after <|
            (Operation.addVariable 2 none).perform.after <|
              (Operation.addVariable 1 none).perform.after empty

lemma reachable_roundabout : Reachable roundabout :=
  .perform _ (.perform _ (.perform _ (.perform _ (.perform _ (.perform _ (.perform _
    (.withConfig _)))))))

-- only the last two have coinciding maps
example : roundabout.equals ⟨2⟩ ⟨3⟩ = .ok true ∧ roundabout.equals ⟨1⟩ ⟨2⟩ = .ok false := by
  decide +kernel

/-- Both ways lead to the same variable. -/
theorem equals_roundabout :
    roundabout.arena.Coincide ⟨2⟩ ⟨3⟩ ∧
      roundabout.arena.value? ⟨2⟩ = roundabout.arena.value? ⟨3⟩ := by
  have hspaced : roundabout.arena.Spaced {⟨1⟩, ⟨2⟩, ⟨3⟩} := by
    have hsame : roundabout.arena.offset ⟨2⟩ = roundabout.arena.offset ⟨3⟩ :=
      Affine.ext (by decide +kernel) (by decide +kernel)
    have hfar : Scalar.tolerance ≤
        |(roundabout.arena.offset ⟨1⟩).scale - (roundabout.arena.offset ⟨2⟩).scale| := by
      decide +kernel
    rintro u (rfl | rfl | rfl) v (rfl | rfl | rfl) hroot hdifferent
    all_goals
      first
      | (refine absurd ?_ hdifferent; simp [hsame]; done)
      | (refine Or.inl ?_; simpa [hsame, abs_sub_comm] using hfar)
  obtain ⟨-, -, -, -, -, -, -, -, -, hall⟩ := reachable_equals reachable_roundabout
  exact (hall _ hspaced).2.1 _ (by simp) _ (by simp) (by decide +kernel)

/-! ## Three variables that are near each other -/

/-- Three variables of one group, each a little less than the one before. -/
def drifted : Sketch ℚ :=
  (Operation.linear ⟨0⟩ 1 ⟨2⟩ 1.6e-5).perform.after <|
    (Operation.linear ⟨0⟩ 1 ⟨1⟩ 8e-6).perform.after <|
      (Operation.addVariable 0 none).perform.after <|
        (Operation.addVariable 0 none).perform.after <|
          (Operation.addVariable 0 none).perform.after empty

lemma reachable_drifted : Reachable drifted :=
  .perform _ (.perform _ (.perform _ (.perform _ (.perform _ (.withConfig _)))))

/-- **Near is not equal.**  Of three variables of one group the middle one counts as equal to both
others, which do not count as equal, and no two of them have the same value. -/
theorem drifted_near :
    Reachable drifted ∧
      drifted.equals ⟨0⟩ ⟨1⟩ = .ok true ∧ drifted.equals ⟨1⟩ ⟨2⟩ = .ok true ∧
      drifted.equals ⟨0⟩ ⟨2⟩ = .ok false ∧
      ¬ drifted.arena.Coincide ⟨0⟩ ⟨1⟩ ∧ ¬ drifted.arena.Coincide ⟨1⟩ ⟨2⟩ ∧
      drifted.arena.value? ⟨0⟩ = some 0 ∧ drifted.arena.value? ⟨1⟩ = some (-8e-6) ∧
      drifted.arena.value? ⟨2⟩ = some (-1.6e-5) := by
  have hshift : (drifted.arena.offset ⟨0⟩).shift ≠ (drifted.arena.offset ⟨1⟩).shift ∧
      (drifted.arena.offset ⟨1⟩).shift ≠ (drifted.arena.offset ⟨2⟩).shift := by
    decide +kernel
  refine ⟨reachable_drifted, by decide +kernel, by decide +kernel, by decide +kernel,
    fun hsame => ?_, fun hsame => ?_, by decide +kernel, by decide +kernel, by decide +kernel⟩
  · exact hshift.1 (by rw [hsame.2])
  · exact hshift.2 (by rw [hsame.2])

end Sketch

end SketchSolver
