import Mathlib
import SketchSolver.Proofs.Arena.Alike

/-!
# One arena as a part of another one

`Arena.Part a b` says that `b` has the variables of `a`, unified with each other in the same way,
and that everything else in `b` stands alone.  Nothing is said about the values, nor about the order
of the variables.

* `Part.simulates` — what can be done in the part can be done in the whole, with the same answers.
* `Part.reset` — without unifications, an arena is a part of every arena that has its variables.
* `Arena.restrict` — any variables of an arena make up an arena of their own.  So two arenas have a
  common part, which has the variables that are in both.
-/

namespace SketchSolver

namespace Arena

/-- The arena of the variables that are to be kept. -/
def restrict {α : Type} (a : Arena α) (keep : VarId → Bool) : Arena α :=
  ⟨a.vars.filter fun k _ => keep k⟩

@[simp] lemma contains_restrict {α : Type} (a : Arena α) (keep : VarId → Bool) (k : VarId) :
    (a.restrict keep).contains k = (keep k && a.contains k) := by
  rw [contains, OrderedMap.contains, restrict, OrderedMap.get?_filter_of_key]
  cases keep k <;> rfl

variable {α : Type} [Scalar α] {a b a' b' : Arena α}

/-- The variables of `a` have the same links in `b`, and all others stand alone there. -/
structure Part (a b : Arena α) : Prop where
  left : a.WellFormed
  right : b.WellFormed
  link : ∀ {k}, a.contains k = true → b.link? k = a.link? k
  alone : ∀ {k}, a.contains k = false → b.contains k = true → b.link? k = some .alone

namespace Part

lemma contains (h : a.Part b) {k : VarId} (hk : a.contains k = true) : b.contains k = true := by
  rw [contains_iff_link?, h.link hk, ← contains_iff_link?]
  exact hk

lemma link_of_some (h : a.Part b) {k : VarId} {l : Link α} (hk : a.link? k = some l) :
    b.link? k = some l :=
  (h.link (contains_of_link? hk)).trans hk

/-- Looking up a variable gives the same answer, whether the part has the variable or not. -/
lemma resolve (h : a.Part b) : b.resolve = a.resolve := by
  funext k
  rcases ha : a.link? k with _ | ⟨members⟩ | ⟨into, offset⟩
  · have habsent := (link?_eq_none_iff a k).1 ha
    rw [resolve_of_absent habsent]
    by_cases hk : b.contains k = true
    · exact resolve_of_root (h.alone habsent hk)
    · exact resolve_of_absent (Bool.not_eq_true _ ▸ hk)
  · rw [resolve_of_root ha, resolve_of_root (h.link_of_some ha)]
  · rw [h.left.resolve_absorbed ha, h.right.resolve_absorbed (h.link_of_some ha)]

lemma canonical (h : a.Part b) : b.canonical = a.canonical := by
  funext k
  rw [Arena.canonical, Arena.canonical, h.resolve]

lemma offset (h : a.Part b) : b.offset = a.offset := by
  funext k
  rw [Arena.offset, Arena.offset, h.resolve]

lemma equals (h : a.Part b) (this that : VarId) : a.equals this that = b.equals this that := by
  rw [Arena.equals, Arena.equals, h.resolve]

/-! ## Unifying -/

lemma jointOffset (h : a.Part b) : b.jointOffset = a.jointOffset := by
  funext this that f
  rw [Arena.jointOffset, Arena.jointOffset, h.canonical, h.offset]

/-- Merging two groups of the part merges them in the whole, and no other variable takes part. -/
lemma merged {winner loser : VarId} {f : Affine α} (h : a.Part b) (ha : a.Merged a' winner loser f)
    (hb : b.Merged b' winner loser f) : a'.Part b' := by
  obtain ⟨mine, hmine⟩ := ha.winnerRoot
  obtain ⟨theirs, htheirs⟩ := ha.loserRoot
  have hleft := h.left.link?_joined hmine htheirs ha.distinct f
  have hright :=
    h.right.link?_joined (h.link_of_some hmine) (h.link_of_some htheirs) ha.distinct f
  refine ⟨ha.wellFormed, hb.wellFormed, fun {k} hk => ?_, fun {k} hk hk' => ?_⟩
  · rw [contains_of_ids ha.ids] at hk
    rw [hb.link, ha.link, hright, hleft, h.offset, h.link hk]
  · rw [contains_of_ids ha.ids] at hk
    rw [contains_of_ids hb.ids] at hk'
    have hmem : ∀ {l : Link α}, a.link? k ≠ some l := fun {l} hl => by
      rw [contains_of_link? hl] at hk
      cases hk
    rw [hb.link, hright, if_neg fun heq => hmem (heq ▸ htheirs),
      if_neg fun heq => hmem (heq ▸ hmine), if_neg, h.alone hk hk']
    intro hk
    obtain ⟨o, ho⟩ := h.left.absorbed htheirs hk
    exact hmem ho

/-- **What can be done in the part can be done in the whole**, with the same answers. -/
theorem simulates : Simulates Eq (Part (α := α)) where
  refl _ := rfl
  canonical h := h.canonical
  equals h := h.equals
  unify {a b f g} h hfg this that := by
    obtain rfl := Affine.ext hfg.scale hfg.shift
    refine h.left.echoes_unify h.right (fun k hk => h.contains hk) h.canonical ?_ h ?_
    · rw [h.jointOffset]
    · intro a' b' _ ha hb
      rw [h.jointOffset] at hb
      exact h.merged ha hb

/-- Without unifications, an arena is a part of every arena that has its variables. -/
lemma reset (h : ∀ k, a.contains k = true → b.contains k = true) : a.reset.Part b.reset := by
  refine ⟨wellFormed_reset a, wellFormed_reset b, fun {k} hk => ?_, fun {k} _ hk => ?_⟩
  · rw [contains_of_ids (ids_reset a)] at hk
    rw [alone_reset a hk, alone_reset b (h k hk)]
  · rw [contains_of_ids (ids_reset b)] at hk
    exact alone_reset b hk

end Part

end Arena

end SketchSolver
