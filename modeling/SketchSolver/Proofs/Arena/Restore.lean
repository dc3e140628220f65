import Mathlib
import SketchSolver.Proofs.Arena.Alike

/-!
# Restoring an arena

A saved arena comes without unifications.  They are made again while the sketch is loaded, and in
between variables are added once more, to say what they stand for.  That is no matter as long as a
variable stands alone.

* `Arena.Restates a b vs` — what comes of adding the variables `vs` once more.
* `Arena.bare` — an arena as it is saved: variables and values.
* `Arena.Restores a b c` — `c` has the unifications of `b`, and the values of `a` wherever they are
  not determined by others.
* `Restores.insert` — adding a variable once more changes none of this.
-/

namespace SketchSolver

namespace Arena

variable {α : Type} {a b c : Arena α}

/-! ## Adding variables once more -/

/-- `b` is `a` with some variables added once more, each with the value that it has. -/
structure Restates (a b : Arena α) (vs : List VarId) : Prop where
  ids : b.ids = a.ids
  value : b.value? = a.value?
  link : ∀ k, b.link? k = if k ∈ vs then some .alone else a.link? k

namespace Restates

variable {vs ws : List VarId}

lemma refl (a : Arena α) : a.Restates a [] :=
  ⟨rfl, rfl, fun _ => (if_neg List.not_mem_nil).symm⟩

lemma trans (h : a.Restates b vs) (h' : b.Restates c ws) : a.Restates c (vs ++ ws) := by
  refine ⟨h'.ids.trans h.ids, h'.value.trans h.value, fun k => ?_⟩
  rw [h'.link, h.link]
  simp only [List.mem_append]
  by_cases hk : k ∈ ws <;> simp [hk]

/-- One variable. -/
lemma insert {v : VarId} {x : α} (hx : a.value? v = some x) (r : Option Represents) :
    a.Restates (a.insert v x r) [v] := by
  refine ⟨?_, ?_, fun k => ?_⟩
  · exact OrderedMap.keys_insert_of_mem _ ((a.contains_iff_mem_ids v).1
      ((a.contains_iff_value? v).2 ⟨x, hx⟩))
  · funext k
    rw [value?_insert]
    split_ifs with hk
    · rw [hk, hx]
    · rfl
  · simp only [link?_insert, List.mem_singleton]

/-- What stands alone stays so. -/
lemma alone (h : a.Restates b vs) {v : VarId} (hv : a.link? v = some .alone) :
    b.link? v = some .alone := by
  rw [h.link, hv, ite_self]

/-- Where they all stand alone, no link changes. -/
lemma link_eq (h : a.Restates b vs) (hvs : ∀ v ∈ vs, a.link? v = some .alone) :
    b.link? = a.link? := by
  funext k
  rw [h.link]
  split_ifs with hk
  · rw [hvs k hk]
  · rfl

end Restates

/-! ## Restored arenas -/

/-- The variables with their values, and nothing else. -/
def bare (a : Arena α) : Arena α :=
  ⟨a.vars.mapValues fun v => .fresh v.value none⟩

variable [Scalar α]

/-- The variables of `a`, unified as in `b`.  What stands for its group has the value that it has in
`a`. -/
structure Restores (a b c : Arena α) : Prop where
  alike : b.Alike Eq c
  value : ∀ k, c.canonical k = k → c.value? k = a.value? k

/-- Adding a variable once more, with its value, is no matter as long as it stands alone. -/
lemma Restores.insert (h : a.Restores b c) {v : VarId} (hv : b.link? v = some .alone) {x : α}
    (hx : c.value? v = some x) (r : Option Represents) : a.Restores b (c.insert v x r) := by
  have hrestates : c.Restates (c.insert v x r) [v] := .insert hx r
  have hlink : (c.insert v x r).link? = c.link? := hrestates.link_eq fun w hw => by
    rw [List.mem_singleton.1 hw, h.alike.link?_eq, hv]
  have hcanonical : (c.insert v x r).canonical = c.canonical := by
    funext k
    rw [canonical, canonical, resolve_eq, resolve_eq, hlink]
  refine ⟨⟨h.alike.left, h.alike.right.congr hlink hrestates.value, ?_, ?_⟩, ?_⟩
  · rw [hrestates.ids, h.alike.ids]
  · rw [hlink]
    exact h.alike.link
  · rw [hcanonical, hrestates.value]
    exact h.value

/-- Without any unification, the values are all there is. -/
lemma restores_bare (a : Arena α) : a.Restores a.reset a.bare := by
  have hreset : a.bare.reset = a.bare := by
    refine Arena.ext (OrderedMap.ext ?_)
    simp [reset, bare, OrderedMap.mapValues, Variable.fresh, Function.comp_def]
  have hvalue : a.bare.value? = a.value? := by
    funext k
    rw [value?, get?, bare, OrderedMap.get?_mapValues, Option.map_map]
    rfl
  refine ⟨?_, fun k _ => congrFun hvalue k⟩
  rw [← hreset]
  exact .reset (OrderedMap.keys_mapValues _ _)

end Arena

end SketchSolver
