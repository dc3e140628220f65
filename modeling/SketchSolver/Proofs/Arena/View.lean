import Mathlib
import SketchSolver.Arena
import SketchSolver.Proofs.Ordered
import SketchSolver.Proofs.Traversal

/-!
# What can be seen of an arena

An arena holds two things side by side: *links* say how variables are unified, and *values* are
the numbers.  Everything below sees an arena through these two.

* `Arena.link?` and `Arena.value?` are the link and the value of one variable.
* `Arena.shape` is everything except the values.  Looking up canonical variables depends on the
  shape alone (`resolve_congr` and what follows it), and shape and values together are the whole
  arena (`ext_of_shape`).
* For each primitive change there is a lemma that says what it does to links and to values.
-/

namespace SketchSolver

namespace Arena

variable {α : Type}

/-- The link of a variable. -/
def link? (a : Arena α) (id : VarId) : Option (Link α) :=
  (a.get? id).map Variable.link

/-- The value of a variable. -/
def value? (a : Arena α) (id : VarId) : Option α :=
  (a.get? id).map Variable.value

/-- Everything about an arena except the values. -/
def shape (a : Arena α) : OrderedMap VarId (Option Represents × Link α) :=
  a.vars.mapValues fun v => (v.represents, v.link)

/-! ## Presence -/

lemma contains_iff_link? (a : Arena α) (id : VarId) :
    a.contains id = true ↔ ∃ l, a.link? id = some l := by
  simp [contains, OrderedMap.contains, link?, get?, Option.isSome_iff_exists]

lemma contains_iff_value? (a : Arena α) (id : VarId) :
    a.contains id = true ↔ ∃ x, a.value? id = some x := by
  simp [contains, OrderedMap.contains, value?, get?, Option.isSome_iff_exists]

lemma contains_of_link? {a : Arena α} {id : VarId} {l : Link α} (h : a.link? id = some l) :
    a.contains id = true :=
  (a.contains_iff_link? id).2 ⟨l, h⟩

lemma contains_iff_mem_ids (a : Arena α) (id : VarId) : a.contains id = true ↔ id ∈ a.ids :=
  a.vars.contains_iff_mem_keys id

/-- Arenas with the same identifiers have the same variables. -/
lemma contains_of_ids {a b : Arena α} (h : b.ids = a.ids) (id : VarId) :
    b.contains id = a.contains id := by
  rw [Bool.eq_iff_iff, contains_iff_mem_ids, contains_iff_mem_ids, h]

lemma link?_eq_none_iff (a : Arena α) (id : VarId) :
    a.link? id = none ↔ a.contains id = false := by
  simp [contains, OrderedMap.contains, link?, get?, Option.isSome_eq_false_iff]

lemma value?_eq_none_iff (a : Arena α) (id : VarId) :
    a.value? id = none ↔ a.contains id = false := by
  simp [contains, OrderedMap.contains, value?, get?, Option.isSome_eq_false_iff]

lemma find_ok {a : Arena α} {id : VarId} (h : a.contains id = true) : ∃ v, a.find id = .ok v := by
  obtain ⟨v, hv⟩ := Option.isSome_iff_exists.1 h
  exact ⟨v, by rw [find, show a.get? id = some v from hv]⟩

lemma contains_of_find {a : Arena α} {id : VarId} {v : Variable α} (h : a.find id = .ok v) :
    a.contains id = true := by
  rw [find] at h
  split at h
  · rename_i w hw
    exact Option.isSome_iff_exists.2 ⟨w, hw⟩
  · cases h

lemma value_eq_ok_iff (a : Arena α) (id : VarId) (x : α) :
    a.value id = .ok x ↔ a.value? id = some x := by
  rw [value, find, value?]
  cases a.get? id <;> simp [Except.map]

lemma value_congr {a b : Arena α} {id : VarId} (h : b.value? id = a.value? id) :
    b.value id = a.value id := by
  rw [value?, value?] at h
  rw [value, value, find, find]
  cases hb : b.get? id <;> cases ha : a.get? id <;> simp_all [Except.map]

/-! ## Links and values after a change -/

/-- A change of one variable that keeps its link and its place. -/
lemma shape_modify {f : Variable α → Variable α}
    (hf : ∀ v, (f v).represents = v.represents ∧ (f v).link = v.link) (a : Arena α) (id : VarId) :
    (a.modify id f).shape = a.shape :=
  a.vars.mapValues_modify_of_view id fun v => by rw [(hf v).1, (hf v).2]

lemma value?_modify (a : Arena α) (id k : VarId) (f : Variable α → Variable α) :
    (a.modify id f).value? k =
      if k = id then (a.get? k).map fun v => (f v).value else a.value? k := by
  rw [value?, get?, modify, OrderedMap.get?_modify]
  by_cases h : k = id
  · rw [if_pos h, if_pos h, Option.map_map]; rfl
  · rw [if_neg h, if_neg h]; rfl

@[simp] lemma link?_modifyLink (a : Arena α) (id k : VarId) (f : Link α → Link α) :
    (a.modifyLink id f).link? k = if k = id then (a.link? k).map f else a.link? k := by
  rw [link?, get?, modifyLink, modify, OrderedMap.get?_modify]
  by_cases h : k = id
  · rw [if_pos h, if_pos h, Option.map_map, link?, Option.map_map]; rfl
  · rw [if_neg h, if_neg h]; rfl

@[simp] lemma value?_modifyLink (a : Arena α) (id k : VarId) (f : Link α → Link α) :
    (a.modifyLink id f).value? k = a.value? k := by
  rw [modifyLink, value?_modify]
  by_cases h : k = id
  · rw [if_pos h]; rfl
  · rw [if_neg h]

@[simp] lemma ids_modifyLink (a : Arena α) (id : VarId) (f : Link α → Link α) :
    (a.modifyLink id f).ids = a.ids :=
  a.vars.keys_modify id _

@[simp] lemma link?_insert (a : Arena α) (id k : VarId) (x : α) (r : Option Represents) :
    (a.insert id x r).link? k = if k = id then some .alone else a.link? k := by
  rw [link?, get?, insert, OrderedMap.get?_insert]
  by_cases h : k = id
  · rw [if_pos h, if_pos h]; rfl
  · rw [if_neg h, if_neg h]; rfl

@[simp] lemma value?_insert (a : Arena α) (id k : VarId) (x : α) (r : Option Represents) :
    (a.insert id x r).value? k = if k = id then some x else a.value? k := by
  rw [value?, get?, insert, OrderedMap.get?_insert]
  by_cases h : k = id
  · rw [if_pos h, if_pos h]; rfl
  · rw [if_neg h, if_neg h]; rfl

@[simp] lemma link?_reset (a : Arena α) (k : VarId) :
    a.reset.link? k = (a.link? k).map fun _ => .alone := by
  rw [link?, get?, reset, OrderedMap.get?_mapValues, link?, Option.map_map, Option.map_map]
  rfl

/-- Without unifications, every variable stands alone. -/
lemma alone_reset (a : Arena α) {v : VarId} (hv : a.contains v = true) :
    a.reset.link? v = some .alone := by
  obtain ⟨l, hl⟩ := (a.contains_iff_link? v).1 hv
  rw [link?_reset, hl]
  rfl

@[simp] lemma value?_reset (a : Arena α) (k : VarId) : a.reset.value? k = a.value? k := by
  rw [value?, get?, reset, OrderedMap.get?_mapValues, value?, Option.map_map]
  rfl

@[simp] lemma ids_reset (a : Arena α) : a.reset.ids = a.ids :=
  a.vars.keys_mapValues _

lemma membersOf_eq (a : Arena α) (id : VarId) :
    a.membersOf id = ((a.link? id).map fun l => l.members.toList).getD [] := by
  rw [membersOf, link?]
  cases a.get? id <;> rfl

/-! ## Resolving -/

section

variable [Scalar α]

/-- Resolving looks at links only. -/
lemma resolve_eq (a : Arena α) (id : VarId) :
    a.resolve id =
      match a.link? id with
      | some (.absorbed into offset) =>
        if (a.link? into).isSome then (into, offset) else (id, .identity)
      | _ => (id, .identity) := by
  rw [resolve, link?]
  rcases h : a.get? id with _ | ⟨x, r, l⟩
  · rfl
  · cases l with
    | canonical members => rfl
    | absorbed into offset =>
        have hlive : a.contains into = ((a.get? into).map Variable.link).isSome := by
          rw [Option.isSome_map]; rfl
        show (if a.contains into = true then (into, offset) else (id, .identity)) = _
        rw [hlive]; rfl

lemma resolve_of_root {a : Arena α} {id : VarId} {members : OrderedSet VarId}
    (h : a.link? id = some (.canonical members)) : a.resolve id = (id, .identity) := by
  rw [resolve_eq, h]

lemma resolve_of_absent {a : Arena α} {id : VarId} (h : a.contains id = false) :
    a.resolve id = (id, .identity) := by
  rw [resolve_eq, (a.link?_eq_none_iff id).2 h]

lemma resolve_of_absorbed {a : Arena α} {id into : VarId} {offset : Affine α}
    (h : a.link? id = some (.absorbed into offset)) (hinto : a.contains into = true) :
    a.resolve id = (into, offset) := by
  obtain ⟨l, hl⟩ := (a.contains_iff_link? into).1 hinto
  rw [resolve_eq, h]
  simp [hl]

end

/-! ## Arenas of one shape -/

section

variable {a b : Arena α}

lemma ids_congr (h : a.shape = b.shape) : a.ids = b.ids := by
  have hkeys := congrArg OrderedMap.keys h
  rwa [shape, shape, OrderedMap.keys_mapValues, OrderedMap.keys_mapValues] at hkeys

lemma link?_congr (h : a.shape = b.shape) : a.link? = b.link? := by
  funext id
  have hlink : ∀ c : Arena α, c.link? id = (c.shape.get? id).map Prod.snd := by
    intro c
    rw [shape, OrderedMap.get?_mapValues, Option.map_map]
    rfl
  rw [hlink, hlink, h]

lemma contains_congr (h : a.shape = b.shape) (id : VarId) : a.contains id = b.contains id := by
  rw [Bool.eq_iff_iff, contains_iff_link?, contains_iff_link?, link?_congr h]

lemma size_congr (h : a.shape = b.shape) : a.size = b.size := by
  have hids := congrArg List.length (ids_congr h)
  rwa [ids, ids, ← OrderedMap.size_eq_length_keys, ← OrderedMap.size_eq_length_keys] at hids

/-- **Extensionality.**  Shape and values are the whole arena. -/
theorem ext_of_shape (h : a.shape = b.shape) (hvalue : ∀ id, a.value? id = b.value? id) :
    a = b := by
  have hvars : a.vars = b.vars := by
    refine OrderedMap.ext_of_views ?_ h hvalue
    rintro ⟨x, r, l⟩ ⟨y, r', l'⟩ hshape hx
    simp only [Prod.mk.injEq] at hshape
    obtain ⟨rfl, rfl⟩ := hshape
    obtain rfl : x = y := hx
    rfl
  exact Arena.ext hvars

variable [Scalar α]

lemma resolve_congr (h : a.shape = b.shape) : a.resolve = b.resolve := by
  funext id
  rw [resolve_eq, resolve_eq, link?_congr h]

lemma canonical_congr (h : a.shape = b.shape) : a.canonical = b.canonical := by
  funext id
  rw [canonical, canonical, resolve_congr h]

lemma equals_congr (h : a.shape = b.shape) : a.equals = b.equals := by
  funext this that
  rw [equals, equals, resolve_congr h]

end

end Arena

end SketchSolver
