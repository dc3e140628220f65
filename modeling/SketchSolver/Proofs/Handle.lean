import Mathlib
import SketchSolver.Handle
import SketchSolver.Proofs.Arena.View

/-!
# Handle tables

A handle table also holds two things: *where the coordinates are* (`HandleTable.points`), which
only adding and removing a handle changes, and the record of merges, which `absorb` extends and
`reset` forgets.

* `HandleTable.Rooted` — the merge of every handle leads to a handle that is still there.  This is
  what keeps the search for a root from failing, so merging two live handles never fails
  (`Rooted.absorb_spec`).
* `HandleTable.Separate` — no variable is a coordinate twice.
* `HandleTable.Grounded` — all coordinates are variables of the arena.
-/

namespace SketchSolver

namespace HandleTable

variable {t : HandleTable}

/-- The coordinate variables of every handle. -/
def points (t : HandleTable) : OrderedMap HandleId Coords :=
  t.handles.mapValues fun h => ⟨h.x, h.y⟩

/-- The coordinate variables of one handle. -/
def coords? (t : HandleTable) (id : HandleId) : Option Coords :=
  t.points.get? id

lemma coords?_eq (t : HandleTable) (id : HandleId) :
    t.coords? id = (t.get? id).map fun h => ⟨h.x, h.y⟩ :=
  OrderedMap.get?_mapValues _ _ _

lemma coords_eq_ok_iff (id : HandleId) (c : Coords) :
    t.coords id = .ok c ↔ t.coords? id = some c := by
  rw [coords, find, coords?_eq]
  cases t.get? id <;> simp

/-- What has been made of the points of two handles. -/
lemma exists_of_coords {β : Type} {start finish : HandleId} {f : Coords → Coords → β}
    {y : β} (h : (do let p ← t.coords start; let q ← t.coords finish; pure (f p q)) = .ok y) :
    ∃ p q, f p q = y := by
  obtain ⟨p, -, h⟩ := bind_eq_ok_iff.1 h
  obtain ⟨q, -, hpure⟩ := bind_eq_ok_iff.1 h
  exact ⟨p, q, Except.ok.inj hpure⟩

lemma contains_iff_coords? (id : HandleId) : t.contains id = true ↔ ∃ c, t.coords? id = some c := by
  rw [coords?_eq, contains, OrderedMap.contains, Option.isSome_iff_exists]
  simp [get?]

lemma coords?_congr {u : HandleTable} (h : t.points = u.points) (id : HandleId) :
    t.coords? id = u.coords? id := by
  rw [coords?, coords?, h]

lemma contains_congr {u : HandleTable} (h : t.points = u.points) (id : HandleId) :
    t.contains id = true ↔ u.contains id = true := by
  rw [contains_iff_coords?, contains_iff_coords?, coords?_congr h]

lemma ids_congr {u : HandleTable} (h : t.points = u.points) : t.ids = u.ids := by
  have hkeys := congrArg OrderedMap.keys h
  rwa [points, points, OrderedMap.keys_mapValues, OrderedMap.keys_mapValues] at hkeys

lemma find_ok {id : HandleId} (h : t.contains id = true) :
    ∃ v, t.find id = .ok v ∧ t.get? id = some v := by
  obtain ⟨v, hv⟩ := Option.isSome_iff_exists.1 h
  exact ⟨v, by rw [find, show t.get? id = some v from hv], hv⟩

/-! ## Points after a change -/

lemma points_modify {f : Handle → Handle} (hf : ∀ h, (f h).x = h.x ∧ (f h).y = h.y)
    (t : HandleTable) (id : HandleId) : (t.modify id f).points = t.points :=
  t.handles.mapValues_modify_of_view id fun h => by rw [(hf h).1, (hf h).2]

@[simp] lemma points_reset (t : HandleTable) : t.reset.points = t.points := by
  have hentries : t.reset.points.entries = t.points.entries := by
    simp [reset, points, OrderedMap.mapValues, Function.comp_def]
  exact OrderedMap.ext hentries

/-- Forgetting every merge leaves what the coordinates say. -/
lemma reset_congr {t u : HandleTable} (h : u.points = t.points) : u.reset = t.reset := by
  have hreset : ∀ v : HandleTable,
      v.reset = ⟨v.points.mapValues fun c => { x := c.x, y := c.y }⟩ := by
    intro v
    refine HandleTable.ext (OrderedMap.ext ?_)
    simp [reset, points, OrderedMap.mapValues, Function.comp_def]
  rw [hreset, hreset, h]

@[simp] lemma coords?_insert (t : HandleTable) (id k : HandleId) (x y : VarId) :
    (t.insert id x y).coords? k = if k = id then some ⟨x, y⟩ else t.coords? k := by
  rw [coords?_eq, coords?_eq, get?, insert, OrderedMap.get?_insert]
  by_cases h : k = id
  · rw [if_pos h, if_pos h]; rfl
  · rw [if_neg h, if_neg h]; rfl

@[simp] lemma coords?_remove (t : HandleTable) (id k : HandleId) :
    (t.remove id).coords? k = if k = id then none else t.coords? k := by
  rw [coords?_eq, coords?_eq, get?, remove, OrderedMap.get?_mapValues, OrderedMap.get?_erase]
  by_cases h : k = id
  · rw [if_pos h, if_pos h]; rfl
  · rw [if_neg h, if_neg h, Option.map_map]; rfl

/-! ## Owners of coordinates -/

/-- No handle has a variable that has no owner. -/
lemma ownerOf_eq_none {var : VarId} (h : t.ownerOf var = none) {id : HandleId} {c : Coords}
    (hc : t.coords? id = some c) : c.x ≠ var ∧ c.y ≠ var := by
  rw [coords?_eq] at hc
  obtain ⟨v, hv, rfl⟩ := Option.map_eq_some_iff.1 hc
  rw [ownerOf, Option.map_eq_none_iff, List.find?_eq_none] at h
  have hnot := h (id, v) ((t.handles.mem_entries_iff id v).2 hv)
  simpa [Handle.owns] using hnot

lemma ownerOf_eq_some {var : VarId} {id : HandleId} (h : t.ownerOf var = some id) :
    ∃ w, t.get? id = some w ∧ w.owns var = true := by
  obtain ⟨⟨i, w⟩, hfind, rfl⟩ := Option.map_eq_some_iff.1 h
  have howns := List.find?_some hfind
  exact ⟨w, (t.handles.mem_entries_iff i w).1 (List.mem_of_find?_eq_some hfind), howns⟩

/-! ## Well-formed tables -/

/-- Every merge leads to a handle that is there. -/
def Rooted (t : HandleTable) : Prop :=
  ∀ id h root, t.get? id = some h → h.into = some root → t.contains root = true

/-- No variable is a coordinate in two places. -/
structure Separate (t : HandleTable) : Prop where
  /-- The two coordinates of a handle differ. -/
  within : ∀ {id c}, t.coords? id = some c → c.x ≠ c.y
  /-- Different handles have no coordinate in common. -/
  between : ∀ {i j c d}, t.coords? i = some c → t.coords? j = some d → i ≠ j →
    c.x ≠ d.x ∧ c.x ≠ d.y ∧ c.y ≠ d.x ∧ c.y ≠ d.y

/-- Every coordinate is a variable of the arena. -/
def Grounded {α : Type} (t : HandleTable) (a : Arena α) : Prop :=
  ∀ id c, t.coords? id = some c → a.contains c.x = true ∧ a.contains c.y = true

lemma Separate.congr {u : HandleTable} (h : t.Separate) (hpoints : u.points = t.points) :
    u.Separate := by
  have hc : ∀ id, u.coords? id = t.coords? id := coords?_congr hpoints
  constructor
  · intro id c
    rw [hc]
    exact h.within
  · intro i j c d
    rw [hc, hc]
    exact h.between

lemma coords?_of_remove {id i : HandleId} {c : Coords} (h : (t.remove id).coords? i = some c) :
    i ≠ id ∧ t.coords? i = some c := by
  rw [coords?_remove] at h
  split at h
  · cases h
  · exact ⟨by assumption, h⟩

lemma Separate.remove (h : t.Separate) (id : HandleId) : (t.remove id).Separate where
  within hc := h.within (coords?_of_remove hc).2
  between hc hd hij := h.between (coords?_of_remove hc).2 (coords?_of_remove hd).2 hij

lemma Grounded.congr {α : Type} {u : HandleTable} {a b : Arena α} (h : t.Grounded a)
    (hpoints : u.points = t.points) (hids : ∀ v, a.contains v = true → b.contains v = true) :
    u.Grounded b := by
  intro id c hc
  rw [coords?_congr hpoints] at hc
  exact ⟨hids _ (h id c hc).1, hids _ (h id c hc).2⟩

lemma rooted_empty : empty.Rooted := by
  intro id h root hget
  cases hget

lemma Rooted.insert (h : t.Rooted) (id : HandleId) (x y : VarId) : (t.insert id x y).Rooted := by
  intro k v root hget hinto
  have hlive : ∀ j, t.contains j = true → (t.insert id x y).contains j = true := by
    intro j hj
    rw [contains_iff_coords?, coords?_insert]
    by_cases hji : j = id
    · exact ⟨_, if_pos hji⟩
    · rw [if_neg hji, ← contains_iff_coords?]
      exact hj
  rw [get?, HandleTable.insert, OrderedMap.get?_insert] at hget
  split at hget
  · cases hget
    cases hinto
  · exact hlive root (h k v root hget hinto)

lemma Rooted.remove (h : t.Rooted) (id : HandleId) : (t.remove id).Rooted := by
  intro k v root hget hinto
  rw [get?, HandleTable.remove, OrderedMap.get?_mapValues, OrderedMap.get?_erase] at hget
  obtain ⟨w, hw, rfl⟩ := Option.map_eq_some_iff.1 hget
  split at hw
  · cases hw
  · simp only at hinto
    split at hinto
    · cases hinto
    · rename_i hne
      have hroot : root ≠ id := by
        rintro rfl
        exact hne hinto
      rw [contains_iff_coords?, coords?_remove, if_neg hroot, ← contains_iff_coords?]
      exact h k w root hw hinto

lemma rooted_reset (t : HandleTable) : t.reset.Rooted := by
  intro k v root hget hinto
  rw [get?, reset, OrderedMap.get?_mapValues] at hget
  obtain ⟨w, -, rfl⟩ := Option.map_eq_some_iff.1 hget
  cases hinto

/-! ## Merging -/

lemma Rooted.rootWithin_ok (h : t.Rooted) (limit : Nat) {id : HandleId}
    (hid : t.contains id = true) :
    ∃ root, t.rootWithin limit id = .ok root ∧ t.contains root = true := by
  induction limit generalizing id with
  | zero => exact ⟨id, rfl, hid⟩
  | succ limit ih =>
      obtain ⟨v, hfind, hget⟩ := find_ok hid
      rw [rootWithin, hfind, ok_bind]
      cases hinto : v.into with
      | none => exact ⟨id, rfl, hid⟩
      | some next => exact ih (h id v next hget hinto)

/-- Pointing a handle at a live one keeps a table rooted. -/
lemma Rooted.modify (h : t.Rooted) {root : HandleId} (hroot : t.contains root = true)
    {f : Handle → Handle} (hf : ∀ v, (f v).x = v.x ∧ (f v).y = v.y)
    (hinto : ∀ v r, (f v).into = some r → r = root ∨ v.into = some r) (id : HandleId) :
    (t.modify id f).Rooted := by
  intro k v r hget hr
  rw [contains_congr (points_modify hf t id)]
  rw [get?, HandleTable.modify, OrderedMap.get?_modify] at hget
  split at hget
  · obtain ⟨w, hw, rfl⟩ := Option.map_eq_some_iff.1 hget
    rcases hinto w r hr with rfl | hold
    · exact hroot
    · exact h k w r hw hold
  · exact h k v r hget hr

lemma Rooted.foldl_into (h : t.Rooted) {root : HandleId} (hroot : t.contains root = true)
    (members : List HandleId) :
    let u := members.foldl (fun t m => t.modify m fun v => { v with into := some root }) t
    u.Rooted ∧ u.points = t.points := by
  induction members generalizing t with
  | nil => exact ⟨h, rfl⟩
  | cons m members ih =>
      have hf : ∀ v : Handle, ({ v with into := some root } : Handle).x = v.x ∧
          ({ v with into := some root } : Handle).y = v.y := fun _ => ⟨rfl, rfl⟩
      have hrooted := h.modify hroot hf (fun v r hr => Or.inl (Option.some.inj hr).symm) m
      have hpoints := points_modify hf t m
      obtain ⟨h₁, h₂⟩ := ih hrooted ((contains_congr hpoints root).2 hroot)
      exact ⟨h₁, h₂.trans hpoints⟩

/-- **Merging.**  Merging two live handles never fails and moves no coordinate. -/
theorem Rooted.absorb_spec (h : t.Rooted) {parent child : HandleId}
    (hparent : t.contains parent = true) (hchild : t.contains child = true) :
    ∃ u, t.absorb parent child = .ok u ∧ u.Rooted ∧ u.points = t.points := by
  obtain ⟨c, hc, -⟩ := find_ok hchild
  obtain ⟨root, hroot, hlive⟩ := h.rootWithin_ok (t.handles.size + 1) hparent
  obtain ⟨childRoot, hchildRoot, hlive'⟩ := h.rootWithin_ok (t.handles.size + 1) hchild
  obtain ⟨v, hv, -⟩ := find_ok hlive'
  rw [absorb, hc, HandleTable.root, HandleTable.root, hroot, hchildRoot]
  simp only [discard_ok, ok_bind]
  by_cases hsame : root = childRoot
  · exact ⟨t, by rw [if_pos hsame]; rfl, h, rfl⟩
  · rw [if_neg hsame, hv]
    simp only [ok_bind]
    -- the three changes: the loser's root, its members, and the list of the winner's root
    let f : Handle → Handle := fun h => { h with into := some root, absorbed := .empty }
    let g : Handle → Handle := fun h =>
      { h with absorbed := h.absorbed.insertMany (childRoot :: v.absorbed.toList) }
    have hrooted₁ : (t.modify childRoot f).Rooted :=
      h.modify (f := f) hlive (fun _ => ⟨rfl, rfl⟩)
        (fun _ r hr => Or.inl (Option.some.inj hr).symm) childRoot
    have hpoints₁ : (t.modify childRoot f).points = t.points :=
      points_modify (f := f) (fun _ => ⟨rfl, rfl⟩) t childRoot
    obtain ⟨hrooted₂, hpoints₂⟩ := hrooted₁.foldl_into ((contains_congr hpoints₁ root).2 hlive)
      v.absorbed.toList
    refine ⟨_, rfl, ?_, ?_⟩
    · exact hrooted₂.modify (f := g) ((contains_congr (hpoints₂.trans hpoints₁) root).2 hlive)
        (fun _ => ⟨rfl, rfl⟩) (fun _ r hr => Or.inr hr) root
    · exact (points_modify (f := g) (fun _ => ⟨rfl, rfl⟩) _ root).trans (hpoints₂.trans hpoints₁)

/-- A merge that has succeeded has moved no coordinate, whatever the table was like. -/
lemma points_absorb {u : HandleTable} {parent child : HandleId}
    (h : t.absorb parent child = .ok u) : u.points = t.points := by
  have hfoldl : ∀ {f : Handle → Handle}, (∀ h, (f h).x = h.x ∧ (f h).y = h.y) →
      ∀ (ids : List HandleId) (t : HandleTable),
        (ids.foldl (fun t id => t.modify id f) t).points = t.points := by
    intro f hf ids
    induction ids with
    | nil => exact fun _ => rfl
    | cons id ids ih => exact fun t => (ih _).trans (points_modify hf t id)
  obtain ⟨_, -, h⟩ := bind_eq_ok_iff.1 h
  obtain ⟨root, -, h⟩ := bind_eq_ok_iff.1 h
  obtain ⟨childRoot, -, h⟩ := bind_eq_ok_iff.1 h
  split at h
  · cases h
    rfl
  · obtain ⟨v, -, h⟩ := bind_eq_ok_iff.1 h
    cases h
    rw [points_modify, hfoldl, points_modify] <;> exact fun _ => ⟨rfl, rfl⟩

end HandleTable

end SketchSolver
