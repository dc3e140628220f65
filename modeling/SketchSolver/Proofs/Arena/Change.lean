import Mathlib
import SketchSolver.Proofs.Arena.WellFormed

/-!
# Adding, detaching and removing variables

The operations that only ever take groups apart.  Each keeps an arena well-formed, because it
updates both records of a link together; none of them changes a value that stays.

* `insert` adds a variable that stands alone, so no link changes (`WellFormed.insert_alone`).
* `reset` leaves every variable alone.
* `detach` takes one variable out of its group, `remove` takes it out of the arena.  For the others
  in the group of an absorbed variable both come to the same (`Leaves`).  Removing the root of a
  group leaves every member alone.
* `Sheds` says that nothing is newly absorbed, and what shares a canonical variable afterwards did
  so before, by the same maps (`Sheds.resolve`).
-/

namespace SketchSolver

namespace Arena

variable {α : Type} [Scalar α] {a : Arena α} {id : VarId}

/-! ## Nothing, and one more -/

/-- An arena in which every variable stands alone is well-formed. -/
lemma wellFormed_of_alone (h : ∀ {k l}, a.link? k = some l → l = .alone) : a.WellFormed := by
  refine { listed := ?_, absorbed := ?_, follows := ?_ }
  · intro k into offset hk
    cases h hk
  · intro k members member hk hmem
    have hempty : Link.canonical members = .alone := h hk
    obtain rfl : members = .empty := by simpa [Link.alone] using hempty
    exact absurd hmem (OrderedSet.not_mem_empty member)
  · intro root k offset hk
    cases h hk

theorem wellFormed_empty : (empty : Arena α).WellFormed :=
  wellFormed_of_alone fun hk => by cases hk

omit [Scalar α] in
lemma contains_insert (a : Arena α) (id k : VarId) (x : α) (r : Option Represents) :
    (a.insert id x r).contains k = true ↔ k = id ∨ a.contains k = true := by
  rw [contains_iff_link?, contains_iff_link?, link?_insert]
  by_cases h : k = id <;> simp [h]

/-- A variable that is not there, or that stands alone, can be added. -/
theorem WellFormed.insert_alone (h : a.WellFormed) (hid : ∀ l, a.link? id = some l → l = .alone)
    (x : α) (r : Option Represents) : (a.insert id x r).WellFormed := by
  have habsorbed : ∀ {k into offset}, a.link? k = some (.absorbed into offset) → k ≠ id := by
    rintro k into offset hk rfl
    cases hid _ hk
  have hroot : ∀ {k members member}, a.link? k = some (.canonical members) → member ∈ members →
      k ≠ id := by
    rintro k members member hk hmem rfl
    have hempty : Link.canonical members = .alone := hid _ hk
    obtain rfl : members = .empty := by simpa [Link.alone] using hempty
    exact OrderedSet.not_mem_empty member hmem
  refine { listed := ?_, absorbed := ?_, follows := ?_ }
  · intro k into offset hk
    rw [link?_insert] at hk
    split at hk
    · cases hk
    · obtain ⟨members, hinto, hmem⟩ := h.listed hk
      exact ⟨members, by rw [link?_insert, if_neg (hroot hinto hmem), hinto], hmem⟩
  · intro k members member hk hmem
    rw [link?_insert] at hk
    split at hk
    · obtain rfl : members = .empty := by simpa [Link.alone, eq_comm] using hk
      exact absurd hmem (OrderedSet.not_mem_empty member)
    · obtain ⟨offset, hmember⟩ := h.absorbed hk hmem
      exact ⟨offset, by rw [link?_insert, if_neg (habsorbed hmember), hmember]⟩
  · intro root k offset hk
    rw [link?_insert] at hk
    split at hk
    · cases hk
    · rename_i hkid
      obtain ⟨members, hinto, hmem⟩ := h.listed hk
      rw [value?_insert, value?_insert, if_neg hkid, if_neg (hroot hinto hmem)]
      exact h.follows root k offset hk

theorem WellFormed.insert (h : a.WellFormed) (hid : a.contains id = false) (x : α)
    (r : Option Represents) : (a.insert id x r).WellFormed := by
  refine h.insert_alone (fun l hl => ?_) x r
  rw [(a.link?_eq_none_iff id).2 hid] at hl
  cases hl

/-! ## All alone -/

omit [Scalar α] in
lemma link?_reset_eq_some {k : VarId} {l : Link α} (hk : a.reset.link? k = some l) :
    l = .alone := by
  rw [link?_reset] at hk
  obtain ⟨l', -, hl'⟩ := Option.map_eq_some_iff.1 hk
  exact hl'.symm

theorem wellFormed_reset (a : Arena α) : a.reset.WellFormed :=
  wellFormed_of_alone link?_reset_eq_some

/-! ## One less in a group -/

/-- `b` is `a` after the absorbed variable `id` has left the group of `root`: the root no longer
lists it, it lists nothing itself, and every other link is as it was. -/
structure Leaves (a b : Arena α) (id root : VarId) : Prop where
  gone : ∀ l, b.link? id = some l → l = .alone
  unlisted : b.link? root = (a.link? root).map (·.updateMembers (·.erase id))
  others : ∀ k, k ≠ id → k ≠ root → b.link? k = a.link? k

section

variable {b : Arena α} {root : VarId} {offset : Affine α}

namespace Leaves

omit [Scalar α]

lemma link?_root (h : a.Leaves b id root) {listed : OrderedSet VarId}
    (hroot : a.link? root = some (.canonical listed)) :
    b.link? root = some (.canonical (listed.erase id)) := by
  rw [h.unlisted, hroot]
  rfl

/-- What is absorbed afterwards was absorbed before, in the same way. -/
lemma absorbed (h : a.Leaves b id root) (ha : a.Linked)
    (hid : a.link? id = some (.absorbed root offset)) {k into : VarId} {o : Affine α}
    (hk : b.link? k = some (.absorbed into o)) :
    k ≠ id ∧ a.link? k = some (.absorbed into o) := by
  obtain ⟨listed, hlisted, -⟩ := ha.listed hid
  have hkid : k ≠ id := by
    rintro rfl
    cases h.gone _ hk
  have hkroot : k ≠ root := ne_of_absorbed_of_canonical hk (h.link?_root hlisted)
  exact ⟨hkid, by rw [← h.others k hkid hkroot, hk]⟩

lemma link?_member (h : a.Leaves b id root) (ha : a.Linked)
    (hid : a.link? id = some (.absorbed root offset)) {m k : VarId} {o : Affine α}
    (hm : a.link? m = some (.absorbed k o)) (hne : m ≠ id) :
    b.link? m = some (.absorbed k o) := by
  obtain ⟨listed, hlisted, -⟩ := ha.listed hid
  rw [h.others m hne (ne_of_absorbed_of_canonical hm hlisted), hm]

lemma linked (h : a.Leaves b id root) (ha : a.Linked)
    (hid : a.link? id = some (.absorbed root offset)) : b.Linked := by
  obtain ⟨listed, hlisted, -⟩ := ha.listed hid
  have hroot := h.link?_root hlisted
  constructor
  · intro k into o hk
    obtain ⟨hkid, hk'⟩ := h.absorbed ha hid hk
    obtain ⟨members, hinto, hmem⟩ := ha.listed hk'
    by_cases hir : into = root
    · subst hir
      rw [hlisted] at hinto
      cases hinto
      exact ⟨_, hroot, (OrderedSet.mem_erase _ _ _).2 ⟨hmem, hkid⟩⟩
    · have hintoid : into ≠ id := (ne_of_absorbed_of_canonical hid hinto).symm
      exact ⟨members, by rw [h.others into hintoid hir, hinto], hmem⟩
  · intro k members m hk hmem
    by_cases hkroot : k = root
    · subst hkroot
      rw [hroot] at hk
      obtain rfl : listed.erase id = members := by simpa using hk
      obtain ⟨hm, hmid⟩ := (OrderedSet.mem_erase _ _ _).1 hmem
      obtain ⟨o, ho⟩ := ha.absorbed hlisted hm
      exact ⟨o, h.link?_member ha hid ho hmid⟩
    · have hkid : k ≠ id := by
        rintro rfl
        obtain rfl : members = .empty := by simpa [Link.alone] using h.gone _ hk
        exact absurd hmem (OrderedSet.not_mem_empty m)
      rw [h.others k hkid hkroot] at hk
      obtain ⟨o, ho⟩ := ha.absorbed hk hmem
      -- `id` was listed by `root`, so no other root lists it
      have hmid : m ≠ id := by
        rintro rfl
        exact ha.not_mem_of_absorbed hk hid (Ne.symm hkroot) hmem
      exact ⟨o, h.link?_member ha hid ho hmid⟩

end Leaves

lemma WellFormed.of_leaves (h : a.WellFormed) (hleaves : a.Leaves b id root)
    (hid : a.link? id = some (.absorbed root offset))
    (hvalue : ∀ k, k ≠ id → b.value? k = a.value? k) : b.WellFormed where
  toLinked := hleaves.linked h.toLinked hid
  follows r k o hk := by
    obtain ⟨hkid, hk'⟩ := hleaves.absorbed h.toLinked hid hk
    obtain ⟨members, hr, -⟩ := h.listed hk'
    rw [hvalue k hkid, hvalue r (ne_of_absorbed_of_canonical hid hr).symm]
    exact h.follows r k o hk'

end

/-- A variable that is canonical stays where it is. -/
lemma detach_of_canonical (hid : a.canonical id = id) : a.detach id = a := by
  simp only [detach]
  rw [if_pos hid]

lemma link?_detach (hid : a.canonical id ≠ id) (k : VarId) :
    (a.detach id).link? k =
      if k = a.canonical id then (a.link? k).map (·.updateMembers (·.erase id))
      else if k = id then (a.link? k).map fun _ => .alone
      else a.link? k := by
  simp only [detach]
  rw [if_neg hid, link?_modifyLink, link?_modifyLink]
  by_cases hk : k = a.canonical id
  · rw [if_pos hk, if_pos hk, if_neg (by rw [hk]; exact hid)]
  · rw [if_neg hk, if_neg hk]

@[simp] lemma value?_detach (a : Arena α) (id k : VarId) : (a.detach id).value? k = a.value? k := by
  simp only [detach]
  split
  · rfl
  · rw [value?_modifyLink, value?_modifyLink]

@[simp] lemma ids_detach (a : Arena α) (id : VarId) : (a.detach id).ids = a.ids := by
  simp only [detach]
  split
  · rfl
  · rw [ids_modifyLink, ids_modifyLink]

theorem WellFormed.detach (h : a.WellFormed) (id : VarId) : (a.detach id).WellFormed := by
  by_cases hid : a.canonical id = id
  · rw [detach_of_canonical hid]
    exact h
  · have hleaves : a.Leaves (a.detach id) id (a.canonical id) := by
      refine { gone := ?_, unlisted := ?_, others := ?_ }
      · intro l hl
        rw [link?_detach hid, if_neg (Ne.symm hid), if_pos rfl] at hl
        obtain ⟨l', -, hl'⟩ := Option.map_eq_some_iff.1 hl
        exact hl'.symm
      · rw [link?_detach hid, if_pos rfl]
      · intro k hkid hkroot
        rw [link?_detach hid, if_neg hkroot, if_neg hkid]
    exact h.of_leaves hleaves (h.absorbed_iff.2 ⟨rfl, Ne.symm hid⟩)
      fun k _ => value?_detach a id k

/-- The variable that leaves is its own root, and every other one has the root that it had. -/
lemma WellFormed.canonical_detach (h : a.WellFormed) (id k : VarId) :
    (a.detach id).canonical k = if k = id then id else a.canonical k := by
  by_cases hid : a.canonical id = id
  · rw [detach_of_canonical hid]
    split_ifs with hk
    · rw [hk, hid]
    · rfl
  · have hlink := h.absorbed_iff.2 ⟨rfl, Ne.symm hid⟩
    by_cases hk : k = id
    · subst hk
      have halone : (a.detach k).link? k = some .alone := by
        rw [link?_detach hid, if_neg (Ne.symm hid), if_pos rfl, hlink]
        rfl
      rw [if_pos rfl, canonical_of_root halone]
    rw [if_neg hk]
    cases hl : a.link? k with
    | none =>
        have habsent := (link?_eq_none_iff _ k).1 hl
        have habsent' : (a.detach id).contains k = false := by
          rw [← habsent, contains_of_ids (ids_detach a id)]
        rw [canonical_of_absent habsent, canonical_of_absent habsent']
    | some l =>
        cases l with
        | canonical members =>
            rw [canonical_of_root hl]
            by_cases hroot : k = a.canonical id
            · have hl' : (a.detach id).link? k = some (.canonical (members.erase id)) := by
                rw [link?_detach hid, if_pos hroot, hl]
                rfl
              rw [canonical_of_root hl']
            · have hl' : (a.detach id).link? k = some (.canonical members) := by
                rw [link?_detach hid, if_neg hroot, if_neg hk, hl]
              rw [canonical_of_root hl']
        | absorbed into offset =>
            obtain ⟨members, hlisted, -⟩ := h.listed hlink
            have hroot : k ≠ a.canonical id := ne_of_absorbed_of_canonical hl hlisted
            have hl' : (a.detach id).link? k = some (.absorbed into offset) := by
              rw [link?_detach hid, if_neg hroot, if_neg hk, hl]
            rw [h.canonical_absorbed hl, (h.detach id).canonical_absorbed hl']

/-! ## One less in the arena -/

section

omit [Scalar α]

lemma foldl_alone (members : List VarId) (b : Arena α) :
    let c := members.foldl (fun b member => b.modifyLink member fun _ => .alone) b
    c.ids = b.ids ∧ ∀ k, c.value? k = b.value? k ∧
      c.link? k = if k ∈ members then (b.link? k).map fun _ => .alone else b.link? k := by
  induction members generalizing b with
  | nil => simp
  | cons m members ih =>
      obtain ⟨hids, hrest⟩ := ih (b.modifyLink m fun _ => .alone)
      refine ⟨by simpa using hids, fun k => ⟨?_, ?_⟩⟩
      · rw [List.foldl_cons, (hrest k).1, value?_modifyLink]
      · rw [List.foldl_cons, (hrest k).2, link?_modifyLink]
        by_cases hk : k ∈ members <;> by_cases hkm : k = m <;> simp [hk, hkm, Function.comp_def]

lemma link?_erase (a : Arena α) (id k : VarId) :
    (Arena.mk (a.vars.erase id)).link? k = if k = id then none else a.link? k := by
  rw [link?, get?, OrderedMap.get?_erase]
  split <;> rfl

lemma value?_erase (a : Arena α) (id k : VarId) :
    (Arena.mk (a.vars.erase id)).value? k = if k = id then none else a.value? k := by
  rw [value?, get?, OrderedMap.get?_erase]
  split <;> rfl

lemma remove_of_absent (hid : a.contains id = false) : a.remove id = a := by
  have hnone : a.get? id = none := by simpa [contains, OrderedMap.contains, get?] using hid
  rw [remove, hnone]

/-- Removing an absorbed variable takes it out of the list of its root. -/
lemma remove_absorbed {into : VarId} {offset : Affine α}
    (hid : a.link? id = some (.absorbed into offset)) :
    a.remove id = (Arena.mk (a.vars.erase id)).modifyLink into (·.updateMembers (·.erase id)) := by
  obtain ⟨⟨x, r, l⟩, hv, hl⟩ := Option.map_eq_some_iff.1 hid
  obtain rfl : l = .absorbed into offset := hl
  rw [remove, hv]

/-- Removing a root leaves what it lists alone. -/
lemma remove_root {members : OrderedSet VarId} (hid : a.link? id = some (.canonical members)) :
    a.remove id = members.toList.foldl (fun b member => b.modifyLink member fun _ => .alone)
      (Arena.mk (a.vars.erase id)) := by
  obtain ⟨⟨x, r, l⟩, hv, hl⟩ := Option.map_eq_some_iff.1 hid
  obtain rfl : l = .canonical members := hl
  rw [remove, hv]

/-- Removing a variable changes no other value. -/
@[simp] lemma value?_remove (a : Arena α) (id k : VarId) :
    (a.remove id).value? k = if k = id then none else a.value? k := by
  rcases hl : a.link? id with _ | l
  · have habsent : a.contains id = false := (a.link?_eq_none_iff id).1 hl
    rw [remove_of_absent habsent]
    split
    · rename_i hk
      rw [hk, (a.value?_eq_none_iff id).2 habsent]
    · rfl
  · cases l with
    | absorbed into offset => rw [remove_absorbed hl, value?_modifyLink, value?_erase]
    | canonical members => rw [remove_root hl, ((foldl_alone _ _).2 k).1, value?_erase]

lemma contains_remove (a : Arena α) (id k : VarId) :
    (a.remove id).contains k = true ↔ k ≠ id ∧ a.contains k = true := by
  rw [contains_iff_value?, contains_iff_value?, value?_remove]
  by_cases hk : k = id <;> simp [hk]

lemma link?_remove_absorbed {into : VarId} {offset : Affine α}
    (hid : a.link? id = some (.absorbed into offset)) (k : VarId) :
    (a.remove id).link? k =
      if k = into then (if k = id then none else a.link? k).map (·.updateMembers (·.erase id))
      else if k = id then none else a.link? k := by
  rw [remove_absorbed hid, link?_modifyLink, link?_erase]

lemma link?_remove_root {members : OrderedSet VarId} (hid : a.link? id = some (.canonical members))
    (k : VarId) :
    (a.remove id).link? k =
      if k ∈ members then (if k = id then none else a.link? k).map fun _ => .alone
      else if k = id then none else a.link? k := by
  rw [remove_root hid, ((foldl_alone _ _).2 k).2, link?_erase]
  rfl

/-- What is absorbed after a root is removed was absorbed before, into another root. -/
lemma Linked.absorbed_remove_root (h : a.Linked) {members : OrderedSet VarId}
    (hid : a.link? id = some (.canonical members)) {k into : VarId} {o : Affine α}
    (hk : (a.remove id).link? k = some (.absorbed into o)) :
    k ≠ id ∧ into ≠ id ∧ a.link? k = some (.absorbed into o) := by
  rw [link?_remove_root hid] at hk
  split at hk
  · obtain ⟨l', -, hl'⟩ := Option.map_eq_some_iff.1 hk
    cases hl'
  · rename_i hkmem
    split at hk
    · cases hk
    · rename_i hkid
      refine ⟨hkid, ?_, hk⟩
      rintro rfl
      obtain ⟨members', hinto, hmem⟩ := h.listed hk
      rw [hid] at hinto
      cases hinto
      exact hkmem hmem

lemma Linked.linked_remove_root (h : a.Linked) {members : OrderedSet VarId}
    (hid : a.link? id = some (.canonical members)) : (a.remove id).Linked := by
  have hlink := link?_remove_root hid
  constructor
  · intro k into o hk
    obtain ⟨-, hinto, hk'⟩ := h.absorbed_remove_root hid hk
    obtain ⟨members', hroot, hmem⟩ := h.listed hk'
    have hnot : into ∉ members := h.not_mem_of_canonical hid hroot
    exact ⟨members', by rw [hlink, if_neg hnot, if_neg hinto, hroot], hmem⟩
  · intro k members' m hk hmem
    rw [hlink] at hk
    split at hk
    · obtain ⟨l', -, hl'⟩ := Option.map_eq_some_iff.1 hk
      obtain rfl : members' = .empty := by simpa [Link.alone, eq_comm] using hl'
      exact absurd hmem (OrderedSet.not_mem_empty m)
    · split at hk
      · cases hk
      · rename_i hkid
        obtain ⟨o, ho⟩ := h.absorbed hk hmem
        have hmid : m ≠ id := ne_of_absorbed_of_canonical ho hid
        have hnot : m ∉ members := h.not_mem_of_absorbed hid ho hkid
        exact ⟨o, by rw [hlink, if_neg hnot, if_neg hmid, ho]⟩

end

theorem WellFormed.remove (h : a.WellFormed) (id : VarId) : (a.remove id).WellFormed := by
  rcases hl : a.link? id with _ | l
  · rw [remove_of_absent ((a.link?_eq_none_iff id).1 hl)]
    exact h
  · cases l with
    | absorbed into offset =>
        have hne : into ≠ id := h.into_ne hl
        have hlink := link?_remove_absorbed hl
        have hleaves : a.Leaves (a.remove id) id into := by
          refine { gone := ?_, unlisted := ?_, others := ?_ }
          · intro l' hl'
            rw [hlink, if_neg hne.symm, if_pos rfl] at hl'
            cases hl'
          · rw [hlink, if_pos rfl, if_neg hne]
          · intro k hkid hkinto
            rw [hlink, if_neg hkinto, if_neg hkid]
        refine h.of_leaves hleaves hl fun k hkid => ?_
        rw [value?_remove, if_neg hkid]
    | canonical members =>
        refine { toLinked := h.linked_remove_root hl, follows := fun r k o hk => ?_ }
        obtain ⟨hkid, hrid, hk'⟩ := h.absorbed_remove_root hl hk
        rw [value?_remove, value?_remove, if_neg hkid, if_neg hrid]
        exact h.follows r k o hk'

/-! ## Nothing newly absorbed -/

/-- The second arena absorbs no variable that the first one does not absorb in the same way. -/
structure Sheds (a b : Arena α) : Prop where
  absorbed : ∀ {k into o}, b.link? k = some (.absorbed into o) →
    a.link? k = some (.absorbed into o)

section

omit [Scalar α]

/-- Updating a list of members absorbs nothing. -/
lemma absorbed_of_map_updateMembers {l : Option (Link α)}
    {f : OrderedSet VarId → OrderedSet VarId} {into : VarId} {o : Affine α}
    (h : l.map (·.updateMembers f) = some (.absorbed into o)) : l = some (.absorbed into o) := by
  rcases l with _ | _ | _
  · cases h
  · cases h
  · exact h

namespace Sheds

variable {b c : Arena α}

lemma refl (a : Arena α) : a.Sheds a := ⟨id⟩

lemma trans (h : a.Sheds b) (h' : b.Sheds c) : a.Sheds c := ⟨fun hk => h.absorbed (h'.absorbed hk)⟩

lemma of_link? (h : b.link? = a.link?) : a.Sheds b := ⟨fun hk => by rwa [h] at hk⟩

lemma of_shape (h : b.shape = a.shape) : a.Sheds b := of_link? (link?_congr h)

end Sheds

lemma sheds_insert (a : Arena α) (id : VarId) (x : α) (r : Option Represents) :
    a.Sheds (a.insert id x r) := by
  refine ⟨fun {k into o} hk => ?_⟩
  rw [link?_insert] at hk
  split at hk
  · cases hk
  · exact hk

lemma sheds_remove (a : Arena α) (id : VarId) : a.Sheds (a.remove id) := by
  refine ⟨fun {k into o} hk => ?_⟩
  rcases hid : a.link? id with _ | members | ⟨root, map⟩
  · rwa [remove_of_absent ((a.link?_eq_none_iff id).1 hid)] at hk
  · rw [link?_remove_root hid] at hk
    split at hk
    · obtain ⟨l, -, hl⟩ := Option.map_eq_some_iff.1 hk
      cases hl
    · split at hk
      · cases hk
      · exact hk
  · rw [link?_remove_absorbed hid] at hk
    split at hk
    · replace hk := absorbed_of_map_updateMembers hk
      split at hk
      · cases hk
      · exact hk
    · split at hk
      · cases hk
      · exact hk

end

lemma sheds_detach (a : Arena α) (id : VarId) : a.Sheds (a.detach id) := by
  refine ⟨fun {k into o} hk => ?_⟩
  by_cases hid : a.canonical id = id
  · rwa [detach_of_canonical hid] at hk
  · rw [link?_detach hid] at hk
    split_ifs at hk
    · exact absorbed_of_map_updateMembers hk
    · obtain ⟨l, -, hl⟩ := Option.map_eq_some_iff.1 hk
      cases hl
    · exact hk

/-- What is unified after shedding was unified before, by the same maps. -/
lemma Sheds.resolve {b : Arena α} (h : a.Sheds b) (ha : a.Linked) (hb : b.Linked) {u v : VarId}
    (huv : b.canonical u = b.canonical v) (hne : u ≠ v) : b.resolve u = a.resolve u := by
  -- something is absorbed into `root`, so `root` has been a root before
  have hroot : ∀ {k root o}, b.link? k = some (.absorbed root o) →
      b.resolve root = a.resolve root := by
    intro k root o hk
    obtain ⟨members, hmembers, -⟩ := hb.listed hk
    obtain ⟨members', hmembers', -⟩ := ha.listed (h.absorbed hk)
    rw [resolve_of_root hmembers, resolve_of_root hmembers']
  by_cases hu : b.canonical u = u
  · have hlink := hb.absorbed_iff.2 ⟨huv.symm.trans hu, hne.symm⟩
    exact hroot hlink
  · have hlink := hb.absorbed_iff.2 ⟨rfl, Ne.symm hu⟩
    rw [hb.resolve_absorbed hlink, ha.resolve_absorbed (h.absorbed hlink)]

lemma Sheds.canonical {b : Arena α} (h : a.Sheds b) (ha : a.Linked) (hb : b.Linked) {u v : VarId}
    (huv : b.canonical u = b.canonical v) : a.canonical u = a.canonical v := by
  by_cases hne : u = v
  · rw [hne]
  · rw [Arena.canonical, Arena.canonical, ← h.resolve ha hb huv hne,
      ← h.resolve ha hb huv.symm (Ne.symm hne)]
    exact huv

end Arena

end SketchSolver
