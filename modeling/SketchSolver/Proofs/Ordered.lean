import Mathlib
import SketchSolver.Ordered.Map
import SketchSolver.Ordered.Set

/-!
# Ordered maps and sets, as seen from outside

What the proofs about arenas, handles and constraints need of the containers beyond
their own laws, in four groups.

**Entries.**  An entry is listed exactly when looking its key up finds it
(`OrderedMap.mem_entries_iff`), so a map is determined by its keys and by `get?`
(`OrderedMap.ext_of_get?`).

**Views.**  `mapValues g` forgets part of every value.  A change that the view cannot see leaves
it as it is (`OrderedMap.mapValues_modify_of_view`), and a map is determined by two views that
see everything between them (`OrderedMap.ext_of_views`).

**Counting.**  Erasing a key that is present leaves one entry less (`OrderedMap.size_erase_lt`).

**Images.**  Renaming the members of an ordered set, each to a name of its own, commutes with adding
and removing (`OrderedSet.toList_insertMany_map`, `OrderedSet.toList_erase_map`).
-/

namespace SketchSolver

namespace OrderedMap

variable {κ ν μ : Type}

/-! ## Entries -/

lemma size_eq_length_keys (m : OrderedMap κ ν) : m.size = m.keys.length := by
  simp [size, keys]

section

variable [DecidableEq κ]

/-- An entry is listed exactly when its key has its value. -/
lemma mem_entries_iff (m : OrderedMap κ ν) (k : κ) (v : ν) :
    (k, v) ∈ m.entries ↔ m.get? k = some v := by
  obtain ⟨entries, hnodup⟩ := m
  simp only [get?]
  induction entries with
  | nil => simp
  | cons e es ih =>
      obtain ⟨k', v'⟩ := e
      simp only [List.map_cons, List.nodup_cons] at hnodup
      by_cases h : k = k'
      · subst h
        have habsent : (k, v) ∉ es := fun hm => hnodup.1 (List.mem_map_of_mem (f := Prod.fst) hm)
        simp [habsent, eq_comm]
      · have hb : (k == k') = false := by simpa using h
        rw [List.lookup_cons, hb, List.mem_cons]
        simp only [Prod.mk.injEq, h, false_and, false_or]
        exact ih hnodup.2

/-- A key with a value is listed. -/
lemma mem_keys_of_get? {m : OrderedMap κ ν} {k : κ} {v : ν} (h : m.get? k = some v) :
    k ∈ m.keys :=
  List.mem_map_of_mem (f := Prod.fst) ((m.mem_entries_iff k v).2 h)

lemma mem_values_of_get? {m : OrderedMap κ ν} {k : κ} {v : ν} (h : m.get? k = some v) :
    v ∈ m.values :=
  List.mem_map_of_mem (f := Prod.snd) ((m.mem_entries_iff k v).2 h)

lemma mem_keys_iff_exists (m : OrderedMap κ ν) (k : κ) : k ∈ m.keys ↔ ∃ v, m.get? k = some v := by
  constructor
  · intro h
    obtain ⟨⟨k', v⟩, hmem, rfl⟩ := List.mem_map.1 h
    exact ⟨v, (m.mem_entries_iff _ v).1 hmem⟩
  · rintro ⟨v, hv⟩
    exact mem_keys_of_get? hv

/-- The entries, written through keys and look-up. -/
lemma entries_eq (m : OrderedMap κ ν) :
    m.entries = m.keys.filterMap fun k => (m.get? k).map fun v => (k, v) := by
  have h : ∀ e ∈ m.entries, ((m.get? e.1).map fun v => (e.1, v)) = some e := by
    rintro ⟨k, v⟩ he
    rw [(m.mem_entries_iff k v).1 he, Option.map_some]
  rw [keys, List.filterMap_map]
  exact ((List.filterMap_congr h).trans List.filterMap_some).symm

/-- A new key stands at the end. -/
lemma entries_insert_of_not_mem {m : OrderedMap κ ν} {k : κ} (v : ν) (h : k ∉ m.keys) :
    (m.insert k v).entries = m.entries ++ [(k, v)] := by
  rw [insert, dif_neg fun hc => h ((contains_iff_mem_keys m k).1 hc)]

/-- A key that is there keeps its place. -/
lemma entries_insert_of_mem {m : OrderedMap κ ν} {k : κ} (v : ν) (h : k ∈ m.keys) :
    (m.insert k v).entries = m.entries.map fun e => if e.1 = k then (e.1, v) else e := by
  rw [insert, dif_pos ((contains_iff_mem_keys m k).2 h)]
  rfl

/-- **Extensionality.**  Keys and look-up determine a map. -/
theorem ext_of_get? {m n : OrderedMap κ ν} (hkeys : m.keys = n.keys)
    (hget : ∀ k, m.get? k = n.get? k) : m = n := by
  have hentries : m.entries = n.entries := by
    rw [entries_eq m, entries_eq n, hkeys, funext hget]
  exact OrderedMap.ext hentries

/-- Filtering by value keeps exactly the values that pass. -/
lemma get?_filter (m : OrderedMap κ ν) (p : κ → ν → Bool) (k : κ) (v : ν) :
    (m.filter p).get? k = some v ↔ m.get? k = some v ∧ p k v = true := by
  rw [← mem_entries_iff, ← mem_entries_iff]
  simp [filter]

/-- Writing an entry that a filter drops, in the place of one that it drops, cannot be seen through
the filter. -/
lemma filter_insert_of_dropped {m : OrderedMap κ ν} {p : κ → ν → Bool} {k : κ} {v : ν}
    (hold : ∀ w, m.get? k = some w → p k w = false) (hnew : p k v = false) :
    (m.insert k v).filter p = m.filter p := by
  refine OrderedMap.ext ?_
  by_cases hk : k ∈ m.keys
  · let write (e : κ × ν) : κ × ν := if e.1 = k then (e.1, v) else e
    have hkept : ∀ e ∈ m.entries, p (write e).1 (write e).2 = p e.1 e.2 := by
      rintro ⟨j, w⟩ he
      by_cases hj : j = k
      · subst hj
        simp [write, hnew, hold w ((m.mem_entries_iff j w).1 he)]
      · simp [write, hj]
    have hsame : ∀ e ∈ m.entries.filter (fun e => p e.1 e.2), write e = e := by
      rintro ⟨j, w⟩ he
      obtain ⟨he, hp⟩ := List.mem_filter.1 he
      refine if_neg fun hj => ?_
      subst hj
      rw [hold w ((m.mem_entries_iff j w).1 he)] at hp
      cases hp
    calc ((m.insert k v).filter p).entries
        = (m.entries.map write).filter fun e => p e.1 e.2 :=
          congrArg _ (entries_insert_of_mem v hk)
      _ = (m.entries.filter fun e => p (write e).1 (write e).2).map write := List.filter_map
      _ = (m.entries.filter fun e => p e.1 e.2).map write := by rw [List.filter_congr hkept]
      _ = (m.filter p).entries := (List.map_congr_left hsame).trans (List.map_id _)
  · simp [filter, entries_insert_of_not_mem v hk, List.filter_append, hnew]

/-- Neither can erasing one that it drops. -/
lemma filter_erase_of_dropped {m : OrderedMap κ ν} {p : κ → ν → Bool} {k : κ}
    (hold : ∀ w, m.get? k = some w → p k w = false) : (m.erase k).filter p = m.filter p := by
  refine OrderedMap.ext ?_
  simp only [filter, erase, List.filter_filter]
  refine List.filter_congr fun e he => ?_
  obtain ⟨j, w⟩ := e
  by_cases hj : j = k
  · subst hj
    simp [hold w ((m.mem_entries_iff j w).1 he)]
  · simp [hj]

lemma keys_erase_sublist (m : OrderedMap κ ν) (k : κ) : (m.erase k).keys.Sublist m.keys :=
  m.keys_filter_sublist _

lemma erase_of_not_mem {m : OrderedMap κ ν} {k : κ} (h : k ∉ m.keys) : m.erase k = m := by
  refine OrderedMap.ext (List.filter_eq_self.2 fun e he => ?_)
  have hne : e.1 ≠ k := fun hk => h (hk ▸ List.mem_map_of_mem he)
  simpa using hne

/-- Erasing a key that is present leaves fewer entries. -/
lemma size_erase_lt {m : OrderedMap κ ν} {k : κ} (h : k ∈ m.keys) : (m.erase k).size < m.size := by
  rw [size_eq_length_keys, size_eq_length_keys, keys_erase]
  exact List.length_filter_lt_length_iff_exists.2 ⟨k, h, by simp⟩

end

/-! ## Views -/

/-- A change of one value that the view cannot see leaves the view as it is. -/
lemma mapValues_modify_of_view [DecidableEq κ] (m : OrderedMap κ ν) (k : κ) {f : ν → ν} {g : ν → μ}
    (h : ∀ v, g (f v) = g v) : (m.modify k f).mapValues g = m.mapValues g := by
  have hentries : ((m.modify k f).mapValues g).entries = (m.mapValues g).entries := by
    simp only [modify, mapValues, List.map_map]
    refine List.map_congr_left fun e _ => ?_
    by_cases he : e.1 = k <;> simp [he, h]
  exact OrderedMap.ext hentries

/-- A map is determined by two views that see everything between them. -/
lemma ext_of_views [DecidableEq κ] {m n : OrderedMap κ ν} {μ' : Type} {f : ν → μ} {g : ν → μ'}
    (hview : ∀ v w, f v = f w → g v = g w → v = w) (hf : m.mapValues f = n.mapValues f)
    (hg : ∀ k, (m.get? k).map g = (n.get? k).map g) : m = n := by
  have hkeys : m.keys = n.keys := by
    rw [← keys_mapValues m f, hf, keys_mapValues]
  refine ext_of_get? hkeys fun k => ?_
  have hfk : (m.get? k).map f = (n.get? k).map f := by
    rw [← get?_mapValues, ← get?_mapValues, hf]
  have hgk := hg k
  cases hm : m.get? k with
  | none => rw [hm] at hfk; simpa [eq_comm] using hfk
  | some v =>
      cases hn : n.get? k with
      | none => rw [hm, hn] at hfk; simp at hfk
      | some w =>
          rw [hm, hn] at hfk hgk
          simp only [Option.map_some, Option.some.injEq] at hfk hgk
          rw [hview v w hfk hgk]

end OrderedMap

namespace OrderedSet

variable {α β : Type} [DecidableEq α] [DecidableEq β] {f : α → β} {s : OrderedSet α}
  {image : OrderedSet β}

lemma erase_of_not_mem {a : α} (ha : a ∉ s) : s.erase a = s := by
  refine OrderedSet.ext (List.filter_eq_self.2 fun b hb => ?_)
  have hne : b ≠ a := fun hba => ha (hba ▸ hb)
  simpa using hne

/-! ## Images -/

omit [DecidableEq α] [DecidableEq β] in
lemma mem_iff_of_map (hf : Function.Injective f) (himage : image.toList = s.toList.map f) (a : α) :
    f a ∈ image ↔ a ∈ s := by
  rw [mem_def, mem_def, himage, List.mem_map_of_injective hf]

/-- Adding members commutes with renaming all of them. -/
lemma toList_insertMany_map (hf : Function.Injective f) (himage : image.toList = s.toList.map f)
    (as : List α) : (image.insertMany (as.map f)).toList = (s.insertMany as).toList.map f := by
  induction as generalizing s image with
  | nil => exact himage
  | cons a as ih =>
      refine ih ?_
      have hmem := mem_iff_of_map hf himage a
      by_cases ha : a ∈ s
      · rw [insert_of_mem ha, insert_of_mem (hmem.2 ha), himage]
      · rw [toList_insert_of_not_mem ha, toList_insert_of_not_mem (mt hmem.1 ha), himage,
          List.map_append, List.map_singleton]

/-- So does removing one. -/
lemma toList_erase_map (hf : Function.Injective f) (himage : image.toList = s.toList.map f)
    (a : α) : (image.erase (f a)).toList = (s.erase a).toList.map f := by
  calc (image.erase (f a)).toList
      = (s.toList.map f).filter (fun b => !decide (b = f a)) := by rw [← himage]; rfl
    _ = (s.toList.filter fun b => !decide (f b = f a)).map f := List.filter_map
    _ = (s.erase a).toList.map f := by simp only [hf.eq_iff]; rfl

end OrderedSet

end SketchSolver
