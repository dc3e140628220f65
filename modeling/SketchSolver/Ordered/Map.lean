/-!
# Maps in insertion order

Everything a sketch owns is listed in the order it was created, and that order can be seen: in
listings, in saved documents, and in which of two constraints is honoured first.  An
`OrderedMap` is therefore a list of entries, together with the fact that no key stands in it
twice.

* **Writing** — `insert` replaces the value of a key that is present *in its place* and puts a
  new key at the end; `modify` touches one value and no key.
* **Removing** — `erase` and `filter` keep the order of what stays.
* **Reading** — `get?` is the view everything else is stated through: `get?_insert`,
  `get?_modify`, `get?_erase` and `get?_mapValues` say what each operation does to it, and the
  lemmas on `keys` say what it does to the order.
-/

namespace SketchSolver

/-- A finite map that remembers the order in which its keys were first inserted. -/
@[ext]
structure OrderedMap (κ ν : Type) where
  /-- The entries, oldest key first. -/
  entries : List (κ × ν)
  /-- No key has two entries. -/
  nodupKeys : (entries.map Prod.fst).Nodup

namespace OrderedMap

variable {κ ν μ : Type}

/-! ## Reading the order -/

/-- The keys, oldest first. -/
def keys (m : OrderedMap κ ν) : List κ :=
  m.entries.map Prod.fst

/-- The values, in the order of their keys. -/
def values (m : OrderedMap κ ν) : List ν :=
  m.entries.map Prod.snd

/-- How many keys there are. -/
def size (m : OrderedMap κ ν) : Nat :=
  m.entries.length

/-- The map without keys. -/
def empty : OrderedMap κ ν :=
  ⟨[], List.nodup_nil⟩

instance : Inhabited (OrderedMap κ ν) := ⟨empty⟩

/-- Changes every value in its place. -/
def mapValues (m : OrderedMap κ ν) (f : ν → μ) : OrderedMap κ μ where
  entries := m.entries.map fun e => (e.1, f e.2)
  nodupKeys := by simpa [List.map_map, Function.comp_def] using m.nodupKeys

/-- Keeps the entries that satisfy `p`, in order. -/
def filter (m : OrderedMap κ ν) (p : κ → ν → Bool) : OrderedMap κ ν where
  entries := m.entries.filter fun e => p e.1 e.2
  nodupKeys := m.nodupKeys.sublist ((List.filter_sublist).map Prod.fst)

@[simp] theorem keys_empty : (empty : OrderedMap κ ν).keys = [] := rfl

@[simp] theorem keys_mapValues (m : OrderedMap κ ν) (f : ν → μ) :
    (m.mapValues f).keys = m.keys := by
  simp [keys, mapValues, List.map_map, Function.comp_def]

theorem keys_filter_sublist (m : OrderedMap κ ν) (p : κ → ν → Bool) :
    (m.filter p).keys.Sublist m.keys :=
  (List.filter_sublist).map Prod.fst

/-! ## Operations that compare keys -/

variable [DecidableEq κ]

/-- The value of a key. -/
def get? (m : OrderedMap κ ν) (k : κ) : Option ν :=
  m.entries.lookup k

/-- Is the key present? -/
def contains (m : OrderedMap κ ν) (k : κ) : Bool :=
  (m.get? k).isSome

/-- Changes the value of one key, if it is present. -/
def modify (m : OrderedMap κ ν) (k : κ) (f : ν → ν) : OrderedMap κ ν where
  entries := m.entries.map fun e => if e.1 = k then (e.1, f e.2) else e
  nodupKeys := by
    have h : (m.entries.map fun e => if e.1 = k then (e.1, f e.2) else e).map Prod.fst
        = m.entries.map Prod.fst := by
      rw [List.map_map]
      refine List.map_congr_left fun e _ => ?_
      simp only [Function.comp_apply]
      split <;> rfl
    rw [h]
    exact m.nodupKeys

/-- Removes one key; the others keep their order. -/
def erase (m : OrderedMap κ ν) (k : κ) : OrderedMap κ ν :=
  m.filter fun k' _ => !decide (k' = k)

/-! ## The keys after each operation -/

@[simp] theorem get?_empty (k : κ) : (empty : OrderedMap κ ν).get? k = none := rfl

@[simp] theorem keys_modify (m : OrderedMap κ ν) (k : κ) (f : ν → ν) :
    (m.modify k f).keys = m.keys := by
  simp only [keys, modify, List.map_map]
  refine List.map_congr_left fun e _ => ?_
  simp only [Function.comp_apply]
  split <;> rfl

theorem keys_erase (m : OrderedMap κ ν) (k : κ) :
    (m.erase k).keys = m.keys.filter fun k' => !decide (k' = k) := by
  simp [keys, erase, filter, List.filter_map, Function.comp_def]

/-- A key has a value exactly when it is listed. -/
theorem contains_iff_mem_keys (m : OrderedMap κ ν) (k : κ) :
    m.contains k = true ↔ k ∈ m.keys := by
  simp only [contains, get?, keys]
  induction m.entries with
  | nil => simp
  | cons e es ih =>
    obtain ⟨k', v⟩ := e
    by_cases h : k = k'
    · simp [h]
    · have hb : (k == k') = false := by simpa using h
      rw [List.lookup_cons, hb, List.map_cons, List.mem_cons]
      exact ih.trans ⟨Or.inr, fun hm => hm.resolve_left h⟩

theorem get?_eq_none_iff (m : OrderedMap κ ν) (k : κ) : m.get? k = none ↔ k ∉ m.keys := by
  rw [← contains_iff_mem_keys, contains]
  cases m.get? k <;> simp

/-- Puts a value under a key: in place if the key is present, at the end otherwise. -/
def insert (m : OrderedMap κ ν) (k : κ) (v : ν) : OrderedMap κ ν :=
  if h : m.contains k = true then
    m.modify k fun _ => v
  else
    { entries := m.entries ++ [(k, v)]
      nodupKeys := by
        have hk : k ∉ m.entries.map Prod.fst := fun hm => h ((contains_iff_mem_keys m k).2 hm)
        rw [List.map_append, List.nodup_append]
        refine ⟨m.nodupKeys, by simp, ?_⟩
        intro a ha b hb
        simp only [List.map_cons, List.map_nil, List.mem_singleton] at hb
        subst hb
        exact fun heq => hk (heq ▸ ha) }

/-- The map with these entries, written one after the other. -/
def ofList (entries : List (κ × ν)) : OrderedMap κ ν :=
  entries.foldl (fun m e => m.insert e.1 e.2) empty

theorem keys_insert_of_mem {m : OrderedMap κ ν} {k : κ} (v : ν) (h : k ∈ m.keys) :
    (m.insert k v).keys = m.keys := by
  have hc : m.contains k = true := (contains_iff_mem_keys m k).2 h
  rw [insert, dif_pos hc, keys_modify]

theorem keys_insert_of_not_mem {m : OrderedMap κ ν} {k : κ} (v : ν) (h : k ∉ m.keys) :
    (m.insert k v).keys = m.keys ++ [k] := by
  have hc : ¬ m.contains k = true := fun hc => h ((contains_iff_mem_keys m k).1 hc)
  rw [insert, dif_neg hc]
  simp [keys]

/-! ## The value after each operation -/

theorem get?_mapValues (m : OrderedMap κ ν) (f : ν → μ) (k : κ) :
    (m.mapValues f).get? k = (m.get? k).map f := by
  simp only [get?, mapValues]
  induction m.entries with
  | nil => rfl
  | cons e es ih =>
    obtain ⟨k', v⟩ := e
    cases h : k == k' <;> simp [List.lookup_cons, h, ih]

theorem get?_modify (m : OrderedMap κ ν) (k k' : κ) (f : ν → ν) :
    (m.modify k f).get? k' = if k' = k then (m.get? k').map f else m.get? k' := by
  simp only [get?, modify]
  induction m.entries with
  | nil => simp
  | cons e es ih =>
    obtain ⟨a, v⟩ := e
    by_cases hk : k' = k
    · subst hk
      by_cases ha : k' = a
      · subst ha
        simp
      · have hb : (k' == a) = false := by simpa using ha
        have ha' : ¬ a = k' := fun h => ha h.symm
        simp only [if_true] at ih
        simp [List.lookup_cons, hb, ha', ih]
    · simp only [if_neg hk] at ih ⊢
      by_cases ha : a = k
      · subst ha
        have hb : (k' == a) = false := by simpa using hk
        simp [List.lookup_cons, hb, ih]
      · by_cases hb : k' = a
        · subst hb
          simp [ha]
        · have hb' : (k' == a) = false := by simpa using hb
          simp [List.lookup_cons, ha, hb', ih]

theorem get?_filter_of_key (m : OrderedMap κ ν) (q : κ → Bool) (k : κ) :
    (m.filter fun k' _ => q k').get? k = if q k then m.get? k else none := by
  simp only [get?, filter]
  induction m.entries with
  | nil => simp
  | cons e es ih =>
    obtain ⟨a, v⟩ := e
    by_cases hk : k = a
    · subst hk
      cases hq : q k with
      | true => simp [hq]
      | false =>
        rw [hq] at ih
        rw [List.filter_cons_of_neg (by simp [hq])]
        exact ih
    · have hb : (k == a) = false := by simpa using hk
      rw [List.lookup_cons, hb]
      cases hq : q a with
      | true =>
        rw [List.filter_cons_of_pos (by simp [hq]), List.lookup_cons, hb]
        exact ih
      | false =>
        rw [List.filter_cons_of_neg (by simp [hq])]
        exact ih

@[simp] theorem get?_erase (m : OrderedMap κ ν) (k k' : κ) :
    (m.erase k).get? k' = if k' = k then none else m.get? k' := by
  rw [erase, get?_filter_of_key]
  by_cases h : k' = k <;> simp [h]

@[simp] theorem get?_insert (m : OrderedMap κ ν) (k k' : κ) (v : ν) :
    (m.insert k v).get? k' = if k' = k then some v else m.get? k' := by
  by_cases hc : m.contains k = true
  · rw [insert, dif_pos hc, get?_modify]
    by_cases h : k' = k
    · subst h
      rw [contains, Option.isSome_iff_exists] at hc
      obtain ⟨w, hw⟩ := hc
      simp [hw]
    · simp [h]
  · have hn : m.get? k = none := by
      rw [contains, Bool.not_eq_true, Option.isSome_eq_false_iff, Option.isNone_iff_eq_none] at hc
      exact hc
    rw [insert, dif_neg hc]
    show List.lookup k' (m.entries ++ [(k, v)]) = _
    rw [List.lookup_append]
    by_cases h : k' = k
    · subst h
      rw [show List.lookup k' m.entries = none from hn]
      simp
    · have hb : (k' == k) = false := by simpa using h
      rw [List.lookup_cons, hb, if_neg h]
      simp [get?]

end OrderedMap

end SketchSolver
