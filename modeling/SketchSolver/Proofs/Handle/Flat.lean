import Mathlib
import SketchSolver.Proofs.Handle

/-!
# The forest of merged handles

A handle that was merged names its root, and a root lists what was merged into it.

* `HandleTable.Flat` — both records agree, and no handle is merged into one that is merged itself.
* `HandleTable.rootOf` — the root of a handle.  However often `into` is followed, as long as it is
  followed at all, it leads there (`Flat.rootWithin_eq`), so looking for a root ends by itself.
* `HandleTable.joined` — the table after one root was merged into another one.  `absorb` comes to
  this, or changes nothing (`Flat.absorb_eq`).
* Adding, removing, forgetting and merging handles keep a table flat.
-/

namespace SketchSolver

namespace HandleTable

variable {t u : HandleTable} {id root childRoot parent child : HandleId} {h : Handle}

/-- Both records of the merges agree, and no merge leads further than one step. -/
structure Flat (t : HandleTable) : Prop where
  /-- A merged handle names a live root, which lists it. -/
  listed : ∀ {id h root}, t.get? id = some h → h.into = some root →
    ∃ w, t.get? root = some w ∧ w.into = none ∧ id ∈ w.absorbed
  /-- What a handle lists is live and merged into it. -/
  merged : ∀ {id h member}, t.get? id = some h → member ∈ h.absorbed →
    ∃ w, t.get? member = some w ∧ w.into = some id

/-- The handle that this one was merged into, or this one. -/
def rootOf (t : HandleTable) (id : HandleId) : HandleId :=
  ((t.get? id).bind (·.into)).getD id

lemma rootOf_eq (hid : t.get? id = some h) : t.rootOf id = h.into.getD id := by
  rw [rootOf, hid, Option.bind_some]

lemma coords?_of_get? (hid : t.get? id = some h) : t.coords? id = some ⟨h.x, h.y⟩ := by
  rw [coords?_eq, hid, Option.map_some]

lemma find_eq (hid : t.get? id = some h) : t.find id = .ok h := by
  rw [find, hid]

namespace Flat

/-- A merged handle lists nothing. -/
lemma not_mem_of_merged (ht : t.Flat) (hid : t.get? id = some h) (hinto : h.into = some root)
    (member : HandleId) : member ∉ h.absorbed := by
  intro hmem
  obtain ⟨m, hm, hmerged⟩ := ht.merged hid hmem
  obtain ⟨w, hw, hroot, -⟩ := ht.listed hm hmerged
  rw [hid] at hw
  cases hw
  rw [hinto] at hroot
  cases hroot

/-- The root of a live handle is live and was not merged. -/
lemma get?_rootOf (ht : t.Flat) (hid : t.get? id = some h) :
    ∃ w, t.get? (t.rootOf id) = some w ∧ w.into = none := by
  rw [rootOf_eq hid]
  cases hinto : h.into with
  | none => exact ⟨h, hid, hinto⟩
  | some root =>
      obtain ⟨w, hw, hroot, -⟩ := ht.listed hid hinto
      exact ⟨w, hw, hroot⟩

/-- **Roots are found in one step.**  More steps lead no further. -/
theorem rootWithin_eq (ht : t.Flat) (hid : t.get? id = some h) (limit : Nat) :
    t.rootWithin (limit + 1) id = .ok (t.rootOf id) := by
  have hstays : ∀ {r w} (n : Nat), t.get? r = some w → w.into = none →
      t.rootWithin n r = .ok r := by
    intro r w n hw hroot
    cases n with
    | zero => rfl
    | succ n =>
        rw [rootWithin, find_eq hw, ok_bind]
        simp only [hroot]
        rfl
  cases hinto : h.into with
  | none =>
      rw [hstays _ hid hinto, rootOf_eq hid, hinto]
      rfl
  | some root =>
      obtain ⟨w, hw, hroot, -⟩ := ht.listed hid hinto
      rw [rootWithin, find_eq hid, ok_bind, rootOf_eq hid]
      simp only [hinto]
      exact hstays _ hw hroot

lemma root_eq (ht : t.Flat) (hid : t.get? id = some h) : t.root id = .ok (t.rootOf id) :=
  ht.rootWithin_eq hid _

end Flat

/-! ## Adding, removing and forgetting -/

lemma flat_empty : empty.Flat where
  listed hid := by cases hid
  merged hid := by cases hid

lemma get?_insert (t : HandleTable) (id k : HandleId) (x y : VarId) :
    (t.insert id x y).get? k = if k = id then some { x, y } else t.get? k := by
  rw [get?, insert, OrderedMap.get?_insert]
  rfl

lemma Flat.insert (ht : t.Flat) (hid : t.get? id = none) (x y : VarId) :
    (t.insert id x y).Flat where
  listed {k v root} hk hinto := by
    rw [get?_insert] at hk
    split_ifs at hk with hkid
    · cases hk
      cases hinto
    · obtain ⟨w, hw, hroot, hmem⟩ := ht.listed hk hinto
      refine ⟨w, ?_, hroot, hmem⟩
      rw [get?_insert, if_neg, hw]
      rintro rfl
      rw [hid] at hw
      cases hw
  merged {k v member} hk hmem := by
    rw [get?_insert] at hk
    split_ifs at hk with hkid
    · cases hk
      exact absurd hmem (OrderedSet.not_mem_empty member)
    · obtain ⟨w, hw, hmerged⟩ := ht.merged hk hmem
      refine ⟨w, ?_, hmerged⟩
      rw [get?_insert, if_neg, hw]
      rintro rfl
      rw [hid] at hw
      cases hw

lemma get?_remove (t : HandleTable) (id k : HandleId) :
    (t.remove id).get? k = if k = id then none else (t.get? k).map fun h =>
      { h with
        absorbed := h.absorbed.erase id
        into := if h.into = some id then none else h.into } := by
  rw [get?, remove, OrderedMap.get?_mapValues, OrderedMap.get?_erase]
  split <;> rfl

lemma Flat.remove (ht : t.Flat) (id : HandleId) : (t.remove id).Flat where
  listed {k v root} hk hinto := by
    rw [get?_remove] at hk
    split_ifs at hk with hkid
    obtain ⟨h, hh, rfl⟩ := Option.map_eq_some_iff.1 hk
    simp only at hinto
    split_ifs at hinto with hgone
    obtain ⟨w, hw, hroot, hmem⟩ := ht.listed hh hinto
    have hrootid : root ≠ id := by
      rintro rfl
      exact hgone hinto
    refine ⟨_, by rw [get?_remove, if_neg hrootid, hw, Option.map_some], ?_, ?_⟩
    · simp [hroot]
    · exact (OrderedSet.mem_erase _ _ _).2 ⟨hmem, hkid⟩
  merged {k v member} hk hmem := by
    rw [get?_remove] at hk
    split_ifs at hk with hkid
    obtain ⟨h, hh, rfl⟩ := Option.map_eq_some_iff.1 hk
    obtain ⟨hmem, hmemberid⟩ := (OrderedSet.mem_erase _ _ _).1 hmem
    obtain ⟨w, hw, hmerged⟩ := ht.merged hh hmem
    refine ⟨_, by rw [get?_remove, if_neg hmemberid, hw, Option.map_some], ?_⟩
    simp [hmerged, hkid]

lemma get?_reset (t : HandleTable) (k : HandleId) :
    t.reset.get? k = (t.get? k).map fun h => { h with absorbed := .empty, into := none } :=
  OrderedMap.get?_mapValues _ _ _

lemma flat_reset (t : HandleTable) : t.reset.Flat where
  listed hid hinto := by
    rw [get?_reset] at hid
    obtain ⟨h, -, rfl⟩ := Option.map_eq_some_iff.1 hid
    cases hinto
  merged hid hmem := by
    rw [get?_reset] at hid
    obtain ⟨h, -, rfl⟩ := Option.map_eq_some_iff.1 hid
    exact absurd hmem (OrderedSet.not_mem_empty _)

/-! ## Merging -/

/-- The table in which the root `childRoot` was merged into the root `root`. -/
def joined (t : HandleTable) (root childRoot : HandleId) : HandleTable :=
  let adopted := ((t.get? childRoot).map (·.absorbed.toList)).getD []
  let t := t.modify childRoot fun h => { h with into := some root, absorbed := .empty }
  let t := adopted.foldl (fun t member => t.modify member fun h => { h with into := some root }) t
  t.modify root fun h => { h with absorbed := h.absorbed.insertMany (childRoot :: adopted) }

/-- **Merging** live handles comes to merging their roots, if these differ. -/
theorem Flat.absorb_eq (ht : t.Flat) {p c : Handle} (hparent : t.get? parent = some p)
    (hchild : t.get? child = some c) :
    t.absorb parent child = .ok (if t.rootOf parent = t.rootOf child then t
      else t.joined (t.rootOf parent) (t.rootOf child)) := by
  obtain ⟨w, hw, -⟩ := ht.get?_rootOf hchild
  rw [absorb, find_eq hchild, ht.root_eq hparent, ht.root_eq hchild]
  simp only [discard_ok, ok_bind]
  split
  · rfl
  · rw [find_eq hw, ok_bind, joined, hw]
    rfl

lemma get?_modify (t : HandleTable) (id k : HandleId) (f : Handle → Handle) :
    (t.modify id f).get? k = if k = id then (t.get? k).map f else t.get? k := by
  rw [get?, modify, OrderedMap.get?_modify]
  rfl

lemma get?_foldl_modify {f : Handle → Handle} (hf : ∀ h, f (f h) = f h) (ids : List HandleId)
    (t : HandleTable) (k : HandleId) :
    (ids.foldl (fun t id => t.modify id f) t).get? k =
      if k ∈ ids then (t.get? k).map f else t.get? k := by
  induction ids generalizing t with
  | nil => simp
  | cons id ids ih =>
      rw [List.foldl_cons, ih, get?_modify]
      by_cases hk : k = id <;> by_cases hmem : k ∈ ids <;> simp [hk, hmem, Function.comp_def, hf]

/-- Two different roots. -/
structure Roots (t : HandleTable) (root childRoot : HandleId) (w c : Handle) : Prop where
  distinct : root ≠ childRoot
  winner : t.get? root = some w
  loser : t.get? childRoot = some c
  winnerRoot : w.into = none
  loserRoot : c.into = none

variable {w c : Handle}

/-- No root is listed. -/
lemma Flat.not_mem_of_root (ht : t.Flat) (hid : t.get? id = some h) (hroot : h.into = none)
    {k : HandleId} {v : Handle} (hk : t.get? k = some v) : id ∉ v.absorbed := by
  intro hmem
  obtain ⟨w, hw, hmerged⟩ := ht.merged hk hmem
  rw [hid] at hw
  cases hw
  rw [hroot] at hmerged
  cases hmerged

/-- The handles after a merge: the loser is merged into the winner and lists nothing any more, what
it had listed is merged into the winner, and the winner lists them all. -/
lemma Roots.get?_joined (hroots : t.Roots root childRoot w c) (ht : t.Flat) (k : HandleId) :
    (t.joined root childRoot).get? k =
      if k = childRoot then some { c with into := some root, absorbed := .empty }
      else if k = root then
        some { w with absorbed := w.absorbed.insertMany (childRoot :: c.absorbed.toList) }
      else if k ∈ c.absorbed then (t.get? k).map ({ · with into := some root })
      else t.get? k := by
  have hwinner : root ∉ c.absorbed.toList :=
    ht.not_mem_of_root hroots.winner hroots.winnerRoot hroots.loser
  have hloser : childRoot ∉ c.absorbed.toList :=
    ht.not_mem_of_root hroots.loser hroots.loserRoot hroots.loser
  have hadopted := get?_foldl_modify (f := fun h : Handle => { h with into := some root })
    (fun _ => rfl) c.absorbed.toList
  simp only [joined, hroots.loser, Option.map_some, Option.getD_some, get?_modify, hadopted,
    OrderedSet.mem_def]
  by_cases hk : k = childRoot
  · subst hk
    simp [hloser, hroots.distinct.symm, hroots.loser]
  · by_cases hkroot : k = root
    · subst hkroot
      simp [hwinner, hk, hroots.winner]
    · simp [hk, hkroot]

/-- What was merged before is merged after a merge, into the winner if the loser was its root. -/
lemma Roots.get?_joined_of_merged (hroots : t.Roots root childRoot w c) (ht : t.Flat)
    {m r : HandleId} {v : Handle} (hm : t.get? m = some v) (hinto : v.into = some r) :
    (t.joined root childRoot).get? m =
      some { v with into := some (if r = childRoot then root else r) } := by
  have hloser : m ≠ childRoot := by
    rintro rfl
    rw [hroots.loser] at hm
    cases hm
    rw [hroots.loserRoot] at hinto
    cases hinto
  have hwinner : m ≠ root := by
    rintro rfl
    rw [hroots.winner] at hm
    cases hm
    rw [hroots.winnerRoot] at hinto
    cases hinto
  rw [hroots.get?_joined ht, if_neg hloser, if_neg hwinner]
  by_cases hr : r = childRoot
  · obtain ⟨v', hv', -, hmem⟩ := ht.listed hm hinto
    rw [hr, hroots.loser] at hv'
    cases hv'
    rw [if_pos hmem, if_pos hr, hm, Option.map_some]
  · have hapart : m ∉ c.absorbed := by
      intro hmem
      obtain ⟨v', hv', hmerged⟩ := ht.merged hroots.loser hmem
      rw [hm] at hv'
      cases hv'
      rw [hinto] at hmerged
      exact hr (Option.some.inj hmerged)
    rw [if_neg hapart, if_neg hr, hm, ← hinto]

/-- What a merge leaves of a root that is no loser. -/
lemma Roots.get?_joined_of_root (hroots : t.Roots root childRoot w c) (ht : t.Flat) {k : HandleId}
    {v : Handle} (hk : t.get? k = some v) (hvroot : v.into = none) (hne : k ≠ childRoot) :
    ∃ v', (t.joined root childRoot).get? k = some v' ∧ v'.into = none ∧
      ∀ m, m ∈ v.absorbed → m ∈ v'.absorbed := by
  rw [hroots.get?_joined ht, if_neg hne]
  split_ifs with hkroot hkc
  · subst hkroot
    rw [hroots.winner] at hk
    cases hk
    exact ⟨_, rfl, hvroot, fun m hm => (OrderedSet.mem_insertMany _ _ _).2 (Or.inl hm)⟩
  · exact absurd hkc (ht.not_mem_of_root hk hvroot hroots.loser)
  · exact ⟨v, hk, hvroot, fun _ => id⟩

lemma Flat.joined (ht : t.Flat) (hroots : t.Roots root childRoot w c) :
    (t.joined root childRoot).Flat := by
  have hjoined := hroots.get?_joined ht
  have hwinner : (t.joined root childRoot).get? root =
      some { w with absorbed := w.absorbed.insertMany (childRoot :: c.absorbed.toList) } := by
    rw [hjoined, if_neg hroots.distinct, if_pos rfl]
  constructor
  · intro id h r hid hinto
    rw [hjoined] at hid
    split_ifs at hid with hloser hroot hadopted
    · cases hid
      cases hinto
      refine ⟨_, hwinner, hroots.winnerRoot, ?_⟩
      simp [hloser]
    · cases hid
      rw [hroots.winnerRoot] at hinto
      cases hinto
    · obtain ⟨v, -, rfl⟩ := Option.map_eq_some_iff.1 hid
      cases hinto
      refine ⟨_, hwinner, hroots.winnerRoot, ?_⟩
      simp [OrderedSet.mem_def.1 hadopted]
    · obtain ⟨v, hv, hvroot, hmem⟩ := ht.listed hid hinto
      have hne : r ≠ childRoot := by
        rintro rfl
        rw [hroots.loser] at hv
        cases hv
        exact hadopted hmem
      obtain ⟨v', hv', hroot', hsub⟩ := hroots.get?_joined_of_root ht hv hvroot hne
      exact ⟨v', hv', hroot', hsub id hmem⟩
  · intro id h m hid hmem
    have hmerged := fun {m r : HandleId} {v : Handle} (hm : t.get? m = some v)
      (hinto : v.into = some r) => hroots.get?_joined_of_merged ht hm hinto
    rw [hjoined] at hid
    split_ifs at hid with hloser hroot hadopted
    · cases hid
      exact absurd hmem (OrderedSet.not_mem_empty m)
    · cases hid
      rw [OrderedSet.mem_insertMany, List.mem_cons] at hmem
      subst hroot
      rcases hmem with hmem | rfl | hmem
      · obtain ⟨v, hv, hinto⟩ := ht.merged hroots.winner hmem
        exact ⟨_, hmerged hv hinto, by rw [if_neg hroots.distinct]⟩
      · exact ⟨_, by rw [hjoined, if_pos rfl], rfl⟩
      · obtain ⟨v, hv, hinto⟩ := ht.merged hroots.loser hmem
        exact ⟨_, hmerged hv hinto, by rw [if_pos rfl]⟩
    · obtain ⟨v, hv, rfl⟩ := Option.map_eq_some_iff.1 hid
      obtain ⟨v', hv', hinto⟩ := ht.merged hroots.loser hadopted
      rw [hv] at hv'
      cases hv'
      exact absurd hmem (ht.not_mem_of_merged hv hinto m)
    · obtain ⟨v, hv, hinto⟩ := ht.merged hid hmem
      exact ⟨_, hmerged hv hinto, by rw [if_neg hloser]⟩

lemma Flat.absorb (ht : t.Flat) {p q : Handle} (hparent : t.get? parent = some p)
    (hchild : t.get? child = some q) (hu : t.absorb parent child = .ok u) : u.Flat := by
  rw [ht.absorb_eq hparent hchild] at hu
  cases hu
  split_ifs with hsame
  · exact ht
  · obtain ⟨w, hw, hwroot⟩ := ht.get?_rootOf hparent
    obtain ⟨c, hc, hcroot⟩ := ht.get?_rootOf hchild
    exact ht.joined ⟨hsame, hw, hc, hwroot, hcroot⟩

end HandleTable

end SketchSolver
