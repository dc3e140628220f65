import Mathlib
import SketchSolver.Proofs.Arena.View

/-!
# Well-formed arenas

Unification is stored twice: an absorbed variable names its canonical variable, and a canonical
variable lists what it has absorbed.  Values are stored with every variable, although those of
absorbed variables follow from the others.

* `Arena.Linked` — both records of the links agree, and groups are flat.
* `Arena.Follows` — the values of one group agree.
* `Arena.WellFormed` — all of it.  No law of arithmetic is used anywhere: an absorbed variable
  has *the* value that writing its canonical variable computes, whatever that is.

In a linked arena a trail is at most one step long (`Linked.trail_eq`), so a value travels from a
variable to its root by `lift` and from the root to a variable by `lower`.  `setValue_spec` is all
that later proofs know about writing; `insert`, `reset`, `detach` and `remove` keep an arena
well-formed.
-/

namespace SketchSolver

namespace Arena

variable {α : Type}

/-- Both records of the unifications agree, and no group is deeper than one level. -/
structure Linked (a : Arena α) : Prop where
  /-- An absorbed variable names a live canonical variable, which lists it. -/
  listed : ∀ {id into offset}, a.link? id = some (.absorbed into offset) →
    ∃ members, a.link? into = some (.canonical members) ∧ id ∈ members
  /-- What a canonical variable lists is live and absorbed into it. -/
  absorbed : ∀ {id members member}, a.link? id = some (.canonical members) → member ∈ members →
    ∃ offset, a.link? member = some (.absorbed id offset)

variable [Scalar α]

/-- Everything absorbed into `root` has the value that follows from the value of `root`. -/
def Follows (a : Arena α) (root : VarId) : Prop :=
  ∀ id offset, a.link? id = some (.absorbed root offset) →
    a.value? id = (a.value? root).map offset.inverse.apply

/-- Links and values of an arena are consistent. -/
structure WellFormed (a : Arena α) : Prop extends Linked a where
  /-- Every absorbed variable has the value that follows from its canonical variable. -/
  follows : ∀ root, a.Follows root

/-- Links and values are all that counts. -/
lemma WellFormed.congr {a b : Arena α} (h : a.WellFormed) (hlink : b.link? = a.link?)
    (hvalue : b.value? = a.value?) : b.WellFormed := by
  refine { listed := ?_, absorbed := ?_, follows := fun root => ?_ }
  · rw [hlink]
    exact h.listed
  · rw [hlink]
    exact h.absorbed
  · rw [Follows, hlink, hvalue]
    exact h.follows root

/-- The value the root of `id` takes when `id` takes the value `x`. -/
def lift (a : Arena α) (id : VarId) (x : α) : α :=
  if a.canonical id = id then x else (a.offset id).apply x

/-- The value `id` has when its root has the value `x`. -/
def lower (a : Arena α) (id : VarId) (x : α) : α :=
  if a.canonical id = id then x else (a.offset id).inverse.apply x

lemma lift_of_canonical {a : Arena α} {id : VarId} (h : a.canonical id = id) (x : α) :
    a.lift id x = x :=
  if_pos h

lemma lower_of_canonical {a : Arena α} {id : VarId} (h : a.canonical id = id) (x : α) :
    a.lower id x = x :=
  if_pos h

lemma lower_congr {a b : Arena α} (h : a.shape = b.shape) : a.lower = b.lower := by
  funext id x
  rw [lower, lower, canonical_congr h, offset, offset, resolve_congr h]

lemma lift_congr {a b : Arena α} (h : a.shape = b.shape) : a.lift = b.lift := by
  funext id x
  rw [lift, lift, canonical_congr h, offset, offset, resolve_congr h]

/-! ## Canonical variables -/

lemma canonical_of_root {a : Arena α} {id : VarId} {members : OrderedSet VarId}
    (h : a.link? id = some (.canonical members)) : a.canonical id = id := by
  rw [canonical, resolve_of_root h]

lemma canonical_of_absent {a : Arena α} {id : VarId} (h : a.contains id = false) :
    a.canonical id = id := by
  rw [canonical, resolve_of_absent h]

omit [Scalar α] in
/-- No variable is absorbed and canonical at once. -/
lemma ne_of_absorbed_of_canonical {a : Arena α} {id into root : VarId} {offset : Affine α}
    {members : OrderedSet VarId} (hid : a.link? id = some (.absorbed into offset))
    (hroot : a.link? root = some (.canonical members)) : id ≠ root := by
  rintro rfl
  rw [hid] at hroot
  cases hroot

namespace Linked

variable {a : Arena α}

omit [Scalar α] in
lemma contains_into (h : a.Linked) {id into : VarId} {offset : Affine α}
    (hid : a.link? id = some (.absorbed into offset)) : a.contains into = true := by
  obtain ⟨members, hinto, -⟩ := h.listed hid
  exact contains_of_link? hinto

lemma resolve_absorbed (h : a.Linked) {id into : VarId} {offset : Affine α}
    (hid : a.link? id = some (.absorbed into offset)) : a.resolve id = (into, offset) :=
  resolve_of_absorbed hid (h.contains_into hid)

lemma canonical_absorbed (h : a.Linked) {id into : VarId} {offset : Affine α}
    (hid : a.link? id = some (.absorbed into offset)) : a.canonical id = into := by
  rw [canonical, h.resolve_absorbed hid]

lemma offset_absorbed (h : a.Linked) {id into : VarId} {offset : Affine α}
    (hid : a.link? id = some (.absorbed into offset)) : a.offset id = offset := by
  rw [Arena.offset, h.resolve_absorbed hid]

omit [Scalar α] in
lemma into_ne (h : a.Linked) {id into : VarId} {offset : Affine α}
    (hid : a.link? id = some (.absorbed into offset)) : into ≠ id := by
  obtain ⟨members, hroot, -⟩ := h.listed hid
  exact (ne_of_absorbed_of_canonical hid hroot).symm

omit [Scalar α] in
/-- A root lists no roots. -/
lemma not_mem_of_canonical (h : a.Linked) {id root : VarId} {members others : OrderedSet VarId}
    (hroot : a.link? root = some (.canonical members))
    (hid : a.link? id = some (.canonical others)) : id ∉ members := by
  intro hmem
  obtain ⟨offset, habsorbed⟩ := h.absorbed hroot hmem
  exact ne_of_absorbed_of_canonical habsorbed hid rfl

omit [Scalar α] in
/-- A root lists nothing that is absorbed into another root. -/
lemma not_mem_of_absorbed (h : a.Linked) {id root into : VarId} {members : OrderedSet VarId}
    {offset : Affine α} (hroot : a.link? root = some (.canonical members))
    (hid : a.link? id = some (.absorbed into offset)) (hne : into ≠ root) : id ∉ members := by
  intro hmem
  obtain ⟨offset', habsorbed⟩ := h.absorbed hroot hmem
  rw [hid] at habsorbed
  cases habsorbed
  exact hne rfl

/-- The canonical variable of a live variable is live and canonical. -/
lemma root_canonical (h : a.Linked) {id : VarId} (hid : a.contains id = true) :
    ∃ members, a.link? (a.canonical id) = some (.canonical members) := by
  obtain ⟨l, hl⟩ := (a.contains_iff_link? id).1 hid
  cases l with
  | canonical members => exact ⟨members, by rw [canonical_of_root hl, hl]⟩
  | absorbed into offset =>
      obtain ⟨members, hinto, -⟩ := h.listed hl
      exact ⟨members, by rw [h.canonical_absorbed hl, hinto]⟩

lemma contains_canonical (h : a.Linked) {id : VarId} (hid : a.contains id = true) :
    a.contains (a.canonical id) = true := by
  obtain ⟨members, hroot⟩ := h.root_canonical hid
  exact contains_of_link? hroot

lemma contains_canonical_iff (h : a.Linked) {id : VarId} :
    a.contains (a.canonical id) = true ↔ a.contains id = true := by
  refine ⟨fun hc => ?_, h.contains_canonical⟩
  by_contra hid
  rw [Bool.not_eq_true] at hid
  rw [canonical_of_absent hid, hid] at hc
  cases hc

/-- Looking up twice is looking up once: groups are flat. -/
@[simp] lemma canonical_canonical (h : a.Linked) (id : VarId) :
    a.canonical (a.canonical id) = a.canonical id := by
  by_cases hid : a.contains id = true
  · obtain ⟨members, hroot⟩ := h.root_canonical hid
    exact canonical_of_root hroot
  · rw [Bool.not_eq_true] at hid
    rw [canonical_of_absent hid, canonical_of_absent hid]

/-- A variable is absorbed into `root` exactly when `root` is its canonical variable and another
one. -/
lemma absorbed_iff (h : a.Linked) {id root : VarId} :
    a.link? id = some (.absorbed root (a.offset id)) ↔ a.canonical id = root ∧ id ≠ root := by
  constructor
  · intro hid
    exact ⟨h.canonical_absorbed hid, (h.into_ne hid).symm⟩
  · rintro ⟨hroot, hne⟩
    rcases hl : a.link? id with _ | l
    · rw [canonical_of_absent ((a.link?_eq_none_iff id).1 hl)] at hroot
      exact absurd hroot hne
    · cases l with
      | canonical members =>
          rw [canonical_of_root hl] at hroot
          exact absurd hroot hne
      | absorbed into offset =>
          rw [h.canonical_absorbed hl] at hroot
          rw [h.offset_absorbed hl, hroot]

/-- The members of a group are what is absorbed into its root. -/
lemma mem_membersOf (h : a.Linked) {id root : VarId} :
    id ∈ a.membersOf root ↔ a.canonical id = root ∧ id ≠ root := by
  rw [← h.absorbed_iff, membersOf_eq]
  constructor
  · intro hmem
    rcases hl : a.link? root with _ | l
    · simp [hl] at hmem
    · cases l with
      | absorbed into offset => simp [hl, Link.members, OrderedSet.empty] at hmem
      | canonical members =>
          rw [hl] at hmem
          obtain ⟨offset, hid⟩ := h.absorbed hl hmem
          rw [hid, h.offset_absorbed hid]
  · intro hid
    obtain ⟨members, hroot, hmem⟩ := h.listed hid
    rw [hroot]
    exact hmem

/-! ## Trails -/

lemma trailWithin_of_root {id : VarId} (hid : a.canonical id = id) (limit : Nat) :
    a.trailWithin limit id = (id, []) := by
  cases limit with
  | zero => rfl
  | succ limit =>
      simp only [trailWithin]
      rw [if_pos (show (a.resolve id).1 = id from hid)]

/-- **A trail has at most one step.** -/
theorem trail_eq (h : a.Linked) (id : VarId) :
    a.trail id = (a.canonical id, if a.canonical id = id then [] else [a.offset id]) := by
  by_cases hid : a.canonical id = id
  · rw [trail, trailWithin_of_root hid, if_pos hid, hid]
  · have hlive : a.contains id = true := by
      by_contra habsent
      rw [Bool.not_eq_true] at habsent
      exact hid (canonical_of_absent habsent)
    -- a variable that is there makes room for the one step
    obtain ⟨n, hn⟩ : ∃ n, a.size = n + 1 := by
      have hmem := (a.contains_iff_mem_ids id).1 hlive
      rw [ids] at hmem
      rw [size, OrderedMap.size_eq_length_keys]
      exact ⟨a.vars.keys.length - 1, by have := List.length_pos_of_mem hmem; omega⟩
    rw [trail, hn, trailWithin, if_neg hid]
    simp only
    rw [show (a.resolve id).1 = a.canonical id from rfl,
      trailWithin_of_root (h.canonical_canonical id), if_neg hid]
    rfl

lemma length_trail_le (h : a.Linked) (id : VarId) : (a.trail id).2.length ≤ 1 := by
  rw [h.trail_eq]
  split <;> simp

lemma foldl_trail (h : a.Linked) (id : VarId) (x : α) :
    (a.trail id).2.foldl (fun x offset => offset.apply x) x = a.lift id x := by
  rw [h.trail_eq, lift]
  by_cases hid : a.canonical id = id
  · rw [if_pos hid, if_pos hid]; rfl
  · rw [if_neg hid, if_neg hid]; rfl

lemma setValue_eq (h : a.Linked) {id : VarId} (hid : a.contains id = true) (x : α) :
    a.setValue id x = .ok (a.writeRoot (a.canonical id) (a.lift id x)) := by
  have hlive := h.contains_canonical hid
  rw [setValue]
  simp only
  rw [h.foldl_trail, h.trail_eq, if_pos hlive]

end Linked

/-! ## Writing -/

section

variable (a : Arena α)

lemma shape_follow (x : α) (member : VarId) : (follow x a member).shape = a.shape := by
  refine shape_modify (fun v => ?_) a member
  rcases v with ⟨y, r, l⟩
  cases l <;> exact ⟨rfl, rfl⟩

lemma shape_foldl_follow (x : α) (members : List VarId) :
    (members.foldl (follow x) a).shape = a.shape := by
  induction members generalizing a with
  | nil => rfl
  | cons member members ih => rw [List.foldl_cons, ih, shape_follow]

@[simp] lemma shape_writeRoot (root : VarId) (x : α) : (a.writeRoot root x).shape = a.shape := by
  rw [writeRoot, shape_foldl_follow]
  exact shape_modify (f := fun v => { v with value := x }) (fun _ => ⟨rfl, rfl⟩) a root

/-- A variable that follows takes its value; the others keep theirs. -/
lemma value?_follow {id root : VarId} {offset : Affine α}
    (hid : a.link? id = some (.absorbed root offset)) (x : α) (k : VarId) :
    (follow x a id).value? k = if k = id then some (offset.inverse.apply x) else a.value? k := by
  rw [follow, value?_modify]
  by_cases hk : k = id
  · subst hk
    rw [if_pos rfl, if_pos rfl]
    rw [link?] at hid
    rcases hv : a.get? k with _ | ⟨y, r, l⟩
    · rw [hv] at hid; cases hid
    · rw [hv] at hid
      obtain rfl : l = .absorbed root offset := by simpa using hid
      rfl
  · rw [if_neg hk, if_neg hk]

variable {a}

lemma Linked.value?_foldl_follow {b : Arena α} (h : a.Linked) (hb : b.shape = a.shape)
    {root : VarId} {members : List VarId}
    (hmembers : ∀ m ∈ members, a.canonical m = root ∧ m ≠ root) (x : α) (k : VarId) :
    (members.foldl (follow x) b).value? k =
      if k ∈ members then some (a.lower k x) else b.value? k := by
  induction members generalizing b with
  | nil => simp
  | cons m members ih =>
      obtain ⟨hroot, hne⟩ := hmembers m (List.mem_cons_self)
      have hlink : b.link? m = some (.absorbed root (a.offset m)) := by
        rw [link?_congr hb]
        exact h.absorbed_iff.2 ⟨hroot, hne⟩
      have hrest := ih (b := follow x b m) ((shape_follow b x m).trans hb)
        fun m' hm' => hmembers m' (List.mem_cons_of_mem _ hm')
      rw [List.foldl_cons, hrest, value?_follow b hlink]
      by_cases hk : k ∈ members
      · simp [hk]
      · by_cases hkm : k = m
        · subst hkm
          have hself : a.canonical k ≠ k := fun hc => hne (hc.symm.trans hroot)
          simp [hk, lower, hself]
        · simp [hk, hkm]

/-- What a root write does to every value. -/
lemma Linked.value?_writeRoot (h : a.Linked) {root : VarId} (hroot : a.canonical root = root)
    (hlive : a.contains root = true) (x : α) (k : VarId) :
    (a.writeRoot root x).value? k =
      if a.canonical k = root then some (a.lower k x) else a.value? k := by
  set b := a.modify root fun v => { v with value := x } with hbdef
  have hb : b.shape = a.shape :=
    shape_modify (f := fun v => { v with value := x }) (fun _ => ⟨rfl, rfl⟩) a root
  have hmembers : ∀ m ∈ a.membersOf root, a.canonical m = root ∧ m ≠ root :=
    fun m hm => h.mem_membersOf.1 hm
  rw [writeRoot, h.value?_foldl_follow hb hmembers, hbdef, value?_modify]
  simp only [h.mem_membersOf]
  by_cases hk : k = root
  · subst hk
    obtain ⟨v, hv⟩ := Option.isSome_iff_exists.1 hlive
    rw [show a.get? k = some v from hv]
    simp [hroot, lower]
  · by_cases hc : a.canonical k = root <;> simp [hk, hc]

/-- Writing the root of a group makes the group follow, whatever it did before. -/
lemma Linked.wellFormed_writeRoot (h : a.Linked) {root : VarId} (hroot : a.canonical root = root)
    (hlive : a.contains root = true) (hothers : ∀ r, r ≠ root → a.Follows r) (x : α) :
    (a.writeRoot root x).WellFormed := by
  have hlink : (a.writeRoot root x).link? = a.link? := link?_congr (shape_writeRoot a root x)
  refine { listed := ?_, absorbed := ?_, follows := ?_ }
  · rw [hlink]
    exact h.listed
  · rw [hlink]
    exact h.absorbed
  · intro r id offset hid
    rw [hlink] at hid
    obtain ⟨members, hr, -⟩ := h.listed hid
    rw [h.value?_writeRoot hroot hlive, h.value?_writeRoot hroot hlive, h.canonical_absorbed hid,
      canonical_of_root hr]
    by_cases hrr : r = root
    · subst hrr
      rw [if_pos rfl, if_pos rfl, lower_of_canonical hroot, lower, h.canonical_absorbed hid,
        if_neg (h.into_ne hid), h.offset_absorbed hid]
      rfl
    · rw [if_neg hrr, if_neg hrr]
      exact hothers r hrr id offset hid

/-- **Writing.**  A write to a live variable succeeds.  It changes values only, and of these
exactly the values of one group: each follows from the value its root takes. -/
theorem WellFormed.setValue_spec (h : a.WellFormed) {id : VarId} (hid : a.contains id = true)
    (x : α) :
    ∃ b, a.setValue id x = .ok b ∧ b.WellFormed ∧ b.shape = a.shape ∧
      ∀ k, b.value? k =
        if a.canonical k = a.canonical id then some (a.lower k (a.lift id x)) else a.value? k := by
  have hroot := h.canonical_canonical id
  have hlive := h.contains_canonical hid
  refine ⟨_, h.setValue_eq hid x, ?_, shape_writeRoot a _ _, ?_⟩
  · exact h.wellFormed_writeRoot hroot hlive (fun r _ => h.follows r) _
  · exact h.value?_writeRoot hroot hlive _

/-- In a well-formed arena every value follows from that of a root. -/
lemma WellFormed.value?_eq_lower (h : a.WellFormed) (id : VarId) :
    a.value? id = (a.value? (a.canonical id)).map (a.lower id) := by
  by_cases hid : a.canonical id = id
  · have hlower : a.lower id = fun x => x := funext (lower_of_canonical hid)
    rw [hid, hlower, Option.map_id']
  · have hlink := h.absorbed_iff.2 ⟨rfl, Ne.symm hid⟩
    have hlower : a.lower id = (a.offset id).inverse.apply := by
      funext x
      rw [lower, if_neg hid]
    rw [hlower]
    exact h.follows _ id _ hlink

/-- A write that fails names a variable that is not there. -/
lemma WellFormed.contains_of_setValue (h : a.WellFormed) {b : Arena α} {id : VarId} {x : α}
    (hset : a.setValue id x = .ok b) : a.contains id = true := by
  by_contra habsent
  rw [Bool.not_eq_true] at habsent
  have htrail := h.trail_eq id
  rw [canonical_of_absent habsent, if_pos rfl] at htrail
  rw [setValue] at hset
  simp only [htrail, habsent] at hset
  cases hset

/-- What a write has done, once it has succeeded. -/
lemma WellFormed.of_setValue (h : a.WellFormed) {b : Arena α} {id : VarId} {x : α}
    (hset : a.setValue id x = .ok b) :
    b.WellFormed ∧ b.shape = a.shape ∧ ∀ k, b.value? k =
      if a.canonical k = a.canonical id then some (a.lower k (a.lift id x)) else a.value? k := by
  obtain ⟨c, hc, hspec⟩ := h.setValue_spec (h.contains_of_setValue hset) x
  rw [hset] at hc
  cases hc
  exact hspec

end

end Arena

end SketchSolver
