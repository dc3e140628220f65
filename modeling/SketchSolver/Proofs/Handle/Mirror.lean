import Mathlib
import SketchSolver.Scalar.Double
import SketchSolver.Proofs.Arena.Affine
import SketchSolver.Proofs.Handle.Flat

/-!
# Handles and their coordinates

Merging handles is recorded twice: once between the handles, and once between their coordinates,
which are unified by the map that changes nothing.

* `Affine.Neutral` — what numbers have to do with that map: composing it with itself and with its
  inverse gives it back.  So it is with machine numbers and with exact ones.
* `HandleTable.Mirrors f t a` — the links of the variables `f` in the arena are those of the handles
  in the table, in the same order.
* `Mirrors.insert`, `Mirrors.reset`, `Mirrors.remove`, `Mirrors.joined` — both sides change in step.
* `Apart f g t u` — no variable of one table is one of the other table.  Then what happens on one
  side is no matter to the other one (`Mirrors.unify_apart`, `Mirrors.remove_apart`).
-/

namespace SketchSolver

/-! ## The map that changes nothing -/

/-- The map that changes nothing is neutral, and it is not degenerate. -/
structure Affine.Neutral (α : Type) [Scalar α] : Prop where
  comp : (identity : Affine α).comp identity = identity
  comp_inverse : (identity : Affine α).comp identity.inverse = identity
  regular : (identity : Affine α).isDegenerate = false

/-- Machine numbers are exact enough for it. -/
lemma Affine.neutral_float : Affine.Neutral Float where
  comp := Affine.ext (by decide +kernel) (by decide +kernel)
  comp_inverse := Affine.ext (by decide +kernel) (by decide +kernel)
  regular := by decide +kernel

namespace Arena

variable {α : Type} [Scalar α] {a b : Arena α}

/-- Removing a variable changes no link outside its group. -/
lemma Linked.link?_remove_apart (h : a.Linked) {u v : VarId} (hlive : a.contains v = true)
    (hne : a.canonical u ≠ a.canonical v) : (a.remove v).link? u = a.link? u := by
  have huv : u ≠ v := by
    rintro rfl
    exact hne rfl
  obtain ⟨l, hl⟩ := (a.contains_iff_link? v).1 hlive
  cases l with
  | absorbed into offset =>
      have hinto : u ≠ into := by
        rintro rfl
        obtain ⟨members, hroot, -⟩ := h.listed hl
        rw [canonical_of_root hroot, h.canonical_absorbed hl] at hne
        exact hne rfl
      rw [link?_remove_absorbed hl, if_neg hinto, if_neg huv]
  | canonical members =>
      have hmem : u ∉ members := by
        intro hu
        obtain ⟨o, ho⟩ := h.absorbed hl hu
        exact hne (by rw [h.canonical_absorbed ho, canonical_of_root hl])
      rw [link?_remove_root hl, if_neg hmem, if_neg huv]

/-- Unifying two variables changes no link outside their groups. -/
lemma WellFormed.link?_unify_apart (h : a.WellFormed) {this that u : VarId} {offset : Affine α}
    {merged : Bool} (hthis : a.contains this = true) (hthat : a.contains that = true)
    (hb : a.unify this that offset = .ok (merged, b)) (hne : a.canonical u ≠ a.canonical this)
    (hne' : a.canonical u ≠ a.canonical that) : b.link? u = a.link? u := by
  rcases h.unify_cases hthis hthat offset with ⟨-, hsame⟩ | ⟨-, c, hc, hmerged⟩
  · rw [hb] at hsame
    cases hsame
    rfl
  · rw [hb] at hc
    cases hc
    exact hmerged.link_apart h.toLinked hne hne'

end Arena

namespace HandleTable

variable {α : Type} [Scalar α] {f : HandleId → VarId} {t u : HandleTable} {a b : Arena α}
  {id root childRoot parent child : HandleId} {h w c : Handle}

/-- The variable of every handle is linked as the handle is merged: into the variable of its root,
by the map that changes nothing, or it lists the variables of what the handle lists, in order. -/
structure Mirrors (f : HandleId → VarId) (t : HandleTable) (a : Arena α) : Prop where
  merged : ∀ {id h root}, t.get? id = some h → h.into = some root →
    a.link? (f id) = some (.absorbed (f root) .identity)
  root : ∀ {id h}, t.get? id = some h → h.into = none →
    ∃ members, a.link? (f id) = some (.canonical members) ∧
      members.toList = h.absorbed.toList.map f

/-- No variable is on both sides. -/
def Apart (f g : HandleId → VarId) (t u : HandleTable) : Prop :=
  ∀ {i j v w}, t.get? i = some v → u.get? j = some w → f i ≠ g j

namespace Mirrors

omit [Scalar α] in
lemma of_link [Scalar α] (hm : Mirrors f t a)
    (hlink : ∀ {id h}, t.get? id = some h → b.link? (f id) = a.link? (f id)) : Mirrors f t b where
  merged hid hinto := by rw [hlink hid, hm.merged hid hinto]
  root hid hroot := by
    rw [hlink hid]
    exact hm.root hid hroot

/-- The variable of a handle leads to that of its root, by the map that changes nothing. -/
lemma resolve (hm : Mirrors f t a) (ha : a.Linked) (hid : t.get? id = some h) :
    a.resolve (f id) = (f (t.rootOf id), .identity) := by
  rw [rootOf_eq hid]
  cases hinto : h.into with
  | none =>
      obtain ⟨members, hlink, -⟩ := hm.root hid hinto
      exact Arena.resolve_of_root hlink
  | some root => exact ha.resolve_absorbed (hm.merged hid hinto)

lemma canonical (hm : Mirrors f t a) (ha : a.Linked) (hid : t.get? id = some h) :
    a.canonical (f id) = f (t.rootOf id) := by
  rw [Arena.canonical, hm.resolve ha hid]

lemma contains (hm : Mirrors f t a) (hid : t.get? id = some h) : a.contains (f id) = true := by
  cases hinto : h.into with
  | none =>
      obtain ⟨members, hlink, -⟩ := hm.root hid hinto
      exact Arena.contains_of_link? hlink
  | some root => exact Arena.contains_of_link? (hm.merged hid hinto)

/-! ## Adding, removing and forgetting -/

/-- A new handle whose variable stands alone. -/
lemma insert (hm : Mirrors f t a) (hnew : b.link? (f id) = some .alone)
    (hold : ∀ {k h}, t.get? k = some h → k ≠ id → b.link? (f k) = a.link? (f k)) (x y : VarId) :
    Mirrors f (t.insert id x y) b where
  merged {k v root} hk hinto := by
    rw [get?_insert] at hk
    split_ifs at hk with hkid
    · cases hk
      cases hinto
    · rw [hold hk hkid, hm.merged hk hinto]
  root {k v} hk hroot := by
    rw [get?_insert] at hk
    split_ifs at hk with hkid
    · cases hk
      subst hkid
      exact ⟨.empty, hnew, rfl⟩
    · rw [hold hk hkid]
      exact hm.root hk hroot

lemma reset (hm : Mirrors f t a) : Mirrors f t.reset a.reset where
  merged hk hinto := by
    rw [get?_reset] at hk
    obtain ⟨v, -, rfl⟩ := Option.map_eq_some_iff.1 hk
    cases hinto
  root hk hroot := by
    rw [get?_reset] at hk
    obtain ⟨v, hv, rfl⟩ := Option.map_eq_some_iff.1 hk
    exact ⟨.empty, a.alone_reset (hm.contains hv), rfl⟩

/-- What is merged into a handle that stays keeps its link when another handle is removed. -/
lemma link?_remove_of_merged (hm : Mirrors f t a) (ht : t.Flat) (hf : Function.Injective f)
    (hid : t.get? id = some h) {k : HandleId} {v : Handle} (hk : t.get? k = some v)
    (hinto : v.into = some root) (hkid : k ≠ id) (hroot : root ≠ id) :
    (a.remove (f id)).link? (f k) = a.link? (f k) := by
  have hfk : f k ≠ f id := hf.ne hkid
  cases hh : h.into with
  | some r =>
      obtain ⟨w, hw, hwroot, -⟩ := ht.listed hid hh
      obtain ⟨members, hlink, -⟩ := hm.root hw hwroot
      have hfr : f k ≠ f r := Arena.ne_of_absorbed_of_canonical (hm.merged hk hinto) hlink
      rw [Arena.link?_remove_absorbed (hm.merged hid hh), if_neg hfr, if_neg hfk]
  | none =>
      obtain ⟨members, hlink, hmembers⟩ := hm.root hid hh
      have hmem : f k ∉ members := by
        rw [OrderedSet.mem_iff_of_map hf hmembers]
        intro hmem
        obtain ⟨w, hw, hwinto⟩ := ht.merged hid hmem
        rw [hk] at hw
        cases hw
        rw [hinto] at hwinto
        exact hroot (Option.some.inj hwinto)
      rw [Arena.link?_remove_root hlink, if_neg hmem, if_neg hfk]

/-- A root that stays is forgotten by nothing and forgets the removed handle. -/
lemma link?_remove_of_root (hm : Mirrors f t a) (ht : t.Flat) (hf : Function.Injective f)
    (hid : t.get? id = some h) {k : HandleId} {v : Handle} (hk : t.get? k = some v)
    (hroot : v.into = none) (hkid : k ≠ id) :
    ∃ members, (a.remove (f id)).link? (f k) = some (.canonical members) ∧
      members.toList = (v.absorbed.erase id).toList.map f := by
  have hfk : f k ≠ f id := hf.ne hkid
  obtain ⟨members, hlink, hmembers⟩ := hm.root hk hroot
  cases hh : h.into with
  | some r =>
      rw [Arena.link?_remove_absorbed (hm.merged hid hh), if_neg hfk, hlink]
      by_cases hkr : k = r
      · rw [if_pos (congrArg f hkr)]
        exact ⟨members.erase (f id), rfl, OrderedSet.toList_erase_map hf hmembers id⟩
      · have hmem : id ∉ v.absorbed := by
          intro hmem
          obtain ⟨w, hw, hwinto⟩ := ht.merged hk hmem
          rw [hid] at hw
          cases hw
          rw [hh] at hwinto
          exact hkr (Option.some.inj hwinto).symm
        rw [if_neg (hf.ne hkr)]
        exact ⟨members, rfl, by rw [hmembers, OrderedSet.erase_of_not_mem hmem]⟩
  | none =>
      obtain ⟨others, hothers, himage⟩ := hm.root hid hh
      have hapart : f k ∉ others := by
        rw [OrderedSet.mem_iff_of_map hf himage]
        exact ht.not_mem_of_root hk hroot hid
      have hmem : id ∉ v.absorbed := ht.not_mem_of_root hid hh hk
      rw [Arena.link?_remove_root hothers, if_neg hapart, if_neg hfk, hlink]
      exact ⟨members, rfl, by rw [hmembers, OrderedSet.erase_of_not_mem hmem]⟩

/-- **Removing** a handle with its variable.  What was merged into it stands alone on both sides. -/
theorem remove (hm : Mirrors f t a) (ht : t.Flat) (hf : Function.Injective f)
    (hid : t.get? id = some h) : Mirrors f (t.remove id) (a.remove (f id)) where
  merged {k v' root} hk hinto := by
    rw [get?_remove] at hk
    split_ifs at hk with hkid
    obtain ⟨v, hv, rfl⟩ := Option.map_eq_some_iff.1 hk
    simp only at hinto
    split_ifs at hinto with hgone
    have hroot : root ≠ id := by
      rintro rfl
      exact hgone hinto
    rw [hm.link?_remove_of_merged ht hf hid hv hinto hkid hroot, hm.merged hv hinto]
  root {k v'} hk hroot := by
    rw [get?_remove] at hk
    split_ifs at hk with hkid
    obtain ⟨v, hv, rfl⟩ := Option.map_eq_some_iff.1 hk
    simp only at hroot
    split_ifs at hroot with hgone
    · obtain ⟨w, hw, hwroot, hmem⟩ := ht.listed hv hgone
      rw [hid] at hw
      cases hw
      obtain ⟨members, hlink, hmembers⟩ := hm.root hid hwroot
      refine ⟨.empty, ?_, ?_⟩
      · rw [Arena.link?_remove_root hlink,
          if_pos ((OrderedSet.mem_iff_of_map hf hmembers k).2 hmem),
          if_neg (hf.ne hkid), hm.merged hv hgone]
        rfl
      · have hnone := List.eq_nil_iff_forall_not_mem.2 (ht.not_mem_of_merged hv hgone)
        rw [OrderedSet.erase_of_not_mem (ht.not_mem_of_merged hv hgone id), hnone]
        rfl
    · exact hm.link?_remove_of_root ht hf hid hv hroot hkid

/-! ## Merging -/

/-- The map between two roots that a merge of handles asks for changes nothing. -/
lemma jointOffset (hm : Mirrors f t a) (ha : a.Linked) (hneutral : Affine.Neutral α) {p q : Handle}
    (hp : t.get? parent = some p) (hq : t.get? child = some q) :
    a.jointOffset (f parent) (f child) .identity = .identity := by
  have hparent : a.offset (f parent) = .identity := by rw [Arena.offset, hm.resolve ha hp]
  have hchild : a.offset (f child) = .identity := by rw [Arena.offset, hm.resolve ha hq]
  rw [Arena.jointOffset, hparent, hchild, hneutral.comp, ite_self, hneutral.comp_inverse, ite_self]

/-- **Merging** roots, with their variables.  Both sides re-point the same group and list it in the
same order. -/
theorem joined (hm : Mirrors f t a) (ht : t.Flat) (ha : a.Linked) (hf : Function.Injective f)
    (hneutral : Affine.Neutral α) (hroots : t.Roots root childRoot w c)
    (hmerged : a.Merged b (f root) (f childRoot) .identity) :
    Mirrors f (t.joined root childRoot) b := by
  obtain ⟨mine, hmine, hmineList⟩ := hm.root hroots.winner hroots.winnerRoot
  obtain ⟨theirs, htheirs, htheirsList⟩ := hm.root hroots.loser hroots.loserRoot
  have hlink : ∀ k, b.link? (f k) =
      if k = childRoot then some (.absorbed (f root) .identity)
      else if k = root then
        some (.canonical (mine.insertMany (f childRoot :: theirs.toList)))
      else if k ∈ c.absorbed then
        some (.absorbed (f root) (Affine.identity.comp (a.offset (f k))))
      else a.link? (f k) := by
    intro k
    rw [hmerged.link, ha.link?_joined hmine htheirs hmerged.distinct]
    simp only [hf.eq_iff, OrderedSet.mem_iff_of_map hf htheirsList]
  constructor
  · intro k v r hk hinto
    rw [hroots.get?_joined ht] at hk
    rw [hlink]
    split_ifs at hk ⊢ with hloser hroot hadopted
    · cases hk
      cases hinto
      rfl
    · cases hk
      rw [hroots.winnerRoot] at hinto
      cases hinto
    · obtain ⟨v, hv, rfl⟩ := Option.map_eq_some_iff.1 hk
      cases hinto
      rw [Arena.offset, hm.resolve ha hv, hneutral.comp]
    · exact hm.merged hk hinto
  · intro k v hk hvroot
    rw [hroots.get?_joined ht] at hk
    rw [hlink]
    split_ifs at hk ⊢ with hloser hroot hadopted
    · cases hk
      cases hvroot
    · cases hk
      refine ⟨_, rfl, ?_⟩
      rw [htheirsList, ← List.map_cons]
      exact OrderedSet.toList_insertMany_map hf hmineList _
    · obtain ⟨v, hv, rfl⟩ := Option.map_eq_some_iff.1 hk
      cases hvroot
    · exact hm.root hk hvroot

/-- Merging two handles while their variables are unified. -/
lemma unify (hm : Mirrors f t a) (ht : t.Flat) (ha : a.WellFormed) (hf : Function.Injective f)
    (hneutral : Affine.Neutral α) {p q : Handle} (hp : t.get? parent = some p)
    (hq : t.get? child = some q) {merged : Bool}
    (hb : a.unify (f parent) (f child) .identity = .ok (merged, b))
    (hu : t.absorb parent child = .ok u) : Mirrors f u b := by
  rw [ht.absorb_eq hp hq] at hu
  cases hu
  have hcases := ha.unify_cases (hm.contains hp) (hm.contains hq) .identity
  rw [hm.canonical ha.toLinked hp, hm.canonical ha.toLinked hq,
    hm.jointOffset ha.toLinked hneutral hp hq, hneutral.regular, hb] at hcases
  rcases hcases with ⟨hsame, heq⟩ | ⟨⟨hne, -⟩, d, hd, hmerged⟩
  · cases heq
    have hroots : t.rootOf parent = t.rootOf child := by simpa [hf.eq_iff] using hsame
    rw [if_pos hroots]
    exact hm
  · cases hd
    have hroots : t.rootOf parent ≠ t.rootOf child := fun heq => hne (congrArg f heq)
    obtain ⟨w, hw, hwroot⟩ := ht.get?_rootOf hp
    obtain ⟨c, hc, hcroot⟩ := ht.get?_rootOf hq
    rw [if_neg hroots]
    exact hm.joined ht ha.toLinked hf hneutral ⟨hroots, hw, hc, hwroot, hcroot⟩ hmerged

/-! ## What is mirrored elsewhere -/

section

variable {g : HandleId → VarId}

/-- Variables that mirror roots elsewhere stand for groups elsewhere. -/
lemma canonical_ne (hm : Mirrors f t a) (hm' : Mirrors g u a) (ht : t.Flat) (hu : u.Flat)
    (ha : a.Linked) (hapart : Apart f g t u) {i j : HandleId} {v w : Handle}
    (hi : t.get? i = some v) (hj : u.get? j = some w) :
    a.canonical (g j) ≠ a.canonical (f i) := by
  obtain ⟨_, hroot, -⟩ := ht.get?_rootOf hi
  obtain ⟨_, hroot', -⟩ := hu.get?_rootOf hj
  rw [hm.canonical ha hi, hm'.canonical ha hj]
  exact (hapart hroot hroot').symm

/-- Unifying on one side is no matter to the other side. -/
lemma unify_apart (hm' : Mirrors g u a) (hm : Mirrors f t a) (ht : t.Flat) (hu : u.Flat)
    (ha : a.WellFormed) (hapart : Apart f g t u) {p q : Handle} (hp : t.get? parent = some p)
    (hq : t.get? child = some q) {offset : Affine α} {merged : Bool}
    (hb : a.unify (f parent) (f child) offset = .ok (merged, b)) : Mirrors g u b :=
  hm'.of_link fun hid => ha.link?_unify_apart (hm.contains hp) (hm.contains hq) hb
    (hm.canonical_ne hm' ht hu ha.toLinked hapart hp hid)
    (hm.canonical_ne hm' ht hu ha.toLinked hapart hq hid)

/-- Nor is removing. -/
lemma remove_apart (hm' : Mirrors g u a) (hm : Mirrors f t a) (ht : t.Flat) (hu : u.Flat)
    (ha : a.Linked) (hapart : Apart f g t u) (hid : t.get? id = some h) :
    Mirrors g u (a.remove (f id)) :=
  hm'.of_link fun hj => ha.link?_remove_apart (hm.contains hid)
    (hm.canonical_ne hm' ht hu ha hapart hid hj)

end

end Mirrors

end HandleTable

end SketchSolver
