import Mathlib
import SketchSolver.Proofs.Arena.Change

/-!
# What unification does

`unify` merges two groups by re-pointing a whole group and writing the winning value.  Between
these two steps the values of the merged group do not agree; the links do at every moment.

* `Link.rebase` is what happens to the link of an adopted variable; `adoptAll_spec` says that
  adopting a group rebases exactly its members.
* `Arena.joined` has the links of the merged arena, before any value is written
  (`link?_joined`); it is linked, and only the group of the winner may disagree
  (`linked_joined`, `follows_joined`).
* `Merged` — what is known of an arena after one root has absorbed another one, down to the maps
  (`offset_eq`) and the values (`value_apart`).
* **`WellFormed.unify_spec`** — unifying two live variables never fails.  Either nothing changes,
  or one group is added to another one: every variable of the loser's group now has the winner's
  root, all other groups stay, and no root changes its value.
* `Coarsens` says that one arena unifies at least what another one does.  Every unification
  coarsens, and what shared a canonical variable before shares one afterwards.
-/

namespace SketchSolver

/-- The link of a variable whose root is absorbed into another variable. -/
def Link.rebase {α : Type} [Scalar α] (into : VarId) (offset : Affine α) : Link α → Link α
  | .absorbed _ inner => .absorbed into (offset.comp inner)
  | .canonical members => .canonical members

namespace Arena

variable {α : Type} [Scalar α] {a : Arena α}

/-! ## Adopting a group -/

lemma adoptAll_spec (into : VarId) (offset : Affine α) {members : List VarId}
    (hnodup : members.Nodup) (b : Arena α)
    (habsorbed : ∀ m ∈ members, ∃ r o, b.link? m = some (.absorbed r o)) :
    (b.adoptAll into offset members).2 = members ∧
      (b.adoptAll into offset members).1.ids = b.ids ∧
      ∀ k, (b.adoptAll into offset members).1.value? k = b.value? k ∧
        (b.adoptAll into offset members).1.link? k =
          if k ∈ members then (b.link? k).map (·.rebase into offset) else b.link? k := by
  induction members generalizing b with
  | nil => exact ⟨rfl, rfl, fun k => ⟨rfl, by simp [adoptAll]⟩⟩
  | cons m members ih =>
      obtain ⟨hm, hmembers⟩ := List.nodup_cons.1 hnodup
      obtain ⟨r, o, hlink⟩ := habsorbed m (List.mem_cons_self)
      set c := b.modifyLink m fun _ => .absorbed into (offset.comp o) with hc
      have hadopt : b.adopt into offset m = some c := by
        obtain ⟨⟨x, rep, l⟩, hv, hl⟩ := Option.map_eq_some_iff.1 hlink
        obtain rfl : l = .absorbed r o := hl
        rw [adopt, hv]
      have hclink : ∀ k, c.link? k =
          if k = m then (b.link? k).map (·.rebase into offset) else b.link? k := by
        intro k
        rw [hc, link?_modifyLink]
        by_cases hk : k = m
        · rw [if_pos hk, if_pos hk, hk, hlink]; rfl
        · rw [if_neg hk, if_neg hk]
      obtain ⟨hlist, hids, hrest⟩ := ih hmembers c fun m' hm' => by
        obtain ⟨r', o', hm''⟩ := habsorbed m' (List.mem_cons_of_mem _ hm')
        have hne : m' ≠ m := by
          rintro rfl
          exact hm hm'
        exact ⟨r', o', by rw [hclink, if_neg hne, hm'']⟩
      have hstep : b.adoptAll into offset (m :: members) =
          ((c.adoptAll into offset members).1, m :: (c.adoptAll into offset members).2) := by
        rw [adoptAll, hadopt]
      rw [hstep]
      refine ⟨by rw [hlist], by rw [hids, hc, ids_modifyLink], fun k => ⟨?_, ?_⟩⟩
      · rw [(hrest k).1, hc, value?_modifyLink]
      · rw [(hrest k).2, hclink]
        by_cases hkm : k = m
        · subst hkm
          simp [hm]
        · simp [hkm]

/-! ## The merged links -/

/-- The arena in which the root `this` has absorbed the root `that`, before values follow. -/
def joined (a : Arena α) (this that : VarId) (offset : Affine α) : Arena α :=
  (((a.modifyLink that fun _ => .absorbed this offset).adoptAll this offset
      (a.membersOf that)).1).modifyLink this
    (·.updateMembers (·.insertMany (that :: a.membersOf that)))

section

variable {this that : VarId} {mine theirs : OrderedSet VarId}

omit [Scalar α] in
lemma membersOf_root (hthat : a.link? that = some (.canonical theirs)) :
    a.membersOf that = theirs.toList := by
  rw [membersOf_eq, hthat]
  rfl

/-- What the winner adopts: exactly the members of the loser. -/
lemma Linked.adoptAll_members (h : a.Linked) (this : VarId)
    (hthat : a.link? that = some (.canonical theirs)) (offset : Affine α) :
    let b := a.modifyLink that fun _ => .absorbed this offset
    let c := b.adoptAll this offset (a.membersOf that)
    c.2 = a.membersOf that ∧ c.1.ids = b.ids ∧
      ∀ k, c.1.value? k = b.value? k ∧
        c.1.link? k =
          if k ∈ a.membersOf that then (b.link? k).map (·.rebase this offset) else b.link? k := by
  have hnodup : (a.membersOf that).Nodup := by
    rw [membersOf_root hthat]
    exact theirs.nodup
  refine adoptAll_spec this offset hnodup _ fun m hm => ?_
  rw [membersOf_root hthat] at hm
  obtain ⟨o, ho⟩ := h.absorbed hthat hm
  have hne : m ≠ that := ne_of_absorbed_of_canonical ho hthat
  exact ⟨that, o, by rw [link?_modifyLink, if_neg hne, ho]⟩

lemma Linked.ids_joined (h : a.Linked) (hthat : a.link? that = some (.canonical theirs))
    (offset : Affine α) : (a.joined this that offset).ids = a.ids := by
  have hspec := h.adoptAll_members this hthat offset
  rw [joined, ids_modifyLink, hspec.2.1, ids_modifyLink]

lemma Linked.value?_joined (h : a.Linked) (hthat : a.link? that = some (.canonical theirs))
    (offset : Affine α) (k : VarId) : (a.joined this that offset).value? k = a.value? k := by
  have hspec := h.adoptAll_members this hthat offset
  rw [joined, value?_modifyLink, (hspec.2.2 k).1, value?_modifyLink]

/-- The links after a merge: the loser follows the winner, its members are rebased, and the
winner lists them all. -/
lemma Linked.link?_joined (h : a.Linked) (hthis : a.link? this = some (.canonical mine))
    (hthat : a.link? that = some (.canonical theirs)) (hne : this ≠ that) (offset : Affine α)
    (k : VarId) :
    (a.joined this that offset).link? k =
      if k = that then some (.absorbed this offset)
      else if k = this then some (.canonical (mine.insertMany (that :: theirs.toList)))
      else if k ∈ theirs then some (.absorbed this (offset.comp (a.offset k)))
      else a.link? k := by
  have hspec := h.adoptAll_members this hthat offset
  have hmem : ∀ m, m ∈ a.membersOf that ↔ m ∈ theirs := by
    intro m
    rw [membersOf_root hthat]
    rfl
  rw [joined, link?_modifyLink, (hspec.2.2 k).2, link?_modifyLink]
  simp only [hmem]
  by_cases hk : k = that
  · subst hk
    have hself : k ∉ theirs := h.not_mem_of_canonical hthat hthat
    rw [if_neg (Ne.symm hne), if_neg hself, if_pos rfl, if_pos rfl, hthat]
    rfl
  · by_cases hkthis : k = this
    · subst hkthis
      have hself : k ∉ theirs := h.not_mem_of_canonical hthat hthis
      rw [if_pos rfl, if_neg hself, if_neg hk, if_neg hk, if_pos rfl, hthis, membersOf_root hthat]
      rfl
    · rw [if_neg hkthis, if_neg hk, if_neg hk, if_neg hkthis]
      by_cases hkm : k ∈ theirs
      · obtain ⟨o, ho⟩ := h.absorbed hthat hkm
        rw [if_pos hkm, if_pos hkm, ho, h.offset_absorbed ho]
        rfl
      · rw [if_neg hkm, if_neg hkm]

lemma Linked.link?_joined_winner (h : a.Linked) (hthis : a.link? this = some (.canonical mine))
    (hthat : a.link? that = some (.canonical theirs)) (hne : this ≠ that) (offset : Affine α) :
    (a.joined this that offset).link? this =
      some (.canonical (mine.insertMany (that :: theirs.toList))) := by
  rw [h.link?_joined hthis hthat hne, if_neg hne, if_pos rfl]

/-- What is absorbed into another root than the loser keeps its link. -/
lemma Linked.link?_joined_member (h : a.Linked) (hthis : a.link? this = some (.canonical mine))
    (hthat : a.link? that = some (.canonical theirs)) (hne : this ≠ that) (offset : Affine α)
    {m k : VarId} {o : Affine α} (hm : a.link? m = some (.absorbed k o)) (hk : k ≠ that) :
    (a.joined this that offset).link? m = some (.absorbed k o) := by
  have hmthat : m ≠ that := ne_of_absorbed_of_canonical hm hthat
  have hmthis : m ≠ this := ne_of_absorbed_of_canonical hm hthis
  have hnot : m ∉ theirs := h.not_mem_of_absorbed hthat hm hk
  rw [h.link?_joined hthis hthat hne, if_neg hmthat, if_neg hmthis, if_neg hnot, hm]

/-- After a merge, what is absorbed is listed by its root: the winner lists the loser, the members
of the loser and its own. -/
lemma Linked.listed_joined (h : a.Linked) (hthis : a.link? this = some (.canonical mine))
    (hthat : a.link? that = some (.canonical theirs)) (hne : this ≠ that) (offset : Affine α)
    {k into : VarId} {o : Affine α}
    (hk : (a.joined this that offset).link? k = some (.absorbed into o)) :
    ∃ members, (a.joined this that offset).link? into = some (.canonical members) ∧
      k ∈ members := by
  have hlink := h.link?_joined hthis hthat hne offset
  have hwinner := h.link?_joined_winner hthis hthat hne offset
  have hlisted : ∀ m, m = that ∨ m ∈ theirs ∨ m ∈ mine →
      m ∈ mine.insertMany (that :: theirs.toList) := by
    intro m hm
    rw [OrderedSet.mem_insertMany, List.mem_cons]
    rcases hm with hm | hm | hm
    · exact Or.inr (Or.inl hm)
    · exact Or.inr (Or.inr hm)
    · exact Or.inl hm
  rw [hlink] at hk
  split at hk
  · rename_i hkthat
    cases hk
    exact ⟨_, hwinner, hlisted k (Or.inl hkthat)⟩
  · split at hk
    · cases hk
    · split at hk
      · rename_i hkm
        cases hk
        exact ⟨_, hwinner, hlisted k (Or.inr (Or.inl hkm))⟩
      · rename_i hkthat hkthis hkm
        obtain ⟨members, hinto, hmem⟩ := h.listed hk
        have hintothat : into ≠ that := by
          rintro rfl
          rw [hthat] at hinto
          cases hinto
          exact hkm hmem
        by_cases hintothis : into = this
        · subst hintothis
          rw [hthis] at hinto
          cases hinto
          exact ⟨_, hwinner, hlisted k (Or.inr (Or.inr hmem))⟩
        · have hnot : into ∉ theirs := h.not_mem_of_canonical hthat hinto
          exact ⟨members, by rw [hlink, if_neg hintothat, if_neg hintothis, if_neg hnot, hinto],
            hmem⟩

/-- After a merge, what a root lists is absorbed into it. -/
lemma Linked.absorbed_joined (h : a.Linked) (hthis : a.link? this = some (.canonical mine))
    (hthat : a.link? that = some (.canonical theirs)) (hne : this ≠ that) (offset : Affine α)
    {k m : VarId} {members : OrderedSet VarId}
    (hk : (a.joined this that offset).link? k = some (.canonical members)) (hm : m ∈ members) :
    ∃ o, (a.joined this that offset).link? m = some (.absorbed k o) := by
  have hlink := h.link?_joined hthis hthat hne offset
  by_cases hkthis : k = this
  · subst hkthis
    rw [h.link?_joined_winner hthis hthat hne] at hk
    obtain rfl : mine.insertMany (that :: theirs.toList) = members := by simpa using hk
    rw [OrderedSet.mem_insertMany, List.mem_cons] at hm
    by_cases hmthat : m = that
    · exact ⟨offset, by rw [hlink, if_pos hmthat]⟩
    · by_cases hmem : m ∈ theirs
      · obtain ⟨o, ho⟩ := h.absorbed hthat hmem
        have hmthis : m ≠ k := ne_of_absorbed_of_canonical ho hthis
        exact ⟨_, by rw [hlink, if_neg hmthat, if_neg hmthis, if_pos hmem]⟩
      · have hmine : m ∈ mine := by
          rcases hm with hm | hm | hm
          · exact hm
          · exact absurd hm hmthat
          · exact absurd hm hmem
        obtain ⟨o, ho⟩ := h.absorbed hthis hmine
        exact ⟨o, h.link?_joined_member hthis hthat hne offset ho hne⟩
  · have hkthat : k ≠ that := by
      rintro rfl
      rw [hlink, if_pos rfl] at hk
      cases hk
    rw [hlink, if_neg hkthat, if_neg hkthis] at hk
    split at hk
    · cases hk
    · obtain ⟨o, ho⟩ := h.absorbed hk hm
      exact ⟨o, h.link?_joined_member hthis hthat hne offset ho hkthat⟩

/-- Both records of the links agree after a merge. -/
lemma Linked.linked_joined (h : a.Linked) (hthis : a.link? this = some (.canonical mine))
    (hthat : a.link? that = some (.canonical theirs)) (hne : this ≠ that) (offset : Affine α) :
    (a.joined this that offset).Linked where
  listed := h.listed_joined hthis hthat hne offset
  absorbed := h.absorbed_joined hthis hthat hne offset

/-- Before values follow, only the winner's group may disagree. -/
lemma WellFormed.follows_joined (h : a.WellFormed) (hthis : a.link? this = some (.canonical mine))
    (hthat : a.link? that = some (.canonical theirs)) (hne : this ≠ that) (offset : Affine α)
    {root : VarId} (hroot : root ≠ this) : (a.joined this that offset).Follows root := by
  intro k o hk
  rw [h.value?_joined hthat, h.value?_joined hthat]
  rw [h.link?_joined hthis hthat hne offset] at hk
  split at hk
  · cases hk
    exact absurd rfl hroot
  · split at hk
    · cases hk
    · split at hk
      · cases hk
        exact absurd rfl hroot
      · exact h.follows root k o hk

/-- The canonical variables after a merge. -/
lemma Linked.canonical_joined (h : a.Linked) (hthis : a.link? this = some (.canonical mine))
    (hthat : a.link? that = some (.canonical theirs)) (hne : this ≠ that) (offset : Affine α)
    (k : VarId) :
    (a.joined this that offset).canonical k =
      if a.canonical k = that then this else a.canonical k := by
  have hlinked := h.linked_joined hthis hthat hne offset
  have hlink := h.link?_joined hthis hthat hne offset k
  by_cases hk : k = that
  · subst hk
    rw [if_pos rfl] at hlink
    rw [hlinked.canonical_absorbed hlink, canonical_of_root hthat, if_pos rfl]
  · rw [if_neg hk] at hlink
    by_cases hkthis : k = this
    · subst hkthis
      rw [if_pos rfl] at hlink
      rw [canonical_of_root hlink, canonical_of_root hthis, if_neg hne]
    · rw [if_neg hkthis] at hlink
      by_cases hkm : k ∈ theirs
      · rw [if_pos hkm] at hlink
        obtain ⟨o, ho⟩ := h.absorbed hthat hkm
        rw [hlinked.canonical_absorbed hlink, h.canonical_absorbed ho, if_pos rfl]
      · rw [if_neg hkm] at hlink
        have hc : a.canonical k ≠ that := by
          intro hc
          have hmem := h.mem_membersOf.2 ⟨hc, hk⟩
          rw [membersOf_root hthat] at hmem
          exact hkm hmem
        rw [if_neg hc]
        rcases hl : a.link? k with _ | l
        · rw [hl] at hlink
          rw [canonical_of_absent ((link?_eq_none_iff _ k).1 hlink),
            canonical_of_absent ((link?_eq_none_iff _ k).1 hl)]
        · rw [hl] at hlink
          cases l with
          | canonical members => rw [canonical_of_root hlink, canonical_of_root hl]
          | absorbed into o => rw [hlinked.canonical_absorbed hlink, h.canonical_absorbed hl]

end

/-! ## Unifying -/

/-- The map between two roots that makes `this` equal to `offset` applied to `that`. -/
def jointOffset (a : Arena α) (this that : VarId) (offset : Affine α) : Affine α :=
  let map := if a.canonical this = this then offset else (a.offset this).comp offset
  if a.canonical that = that then map else map.comp (a.offset that).inverse

/-- Absorbing a root joins the links and then writes the value of the winner to its group. -/
lemma Linked.absorbRoot_eq (h : a.Linked) {this that : VarId}
    (hthis : a.canonical this = this) (hthat : a.canonical that = that)
    (hlive : a.contains this = true) (hlive' : a.contains that = true) (hne : this ≠ that)
    (offset : Affine α) :
    ∃ x, a.value? this = some x ∧
      a.absorbRoot this that offset = .ok ((a.joined this that offset).writeRoot this x) := by
  obtain ⟨mine, hmine⟩ := h.root_canonical hlive
  obtain ⟨theirs, htheirs⟩ := h.root_canonical hlive'
  rw [hthis] at hmine
  rw [hthat] at htheirs
  have hthis' : (a.joined this that offset).canonical this = this := by
    rw [h.canonical_joined hmine htheirs hne, hthis, if_neg hne]
  have hlive₂ : (a.joined this that offset).contains this = true :=
    (contains_of_ids (h.ids_joined htheirs offset) this).trans hlive
  obtain ⟨x, hx⟩ := (contains_iff_value? _ _).1 hlive₂
  have hadopted := (h.adoptAll_members this htheirs offset).1
  refine ⟨x, by rw [← h.value?_joined htheirs, hx], ?_⟩
  have hread : (a.joined this that offset).value this = .ok x := (value_eq_ok_iff _ _ _).2 hx
  have hset := (h.linked_joined hmine htheirs hne offset).setValue_eq hlive₂ x
  rw [hthis', lift_of_canonical hthis'] at hset
  have hbody : a.absorbRoot this that offset =
      (do
        let x ← (a.joined this that offset).value this
        (a.joined this that offset).setValue this x) := by
    rw [absorbRoot]
    simp only [hadopted]
    rfl
  rw [hbody, hread, ok_bind, hset]

lemma WellFormed.absorbRoot_spec (h : a.WellFormed) {this that : VarId}
    (hthis : a.canonical this = this) (hthat : a.canonical that = that)
    (hlive : a.contains this = true) (hlive' : a.contains that = true) (hne : this ≠ that)
    (offset : Affine α) :
    ∃ b, a.absorbRoot this that offset = .ok b ∧ b.WellFormed ∧ b.ids = a.ids ∧
      b.link? = (a.joined this that offset).link? ∧
      (∀ k, b.canonical k = if a.canonical k = that then this else a.canonical k) ∧
      ∀ k, b.canonical k = k → b.value? k = a.value? k := by
  obtain ⟨mine, hmine⟩ := h.root_canonical hlive
  obtain ⟨theirs, htheirs⟩ := h.root_canonical hlive'
  rw [hthis] at hmine
  rw [hthat] at htheirs
  obtain ⟨x, hx, heq⟩ := h.absorbRoot_eq hthis hthat hlive hlive' hne offset
  have hlinked := h.linked_joined hmine htheirs hne offset
  have hcanonical := h.canonical_joined hmine htheirs hne offset
  have hthis' : (a.joined this that offset).canonical this = this := by
    rw [hcanonical, hthis, if_neg hne]
  have hlive₂ : (a.joined this that offset).contains this = true :=
    (contains_of_ids (h.ids_joined htheirs offset) this).trans hlive
  refine ⟨_, heq, ?_, ?_, link?_congr (shape_writeRoot _ _ _), ?_, ?_⟩
  · exact hlinked.wellFormed_writeRoot hthis' hlive₂
      (fun r hr => h.follows_joined hmine htheirs hne offset hr) x
  · rw [ids_congr (shape_writeRoot _ _ _), h.ids_joined htheirs]
  · intro k
    rw [canonical_congr (shape_writeRoot _ _ _), hcanonical]
  · intro k hk
    rw [canonical_congr (shape_writeRoot _ _ _)] at hk
    rw [hlinked.value?_writeRoot hthis' hlive₂, hk]
    by_cases hkthis : k = this
    · subst hkthis
      rw [if_pos rfl, lower_of_canonical hthis', hx]
    · rw [if_neg hkthis, h.value?_joined htheirs]

lemma Linked.unify_eq (h : a.Linked) {this that : VarId} (hthis : a.contains this = true)
    (hthat : a.contains that = true) (offset : Affine α) :
    a.unify this that offset =
      if a.canonical this = a.canonical that || (a.jointOffset this that offset).isDegenerate then
        .ok (false, a)
      else do
        return (true, ← a.absorbRoot (a.canonical this) (a.canonical that)
          (a.jointOffset this that offset)) := by
  obtain ⟨v, hv⟩ := find_ok hthis
  obtain ⟨w, hw⟩ := find_ok hthat
  have hjoint : (a.trail that).2.foldl (fun map step => map.comp step.inverse)
      ((a.trail this).2.foldl (fun map step => step.comp map) offset) =
        a.jointOffset this that offset := by
    rw [h.trail_eq, h.trail_eq, jointOffset]
    by_cases h₁ : a.canonical this = this <;> by_cases h₂ : a.canonical that = that <;>
      simp [h₁, h₂]
  rw [unify, hv, hw]
  simp only [discard_ok, ok_bind, hjoint]
  rw [h.trail_eq, h.trail_eq]
  rfl

/-- `b` is `a` after the root `loser` was absorbed into the root `winner`, whose value has won. -/
structure Merged (a b : Arena α) (winner loser : VarId) (offset : Affine α) : Prop where
  distinct : winner ≠ loser
  winnerRoot : ∃ mine, a.link? winner = some (.canonical mine)
  loserRoot : ∃ theirs, a.link? loser = some (.canonical theirs)
  wellFormed : b.WellFormed
  ids : b.ids = a.ids
  link : b.link? = (a.joined winner loser offset).link?
  canonical : ∀ k, b.canonical k = if a.canonical k = loser then winner else a.canonical k
  value : ∀ k, b.canonical k = k → b.value? k = a.value? k

/-- Unifying two live variables never fails.  If they have one root, or the map between their roots
is degenerate, nothing changes; and otherwise one root absorbs the other one. -/
lemma WellFormed.unify_cases (h : a.WellFormed) {this that : VarId}
    (hthis : a.contains this = true) (hthat : a.contains that = true) (offset : Affine α) :
    (a.canonical this = a.canonical that ∨
        (a.jointOffset this that offset).isDegenerate = true) ∧
      a.unify this that offset = .ok (false, a) ∨
    (a.canonical this ≠ a.canonical that ∧
        (a.jointOffset this that offset).isDegenerate = false) ∧
      ∃ b, a.unify this that offset = .ok (true, b) ∧
        a.Merged b (a.canonical this) (a.canonical that) (a.jointOffset this that offset) := by
  rw [h.unify_eq hthis hthat]
  split
  · rename_i hsame
    exact Or.inl ⟨by simpa using hsame, rfl⟩
  · rename_i hmerge
    simp only [Bool.or_eq_true, decide_eq_true_eq, not_or, Bool.not_eq_true] at hmerge
    obtain ⟨b, hb, hwf, hids, hlink, hcanonical, hvalue⟩ :=
      h.absorbRoot_spec (h.canonical_canonical this) (h.canonical_canonical that)
        (h.contains_canonical hthis) (h.contains_canonical hthat) hmerge.1
        (a.jointOffset this that offset)
    exact Or.inr ⟨hmerge, b, by rw [hb]; rfl, hmerge.1, h.root_canonical hthis,
      h.root_canonical hthat, hwf, hids, hlink, hcanonical, hvalue⟩

/-- **Unifying.**  Unifying two live variables never fails.  Either nothing is merged and nothing
changes, or the group of `that` is added to the group of `this`: every variable of it has the
root of `this` from now on, all others keep their root, and no root changes its value. -/
theorem WellFormed.unify_spec (h : a.WellFormed) {this that : VarId}
    (hthis : a.contains this = true) (hthat : a.contains that = true) (offset : Affine α) :
    a.unify this that offset = .ok (false, a) ∨
      a.canonical this ≠ a.canonical that ∧
      ∃ b, a.unify this that offset = .ok (true, b) ∧ b.WellFormed ∧ b.ids = a.ids ∧
        (∀ k, b.canonical k =
          if a.canonical k = a.canonical that then a.canonical this else a.canonical k) ∧
        ∀ k, b.canonical k = k → b.value? k = a.value? k := by
  rcases h.unify_cases hthis hthat offset with ⟨-, hsame⟩ | ⟨⟨hne, -⟩, b, hb, hmerged⟩
  · exact Or.inl hsame
  · exact Or.inr ⟨hne, b, hb, hmerged.wellFormed, hmerged.ids, hmerged.canonical, hmerged.value⟩

namespace Merged

variable {b : Arena α} {winner loser : VarId} {offset : Affine α}

/-- Groups that take no part in a merge keep their links. -/
lemma link_apart (hm : a.Merged b winner loser offset) (ha : a.Linked) {k : VarId}
    (hwinner : a.canonical k ≠ winner) (hloser : a.canonical k ≠ loser) :
    b.link? k = a.link? k := by
  obtain ⟨mine, hmine⟩ := hm.winnerRoot
  obtain ⟨theirs, htheirs⟩ := hm.loserRoot
  have hkw : k ≠ winner := by
    rintro rfl
    exact hwinner (canonical_of_root hmine)
  have hkl : k ≠ loser := by
    rintro rfl
    exact hloser (canonical_of_root htheirs)
  have hnot : k ∉ theirs := fun hk => by
    obtain ⟨o, ho⟩ := ha.absorbed htheirs hk
    exact hloser (ha.canonical_absorbed ho)
  rw [hm.link, ha.link?_joined hmine htheirs hm.distinct, if_neg hkl, if_neg hkw, if_neg hnot]

/-- The maps to the roots after a merge: those of the loser's group are composed with the map
between the roots. -/
lemma offset_eq (hm : a.Merged b winner loser offset) (ha : a.Linked) (k : VarId) :
    b.offset k =
      if k = loser then offset
      else if a.canonical k = loser then offset.comp (a.offset k)
      else a.offset k := by
  obtain ⟨mine, hmine⟩ := hm.winnerRoot
  obtain ⟨theirs, htheirs⟩ := hm.loserRoot
  have hlink := ha.link?_joined hmine htheirs hm.distinct offset k
  rw [← hm.link] at hlink
  by_cases hkl : k = loser
  · rw [if_pos hkl] at hlink
    rw [if_pos hkl, hm.wellFormed.offset_absorbed hlink]
  · rw [if_neg hkl] at hlink ⊢
    have hmem : k ∈ theirs ↔ a.canonical k = loser := by
      have hmembers : k ∈ a.membersOf loser ↔ a.canonical k = loser ∧ k ≠ loser :=
        ha.mem_membersOf
      rw [membersOf_root htheirs] at hmembers
      exact ⟨fun hk => (hmembers.1 hk).1, fun hk => hmembers.2 ⟨hk, hkl⟩⟩
    by_cases hkw : k = winner
    · subst hkw
      have hroot : a.canonical k ≠ loser := by
        rw [canonical_of_root hmine]
        exact hm.distinct
      rw [if_pos rfl] at hlink
      rw [if_neg hroot, Arena.offset, Arena.offset, resolve_of_root hlink, resolve_of_root hmine]
    · rw [if_neg hkw] at hlink
      by_cases hk : a.canonical k = loser
      · rw [if_pos (hmem.2 hk)] at hlink
        rw [if_pos hk, hm.wellFormed.offset_absorbed hlink]
      · rw [if_neg fun hk' => hk (hmem.1 hk')] at hlink
        rw [if_neg hk]
        rcases hl : a.link? k with _ | l
        · rw [hl, link?_eq_none_iff] at hlink
          rw [link?_eq_none_iff] at hl
          rw [Arena.offset, Arena.offset, resolve_of_absent hlink, resolve_of_absent hl]
        · rw [hl] at hlink
          cases l with
          | canonical members =>
              rw [Arena.offset, Arena.offset, resolve_of_root hlink, resolve_of_root hl]
          | absorbed into o =>
              rw [hm.wellFormed.offset_absorbed hlink, ha.offset_absorbed hl]

/-- Outside the loser's group no value changes. -/
lemma value_apart (hm : a.Merged b winner loser offset) (ha : a.WellFormed) {k : VarId}
    (hk : a.canonical k ≠ loser) : b.value? k = a.value? k := by
  obtain ⟨theirs, htheirs⟩ := hm.loserRoot
  have hkl : k ≠ loser := by
    rintro rfl
    exact hk (canonical_of_root htheirs)
  have hroot : b.canonical k = a.canonical k := by
    rw [hm.canonical, if_neg hk]
  have hlower : b.lower k = a.lower k := by
    funext x
    rw [lower, lower, hroot, hm.offset_eq ha.toLinked, if_neg hkl, if_neg hk]
  have hrootValue := hm.value (a.canonical k) (by
    rw [hm.canonical, ha.canonical_canonical, if_neg hk])
  rw [hm.wellFormed.value?_eq_lower, ha.value?_eq_lower, hroot, hlower, hrootValue]

end Merged

/-! ## Coarser arenas -/

/-- The second arena has the same variables as the first one and unifies at least the same of
them. -/
structure Coarsens (a b : Arena α) : Prop where
  /-- No variable comes or goes. -/
  ids : b.ids = a.ids
  /-- What shared a canonical variable still does. -/
  canonical : ∀ {u v}, a.canonical u = a.canonical v → b.canonical u = b.canonical v

namespace Coarsens

lemma refl (a : Arena α) : a.Coarsens a := ⟨rfl, id⟩

lemma trans {b c : Arena α} (hab : a.Coarsens b) (hbc : b.Coarsens c) : a.Coarsens c :=
  ⟨hbc.ids.trans hab.ids, fun h => hbc.canonical (hab.canonical h)⟩

lemma contains {b : Arena α} (h : a.Coarsens b) {id : VarId} :
    b.contains id = true ↔ a.contains id = true := by
  rw [contains_of_ids h.ids]

end Coarsens

/-- A unification of live variables succeeds, keeps the arena well-formed, and coarsens it. -/
lemma WellFormed.unify_coarsens (h : a.WellFormed) {this that : VarId}
    (hthis : a.contains this = true) (hthat : a.contains that = true) (offset : Affine α) :
    ∃ merged b, a.unify this that offset = .ok (merged, b) ∧ b.WellFormed ∧ a.Coarsens b := by
  rcases h.unify_spec hthis hthat offset with hsame | ⟨-, b, hb, hwf, hids, hcanonical, -⟩
  · exact ⟨false, a, hsame, h, .refl a⟩
  · refine ⟨true, b, hb, hwf, hids, fun {u v} huv => ?_⟩
    rw [hcanonical, hcanonical, huv]

end Arena

end SketchSolver
