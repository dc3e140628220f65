import Mathlib
import SketchSolver.Proofs.Sketch.Integrity

/-!
# What a removal takes with it

A removal takes along every constraint that refers to what is removed, the variables that those own,
every constraint that refers to those, and so on.  It takes nothing else.

* `Sketch.Remains` — what is left is as it was, and in the same order.
* `Sketch.Closed` — a set of constraints that takes along all that refers to what its constraints
  own.
* `closed_gone` — the constraints that a removal takes are such a set: what remains is live, and a
  variable that remains is still owned.
* `spares_cascade` — a cascade that begins in such a set does not leave it.  This is by induction on
  the number of steps.  Variables that constraints own are no coordinates, so no handle goes.
* `reachable_removal` — so the constraints that go are the least such set.
-/

namespace SketchSolver

namespace Constraint

lemma mentions_iff {α : Type} (c : Constraint α) (t : HandleTable) (v : VarId) :
    c.mentions t v = true ↔
      (∃ i ∈ c.handles, ∃ p, t.coords? i = some p ∧ (v = p.x ∨ v = p.y)) ∨
        v ∈ c.inputs ++ c.owned := by
  rw [mentions, Bool.or_eq_true, List.any_eq_true, List.contains_iff_mem]
  refine or_congr (exists_congr fun i => and_congr_right fun _ => ?_) Iff.rfl
  rw [HandleTable.coords?_eq]
  cases t.get? i with
  | none => simp
  | some w => simp [Handle.owns, @eq_comm _ v]

end Constraint

lemma Coords.component_eq_iff {p : Coords} {v : VarId} :
    (∃ k, p.component k = v) ↔ v = p.x ∨ v = p.y := by
  constructor
  · rintro ⟨k, rfl⟩
    cases k with
    | x => exact Or.inl rfl
    | y => exact Or.inr rfl
  · rintro (rfl | rfl)
    · exact ⟨.x, rfl⟩
    · exact ⟨.y, rfl⟩

/-- A variable that belongs to a handle is one of its coordinates. -/
lemma HandleTable.component_of_ownerOf {t : HandleTable} {v : VarId} {id : HandleId}
    (h : t.ownerOf v = some id) : ∃ p, t.coords? id = some p ∧ ∃ k, p.component k = v := by
  obtain ⟨w, hw, howns⟩ := ownerOf_eq_some h
  refine ⟨⟨w.x, w.y⟩, by rw [coords?_eq, hw, Option.map_some], Coords.component_eq_iff.2 ?_⟩
  simpa [Handle.owns, @eq_comm _ v] using howns

namespace Sketch

variable {α : Type} {s s' t t' : Sketch α}

/-! ## What is left -/

/-- What is left is as it was, and in the same order. -/
structure Remains (s s' : Sketch α) : Prop where
  constraints : s'.constraints.entries.Sublist s.constraints.entries
  vars : s'.arena.ids.Sublist s.arena.ids
  values : ∀ {v}, s'.arena.contains v = true → s'.arena.value? v = s.arena.value? v
  handles : s'.handles.ids.Sublist s.handles.ids
  points : ∀ {i p}, s'.handles.coords? i = some p → s.handles.coords? i = some p

namespace Remains

lemma refl (s : Sketch α) : Remains s s :=
  ⟨.refl _, .refl _, fun _ => rfl, .refl _, id⟩

lemma contains (h : Remains s s') {v : VarId} (hv : s'.arena.contains v = true) :
    s.arena.contains v = true :=
  (s.arena.contains_iff_mem_ids v).2 (h.vars.subset ((s'.arena.contains_iff_mem_ids v).1 hv))

lemma get? (h : Remains s s') {id : ConstraintId} {c : Constraint α}
    (hget : s'.constraints.get? id = some c) : s.constraints.get? id = some c :=
  (s.constraints.mem_entries_iff id c).1
    (h.constraints.subset ((s'.constraints.mem_entries_iff id c).2 hget))

lemma trans (h : Remains s t) (h' : Remains t s') : Remains s s' where
  constraints := h'.constraints.trans h.constraints
  vars := h'.vars.trans h.vars
  values hv := (h'.values hv).trans (h.values (h'.contains hv))
  handles := h'.handles.trans h.handles
  points hp := h.points (h'.points hp)

end Remains

lemma Removal.remains (hstep : Removal s s') : Remains s s' := by
  cases hstep with
  | ofConstraint id => exact ⟨List.filter_sublist, .refl _, fun _ => rfl, .refl _, fun hp => hp⟩
  | @ofVariable v _ =>
      refine ⟨.refl _, s.arena.ids_remove_sublist v, fun hv => ?_, .refl _, id⟩
      rw [Arena.value?_remove, if_neg ((Arena.contains_remove _ _ _).1 hv).1]
  | @ofHandle id w _ =>
      refine ⟨.refl _, (Arena.ids_remove_sublist _ _).trans (Arena.ids_remove_sublist _ _),
        fun hv => ?_, ?_, fun hp => ?_⟩
      · obtain ⟨hy, hv⟩ := (Arena.contains_remove _ _ _).1 hv
        rw [Arena.value?_remove, if_neg hy, Arena.value?_remove,
          if_neg ((Arena.contains_remove _ _ _).1 hv).1]
      · rw [HandleTable.ids, HandleTable.remove, OrderedMap.keys_mapValues]
        exact s.handles.handles.keys_erase_sublist id
      · rw [HandleTable.coords?_remove] at hp
        split at hp
        · cases hp
        · exact hp

lemma Removals.remains (h : Removals s s') : Remains s s' := by
  induction h with
  | refl => exact .refl s
  | tail _ hstep ih => exact ih.trans hstep.remains

/-! ## The closure -/

/-- The constraints that are gone. -/
def gone (s s' : Sketch α) : Set ConstraintId :=
  {i | i ∈ s.constraints.keys ∧ i ∉ s'.constraints.keys}

/-- The variables that some constraints own. -/
def ownedBy (s : Sketch α) (R : Set ConstraintId) : Set VarId :=
  {v | ∃ i ∈ R, ∃ c, s.constraints.get? i = some c ∧ v ∈ c.owned}

/-- Whatever refers to what a constraint of the set owns belongs to the set. -/
def Closed (s : Sketch α) (R : Set ConstraintId) : Prop :=
  ∀ v ∈ s.ownedBy R, ∀ i, s.Refers i v → i ∈ R

section

variable [Scalar α]

/-- A constraint that remains refers to what it has referred to, and all of this remains. -/
lemma Remains.contains_of_refers (h : Remains s s') (hs : s.Intact) (hs' : s'.Intact)
    {i : ConstraintId} {v : VarId} (hi : i ∈ s'.constraints.keys) (hrefers : s.Refers i v) :
    s'.arena.contains v = true := by
  obtain ⟨c, hget'⟩ := (s'.constraints.mem_keys_iff_exists i).1 hi
  obtain ⟨d, hget, huses⟩ := hrefers
  rw [h.get? hget'] at hget
  cases hget
  have hlive' := hs'.live hget' not_false
  rcases ((hs.live (h.get? hget') not_false).uses_iff v).1 huses with ⟨j, hj, p, hp, hv⟩ | hnamed
  · obtain ⟨q, hq⟩ := (HandleTable.contains_iff_coords? j).1 (hlive'.handles j hj)
    obtain rfl : p = q := Option.some.inj (hp.symm.trans (h.points hq))
    rcases hv with rfl | rfl
    · exact (hs'.grounded j p hq).1
    · exact (hs'.grounded j p hq).2
  · exact hlive'.named v hnamed

omit [Scalar α] in
/-- The owner of a variable that remains remains. -/
lemma Removals.owner_mem_keys (h : Removals s s') (hs : s.Registered) (hs' : s'.Registered)
    {i : ConstraintId} {c : Constraint α} {v : VarId} (hget : s.constraints.get? i = some c)
    (hv : v ∈ c.owned) (hremains : s'.arena.contains v = true) : i ∈ s'.constraints.keys := by
  obtain ⟨⟨v, q⟩, hq, rfl⟩ := List.mem_map.1 hv
  have hlabel := hs.labelled hget hq
  rw [← h.keeps.label hremains] at hlabel
  obtain ⟨d, hd, -⟩ := hs'.tidy v i q hlabel not_false
  exact OrderedMap.mem_keys_of_get? hd

omit [Scalar α] in
/-- What the constraints have owned that are gone is gone, too. -/
lemma Removals.not_contains_of_owned (h : Removals s s') (hs : s.Registered)
    (hs' : s'.Registered) {v : VarId} (hv : v ∈ s.ownedBy (gone s s')) :
    s'.arena.contains v = false := by
  obtain ⟨i, ⟨-, hgone⟩, c, hget, hv⟩ := hv
  rw [← Bool.not_eq_true]
  exact fun hremains => hgone (h.owner_mem_keys hs hs' hget hv hremains)

/-- **Nothing is left behind** that refers to what was owned by a constraint that is gone. -/
lemma Removals.closed_gone (h : Removals s s') (hs : s.Intact) (hs' : s'.Intact)
    (hregistered : s.Registered) (hregistered' : s'.Registered) : s.Closed (gone s s') := by
  intro v hv i hrefers
  refine ⟨hrefers.mem_keys, fun hi => ?_⟩
  have hcontains := h.remains.contains_of_refers hs hs' hi hrefers
  rw [h.not_contains_of_owned hregistered hregistered' hv] at hcontains
  cases hcontains

end

/-! ## Cascades stay in the closure -/

variable {R : Set ConstraintId} {cut : ConstraintId → Sketch α → Sketch α}

/-- From `t` to `t'` only constraints in `R` go, and variables that they own in `s`. -/
structure Spared (s : Sketch α) (R : Set ConstraintId) (t t' : Sketch α) : Prop where
  remains : Remains t t'
  constraints : ∀ {i}, i ∈ t.constraints.keys → i ∉ R → i ∈ t'.constraints.keys
  vars : ∀ {v}, t.arena.contains v = true → v ∉ s.ownedBy R → t'.arena.contains v = true
  handles : t'.handles = t.handles

lemma Spared.refl (s : Sketch α) (R : Set ConstraintId) (t : Sketch α) : Spared s R t t :=
  ⟨.refl t, fun hi _ => hi, fun hv _ => hv, rfl⟩

lemma Spared.trans {t₁ t₂ t₃ : Sketch α} (h : Spared s R t₁ t₂) (h' : Spared s R t₂ t₃) :
    Spared s R t₁ t₃ where
  remains := h.remains.trans h'.remains
  constraints hi hR := h'.constraints (h.constraints hi hR) hR
  vars hv hR := h'.vars (h.vars hv hR) hR
  handles := h'.handles.trans h.handles

/-- Cutting a constraint in `R` from what remains of `s` spares all else. -/
def Spares (s : Sketch α) (R : Set ConstraintId) (cut : ConstraintId → Sketch α → Sketch α) :
    Prop :=
  ∀ id ∈ R, ∀ t, Remains s t → Spared s R t (cut id t)

lemma Spares.foldl (hcut : Spares s R cut) {ids : List ConstraintId} (hids : ∀ i ∈ ids, i ∈ R)
    (ht : Remains s t) : Spared s R t (ids.foldl (fun t id => cut id t) t) := by
  induction ids generalizing t with
  | nil => exact .refl s R t
  | cons id ids ih =>
      have hone := hcut id (hids id List.mem_cons_self) t ht
      exact hone.trans (ih (fun i hi => hids i (List.mem_cons_of_mem _ hi))
        (ht.trans hone.remains))

section

variable [Scalar α]

/-- What depends on variables in what remains of a sketch refers to them in the sketch. -/
lemma Remains.refers_of_mem_dependents (ht : Remains s t) (hs : s.Intact) {vars : List VarId}
    {i : ConstraintId} (hi : i ∈ t.dependents vars) : ∃ v ∈ vars, s.Refers i v := by
  obtain ⟨⟨j, c⟩, hmem, rfl⟩ := List.mem_map.1 hi
  have hget := (t.constraints.mem_entries_iff j c).1 (List.mem_filter.1 hmem).1
  obtain ⟨v, hv, hmentions⟩ := (mem_dependents hget).1 hi
  have hlive := hs.live (ht.get? hget) not_false
  refine ⟨v, hv, c, ht.get? hget, (hlive.uses_iff v).2 ?_⟩
  rcases (c.mentions_iff t.handles v).1 hmentions with ⟨k, hk, p, hp, hcoord⟩ | hnamed
  · exact Or.inl ⟨k, hk, p, ht.points hp, hcoord⟩
  · exact Or.inr hnamed

omit [Scalar α] in
/-- A variable that a constraint owns is no coordinate. -/
lemma Remains.ownerOf_eq_none (ht : Remains s t) (hs : s.Registered) {v : VarId}
    (hv : v ∈ s.ownedBy R) : t.handles.ownerOf v = none := by
  obtain ⟨i, -, c, hget, hv⟩ := hv
  rw [Option.eq_none_iff_forall_ne_some]
  intro j hj
  obtain ⟨p, hp, k, rfl⟩ := HandleTable.component_of_ownerOf hj
  exact hs.component_not_mem_owned hget (ht.points hp) k hv

/-- Dropping a variable that a constraint in a closed set owns. -/
lemma Spares.dropVariable (hcut : Spares s R cut) (hs : s.Intact) (hregistered : s.Registered)
    (hclosed : s.Closed R) {v : VarId} (hv : v ∈ s.ownedBy R) (ht : Remains s t) :
    Spared s R t (dropVariable cut v t) := by
  have howner := ht.ownerOf_eq_none hregistered hv
  rw [Sketch.dropVariable, howner]
  let rest : Sketch α := { t with arena := t.arena.remove v, clusters := none }
  have hrest : Spared s R t rest :=
    { remains := (Removal.ofVariable howner).remains
      constraints := fun hi _ => hi
      vars := fun {w} hw hR => (Arena.contains_remove _ _ _).2 ⟨by rintro rfl; exact hR hv, hw⟩
      handles := rfl }
  refine hrest.trans (hcut.foldl (fun i hi => ?_) (ht.trans hrest.remains))
  obtain ⟨w, hw, hrefers⟩ := ht.refers_of_mem_dependents hs hi
  exact hclosed v hv i (List.mem_singleton.1 hw ▸ hrefers)

lemma Spares.dropOwned (hcut : Spares s R cut) (hs : s.Intact) (hregistered : s.Registered)
    (hclosed : s.Closed R) {owned : List VarId} (howned : ∀ v ∈ owned, v ∈ s.ownedBy R)
    (ht : Remains s t) :
    Spared s R t (owned.foldl
      (fun t own => if t.arena.contains own then Sketch.dropVariable cut own t else t) t) := by
  induction owned generalizing t with
  | nil => exact .refl s R t
  | cons own owned ih =>
      have hrest : ∀ v ∈ owned, v ∈ s.ownedBy R := fun v hv => howned v (List.mem_cons_of_mem _ hv)
      rw [List.foldl_cons]
      split
      · have hone := hcut.dropVariable hs hregistered hclosed (howned own List.mem_cons_self) ht
        exact hone.trans (ih hrest (ht.trans hone.remains))
      · exact ih hrest ht

/-- **A cascade stays in the closure**, however many steps it may take. -/
theorem spares_cascade (hs : s.Intact) (hregistered : s.Registered) (hclosed : s.Closed R)
    (limit : Nat) : Spares s R (cascade (α := α) limit) := by
  induction limit with
  | zero => exact fun id _ t _ => .refl s R t
  | succ limit ih =>
      intro id hid t ht
      rw [cascade]
      cases hget : t.constraints.get? id with
      | none => exact .refl s R t
      | some c =>
          have hdrop : Spared s R t (t.dropConstraint id) :=
            { remains := (Removal.ofConstraint t id).remains
              constraints := fun {i} hi hR => by
                rw [dropConstraint, OrderedMap.keys_erase, List.mem_filter]
                exact ⟨hi, by simpa using (fun h : i = id => hR (h ▸ hid))⟩
              vars := fun hv _ => hv
              handles := rfl }
          refine hdrop.trans (ih.dropOwned hs hregistered hclosed (fun v hv => ?_)
            (ht.trans hdrop.remains))
          exact ⟨id, hid, c, ht.get? hget, hv⟩

/-! ## What goes -/

/-- Besides `vars` and `handles` and the constraints in `seeds`, exactly what depends on these goes:
the least closed set of constraints with `seeds` in it, and what they own. -/
structure Takes (s s' : Sketch α) (seeds : Set ConstraintId) (vars : Set VarId)
    (handles : Set HandleId) : Prop where
  remains : Remains s s'
  least : IsLeast {R | seeds ⊆ R ∧ s.Closed R} (gone s s')
  vars : ∀ {v}, s.arena.contains v = true →
    (s'.arena.contains v = false ↔ v ∈ vars ∨ v ∈ s.ownedBy (gone s s'))
  handles : ∀ {i}, s.handles.contains i = true → (s'.handles.contains i = false ↔ i ∈ handles)

/-- A first removal takes `vars` and `handles`, and then cascades begin at the constraints in
`seeds`. -/
lemma Removals.takes {seeds : Set ConstraintId} {vars : Set VarId} {handles : Set HandleId}
    (h : Removals s s') (rest : Sketch α) (hs : s.Intact) (hregistered : s.Registered)
    (hs' : s'.Intact) (hregistered' : s'.Registered) (hseeds : seeds ⊆ gone s s')
    (hconstraints : rest.constraints = s.constraints)
    (hvars : ∀ v, rest.arena.contains v = true ↔ s.arena.contains v = true ∧ v ∉ vars)
    (hhandles : ∀ i, rest.handles.contains i = true ↔ s.handles.contains i = true ∧ i ∉ handles)
    (hspared : ∀ R, seeds ⊆ R → s.Closed R → Spared s R rest s') :
    Takes s s' seeds vars handles := by
  have hclosed := h.closed_gone hs hs' hregistered hregistered'
  have hgone := hspared _ hseeds hclosed
  refine ⟨h.remains, ⟨⟨hseeds, hclosed⟩, fun R hR i hi => ?_⟩, fun {v} hv => ?_, fun {i} hi => ?_⟩
  · by_contra hnot
    exact hi.2 ((hspared R hR.1 hR.2).constraints (hconstraints ▸ hi.1) hnot)
  · constructor
    · intro hmissing
      by_contra hnot
      rw [not_or] at hnot
      have hremains := hgone.vars ((hvars v).2 ⟨hv, hnot.1⟩) hnot.2
      rw [hmissing] at hremains
      cases hremains
    · rintro (hv' | howned)
      · rw [← Bool.not_eq_true]
        exact fun hremains => ((hvars v).1 (hgone.remains.contains hremains)).2 hv'
      · exact h.not_contains_of_owned hregistered hregistered' howned
  · rw [hgone.handles, ← Bool.not_eq_true, hhandles]
    simp [hi]

/-- After `vars` and `handles` are gone, the constraints are cut that refer to `vars`. -/
lemma takes_dependents {rest : Sketch α} (vars : List VarId) (handles : Set HandleId)
    (hs : s.Intact) (hregistered : s.Registered) (limit : Nat)
    (hs' : Intact ((s.dependents vars).foldl (fun s id => cascade limit id s) rest))
    (hregistered' : Registered ((s.dependents vars).foldl (fun s id => cascade limit id s) rest))
    (hrest : Removal s rest) (hconstraints : rest.constraints = s.constraints)
    (hvars : ∀ v, rest.arena.contains v = true ↔ s.arena.contains v = true ∧ v ∉ vars)
    (hhandles : ∀ i, rest.handles.contains i = true ↔ s.handles.contains i = true ∧ i ∉ handles) :
    Takes s ((s.dependents vars).foldl (fun s id => cascade limit id s) rest)
      {i | ∃ v ∈ vars, s.Refers i v} {v | v ∈ vars} handles := by
  have hcuts := removals_foldl (s.dependents vars)
    (fun t id _ => removals_cascade (α := α) limit id t) rest
  have h : Removals s _ := .head hrest hcuts
  refine h.takes rest hs hregistered hs' hregistered' ?_ hconstraints hvars hhandles
    fun R hR hclosed => ?_
  · rintro i ⟨v, hv, hrefers⟩
    refine ⟨hrefers.mem_keys, fun hi => ?_⟩
    have hremains := h.remains.contains_of_refers hs hs' hi hrefers
    exact ((hvars v).1 (hcuts.remains.contains hremains)).2 hv
  · exact (spares_cascade hs hregistered hclosed limit).foldl
      (fun i hi => hR ((Remains.refl s).refers_of_mem_dependents hs hi)) hrest.remains

lemma Removed.registered (h : Removed s s') (hs : s.Intact) (hregistered : s.Registered) :
    s'.Registered :=
  (Change.remove h).registered hs hregistered

omit [Scalar α] in
/-- Cutting a constraint begins by dropping it. -/
lemma removals_cut {id : ConstraintId} {c : Constraint α}
    (hget : s.constraints.get? id = some c) : Removals (s.dropConstraint id) (s.cut id) := by
  rw [cut_eq hget]
  refine removals_foldl _ (fun t v _ => ?_) _
  split
  · exact removals_dropVariable (removals_cascade _) v t
  · exact .refl

/-- Removing a constraint. -/
lemma takes_cut (hs : s.Intact) (hregistered : s.Registered) {id : ConstraintId} {c : Constraint α}
    (hget : s.constraints.get? id = some c) : Takes s (s.cut id) {id} ∅ ∅ := by
  have hremoved : Removed s (s.cut id) := .ofConstraint hget
  refine hremoved.removals.takes s hs hregistered (hremoved.intact hs)
    (hremoved.registered hs hregistered) ?_ rfl (by simp) (by simp) fun R hR hclosed => ?_
  · rintro i rfl
    refine ⟨OrderedMap.mem_keys_of_get? hget, fun hi => ?_⟩
    have hdropped := ((removals_cut hget).remains.constraints.map Prod.fst).subset hi
    rw [dropConstraint, OrderedMap.erase] at hdropped
    simp [OrderedMap.filter] at hdropped
  · exact spares_cascade hs hregistered hclosed _ id (hR rfl) s (.refl s)

/-- Removing a variable that is no coordinate. -/
lemma takes_dropVariable (hs : s.Intact) (hregistered : s.Registered) {v : VarId}
    (howner : s.handles.ownerOf v = none) :
    Takes s (s.dropVariable (cascade s.constraints.size) v) {i | s.Refers i v} {v} ∅ := by
  have hremoved := Removed.ofVariable s v
  have hs' := hremoved.intact hs
  have hregistered' := hremoved.registered hs hregistered
  rw [dropVariable, howner] at hs' hregistered' ⊢
  have htakes := takes_dependents [v] ∅ hs hregistered _ hs' hregistered'
    (.ofVariable howner) rfl (fun w => by rw [Arena.contains_remove]; simp [and_comm]) (by simp)
  simpa using htakes

/-- Removing a handle with its coordinates. -/
lemma takes_dropHandle (hs : s.Intact) (hregistered : s.Registered) {id : HandleId} {p : Coords}
    (hp : s.handles.coords? id = some p) :
    Takes s (s.dropHandle (cascade s.constraints.size) id) {i | s.Refers i p.x ∨ s.Refers i p.y}
      {p.x, p.y} {id} := by
  have hremoved := Removed.ofHandle s id
  have hs' := hremoved.intact hs
  have hregistered' := hremoved.registered hs hregistered
  rw [HandleTable.coords?_eq] at hp
  obtain ⟨w, hw, rfl⟩ := Option.map_eq_some_iff.1 hp
  rw [dropHandle, hw] at hs' hregistered' ⊢
  have htakes := takes_dependents [w.x, w.y] {id} hs hregistered _ hs'
    hregistered' (.ofHandle hw) rfl
    (fun v => by rw [Arena.contains_remove, Arena.contains_remove]; simp; tauto)
    (fun i => by
      rw [HandleTable.contains_iff_coords?, HandleTable.contains_iff_coords?,
        HandleTable.coords?_remove]
      by_cases hi : i = id <;> simp [hi])
  simp only [List.mem_cons, List.not_mem_nil, or_false, exists_eq_or_imp, exists_eq_left] at htakes
  exact htakes

omit [Scalar α] in
/-- A coordinate belongs to its handle. -/
lemma Registered.ownerOf_component (h : s.Registered) {id : HandleId} {p : Coords}
    (hp : s.handles.coords? id = some p) (k : Component) :
    s.handles.ownerOf (p.component k) = some id := by
  cases howner : s.handles.ownerOf (p.component k) with
  | none =>
      obtain ⟨hx, hy⟩ := HandleTable.ownerOf_eq_none howner hp
      rcases Coords.component_eq_iff.1 ⟨k, rfl⟩ with hk | hk
      · exact absurd hk.symm hx
      · exact absurd hk.symm hy
  | some j =>
      obtain ⟨q, hq, l, hl⟩ := HandleTable.component_of_ownerOf howner
      by_contra hne
      exact h.component_ne hp hq (fun heq => hne (heq ▸ rfl)) k l hl.symm

omit [Scalar α] in
/-- What is looked up successfully is removed. -/
lemma run_remove {β : Type} {x : Except SolverError β} {b : β} (hx : x = .ok b) (s' : Sketch α) :
    (do discard (Edit.ofExcept x); set s' : Edit α PUnit) s = .ok ⟨⟩ s' := by
  subst hx
  rfl

/-- **A removal takes exactly what depends on it.**  Removing something that is there succeeds.  The
constraints that go are the least set that takes in the given constraint, or every constraint that
refers to the given variable or to a coordinate of the given handle, and with a constraint all that
refer to what it owns.  The variables that go are the given one and what those constraints own; a
coordinate goes with its handle and the other coordinate.  What remains keeps its value and its
place. -/
theorem reachable_removal (h : Reachable s) :
    (∀ id c, s.constraints.get? id = some c →
      ∃ s', removeConstraint id s = .ok ⟨⟩ s' ∧ Takes s s' {id} ∅ ∅) ∧
    (∀ v, s.arena.contains v = true → (∀ id p, s.handles.coords? id = some p → v ≠ p.x ∧ v ≠ p.y) →
      ∃ s', removeVariable v s = .ok ⟨⟩ s' ∧ Takes s s' {i | s.Refers i v} {v} ∅) ∧
    ∀ id p, s.handles.coords? id = some p →
      ∃ s', removeHandle id s = .ok ⟨⟩ s' ∧ removeVariable p.x s = .ok ⟨⟩ s' ∧
        removeVariable p.y s = .ok ⟨⟩ s' ∧
        Takes s s' {i | s.Refers i p.x ∨ s.Refers i p.y} {p.x, p.y} {id} := by
  have hs := h.intact
  have hregistered := h.registered
  refine ⟨fun id c hget => ?_, fun v hv hfree => ?_, fun id p hp => ?_⟩
  · have hfind : s.constraints.find id = .ok c := by rw [ConstraintTable.find, hget]
    exact ⟨_, run_remove hfind _, takes_cut hs hregistered hget⟩
  · obtain ⟨x, hfind⟩ := Arena.find_ok hv
    have howner : s.handles.ownerOf v = none := by
      rw [Option.eq_none_iff_forall_ne_some]
      intro id hid
      obtain ⟨p, hp, hcoord⟩ := HandleTable.component_of_ownerOf hid
      exact (Coords.component_eq_iff.1 hcoord).elim (hfree id p hp).1 (hfree id p hp).2
    exact ⟨_, run_remove hfind _, takes_dropVariable hs hregistered howner⟩
  · obtain ⟨w, hfind, -⟩ := HandleTable.find_ok ((HandleTable.contains_iff_coords? id).2 ⟨p, hp⟩)
    have hcoordinate : ∀ k, s.arena.contains (p.component k) = true →
        removeVariable (p.component k) s =
          .ok ⟨⟩ (s.dropHandle (cascade s.constraints.size) id) := by
      intro k hcontains
      obtain ⟨x, hx⟩ := Arena.find_ok hcontains
      have hdrop : s.dropVariable (cascade s.constraints.size) (p.component k) =
          s.dropHandle (cascade s.constraints.size) id := by
        rw [dropVariable, hregistered.ownerOf_component hp]
      rw [← hdrop]
      exact run_remove hx _
    obtain ⟨hx, hy⟩ := hs.grounded id p hp
    exact ⟨_, run_remove hfind _, hcoordinate .x hx, hcoordinate .y hy,
      takes_dropHandle hs hregistered hp⟩

end

/-- With the vector between the two dragged handles goes the lock on its length. -/
theorem removal_measured :
    ∃ s', removeConstraint ⟨8⟩ measured = .ok ⟨⟩ s' ∧ ⟨11⟩ ∈ gone measured s' ∧
      s'.arena.contains ⟨9⟩ = false := by
  obtain ⟨hconstraint, -, -⟩ := reachable_removal reachable_measured
  obtain ⟨s', hrun, htakes⟩ := hconstraint ⟨8⟩ _ rfl
  have howned : (⟨9⟩ : VarId) ∈ measured.ownedBy (gone measured s') :=
    ⟨⟨8⟩, htakes.least.1.1 rfl, _, rfl, by decide⟩
  have hlock : ⟨11⟩ ∈ gone measured s' :=
    htakes.least.1.2 ⟨9⟩ howned ⟨11⟩ ⟨_, rfl, _, rfl, by decide⟩
  exact ⟨s', hrun, hlock, (htakes.vars rfl).2 (Or.inr howned)⟩

end Sketch

end SketchSolver
