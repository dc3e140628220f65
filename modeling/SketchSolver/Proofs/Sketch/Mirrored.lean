import Mathlib
import SketchSolver.Proofs.Cluster.Requests
import SketchSolver.Proofs.Handle.Mirror
import SketchSolver.Proofs.Sketch.Insert
import SketchSolver.Proofs.Sketch.Reachable

/-!
# Merged points

While a sketch only ever sees handles added, merged and removed, what is recorded between the
handles is what is recorded between their coordinates.

* `place` — the coordinates of a handle are the variables that were created right after it.
* `Reflects t a` — the forest of the handles is flat, and it is mirrored by the links of the
  variables, for both coordinates.  Relating a merge, removing and forgetting keep this
  (`Reflects.relate`, `Reflects.remove`, `Reflects.reset`).
* `Sketch.Merging` — the runs that merge handles, with all their failures.
* `Sketch.Mirrored` — what one step of such a run preserves (`Mirrored.ensures_perform`) and so a
  whole run does (`Merging.mirrored`).
* `merging_mirrored` — so a handle was merged into another one exactly if either coordinate was
  absorbed into its coordinate, and both records list everything in the same order.
-/

namespace SketchSolver

open Arena HandleTable

variable {α : Type} [Scalar α]

/-! ## Both coordinates -/

/-- The coordinates are created right after their handle, the horizontal one first. -/
def place : Component → HandleId → VarId
  | .x, id => ⟨id.index + 1⟩
  | .y, id => ⟨id.index + 2⟩

lemma place_injective (k : Component) : Function.Injective (place k) := by
  rintro ⟨i⟩ ⟨j⟩ h
  cases k <;> simpa [place] using h

/-- The links of all coordinates are those of the handles. -/
structure Reflects (t : HandleTable) (a : Arena α) : Prop where
  wellFormed : a.WellFormed
  flat : t.Flat
  separate : t.Separate
  placed : ∀ {id c}, t.coords? id = some c → c = ⟨place .x id, place .y id⟩
  mirrors : ∀ k, Mirrors (place k) t a

namespace Reflects

variable {t u : HandleTable} {a b : Arena α} {id parent child : HandleId} {h : Handle}

lemma coordinate_eq (hr : Reflects t a) (hid : t.get? id = some h) (k : Component) :
    h.coordinate k = place k id := by
  have hplaced := hr.placed (coords?_of_get? hid)
  cases k with
  | x => exact congrArg Coords.x hplaced
  | y => exact congrArg Coords.y hplaced

/-- No horizontal coordinate is a vertical one. -/
lemma place_ne (hr : Reflects t a) {i j : HandleId} {c d : Coords} (hi : t.coords? i = some c)
    (hj : t.coords? j = some d) : place .x i ≠ place .y j := by
  have hx : c.x = place .x i := congrArg Coords.x (hr.placed hi)
  have hy : d.y = place .y j := congrArg Coords.y (hr.placed hj)
  rw [← hx, ← hy]
  by_cases hij : i = j
  · subst hij
    rw [hi] at hj
    cases hj
    exact hr.separate.within hi
  · exact (hr.separate.between hi hj hij).2.1

/-- The horizontal coordinates of one table are no vertical coordinates of another one, if neither
has handles that are not there. -/
lemma apart (hr : Reflects t a) {t₁ t₂ : HandleTable}
    (h₁ : ∀ {i c}, t₁.coords? i = some c → ∃ d, t.coords? i = some d)
    (h₂ : ∀ {i c}, t₂.coords? i = some c → ∃ d, t.coords? i = some d) :
    Apart (place .x) (place .y) t₁ t₂ := by
  intro i j v w hi hj
  obtain ⟨c, hc⟩ := h₁ (coords?_of_get? hi)
  obtain ⟨d, hd⟩ := h₂ (coords?_of_get? hj)
  exact hr.place_ne hc hd

/-- Merging two handles, and unifying both pairs of coordinates. -/
theorem relate (hr : Reflects t a) (hneutral : Affine.Neutral α)
    (h : (Constraint.absorb parent child).relate a t = .ok (b, u)) : Reflects u b := by
  have hpoints := Constraint.points_relate h
  have hsame : ∀ {i c}, t.coords? i = some c → ∃ d, t.coords? i = some d := fun hc => ⟨_, hc⟩
  have hmoved : ∀ {i c}, u.coords? i = some c → ∃ d, t.coords? i = some d := fun hc =>
    ⟨_, by rw [← coords?_congr hpoints, hc]⟩
  obtain ⟨p, hp, h⟩ := bind_eq_ok_iff.1 h
  obtain ⟨q, hq, h⟩ := bind_eq_ok_iff.1 h
  obtain ⟨⟨m, a₁⟩, hx, h⟩ := bind_eq_ok_iff.1 h
  obtain ⟨⟨n, a₂⟩, hy, h⟩ := bind_eq_ok_iff.1 h
  obtain ⟨u', habsorb, hpure⟩ := bind_eq_ok_iff.1 h
  cases hpure
  rw [coords_eq_ok_iff] at hp hq
  cases hr.placed hp
  cases hr.placed hq
  rw [coords?_eq] at hp hq
  obtain ⟨v, hv, -⟩ := Option.map_eq_some_iff.1 hp
  obtain ⟨w, hw, -⟩ := Option.map_eq_some_iff.1 hq
  have hflat := hr.flat.absorb hv hw habsorb
  -- the horizontal coordinates are unified
  have ha₁ := (hr.wellFormed.unifies (unifies_of_unify hx)).1
  have hmx := (hr.mirrors .x).unify hr.flat hr.wellFormed (place_injective .x) hneutral hv hw hx
    habsorb
  have hmy := (hr.mirrors .y).unify_apart (hr.mirrors .x) hr.flat hr.flat hr.wellFormed
    (hr.apart hsame hsame) hv hw hx
  -- and then the vertical ones
  have hmx₂ := hmx.unify_apart hmy hr.flat hflat ha₁
    (fun hi hj => ((hr.apart hmoved hsame) hj hi).symm) hv hw hy
  have hmy₂ := hmy.unify hr.flat ha₁ (place_injective .y) hneutral hv hw hy habsorb
  exact {
    wellFormed := (ha₁.unifies (unifies_of_unify hy)).1
    flat := hflat
    separate := hr.separate.congr hpoints
    placed := fun hc => hr.placed (coords?_congr hpoints _ ▸ hc)
    mirrors := fun k => by
      cases k with
      | x => exact hmx₂
      | y => exact hmy₂ }

lemma reset (hr : Reflects t a) : Reflects t.reset a.reset where
  wellFormed := wellFormed_reset a
  flat := flat_reset t
  separate := hr.separate.congr (points_reset t)
  placed hc := hr.placed (coords?_congr (points_reset t) _ ▸ hc)
  mirrors k := (hr.mirrors k).reset

/-- Removing a handle, and both of its coordinates. -/
theorem remove (hr : Reflects t a) (hid : t.get? id = some h) :
    Reflects (t.remove id) ((a.remove h.x).remove h.y) := by
  have hx : h.x = place .x id := hr.coordinate_eq hid .x
  have hy : h.y = place .y id := hr.coordinate_eq hid .y
  have hsame : ∀ {i c}, t.coords? i = some c → ∃ d, t.coords? i = some d := fun hc => ⟨_, hc⟩
  have hflat := hr.flat.remove id
  have ha₁ := hr.wellFormed.remove (place .x id)
  have hmx := (hr.mirrors .x).remove hr.flat (place_injective .x) hid
  have hmy := (hr.mirrors .y).remove_apart (hr.mirrors .x) hr.flat hr.flat
    hr.wellFormed.toLinked (hr.apart hsame hsame) hid
  have hmx₂ := hmx.remove_apart hmy hr.flat hflat ha₁.toLinked
    (fun hi hj => ((hr.apart (fun hc => ⟨_, (coords?_of_remove hc).2⟩) hsame) hj hi).symm) hid
  have hmy₂ := hmy.remove hr.flat (place_injective .y) hid
  rw [hx, hy]
  exact {
    wellFormed := ha₁.remove _
    flat := hflat
    separate := hr.separate.remove id
    placed := fun hc => hr.placed (coords?_of_remove hc).2
    mirrors := fun k => by
      cases k with
      | x => exact hmx₂
      | y => exact hmy₂ }

/-- Removing a variable that is no coordinate. -/
lemma removeOther (hr : Reflects t a) {v : VarId} (hv : t.ownerOf v = none) :
    Reflects t (a.remove v) := by
  -- the groups of coordinates consist of coordinates
  have hfree : ∀ {i w}, t.get? i = some w → ∀ k, place k i ≠ v := by
    intro i w hi k
    rw [← hr.coordinate_eq hi k]
    obtain ⟨hx, hy⟩ := ownerOf_eq_none hv (coords?_of_get? hi)
    cases k with
    | x => exact hx
    | y => exact hy
  refine { hr with
    wellFormed := hr.wellFormed.remove v
    mirrors := fun k => ?_ }
  by_cases hlive : a.contains v = true
  · refine (hr.mirrors k).of_link fun {i w} hi => ?_
    obtain ⟨r, hroot, hrroot⟩ := hr.flat.get?_rootOf hi
    refine hr.wellFormed.link?_remove_apart hlive fun hsame => ?_
    rw [(hr.mirrors k).canonical hr.wellFormed.toLinked hi] at hsame
    obtain ⟨members, hlink, hmembers⟩ := (hr.mirrors k).root hroot hrroot
    have hmem := hr.wellFormed.mem_membersOf.2 ⟨hsame.symm, (hfree hroot k).symm⟩
    rw [membersOf_root hlink, hmembers, List.mem_map] at hmem
    obtain ⟨m, hm, hmv⟩ := hmem
    obtain ⟨x, hx, -⟩ := hr.flat.merged hroot hm
    exact hfree hx k hmv
  · rw [remove_of_absent (by simpa using hlive)]
    exact hr.mirrors k

/-- What was merged into a handle is what this handle lists. -/
lemma into_iff_listed (hr : Reflects t a) (hid : t.get? id = some h) (r : HandleId) :
    h.into = some r ↔ ∃ w, t.get? r = some w ∧ id ∈ w.absorbed := by
  constructor
  · intro hinto
    obtain ⟨w, hw, -, hmem⟩ := hr.flat.listed hid hinto
    exact ⟨w, hw, hmem⟩
  · rintro ⟨w, hw, hmem⟩
    obtain ⟨v, hv, hinto⟩ := hr.flat.merged hw hmem
    rw [hid] at hv
    cases hv
    exact hinto

/-- A handle was merged into another one exactly if its coordinate was absorbed into that of the
other one. -/
lemma into_iff_canonical (hr : Reflects t a) (hid : t.get? id = some h) (k : Component)
    (r : HandleId) :
    h.into = some r ↔ ∃ w, t.get? r = some w ∧
      a.canonical (h.coordinate k) = w.coordinate k ∧
        (a.link? (h.coordinate k)).map (·.isAbsorbed) = some true := by
  have hm := hr.mirrors k
  rw [hr.coordinate_eq hid k]
  constructor
  · intro hinto
    obtain ⟨w, hw, -⟩ := hr.flat.listed hid hinto
    refine ⟨w, hw, ?_, ?_⟩
    · rw [hm.canonical hr.wellFormed.toLinked hid, rootOf_eq hid, hinto, hr.coordinate_eq hw k]
      rfl
    · rw [hm.merged hid hinto]
      rfl
  · rintro ⟨w, hw, hcanonical, habsorbed⟩
    cases hinto : h.into with
    | none =>
        obtain ⟨members, hlink, -⟩ := hm.root hid hinto
        rw [hlink] at habsorbed
        cases habsorbed
    | some r' =>
        rw [hm.canonical hr.wellFormed.toLinked hid, rootOf_eq hid, hinto,
          hr.coordinate_eq hw k] at hcanonical
        exact congrArg some (place_injective k hcanonical)

/-- The coordinates that a coordinate has absorbed are those of the handles that its handle lists,
in order. -/
lemma membersOf_coordinate (hr : Reflects t a) (hid : t.get? id = some h) (k : Component) :
    (a.membersOf (h.coordinate k)).map some =
      h.absorbed.toList.map fun m => (t.get? m).map (·.coordinate k) := by
  have hm := hr.mirrors k
  have hplaced : ∀ m ∈ h.absorbed.toList, (t.get? m).map (·.coordinate k) = some (place k m) := by
    intro m hmem
    obtain ⟨v, hv, -⟩ := hr.flat.merged hid hmem
    rw [hv, Option.map_some, hr.coordinate_eq hv k]
  rw [hr.coordinate_eq hid k, List.map_congr_left hplaced]
  cases hinto : h.into with
  | none =>
      obtain ⟨members, hlink, hmembers⟩ := hm.root hid hinto
      rw [membersOf_root hlink, hmembers, List.map_map]
      rfl
  | some r =>
      have hnone := List.eq_nil_iff_forall_not_mem.2 (hr.flat.not_mem_of_merged hid hinto)
      rw [membersOf_eq, hm.merged hid hinto, hnone]
      rfl

end Reflects

/-! ## Runs that merge handles -/

/-- Adding, merging and removing handles, removing constraints, and building the clustering. -/
inductive Operation.Merges : Operation α → Prop where
  | addHandle (position : Point α) : Merges (.addHandle position)
  | absorb (parent child : HandleId) : Merges (.absorb parent child)
  | removeHandle (id : HandleId) : Merges (.removeHandle id)
  | removeConstraint (id : ConstraintId) : Merges (.removeConstraint id)
  | cluster : Merges .cluster

namespace Sketch

open Edit

variable {s s' : Sketch α}

/-- The sketches that such operations lead to from an empty one, whether they fail or not. -/
inductive Merging : Sketch α → Prop where
  | withConfig (config : Config α) : Merging (withConfig config)
  | perform {s : Sketch α} {op : Operation α} :
      op.Merges → Merging s → Merging (op.perform.after s)

lemma Merging.reachable (h : Merging s) : Reachable s := by
  induction h with
  | withConfig config => exact .withConfig config
  | perform _ _ ih => exact .perform _ ih

/-- All constraints are merges, and what they have done to the handles, they have done to the
coordinates. -/
structure Mirrored (s : Sketch α) : Prop where
  merges : ∀ {id c}, s.constraints.get? id = some c → ∃ parent child, c = .absorb parent child
  reflects : Reflects s.handles s.arena

namespace Mirrored

lemma withConfig (config : Config α) : (Sketch.withConfig config).Mirrored where
  merges hget := by cases hget
  reflects :=
    { wellFormed := wellFormed_empty
      flat := flat_empty
      separate := (intact_withConfig config).separate
      placed := fun hc => by cases hc
      mirrors := fun _ =>
        { merged := fun hid => by cases hid
          root := fun hid => by cases hid } }

/-- The identifiers of the coordinates follow that of the handle. -/
lemma addHandle (h : s.Mirrored) (hs : s.Intact) (position : Point α) :
    (addHandle position s).2.Mirrored where
  merges := h.merges
  reflects := by
    have hnone : s.handles.get? ⟨s.ids.next⟩ = none := by
      cases hget : s.handles.get? ⟨s.ids.next⟩ with
      | none => rfl
      | some v =>
          have hcontains : s.handles.contains ⟨s.ids.next⟩ = true :=
            (contains_iff_coords? _).2 ⟨_, coords?_of_get? hget⟩
          exact absurd (hs.handleIds hcontains) (Nat.lt_irrefl _)
    have hintact := invariant_intact.step hs (.addHandle s position)
    refine
      { wellFormed := hintact.arena
        flat := h.reflects.flat.insert hnone _ _
        separate := hintact.separate
        placed := fun {i c} hc => ?_
        mirrors := fun k => (h.reflects.mirrors k).insert ?_ (fun {i v} hi hne => ?_) _ _ }
    · have hc' : (s.handles.insert ⟨s.ids.next⟩ ⟨s.ids.next + 1⟩ ⟨s.ids.next + 2⟩).coords? i =
          some c := hc
      rw [coords?_insert] at hc'
      split_ifs at hc' with hi
      · cases hc'
        rw [hi]
        rfl
      · exact h.reflects.placed hc'
    · cases k <;> simp [Sketch.addHandle, addVariable, IdSupply.fresh, place]
    · have hlt := hs.variableIds ((h.reflects.mirrors k).contains hi)
      have hx : place k i ≠ ⟨s.ids.next + 1⟩ := by
        rintro heq
        rw [heq] at hlt
        simp at hlt
      have hy : place k i ≠ ⟨s.ids.next + 1 + 1⟩ := by
        rintro heq
        rw [heq] at hlt
        simp at hlt
        omega
      simp [Sketch.addHandle, addVariable, IdSupply.fresh, hx, hy]

/-- One removal by itself. -/
lemma removal (h : s.Mirrored) (hremoval : Removal s s') : s'.Mirrored := by
  cases hremoval with
  | ofConstraint id =>
      refine ⟨fun {i c} hget => ?_, h.reflects⟩
      have hget' : (s.constraints.erase id).get? i = some c := hget
      rw [OrderedMap.get?_erase] at hget'
      split_ifs at hget'
      exact h.merges hget'
  | ofVariable howner => exact ⟨h.merges, h.reflects.removeOther howner⟩
  | ofHandle hid => exact ⟨h.merges, h.reflects.remove hid⟩

lemma removals (h : s.Mirrored) (hremovals : Removals s s') : s'.Mirrored := by
  induction hremovals with
  | refl => exact h
  | tail _ hstep ih => exact ih.removal hstep

lemma added (h : s.Mirrored) (hneutral : Affine.Neutral α) {parent child : HandleId}
    {i : ConstraintId} (hadded : Added (.absorb parent child) i s s') : s'.Mirrored where
  merges {j c} hget := by
    rw [hadded.get?] at hget
    split_ifs at hget
    · cases hget
      exact ⟨parent, child, rfl⟩
    · exact h.merges hget
  reflects := by
    rcases hadded.drawn with ⟨harena, hhandles⟩ | hrelate
    · rw [harena, hhandles]
      exact h.reflects
    · exact h.reflects.relate hneutral hrelate

/-- There is nothing to be minimized, so clustering makes the merges anew and nothing else. -/
lemma clustered (h : s.Mirrored) (hneutral : Affine.Neutral α) {cs : List (Cluster α)}
    (hclustered : s.clustered = .ok (cs, s')) : s'.Mirrored := by
  rw [Sketch.clustered] at hclustered
  split at hclustered
  · cases hclustered
    exact h
  · obtain ⟨⟨cs', b, u⟩, hbuild, hpure⟩ := bind_eq_ok_iff.1 hclustered
    cases hpure
    have hvalues : ∀ c ∈ s.constraints.values, ∃ parent child, c = .absorb parent child := by
      intro c hc
      obtain ⟨⟨i, d⟩, hmem, rfl⟩ := List.mem_map.1 hc
      exact h.merges ((s.constraints.mem_entries_iff i d).1 hmem)
    have hnone : s.constraints.residuals s.handles = [] := by
      refine List.flatMap_eq_nil_iff.2 fun c hc => ?_
      obtain ⟨parent, child, rfl⟩ := hvalues c hc
      rfl
    have hrelated := Cluster.relateAll_of_residuals_eq_nil hbuild hnone
    refine ⟨h.merges, foldlM_keeps (P := fun st => Reflects st.2 st.1)
      (fun st c hc st' hst hstep => ?_) h.reflects.reset hrelated⟩
    obtain ⟨parent, child, rfl⟩ := hvalues c hc
    exact hst.relate hneutral hstep

/-- **A step of a run.** -/
theorem ensures_perform (h : s.Mirrored) (hs : s.Intact) (hneutral : Affine.Neutral α)
    {op : Operation α} (hop : op.Merges) : Ensures Mirrored op.perform (fun _ => Mirrored) s := by
  cases hop with
  | addHandle position => exact h.addHandle hs position
  | absorb parent child =>
      refine (ensures_map _ _).2 ?_
      exact (ensures_insertNew_added hs.toSoundExcept).mono (fun _ heq => heq ▸ h)
        fun i s' hadded => h.added hneutral hadded
  | removeHandle id =>
      refine (ensures_bind _ _).2 ?_
      simp only [Sketch.removeHandle, ensures_bind, ensures_get, ensures_discard, ensures_ofExcept,
        ensures_set]
      exact ⟨fun _ _ => h.removals (removals_dropHandle (removals_cascade _) id s), fun _ _ => h⟩
  | removeConstraint id =>
      refine (ensures_bind _ _).2 ?_
      simp only [Sketch.removeConstraint, ensures_bind, ensures_get, ensures_discard,
        ensures_ofExcept, ensures_set]
      exact ⟨fun _ _ => h.removals (removals_cascade _ id s), fun _ _ => h⟩
  | cluster =>
      refine (ensures_map _ _).2 ?_
      rw [currentClusters, ensures_get_bind]
      exact ensures_read h fun r hr => h.clustered hneutral hr

end Mirrored

/-- **A whole run.** -/
theorem Merging.mirrored (h : Merging s) (hneutral : Affine.Neutral α) : s.Mirrored := by
  induction h with
  | withConfig config => exact .withConfig config
  | perform hop hbefore ih => exact (ih.ensures_perform hbefore.reachable.intact hneutral hop).after

/-! ## Main result -/

/-- **Two records of one forest.**  However handles are added, merged and removed from an empty
sketch on, for every live handle:

* it was merged into `r` exactly if `r` lists it, and then `r` was merged into nothing;
* one step leads from it to its root, and further steps lead no further;
* it was merged into `r` exactly if its horizontal coordinate was absorbed into that of `r`, and
  exactly if its vertical one was;
* what either coordinate has absorbed are the coordinates of what it lists, in the same order. -/
theorem merging_mirrored {s : Sketch Float} (hs : Merging s) {id : HandleId} {h : Handle}
    (hid : s.handles.get? id = some h) :
    (∀ r, h.into = some r ↔ ∃ w, s.handles.get? r = some w ∧ id ∈ w.absorbed) ∧
      (∀ r, h.into = some r → ∃ w, s.handles.get? r = some w ∧ w.into = none) ∧
      (∀ limit, s.handles.rootWithin (limit + 1) id = .ok (h.into.getD id)) ∧
      ∀ k,
        (∀ r, h.into = some r ↔ ∃ w, s.handles.get? r = some w ∧
          s.arena.canonical (h.coordinate k) = w.coordinate k ∧
            (s.arena.link? (h.coordinate k)).map (·.isAbsorbed) = some true) ∧
        (s.arena.membersOf (h.coordinate k)).map some =
          h.absorbed.toList.map fun m => (s.handles.get? m).map (·.coordinate k) := by
  have hr := (hs.mirrored Affine.neutral_float).reflects
  refine ⟨hr.into_iff_listed hid, fun r hinto => ?_, fun limit => ?_,
    fun k => ⟨hr.into_iff_canonical hid k, hr.membersOf_coordinate hid k⟩⟩
  · obtain ⟨w, hw, hroot, -⟩ := hr.flat.listed hid hinto
    exact ⟨w, hw, hroot⟩
  · rw [hr.flat.rootWithin_eq hid, rootOf_eq hid]

/-- Four handles, merged in pairs and then all of them, before the root of one pair is removed and
the clustering is built. -/
def bundled : Sketch Float :=
  Operation.cluster.perform.after <|
    (Operation.removeHandle ⟨0⟩).perform.after <|
      (Operation.absorb ⟨6⟩ ⟨3⟩).perform.after <|
        (Operation.absorb ⟨9⟩ ⟨6⟩).perform.after <|
          (Operation.absorb ⟨0⟩ ⟨3⟩).perform.after <|
            (Operation.addHandle ⟨6, 7⟩).perform.after <|
              (Operation.addHandle ⟨4, 5⟩).perform.after <|
                (Operation.addHandle ⟨2, 3⟩).perform.after <|
                  (Operation.addHandle ⟨0, 1⟩).perform.after empty

lemma merging_bundled : Merging bundled :=
  .perform .cluster <| .perform (.removeHandle _) <| .perform (.absorb _ _) <|
    .perform (.absorb _ _) <| .perform (.absorb _ _) <| .perform (.addHandle _) <|
      .perform (.addHandle _) <| .perform (.addHandle _) <| .perform (.addHandle _) <|
        .withConfig _

/-- The handle that lost its root has been merged into the root of the other pair. -/
theorem mirrored_bundled :
    ∃ h w, bundled.handles.get? ⟨3⟩ = some h ∧ bundled.handles.get? ⟨9⟩ = some w ∧
      h.into = some ⟨9⟩ ∧ bundled.handles.root ⟨3⟩ = .ok ⟨9⟩ ∧ ⟨3⟩ ∈ w.absorbed ∧
      ∀ k, bundled.arena.canonical (h.coordinate k) = w.coordinate k := by
  have hmerged : (bundled.handles.get? ⟨3⟩).map (·.into) = some (some ⟨9⟩) := by decide +kernel
  obtain ⟨h, hid, hinto⟩ := Option.map_eq_some_iff.1 hmerged
  obtain ⟨hlisted, -, hroot, hcoordinates⟩ := merging_mirrored merging_bundled hid
  obtain ⟨w, hw, hmem⟩ := (hlisted _).1 hinto
  refine ⟨h, w, hid, hw, hinto, ?_, hmem, fun k => ?_⟩
  · rw [HandleTable.root, hroot, hinto]
    rfl
  · obtain ⟨w', hw', hcanonical, -⟩ := ((hcoordinates k).1 _).1 hinto
    rw [hw] at hw'
    cases hw'
    exact hcanonical

end Sketch

end SketchSolver
