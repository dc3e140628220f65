import Mathlib
import SketchSolver.Document
import SketchSolver.Proofs.Arena.Restore
import SketchSolver.Proofs.Cluster.Requests
import SketchSolver.Proofs.Sketch.Coherent

/-!
# Loading a saved sketch

Loading goes through variables, handles and constraints, and makes the unifications of each
constraint at once.  Variables that a constraint owns, and coordinates of handles, are added once
more on the way.

* `Sketch.lasting` — the constraints that are saved.
* `Document.Loaded` — what is known of the sketch that is being loaded: the constraints so far have
  been related in order, with the values of the sketch that was saved.  An owned variable still
  stands alone when its owner comes (`Loaded.alone`), because its owner is older than whatever ties
  it.
* `toSketch_spec` — what is saved of an intact sketch can be loaded.
* `Loaded.build_spec` — and can be clustered then.  What stands for its group has the value that it
  had in the sketch that was saved.
-/

namespace SketchSolver

namespace Document

variable {α : Type} {s t : Sketch α} {a b : Arena α}

/-! ## Variables and handles -/

/-- No constraint has been loaded so far. -/
structure Blank (t : Sketch α) : Prop where
  constraints : t.constraints = .empty
  memo : t.memo = .empty
  clusters : t.clusters = none

variable [Scalar α]

/-- **Variables** are loaded in order, with their values. -/
lemma load_variables (s : Sketch α) :
    ∃ t, (ofSketch s).vars.foldlM addVariable Sketch.empty = .ok t ∧ Blank t ∧
      t.handles = .empty ∧ t.arena = s.arena.bare := by
  have hnodup : ((ofSketch s).vars.map SavedVariable.id).Nodup := by
    rw [ofSketch, List.map_map]
    exact s.arena.vars.nodupKeys
  have hload : ∃ t, (ofSketch s).vars.foldlM addVariable Sketch.empty = .ok t ∧ Blank t ∧
      t.handles = .empty ∧ t.arena.vars.entries =
        (ofSketch s).vars.map fun v => (v.id, .fresh v.value none) := by
    refine foldlM_builds (P := fun before t => Blank t ∧ t.handles = .empty ∧
      t.arena.vars.entries = before.map fun v : SavedVariable α => (v.id, .fresh v.value none))
      ?_ ⟨⟨rfl, rfl, rfl⟩, rfl, rfl⟩
    rintro before v after hsplit t ⟨hblank, hhandles, hentries⟩
    have hnew : v.id ∉ t.arena.vars.keys := by
      rw [OrderedMap.keys, hentries, List.map_map]
      exact nodup_iff_split.2 hnodup _ _ _ hsplit
    refine ⟨_, if_neg fun hc => hnew ((t.arena.contains_iff_mem_ids v.id).1 hc),
      { hblank with }, hhandles, ?_⟩
    rw [List.map_append, ← hentries]
    exact OrderedMap.entries_insert_of_not_mem _ hnew
  obtain ⟨t, hfold, hblank, hhandles, hentries⟩ := hload
  refine ⟨t, hfold, hblank, hhandles, Arena.ext (OrderedMap.ext (hentries.trans ?_))⟩
  rw [ofSketch, List.map_map]
  rfl

/-- Saying what a variable stands for changes no arena that is restored already. -/
lemma represent_spec (h : a.Restores b t.arena) {v : VarId}
    (hv : b.link? v = some .alone) (what : Represents) :
    ∃ c, represent v what t = .ok { t with arena := c } ∧ a.Restores b c := by
  have hlive : t.arena.contains v = true := by
    rw [h.alike.contains]
    exact Arena.contains_of_link? hv
  obtain ⟨x, hx⟩ := (t.arena.contains_iff_value? v).1 hlive
  refine ⟨_, ?_, h.insert hv hx (some what)⟩
  rw [represent, (Arena.value_eq_ok_iff _ _ _).2 hx]
  rfl

/-- Loading one handle. -/
lemma addHandle_spec (h : a.Restores b t.arena) {saved : SavedHandle}
    (hnew : t.handles.contains saved.id = false) (hx : b.link? saved.x = some .alone)
    (hy : b.link? saved.y = some .alone) :
    ∃ c, addHandle t saved = .ok (observe saved.id.index { t with
        arena := c
        handles := t.handles.insert saved.id saved.x saved.y }) ∧ a.Restores b c := by
  obtain ⟨c, hc, hrestores⟩ := represent_spec h hx (.coordinate saved.id .x)
  obtain ⟨d, hd, hrestores⟩ := represent_spec (t := { t with arena := c }) hrestores hy
    (.coordinate saved.id .y)
  refine ⟨d, ?_, hrestores⟩
  rw [addHandle, hnew, if_neg Bool.false_ne_true, hc, ok_bind, hd]
  rfl

/-- **Handles** are loaded in order, and say which variables are their coordinates. -/
lemma load_handles (hground : s.handles.Grounded s.arena) (hblank : Blank t)
    (hhandles : t.handles = .empty) (harena : t.arena = s.arena.bare) :
    ∃ t', (ofSketch s).handles.foldlM addHandle t = .ok t' ∧ Blank t' ∧
      t'.handles = s.handles.reset ∧ s.arena.Restores s.arena.reset t'.arena := by
  have hnodup : ((ofSketch s).handles.map SavedHandle.id).Nodup := by
    rw [ofSketch, List.map_map]
    exact s.handles.handles.nodupKeys
  have hload : ∃ t', (ofSketch s).handles.foldlM addHandle t = .ok t' ∧ Blank t' ∧
      s.arena.Restores s.arena.reset t'.arena ∧ t'.handles.handles.entries =
        (ofSketch s).handles.map fun h => (h.id, { x := h.x, y := h.y }) := by
    refine foldlM_builds (P := fun before t => Blank t ∧ s.arena.Restores s.arena.reset t.arena ∧
      t.handles.handles.entries =
        before.map fun h : SavedHandle => (h.id, { x := h.x, y := h.y }))
      ?_ ⟨hblank, harena ▸ s.arena.restores_bare, by rw [hhandles]; rfl⟩
    rintro before h after hsplit t ⟨hblank, hrestores, hentries⟩
    have hnew : h.id ∉ t.handles.handles.keys := by
      rw [OrderedMap.keys, hentries, List.map_map]
      exact nodup_iff_split.2 hnodup _ _ _ hsplit
    have hcoords : s.handles.coords? h.id = some ⟨h.x, h.y⟩ := by
      have hmem : h ∈ (ofSketch s).handles := hsplit ▸ List.mem_append_right _ List.mem_cons_self
      obtain ⟨⟨i, w⟩, hw, rfl⟩ := List.mem_map.1 hmem
      rw [HandleTable.coords?_eq, HandleTable.get?, (OrderedMap.mem_entries_iff _ i w).1 hw]
      rfl
    obtain ⟨hx, hy⟩ := hground _ _ hcoords
    obtain ⟨c, hadd, hrestores⟩ := addHandle_spec hrestores
      (Bool.eq_false_iff.2 fun hc => hnew ((OrderedMap.contains_iff_mem_keys _ _).1 hc))
      (s.arena.alone_reset hx) (s.arena.alone_reset hy)
    refine ⟨_, hadd, { hblank with }, hrestores, ?_⟩
    rw [List.map_append, ← hentries]
    exact OrderedMap.entries_insert_of_not_mem _ hnew
  obtain ⟨t', hfold, hblank, hrestores, hentries⟩ := hload
  refine ⟨t', hfold, hblank, HandleTable.ext (OrderedMap.ext (hentries.trans ?_)), hrestores⟩
  rw [ofSketch, List.map_map]
  rfl

/-! ## Constraints -/

/-- What a constraint owns is represented by it. -/
lemma represent_owned {owned : List (VarId × Quantity)} (id : ConstraintId)
    (h : a.Restores b t.arena) (howned : ∀ v ∈ owned.map Prod.fst, b.link? v = some .alone) :
    ∃ c, owned.foldlM (fun s (v, quantity) => represent v (.quantity id quantity) s) t =
        .ok { t with arena := c } ∧ a.Restores b c := by
  have hfold : ∃ t', owned.foldlM (fun s (v, quantity) => represent v (.quantity id quantity) s) t =
      .ok t' ∧ ∃ c, t' = { t with arena := c } ∧ a.Restores b c := by
    refine foldlM_ok ?_ ⟨t.arena, rfl, h⟩
    rintro _ ⟨v, q⟩ hv ⟨c, rfl, hrestores⟩
    obtain ⟨d, hd, hrestores⟩ := represent_spec (t := { t with arena := c }) hrestores
      (howned v (List.mem_map_of_mem hv)) (.quantity id q)
    exact ⟨_, hd, d, rfl, hrestores⟩
  obtain ⟨_, hfold, c, rfl, hrestores⟩ := hfold
  exact ⟨c, hfold, hrestores⟩

/-- Adding a constraint that can be added, under an identifier of its own. -/
lemma insertConstraint_eq {c : Constraint α} {id : ConstraintId} {d : Arena α} {u : HandleTable}
    (hcheck : t.checkReferences c = .ok ⟨⟩) (hsame : t.sameKey c = none)
    (hrelate : c.relate t.arena t.handles = .ok (d, u)) :
    (Sketch.insertConstraint (some id) c).run t = .ok id { t with
      memo := t.remember id c
      constraints := t.constraints.insert id c
      arena := d
      handles := u
      clusters := none } := by
  have hinsert : Edit.Ensures (fun _ => False) (Sketch.insertConstraint (some id) c)
      (fun i t' => i = id ∧ t' = { t with
        memo := t.remember id c
        constraints := t.constraints.insert id c
        arena := d
        handles := u
        clusters := none }) t := by
    simp only [Sketch.insertConstraint, Edit.ensures_bind, Edit.ensures_get, Edit.ensures_ofExcept,
      hcheck, hsame]
    refine ⟨fun _ _ => ?_, by rintro e ⟨⟩⟩
    simp only [Edit.ensures_set, Edit.ensures_modify, Edit.ensures_pure]
    apply Sketch.ensures_relate
    · exact hrelate
    · exact ⟨trivial, rfl⟩
  rw [EStateM.run]
  rw [Edit.Ensures] at hinsert
  split at hinsert
  · rename_i hrun
    rw [hrun, hinsert.1, hinsert.2]
  · exact hinsert.elim

end Document

namespace Sketch

variable {α : Type} {s : Sketch α}

/-- The constraints that are saved: all but fingers. -/
def lasting (s : Sketch α) : List (ConstraintId × Constraint α) :=
  s.constraints.entries.filter fun e => !e.2.isFinger

lemma get?_of_mem_lasting {id : ConstraintId} {c : Constraint α} (h : (id, c) ∈ s.lasting) :
    s.constraints.get? id = some c :=
  (OrderedMap.mem_entries_iff _ id c).1 (List.mem_of_mem_filter h)

lemma lasting_eq (h : ∀ c ∈ s.constraints.values, c.isFinger = false) :
    s.lasting = s.constraints.entries := by
  refine List.filter_eq_self.2 fun e he => ?_
  rw [h e.2 (List.mem_map_of_mem he)]
  rfl

variable [Scalar α]

/-- They are saved oldest first. -/
lemma Intact.lasting_ordered (h : s.Intact) :
    (s.lasting.map Prod.fst).Pairwise (·.index < ·.index) :=
  h.ordered.sublist (List.filter_sublist.map Prod.fst)

/-- No older constraint ties what a constraint owns. -/
lemma Registered.tie_not_owned (h : s.Registered) {i j : ConstraintId} {c k : Constraint α}
    (hc : s.constraints.get? i = some c) (hk : s.constraints.get? j = some k)
    (hlt : j.index < i.index) {v : VarId} (hv : v ∈ c.owned) {e : Tie α}
    (he : e ∈ k.ties s.handles) : e.this ≠ v ∧ e.that ≠ v := by
  refine Constraint.tie_ne (fun hinput => ?_) (fun l p hp hcoord => ?_) he
  · have hyounger := h.ownedYounger hc v hv
    have holder := h.inputsOlder hk v hinput
    omega
  · rcases List.mem_pair.1 hcoord with rfl | rfl
    · exact h.component_not_mem_owned hc hp .x hv
    · exact h.component_not_mem_owned hc hp .y hv

end Sketch

/-- Restored arenas go on alike: a constraint that can be related in one can be related in the other
one, and restores the arena again. -/
lemma Arena.Restores.relate {α : Type} [Scalar α] {a b c : Arena α} (h : a.Restores b c)
    {k : Constraint α} {t : HandleTable} (hk : k.Live t b) (ht : t.Rooted)
    (hground : t.Grounded b) :
    ∃ b' c' u, k.relate b t = .ok (b', u) ∧ k.relate c t = .ok (c', u) ∧ a.Restores b' c' := by
  obtain ⟨b', u, hrelate, -⟩ := hk.relate_spec h.alike.left ht hground
  have hsame : k.Alike Eq (fun _ => Eq) t k := .refl Scalar.tolerates_eq fun _ _ _ => rfl
  obtain ⟨⟨c', _⟩, hrelate', halike, rfl⟩ :=
    hsame.relate (Alike.simulates Scalar.tolerates_eq) h.alike t _ hrelate
  obtain ⟨-, hroots⟩ := h.alike.right.unifies (Constraint.unifies_relate hrelate')
  refine ⟨b', c', u, hrelate, hrelate', halike, fun v hv => ?_⟩
  obtain ⟨hroot, hvalue⟩ := hroots v hv
  exact hvalue.trans (h.value v hroot)

namespace Document

open Sketch

variable {α : Type} [Scalar α] {s t : Sketch α}

/-- These constraints of a sketch have been loaded, and related one after the other. -/
structure Loaded (s : Sketch α) (done : List (ConstraintId × Constraint α)) (t : Sketch α) :
    Prop where
  entries : t.constraints.entries = done
  memo : ∀ {key id}, t.memo.get? key = some id → ∃ c, (id, c) ∈ done ∧ c.key = some key
  clusters : t.clusters = none
  related : ∃ b, Cluster.relateAll t.constraints s.arena s.handles = .ok (b, t.handles) ∧
    s.arena.Restores b t.arena

/-- Relating what has been loaded has kept the variables of the sketch and the coordinates of its
handles. -/
lemma Loaded.kept {done : List (ConstraintId × Constraint α)} (h : Loaded s done t) (hs : s.Intact)
    (hdone : done ⊆ s.lasting) :
    ∃ b, Cluster.relateAll t.constraints s.arena s.handles = .ok (b, t.handles) ∧
      s.arena.Restores b t.arena ∧ b.ids = s.arena.ids ∧ t.handles.Rooted ∧
      t.handles.points = s.handles.points := by
  obtain ⟨b, hrelated, hrestores⟩ := h.related
  have hlive : ∀ e ∈ t.constraints.entries, e.2.Live s.handles s.arena := by
    rw [h.entries]
    exact fun e he => hs.live (get?_of_mem_lasting (hdone he)) not_false
  obtain ⟨b', u, hrelated', -, hkept⟩ := Cluster.relateAll_spec hs.grounded hlive
  rw [hrelated] at hrelated'
  cases hrelated'
  exact ⟨b, hrelated, hrestores, hkept⟩

/-! ## One more constraint -/

section

variable {before after : List (ConstraintId × Constraint α)} {id : ConstraintId} {c : Constraint α}

/-- What comes earlier is older. -/
lemma index_lt_of_split (hs : s.Intact) (hsplit : s.lasting = before ++ (id, c) :: after) :
    ∀ e ∈ before, e.1.index < id.index := by
  have hordered := hs.lasting_ordered
  rw [hsplit, List.map_append, List.map_cons, List.pairwise_append] at hordered
  exact fun e he => hordered.2.2 _ (List.mem_map_of_mem he) _ List.mem_cons_self

/-- What a constraint owns stands alone when it is about to be loaded. -/
lemma Loaded.alone (h : Loaded s before t) (hs : s.Intact) (hr : s.Registered)
    (hsplit : s.lasting = before ++ (id, c) :: after) {b : Arena α}
    (hrelated : Cluster.relateAll t.constraints s.arena s.handles = .ok (b, t.handles)) {v : VarId}
    (hv : v ∈ c.owned) : b.link? v = some .alone := by
  have hget : ∀ {e}, e ∈ before ∨ e = (id, c) → s.constraints.get? e.1 = some e.2 := fun he =>
    get?_of_mem_lasting (by rw [hsplit]; grind)
  have hc := hget (.inr rfl)
  obtain ⟨rs, hrun, hasked⟩ := Cluster.requests_relateAll hrelated
  have hlive := (hs.live hc not_false).named v (List.mem_append_right _ hv)
  refine hrun.alone (Arena.wellFormed_reset _) (s.arena.alone_reset hlive) fun r hmem => ?_
  have he : r.toTie ∈ t.constraints.ties s.handles := hasked ▸ List.mem_map_of_mem hmem
  obtain ⟨_, hk, he⟩ := List.mem_flatMap.1 he
  obtain ⟨e, hbefore, rfl⟩ := List.mem_map.1 hk
  rw [h.entries] at hbefore
  exact hr.tie_not_owned hc (hget (.inl hbefore)) (index_lt_of_split hs hsplit e hbefore) hv he

/-- The key of a constraint is new when it is about to be loaded. -/
lemma Loaded.sameKey_eq_none (h : Loaded s before t) (hs : s.Intact) (hr : s.Registered)
    (hsplit : s.lasting = before ++ (id, c) :: after) (a : Arena α) :
    sameKey { t with arena := a } c = none := by
  cases hkey : c.key with
  | none => simp [sameKey, hkey]
  | some key =>
      cases hmemo : t.memo.get? key with
      | none => simp [sameKey, hkey, hmemo]
      | some j =>
          obtain ⟨k, hjk, hkey'⟩ := h.memo hmemo
          have hget : ∀ {i d}, (i, d) ∈ before ∨ (i, d) = (id, c) →
              s.constraints.get? i = some d := fun he =>
            get?_of_mem_lasting (by rw [hsplit]; grind)
          have hremembered := hr.remembered (hget (.inr rfl)) hkey
          rw [hr.remembered (hget (.inl hjk)) hkey'] at hremembered
          cases hremembered
          exact absurd (index_lt_of_split hs hsplit _ hjk) (lt_irrefl _)

/-- **Constraints**, one more. -/
lemma Loaded.addConstraint (h : Loaded s before t) (hs : s.Intact) (hr : s.Registered)
    (hsplit : s.lasting = before ++ (id, c) :: after) :
    ∃ t', Document.addConstraint t ⟨id, c⟩ = .ok t' ∧ Loaded s (before ++ [(id, c)]) t' := by
  have hdone : before ⊆ s.lasting := hsplit ▸ List.subset_append_left _ _
  obtain ⟨b, hrelated, hrestores, hids, hrooted, hpoints⟩ := h.kept hs hdone
  obtain ⟨a, howned, hrestores⟩ :=
    represent_owned id hrestores fun v hv => h.alone hs hr hsplit hrelated hv
  have hnew : id ∉ t.constraints.keys := by
    rw [OrderedMap.keys, h.entries]
    exact nodup_iff_split.2 (hs.lasting_ordered.imp fun hlt => ne_of_apply_ne _ hlt.ne) _ _ _ hsplit
  -- the constraint refers to what has been loaded
  have hcontains : ∀ v, s.arena.contains v = true → b.contains v = true := fun v hv =>
    (Arena.contains_of_ids hids v).trans hv
  have hlive : c.Live t.handles b := (hs.live (get?_of_mem_lasting
    (hsplit ▸ List.mem_append_right _ List.mem_cons_self)) not_false).congr hpoints hcontains
  have hground : t.handles.Grounded b := hs.grounded.congr hpoints hcontains
  have hcheck : checkReferences { t with arena := a } c = .ok ⟨⟩ :=
    checkReferences_of_live
      (hground.congr rfl fun v hv => (hrestores.alike.contains v).trans hv)
      (hlive.congr rfl fun v hv => (hrestores.alike.contains v).trans hv)
  have hsame := h.sameKey_eq_none hs hr hsplit a
  obtain ⟨b', d, u, hrelate, hrelate', hrestores⟩ := hrestores.relate hlive hrooted hground
  refine ⟨observe id.index { t with
    memo := t.remember id c
    constraints := t.constraints.insert id c
    arena := d
    handles := u
    clusters := none }, ?_, ?_, ?_, rfl, b', ?_, hrestores⟩
  · rw [Document.addConstraint,
      if_neg fun hmem => hnew ((OrderedMap.contains_iff_mem_keys _ _).1 hmem), howned, ok_bind,
      insertConstraint_eq hcheck hsame hrelate']
    rfl
  · exact (OrderedMap.entries_insert_of_not_mem c hnew).trans (congrArg (· ++ [(id, c)]) h.entries)
  · intro key j hj
    rcases get?_remember.1 hj with ⟨hkey, rfl⟩ | ⟨-, hold⟩
    · exact ⟨c, List.mem_append_right _ List.mem_cons_self, hkey⟩
    · exact (h.memo hold).imp fun k hk => ⟨List.mem_append_left _ hk.1, hk.2⟩
  · exact (Cluster.relateAll_insert hnew c hrelated).trans hrelate

end

/-- **Loading.**  What is saved of an intact sketch can be loaded, and is there afterwards. -/
theorem toSketch_spec (hs : s.Intact) (hr : s.Registered) :
    ∃ t, (ofSketch s).toSketch = .ok t ∧ Loaded s s.lasting t := by
  obtain ⟨t₁, hvars, hblank₁, hhandles₁, harena⟩ := load_variables s
  obtain ⟨t₂, hhandles, hblank₂, hhandles₂, hrestores⟩ :=
    load_handles hs.grounded hblank₁ hhandles₁ harena
  have hconstraints : ∃ t, s.lasting.foldlM (fun t e => Document.addConstraint t ⟨e.1, e.2⟩) t₂ =
      .ok t ∧ Loaded s s.lasting t := by
    refine foldlM_builds ?_ ?_
    · rintro before ⟨id, c⟩ after hsplit t h
      exact h.addConstraint hs hr hsplit
    · refine ⟨?_, ?_, hblank₂.clusters, s.arena.reset, ?_, hrestores⟩
      · rw [hblank₂.constraints]
        rfl
      · intro key id hmemo
        rw [hblank₂.memo] at hmemo
        cases hmemo
      · rw [hblank₂.constraints, hhandles₂]
        rfl
  obtain ⟨t, hconstraints, hloaded⟩ := hconstraints
  refine ⟨t, ?_, hloaded⟩
  rw [toSketch, hvars, ok_bind, hhandles, ok_bind, ofSketch, List.foldlM_map]
  exact hconstraints

/-! ## Clustering what was loaded -/

/-- Fingers unify nothing, so they need not be there. -/
lemma relateAll_lasting {K : ConstraintTable α} (h : K.entries = s.lasting) (a : Arena α)
    (u : HandleTable) : Cluster.relateAll K a u = Cluster.relateAll s.constraints a u := by
  rw [Cluster.relateAll, Cluster.relateAll, OrderedMap.values, OrderedMap.values, h, lasting]
  generalize (a.reset, u.reset) = state
  induction s.constraints.entries generalizing state with
  | nil => rfl
  | cons e es ih =>
      obtain ⟨id, c⟩ := e
      cases hfinger : c.isFinger with
      | false =>
          rw [List.filter_cons_of_pos (by simpa using hfinger), List.map_cons, List.map_cons,
            List.foldlM_cons, List.foldlM_cons]
          exact bind_congr fun state => ih state
      | true =>
          cases c with
          | finger handle position => exact ih state
          | _ => cases hfinger

/-- What has been loaded is clustered with the variables and handles of the sketch.  What stands for
its group afterwards has the value that it had in the sketch. -/
theorem Loaded.build_spec (h : Loaded s s.lasting t) (hs : s.Intact) :
    ∃ cs a, Cluster.build t.constraints t.arena t.handles = .ok (cs, a, t.handles) ∧
      a.ids = s.arena.ids ∧ ∀ k, a.canonical k = k → a.value? k = s.arena.value? k := by
  obtain ⟨b, hrelated, hrestores, hids, -, hpoints⟩ := h.kept hs (List.Subset.refl _)
  have hids' : t.arena.ids = s.arena.ids := hrestores.alike.ids.trans hids
  have hcontains : ∀ v, s.arena.contains v = true → t.arena.contains v = true := fun v hv =>
    (Arena.contains_of_ids hids' v).trans hv
  have hlive : ∀ e ∈ t.constraints.entries, e.2.Live t.handles t.arena := by
    rw [h.entries]
    exact fun e he => (hs.live (get?_of_mem_lasting he) not_false).congr hpoints hcontains
  have hordered : t.constraints.keys.Pairwise (·.index < ·.index) := by
    rw [OrderedMap.keys, h.entries]
    exact hs.lasting_ordered
  obtain ⟨cs, a, u, hbuild, -, hids'', -⟩ :=
    Cluster.build_spec (hs.grounded.congr hpoints hcontains) hlive hordered
  -- relating goes the same way as while the constraints were loaded
  obtain ⟨c, hrelated', hunifies⟩ := Cluster.relateAll_of_build hbuild
  have hK : t.constraints.Alike Eq (fun _ => Eq) s.handles t.constraints :=
    .refl Scalar.tolerates_eq fun _ _ => rfl
  obtain ⟨⟨c', _⟩, hsame, hc, rfl, -⟩ := Cluster.Alike.relateAll
    (Arena.Alike.simulates Scalar.tolerates_eq) hK (.reset hids') hpoints _ hrelated
  rw [hrelated'] at hsame
  cases hsame
  refine ⟨cs, a, hbuild, hids''.trans hids', fun k hk => ?_⟩
  have hroot : t.arena.canonical k = k := by
    rw [hrestores.alike.canonical Scalar.tolerates_eq, ← hc.canonical Scalar.tolerates_eq]
    exact ((hc.right.unifies hunifies).2 k hk).1
  exact ((Cluster.build_roots hbuild).2 k hk).trans (hrestores.value k hroot)

end Document

end SketchSolver
