import Mathlib
import SketchSolver.Proofs.Arena.Restore
import SketchSolver.Proofs.Arena.Total
import SketchSolver.Proofs.Cluster.Requests
import SketchSolver.Proofs.Document.Settle
import SketchSolver.Proofs.Sketch.Operation

/-!
# Loading, step by step

What one step of loading asks for, and what it leads to, whatever the document is like.  Nothing is
known here of the arena but which variables there are: a document may tie a variable first and let
a constraint own it later, and adding the variable once more then breaks its group.

* `Constraint.Live.relate_ok` — relating cannot fail in any arena.
* `Sketch.Relates` — what it changes.
* `Document.Describes d s` — the sketch `s` is what loading `d` has led to.
* `accepts_addVariable`, `accepts_addHandle`, `accepts_addConstraint` — a step succeeds exactly if
  what it loads has an identifier of its own and refers to what is there, and then the sketch is
  described by a document with one entry more.
-/

namespace SketchSolver

open Arena

/-! ## Relating in any arena -/

section

variable {α : Type} [Scalar α] {a : Arena α} {t : HandleTable}

/-- **Relating** what is live never fails, however damaged the links are. -/
theorem Constraint.Live.relate_ok {c : Constraint α} (h : c.Live t a) (ht : t.Rooted)
    (hground : t.Grounded a) : ∃ b u, c.relate a t = .ok (b, u) ∧ u.Rooted := by
  cases c with
  | linear y m x n =>
      have hy : a.contains y = true := h.named y (by simp [inputs])
      have hx : a.contains x = true := h.named x (by simp [inputs])
      obtain ⟨_, b, hunify⟩ := unify_ok hy hx ⟨m, n⟩
      exact ⟨b, t, by rw [relate, hunify]; rfl, ht⟩
  | absorb parent child =>
      have hparent : t.contains parent = true := h.handles parent List.mem_cons_self
      have hchild : t.contains child = true :=
        h.handles child (List.mem_cons_of_mem _ List.mem_cons_self)
      obtain ⟨p, hp⟩ := (HandleTable.contains_iff_coords? parent).1 hparent
      obtain ⟨q, hq⟩ := (HandleTable.contains_iff_coords? child).1 hchild
      obtain ⟨_, b, hx⟩ := unify_ok (hground parent p hp).1 (hground child q hq).1 .identity
      have hkept := (unifies_of_unify hx).contains
      obtain ⟨_, d, hy⟩ := unify_ok ((hkept p.y).trans (hground parent p hp).2)
        ((hkept q.y).trans (hground child q hq).2) .identity
      obtain ⟨u, habsorb, hrooted, -⟩ := ht.absorb_spec hparent hchild
      refine ⟨d, u, ?_, hrooted⟩
      rw [relate, (HandleTable.coords_eq_ok_iff parent p).2 hp,
        (HandleTable.coords_eq_ok_iff child q).2 hq]
      simp only [ok_bind, hx, hy, habsorb]
      rfl
  | _ => exact ⟨a, t, rfl, ht⟩

end

namespace Sketch

open Edit

variable {α : Type} [Scalar α] {s s' : Sketch α} {E : Sketch α → Prop} {c old : Constraint α}

/-- What relating a constraint changes: the variables that it ties are unified, and handles are
merged.  Nothing is clustered. -/
structure Relates (c : Constraint α) (s s' : Sketch α) : Prop where
  requests : ∃ rs, s.arena.Requests rs s'.arena ∧ rs.map Request.toTie ⊆ c.ties s.handles
  points : s'.handles.points = s.handles.points
  rooted : s'.handles.Rooted
  constraints : s'.constraints = s.constraints
  memo : s'.memo = s.memo
  clusters : s'.clusters = none

lemma Relates.unifies (h : Relates c s s') : s.arena.Unifies s'.arena := by
  obtain ⟨rs, hrun, -⟩ := h.requests
  exact hrun.unifies

lemma ensures_relates (hc : c.Live s.handles s.arena) (hrooted : s.handles.Rooted)
    (hground : s.handles.Grounded s.arena) :
    Ensures E (do relate c; modify invalidate) (fun _ => Relates c s) s := by
  obtain ⟨b, u, hrelate, hu⟩ := hc.relate_ok hrooted hground
  obtain ⟨rs, hrun, hties⟩ := Constraint.requests_relate hrelate
  rw [ensures_bind]
  exact ensures_relate hrelate
    ⟨⟨rs, hrun, hties ▸ List.Subset.refl _⟩, Constraint.points_relate hrelate, hu, rfl, rfl, rfl⟩

/-- An update of a sketch without clusters relates the constraint, or changes nothing more. -/
lemma ensures_settled (hc : c.Live s.handles s.arena) (hrooted : s.handles.Rooted)
    (hground : s.handles.Grounded s.arena) (hclusters : s.clusters = none) :
    Ensures E (settleUpdate old c) (fun _ => Relates c s) s := by
  have hquiet : Relates c s s :=
    ⟨⟨[], .nil _, List.nil_subset _⟩, rfl, hrooted, rfl, rfl, hclusters⟩
  have hrelate := ensures_relates (E := E) hc hrooted hground
  unfold settleUpdate
  split_ifs
  · exact hquiet
  · split
    · rw [ensures_get_bind, hclusters]
      exact hquiet
    · exact hrelate

/-- What could not be checked has not been added. -/
lemma live_of_insertConstraint {id i : ConstraintId}
    (h : (insertConstraint (some id) c).run s = .ok i s') : c.Live s.handles s.arena := by
  have hlive : Ensures (fun _ => True) (insertConstraint (some id) c)
      (fun _ _ => c.Live s.handles s.arena) s := by
    simp only [insertConstraint, ensures_bind, ensures_get, ensures_ofExcept]
    refine ⟨fun _ hcheck => ?_, fun _ _ => trivial⟩
    have hc := live_of_checkReferences hcheck
    rw [Ensures]
    split
    · exact hc
    · trivial
  rw [EStateM.run] at h
  rw [Ensures, h] at hlive
  exact hlive

end Sketch

namespace Document

variable {α : Type} {s : Sketch α} {d : Document α} {b : Arena α} {vs : List VarId}

/-! ## Saying what variables stand for -/

lemma accepts_represent (v : VarId) (what : Represents) (s : Sketch α) :
    Accepts (s.arena.contains v = true)
      (fun s' => ∃ b, s' = { s with arena := b } ∧ s.arena.Restates b [v])
      (represent v what s) := by
  rw [represent]
  cases hx : s.arena.value v with
  | error e =>
      intro hv
      obtain ⟨x, hx'⟩ := value_ok hv
      rw [hx] at hx'
      cases hx'
  | ok x =>
      have hvalue := (s.arena.value_eq_ok_iff v x).1 hx
      exact ⟨(s.arena.contains_iff_value? v).2 ⟨x, hvalue⟩, _, rfl, .insert hvalue (some what)⟩

/-- What a constraint owns is represented by it. -/
lemma accepts_represent_owned (id : ConstraintId) (owned : List (VarId × Quantity))
    (s : Sketch α) :
    Accepts (∀ v ∈ owned.map Prod.fst, s.arena.contains v = true)
      (fun s' => ∃ b, s' = { s with arena := b } ∧ s.arena.Restates b (owned.map Prod.fst))
      (owned.foldlM (fun s (v, quantity) => represent v (.quantity id quantity) s) s) := by
  refine (Accepts.foldlM owned (C := fun _ x => s.arena.contains x.1 = true)
    (P := fun before s' => ∃ b, s' = { s with arena := b } ∧
      s.arena.Restates b (before.map Prod.fst)) ?_ ⟨s.arena, rfl, .refl _⟩).of_iff ?_
  · rintro before ⟨v, quantity⟩ - _ ⟨b, rfl, hb⟩
    refine ((accepts_represent v (.quantity id quantity) { s with arena := b }).of_iff ?_).imp ?_
    · rw [contains_of_ids hb.ids]
    · rintro _ ⟨c, rfl, hc⟩
      exact ⟨c, rfl, List.map_append ▸ hb.trans hc⟩
  · rw [List.forall_mem_map]
    constructor
    · rintro h x hx
      obtain ⟨before, after, hsplit⟩ := List.append_of_mem hx
      exact h before x after hsplit
    · rintro h before x after rfl
      exact h x (by simp)

/-! ## What has been loaded -/

/-- The sketch is what loading the document has led to.  Of its unifications nothing is said, except
that there are none as long as there is no constraint. -/
structure Describes (d : Document α) (s : Sketch α) : Prop where
  ids : s.arena.ids = d.vars.map SavedVariable.id
  points : s.handles.points.entries = d.handles.map fun h => (h.id, ⟨h.x, h.y⟩)
  grounded : s.handles.Grounded s.arena
  rooted : s.handles.Rooted
  constraints : s.constraints.entries = settled d.constraints
  memo : ∀ {key id}, s.memo.get? key = some id ↔ (id, some key) ∈ entryKeys (settled d.constraints)
  clusters : s.clusters = none
  alone : d.constraints = [] → ∀ {v l}, s.arena.link? v = some l → l = .alone

/-- Everything that the constraint refers to is listed in the document. -/
structure Lists (d : Document α) (c : Constraint α) : Prop where
  handles : ∀ h ∈ c.handles, h ∈ d.handles.map SavedHandle.id
  named : ∀ v ∈ c.inputs ++ c.owned, v ∈ d.vars.map SavedVariable.id

lemma lists_congr {ks : List (SavedConstraint α)} {c : Constraint α} :
    Lists { d with constraints := ks } c ↔ d.Lists c :=
  ⟨fun h => ⟨h.handles, h.named⟩, fun h => ⟨h.handles, h.named⟩⟩

namespace Describes

lemma contains_iff (h : d.Describes s) (v : VarId) :
    s.arena.contains v = true ↔ v ∈ d.vars.map SavedVariable.id := by
  rw [contains_iff_mem_ids, h.ids]

lemma contains_handle_iff (h : d.Describes s) (i : HandleId) :
    s.handles.contains i = true ↔ i ∈ d.handles.map SavedHandle.id := by
  have hids : s.handles.ids = d.handles.map SavedHandle.id := by
    have hkeys : s.handles.points.keys = d.handles.map SavedHandle.id := by
      rw [OrderedMap.keys, h.points, List.map_map]
      rfl
    rw [← hkeys]
    exact (OrderedMap.keys_mapValues _ _).symm
  rw [← hids]
  exact OrderedMap.contains_iff_mem_keys _ _

lemma live_iff (h : d.Describes s) {c : Constraint α} :
    c.Live s.handles s.arena ↔ d.Lists c := by
  constructor
  · exact fun hc => ⟨fun i hi => (h.contains_handle_iff i).1 (hc.handles i hi),
      fun v hv => (h.contains_iff v).1 (hc.named v hv)⟩
  · exact fun hc => ⟨fun i hi => (h.contains_handle_iff i).2 (hc.handles i hi),
      fun v hv => (h.contains_iff v).2 (hc.named v hv)⟩

lemma contains_constraint_iff (h : d.Describes s) (i : ConstraintId) :
    s.constraints.contains i = true ↔ i ∈ (settled d.constraints).map Prod.fst := by
  rw [← h.constraints]
  exact OrderedMap.contains_iff_mem_keys _ _

/-- Adding variables once more matters to unifications only. -/
lemma restates (h : d.Describes s) (hb : s.arena.Restates b vs) :
    d.Describes { s with arena := b } :=
  { h with
    ids := hb.ids.trans h.ids
    grounded := h.grounded.congr rfl fun v hv => (contains_of_ids hb.ids v).trans hv
    alone := fun hnone v l hl => by
      rw [hb.link] at hl
      split_ifs at hl
      · exact (Option.some.inj hl).symm
      · exact h.alone hnone hl }

end Describes

/-! ## Variables and handles, one more -/

lemma accepts_addVariable {before : List (SavedVariable α)}
    (h : Describes ⟨before, [], []⟩ s) (v : SavedVariable α) :
    Accepts (v.id ∉ before.map SavedVariable.id) (Describes ⟨before ++ [v], [], []⟩)
      (addVariable s v) := by
  rw [addVariable]
  refine (Accepts.guard fun hv => .answer ?_).of_iff
    ((and_true _).to_iff.trans (h.contains_iff v.id).not)
  have hnew : v.id ∉ s.arena.ids := fun hmem => hv ((s.arena.contains_iff_mem_ids v.id).2 hmem)
  exact { h with
    ids := by
      rw [List.map_append]
      exact (OrderedMap.keys_insert_of_not_mem _ hnew).trans (congrArg (· ++ [v.id]) h.ids)
    grounded := h.grounded.congr rfl fun k hk => (contains_insert ..).2 (.inr hk)
    alone := fun hnone k l hl => by
      rw [observe, link?_insert] at hl
      split_ifs at hl
      · exact (Option.some.inj hl).symm
      · exact h.alone hnone hl }

/-- Loading a handle asks for an identifier of its own and for its coordinates. -/
lemma accepts_addHandle {before : List SavedHandle} {vs : List (SavedVariable α)}
    (h : Describes ⟨vs, before, []⟩ s) (k : SavedHandle) :
    Accepts (k.id ∉ before.map SavedHandle.id ∧
        k.x ∈ vs.map SavedVariable.id ∧ k.y ∈ vs.map SavedVariable.id)
      (Describes ⟨vs, before ++ [k], []⟩) (addHandle s k) := by
  rw [addHandle]
  refine (Accepts.guard fun hk => ?_).of_iff (and_congr_left' (h.contains_handle_iff k.id).not)
  refine ((accepts_represent k.x _ s).of_iff (h.contains_iff k.x)).bind ?_
  rintro _ hkx ⟨b, rfl, hb⟩
  have hx := h.restates hb
  refine (((accepts_represent k.y _ { s with arena := b }).of_iff (hx.contains_iff k.y)).bind
    (D := True) ?_).of_iff (and_true _).to_iff
  rintro _ hky ⟨c, rfl, hc⟩
  have hy := hx.restates hc
  refine .answer { hy with points := ?_, grounded := fun i p hp => ?_, rooted := ?_ }
  · have hnew : k.id ∉ s.handles.handles.keys := fun hmem =>
      hk ((OrderedMap.contains_iff_mem_keys _ _).2 hmem)
    rw [List.map_append, ← h.points]
    exact (congrArg (List.map _) (OrderedMap.entries_insert_of_not_mem _ hnew)).trans
      List.map_append
  · rw [observe, HandleTable.coords?_insert] at hp
    split_ifs at hp with hi
    · cases hp
      exact ⟨(hy.contains_iff _).2 hkx, (hy.contains_iff _).2 hky⟩
    · exact hy.grounded i p hp
  · exact h.rooted.insert k.id k.x k.y

/-! ## Constraints, one more -/

/-- The entry that is re-issued is the one that the memo leads to. -/
lemma Describes.fst_eq_iff_reissues (h : d.Describes s) {c : Constraint α} {key : ConstraintKey}
    {id : ConstraintId} (hkey : c.key = some key) (hmemo : s.memo.get? key = some id)
    {e : ConstraintId × Constraint α} (he : e ∈ settled d.constraints) :
    e.1 = id ↔ c.Reissues e.2 := by
  obtain ⟨i, c'⟩ := e
  have hiff : c.Reissues c' ↔ c'.key = some key := by
    simp [Constraint.Reissues, hkey, eq_comm]
  rw [hiff]
  obtain ⟨old, hold, hkey'⟩ := mem_entryKeys.1 (h.memo.1 hmemo)
  rw [← h.constraints, OrderedMap.mem_entries_iff] at hold
  constructor
  · rintro rfl
    rw [← h.constraints, OrderedMap.mem_entries_iff, hold] at he
    cases he
    exact hkey'
  · intro hsame
    have hother := h.memo.2 (mem_entryKeys.2 ⟨c', he, hsame⟩)
    rw [hmemo] at hother
    exact (Option.some.inj hother).symm

/-- With a constraint of the same key in the table, the new one takes its place. -/
lemma Describes.settle_of_sameKey (h : d.Describes s) {k : SavedConstraint α} {id : ConstraintId}
    {old : Constraint α} (hsame : s.sameKey k.constraint = some (id, old)) :
    (s.constraints.insert id k.constraint).entries = settle (settled d.constraints) k ∧
      ∀ {key i}, s.memo.get? key = some i ↔
        (i, some key) ∈ entryKeys (settle (settled d.constraints) k) := by
  obtain ⟨key, hkey, hmemo, hget⟩ := Sketch.sameKey_eq_some_iff.1 hsame
  have hold : ∃ e ∈ settled d.constraints, k.constraint.Reissues e.2 :=
    reissues_iff_entryKeys.2 ⟨key, id, hkey, h.memo.1 hmemo⟩
  constructor
  · rw [settle, if_pos hold, ← h.constraints,
      OrderedMap.entries_insert_of_mem _ (OrderedMap.mem_keys_of_get? hget)]
    refine List.map_congr_left fun e he => ?_
    rw [h.constraints] at he
    simp only [h.fst_eq_iff_reissues hkey hmemo he]
  · rw [entryKeys_settle, if_pos hold]
    exact h.memo

/-- With no such constraint, the new one comes last. -/
lemma Describes.settle_of_sameKey_eq_none (h : d.Describes s) {k : SavedConstraint α}
    (hnew : k.id ∉ (settled d.constraints).map Prod.fst) (hsame : s.sameKey k.constraint = none) :
    (s.constraints.insert k.id k.constraint).entries = settle (settled d.constraints) k ∧
      ∀ {key i}, (s.remember k.id k.constraint).get? key = some i ↔
        (i, some key) ∈ entryKeys (settle (settled d.constraints) k) := by
  have hno : ¬ ∃ e ∈ settled d.constraints, k.constraint.Reissues e.2 := by
    rw [reissues_iff_entryKeys]
    rintro ⟨key, id, hkey, hmem⟩
    obtain ⟨c, hc, -⟩ := mem_entryKeys.1 hmem
    rw [← h.constraints, OrderedMap.mem_entries_iff] at hc
    rw [Sketch.sameKey_eq_some_iff.2 ⟨key, hkey, h.memo.2 hmem, hc⟩] at hsame
    cases hsame
  constructor
  · rw [settle, if_neg hno, ← h.constraints]
    refine OrderedMap.entries_insert_of_not_mem _ fun hmem => hnew ?_
    rw [← h.constraints]
    exact hmem
  · intro key id
    have hother : (id, some key) ∈ entryKeys (settled d.constraints) →
        k.constraint.key ≠ some key := fun hmem hkey =>
      hno (reissues_iff_entryKeys.2 ⟨key, id, hkey, hmem⟩)
    rw [Sketch.get?_remember, entryKeys_settle, if_neg hno, List.mem_append, List.mem_singleton,
      Prod.mk.injEq, h.memo]
    grind

variable [Scalar α]

open Edit Sketch

/-- What is left to do once the constraint is in the table. -/
lemma Describes.of_relates {k : SavedConstraint α} {K : ConstraintTable α}
    {m : OrderedMap ConstraintKey ConstraintId} {s' : Sketch α} (h : d.Describes s)
    (hK : K.entries = settle (settled d.constraints) k)
    (hm : ∀ {key id}, m.get? key = some id ↔
      (id, some key) ∈ entryKeys (settle (settled d.constraints) k))
    (hrelates : Relates k.constraint { s with constraints := K, memo := m } s') :
    Describes { d with constraints := d.constraints ++ [k] } s' := by
  have hcontains : ∀ v, s'.arena.contains v = s.arena.contains v := hrelates.unifies.contains
  have hids : s'.arena.ids = s.arena.ids := ids_of_labels hrelates.unifies.labels
  refine ⟨hids.trans h.ids, ?_, ?_, hrelates.rooted, ?_, ?_, hrelates.clusters, ?_⟩
  · rw [hrelates.points]
    exact h.points
  · exact h.grounded.congr hrelates.points fun v hv => (hcontains v).trans hv
  · rw [hrelates.constraints, settled_append]
    exact hK
  · rw [hrelates.memo, settled_append]
    exact hm
  · exact fun hnone => absurd hnone (List.append_ne_nil_of_right_ne_nil _ (List.cons_ne_nil _ _))

/-- A constraint that is listed can be added, or takes the place of the one that it re-issues. -/
lemma Describes.ensures_insert (h : d.Describes s) {k : SavedConstraint α}
    (hnew : k.id ∉ (settled d.constraints).map Prod.fst) (hk : d.Lists k.constraint) :
    Ensures (fun _ => False) (insertConstraint (some k.id) k.constraint)
      (fun _ s' => Describes { d with constraints := d.constraints ++ [k] } s' ∧
        ∃ rs, s.arena.Requests rs s'.arena ∧
          rs.map Request.toTie ⊆ k.constraint.ties s.handles) s := by
  have hlive := h.live_iff.2 hk
  simp only [insertConstraint, ensures_bind, ensures_get, ensures_ofExcept,
    checkReferences_of_live h.grounded hlive]
  refine ⟨fun _ _ => ?_, by rintro e ⟨⟩⟩
  cases hsame : s.sameKey k.constraint with
  | some found =>
      obtain ⟨id, old⟩ := found
      obtain ⟨hentries, hmemo⟩ := h.settle_of_sameKey hsame
      simp only [ensures_bind, ensures_set, ensures_pure]
      refine (ensures_settled (s := { s with
        constraints := s.constraints.insert id k.constraint })
          hlive h.rooted h.grounded h.clusters).imp fun _ s' hs' => ?_
      exact ⟨h.of_relates hentries hmemo hs', hs'.requests⟩
  | none =>
      obtain ⟨hentries, hmemo⟩ := h.settle_of_sameKey_eq_none hnew hsame
      simp only [ensures_bind, ensures_set, ensures_pure]
      refine ((ensures_bind _ _).1 (ensures_relates (s := { s with
        memo := s.remember k.id k.constraint
        constraints := s.constraints.insert k.id k.constraint })
          hlive h.rooted h.grounded)).imp fun _ s' hs' => ?_
      exact ⟨h.of_relates hentries hmemo hs', hs'.requests⟩

/-- Loading a constraint asks for an identifier of its own and for everything that it refers to. -/
lemma accepts_addConstraint (h : d.Describes s) (k : SavedConstraint α) :
    Accepts (k.id ∉ (settled d.constraints).map Prod.fst ∧ d.Lists k.constraint)
      (fun s' => Describes { d with constraints := d.constraints ++ [k] } s' ∧
        ∃ b rs, s.arena.Restates b k.constraint.owned ∧ b.Requests rs s'.arena ∧
          rs.map Request.toTie ⊆ k.constraint.ties s.handles)
      (addConstraint s k) := by
  rw [addConstraint]
  refine (Accepts.guard fun hid => ?_).of_iff (and_congr_left' (h.contains_constraint_iff k.id).not)
  have hnew := (h.contains_constraint_iff k.id).not.1 hid
  refine ((accepts_represent_owned k.id k.constraint.ownedQuantities s).bind
    (D := d.Lists k.constraint) ?_).of_iff (and_iff_right_of_imp fun hk v hv => ?_)
  · rintro _ - ⟨b, rfl, hb⟩
    have hs := h.restates hb
    cases hrun : (insertConstraint (some k.id) k.constraint).run { s with arena := b } with
    | error e s' =>
        intro hk
        have hinsert := hs.ensures_insert hnew hk
        rw [EStateM.run] at hrun
        rwa [Ensures, hrun] at hinsert
    | ok i s' =>
        have hk := hs.live_iff.1 (live_of_insertConstraint hrun)
        have hinsert := hs.ensures_insert hnew hk
        rw [EStateM.run] at hrun
        rw [Ensures, hrun] at hinsert
        obtain ⟨hs', rs, hrun, hties⟩ := hinsert
        exact ⟨hk, { hs' with }, b, rs, hb, hrun, hties⟩
  · exact (h.contains_iff v).2 (hk.named v (List.mem_append_right _ hv))

lemma describes_empty : Describes ⟨[], [], []⟩ (Sketch.empty : Sketch α) where
  ids := rfl
  points := rfl
  grounded := by
    rintro i c ⟨⟩
  rooted := HandleTable.rooted_empty
  constraints := rfl
  memo := by
    intro key id
    exact iff_of_false (by rintro ⟨⟩) (by rintro ⟨⟩)
  clusters := rfl
  alone := by
    rintro - v l ⟨⟩

end Document

end SketchSolver
