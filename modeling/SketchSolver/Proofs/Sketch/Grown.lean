import Mathlib
import SketchSolver.Proofs.Arena.Total
import SketchSolver.Proofs.Sketch.Lock
import SketchSolver.Proofs.Sketch.Reachable
import SketchSolver.Proofs.Sketch.Spent

/-!
# Growing sketches

Some edits only ever add to a sketch.  As long as they name what is there, they never fail.

* `Sketch.Grown s s'` — `s'` is intact and has all that `s` has: the handles with their coordinates,
  the variables, and the constraints that own variables.
* `Sketch.Grows n s s'` — in addition, no more than `n` identifiers were spent.
* The lemmas `ensures_…_grows`, one for each such edit.  The condition on failures is arbitrary, so
  they say that the edit succeeds.
* `Sketch.Introduced c i` — the constraint `c` was introduced under the identifier `i`, with owned
  variables that were not there before.  Only the polar vector of two handles may be one that was
  there already (`ensures_polar_introduced`).
* `ensures_solve_grown` — a solve takes nothing away, whether it fails or not.
-/

namespace SketchSolver

namespace Sketch

open Edit HandleTable

variable {α : Type} [Scalar α] {s s' s'' s₀ : Sketch α} {E : Sketch α → Prop}

/-- The second sketch is intact and has all that the first one has. -/
structure Grown (s s' : Sketch α) : Prop where
  intact : s'.Intact
  coords : ∀ {i c}, s.handles.coords? i = some c → s'.handles.coords? i = some c
  vars : ∀ {v}, s.arena.contains v = true → s'.arena.contains v = true
  owners : ∀ {i c}, s.constraints.get? i = some c → c.owned ≠ [] → s'.constraints.get? i = some c

namespace Grown

lemma refl (hs : s.Intact) : Grown s s := ⟨hs, id, id, fun hget _ => hget⟩

lemma trans (h : Grown s s') (h' : Grown s' s'') : Grown s s'' where
  intact := h'.intact
  coords hc := h'.coords (h.coords hc)
  vars hv := h'.vars (h.vars hv)
  owners hget howned := h'.owners (h.owners hget howned) howned

lemma handles (h : Grown s s') {i : HandleId} (hi : s.handles.contains i = true) :
    s'.handles.contains i = true := by
  obtain ⟨c, hc⟩ := (contains_iff_coords? i).1 hi
  exact (contains_iff_coords? i).2 ⟨c, h.coords hc⟩

end Grown

/-- The second sketch has grown out of the first one, at the cost of some identifiers. -/
structure Grows (n : Nat) (s s' : Sketch α) : Prop extends Grown s s' where
  spent : s'.spent ≤ s.spent + n

namespace Grows

variable {m n : Nat}

lemma refl (hs : s.Intact) : Grows 0 s s := ⟨.refl hs, le_rfl⟩

lemma trans (h : Grows m s s') (h' : Grows n s' s'') : Grows (m + n) s s'' where
  toGrown := h.toGrown.trans h'.toGrown
  spent := by
    have hm := h.spent
    have hn := h'.spent
    omega

lemma mono (h : Grows m s s') (hmn : m ≤ n) : Grows n s s' :=
  ⟨h.toGrown, h.spent.trans (Nat.add_le_add_left hmn _)⟩

end Grows

/-! ## Adding variables and handles -/

lemma Grows.addVariable (hs : s.Intact) (x : α) (represents : Option Represents) :
    Grows 2 s (addVariable x represents s).2 where
  intact := hs.toSoundExcept.addVariable x represents
  coords := id
  vars hv := (Arena.contains_insert _ _ _ _ _).2 (Or.inr hv)
  owners hget _ := hget
  spent := spent_addVariable s x represents

/-- The next identifier is that of no handle. -/
lemma Intact.fresh_handle (hs : s.Intact) : s.handles.contains ⟨s.ids.next⟩ = false := by
  rw [← Bool.not_eq_true]
  exact fun hcontains => Nat.lt_irrefl _ (hs.handleIds hcontains)

lemma Grows.addHandle (hs : s.Intact) (position : Point α) :
    Grows 5 s (addHandle position s).2 where
  intact := hs.toSoundExcept.addHandle position
  coords {i c} hc := by
    have hne : i ≠ ⟨s.ids.next⟩ := by
      rintro rfl
      have hcontains := (contains_iff_coords? _).2 ⟨c, hc⟩
      rw [hs.fresh_handle] at hcontains
      cases hcontains
    exact (coords?_insert _ _ _ _ _).trans ((if_neg hne).trans hc)
  vars hv := (Arena.contains_insert _ _ _ _ _).2
    (Or.inr ((Arena.contains_insert _ _ _ _ _).2 (Or.inr hv)))
  owners hget _ := hget
  spent := spent_addHandle s position

/-! ## Adding constraints -/

omit [Scalar α] in
/-- Of two constraints with one key, none owns variables if the other one does not. -/
lemma owned_eq_nil_of_key {c d : Constraint α} {key : ConstraintKey} (hc : c.key = some key)
    (hd : d.key = some key) (howned : c.owned = []) : d.owned = [] := by
  have hsame : c.key = d.key := hc.trans hd.symm
  have hsome : d.key ≠ none := by simp [hd]
  clear hc hd
  cases c <;> cases d <;>
    simp_all [Constraint.key, Constraint.owned, Constraint.ownedQuantities, ite_eq_iff]

/-- A constraint that owns nothing, or whose key is new, takes the place of no owner. -/
lemma Added.grown {c : Constraint α} {i : ConstraintId} (h : Added c i s s') (hs : s.Intact)
    (hs' : s'.Intact) (hc : c.owned = [] ∨ s.sameKey c = none) : Grown s s' where
  intact := hs'
  coords {j p} hp := by
    rcases h.drawn with ⟨-, hhandles⟩ | hrelate
    · rwa [hhandles]
    · rwa [coords?_congr (Constraint.points_relate hrelate)]
  vars {v} hv := by
    rcases h.drawn with ⟨harena, -⟩ | hrelate
    · rwa [harena]
    · rwa [Arena.Unifies.contains (Constraint.unifies_relate hrelate) v]
  owners {j d} hget howned := by
    rw [h.get?, if_neg, hget]
    rintro rfl
    have hsame := h.replaced hget
    rcases hc with hc | hc
    · obtain ⟨-, key, hkey, hkey'⟩ := sameKey_eq_some hs.toSoundExcept hsame
      exact howned (owned_eq_nil_of_key hkey' hkey hc)
    · rw [hsame] at hc
      cases hc

/-- Adding a constraint that owns nothing. -/
lemma ensures_insertNew_grown (hs : s.Intact) {c : Constraint α} (howned : c.owned = [])
    (hc : c.Live s.handles s.arena) :
    Ensures E (insertConstraint none c) (fun i s' => Added c i s s' ∧ Grown s s' ∧
      s'.ids = if (s.sameKey c).isSome then s.ids else s.ids.fresh.2) s := by
  have hadded := (ensures_insertConstraint_added (E := E) hs.toSoundExcept hc (by simp)).both
    (ensures_insertChecked invariant_intact hs howned fun hnot => absurd hc hnot)
  refine (hadded.and (ensures_insertConstraint_ids none c)).mono (fun _ h => h.1) ?_
  rintro i s' ⟨⟨h, hs'⟩, hids⟩
  exact ⟨h, h.grown hs hs' (Or.inl howned), by simpa using hids⟩

lemma ensures_insertNew_grows (hs : s.Intact) {c : Constraint α} (howned : c.owned = [])
    (hc : c.Live s.handles s.arena) :
    Ensures E (insertConstraint none c) (fun _ => Grows 1 s) s := by
  refine (ensures_insertNew_grown hs howned hc).imp fun i s' h => ⟨h.2.1, h.1.spent_le ?_⟩
  rw [h.2.2]
  split
  · exact Nat.le_succ _
  · exact le_rfl

lemma ensures_pin_grows (hs : s.Intact) {id : HandleId} (hid : s.handles.contains id = true)
    (position : Point α) : Ensures E (pin id position) (fun _ => Grows 1 s) s :=
  ensures_insertNew_grows hs rfl
    ⟨by simp [Constraint.handles, hid], by simp [Constraint.inputs, Constraint.owned,
      Constraint.ownedQuantities]⟩

lemma ensures_finger_grows (hs : s.Intact) {id : HandleId} (hid : s.handles.contains id = true)
    (position : Point α) : Ensures E (finger id position) (fun _ => Grows 1 s) s :=
  ensures_insertNew_grows hs rfl
    ⟨by simp [Constraint.handles, hid], by simp [Constraint.inputs, Constraint.owned,
      Constraint.ownedQuantities]⟩

lemma ensures_absorb_grows (hs : s.Intact) {parent child : HandleId}
    (hparent : s.handles.contains parent = true) (hchild : s.handles.contains child = true) :
    Ensures E (absorb parent child) (fun _ => Grows 1 s) s :=
  ensures_insertNew_grows hs rfl
    ⟨by simp [Constraint.handles, hparent, hchild], by simp [Constraint.inputs, Constraint.owned,
      Constraint.ownedQuantities]⟩

/-! ## Values and locks -/

lemma ensures_setValue_grows (hs : s.Intact) {v : VarId} (hv : s.arena.contains v = true) (x : α) :
    Ensures E (setValue v x) (fun _ => Grows 0 s) s := by
  obtain ⟨b, hset, hb, hshape, -⟩ := hs.arena.setValue_spec hv x
  rw [setValue, onArena, ensures_get_bind, ensures_found hset]
  refine ⟨⟨hs.revalue hb hshape, id, fun hw => (Arena.contains_congr hshape _).trans hw,
    fun hget _ => hget⟩, ?_⟩
  rw [spent, spent, Arena.ids_congr hshape]
  exact le_rfl

lemma ensures_holdHere_grows (hs : s.Intact) {v : VarId} (hv : s.arena.contains v = true) :
    Ensures E (holdHere v) (fun _ => Grows 0 s) s := by
  obtain ⟨x, hx⟩ := Arena.value_ok hv
  rw [holdHere, ensures_get_bind, ensures_found hx, ensures_discard]
  have hlive : (Constraint.constant v x).Live s.handles s.arena :=
    ⟨by simp [Constraint.handles], by simp [Constraint.inputs, Constraint.owned,
      Constraint.ownedQuantities, hv]⟩
  exact (ensures_insertNew_grown hs rfl hlive).imp fun i s' h =>
    ⟨h.2.1, h.1.spent_constant hs.toSoundExcept hv h.2.2⟩

lemma ensures_lock_grows (hs : s.Intact) {v : VarId} (hv : s.arena.contains v = true)
    (value : Option α) (scrub : Bool) : Ensures E (lock v value scrub) (fun _ => Grows 0 s) s := by
  have hrest : ∀ {t : Sketch α}, t.Intact → t.arena.contains v = true →
      Ensures E (lock v none scrub) (fun _ => Grows 0 t) t := by
    intro t ht hv
    obtain ⟨y, hfind⟩ := Arena.find_ok hv
    have hcanonical : t.canonical v = .ok (t.arena.canonical v) := by
      rw [canonical, hfind]
      rfl
    show Ensures E (get >>= fun s => Edit.ofExcept (s.canonical v) >>= _) _ t
    rw [ensures_get_bind, ensures_found hcanonical]
    refine ensures_forM (fun w hw t' ht' => ?_) (.refl ht)
    have hw' := ht'.vars (contains_of_mem_lockTargets ht.arena hv hw)
    exact (ensures_holdHere_grows ht'.intact hw').imp fun _ _ h => ht'.trans h
  cases value with
  | none => exact hrest hs hv
  | some x =>
      rw [lock, ensures_bind]
      refine (ensures_setValue_grows hs hv x).imp fun _ t ht => ?_
      exact (hrest ht.intact (ht.vars hv)).imp fun _ _ h => ht.trans h

lemma ensures_makeEqual_grows (hs : s.Intact) {this that : VarId}
    (hthis : s.arena.contains this = true) (hthat : s.arena.contains that = true)
    (offset : Affine α) : Ensures E (makeEqual this that offset) (fun _ => Grows 1 s) s := by
  refine ensures_makeEqual_steps (J := Grows 1 s) (Or.inr ⟨hthis, hthat⟩) ?_ (fun {t} ht x => ?_)
    fun {t} ht => ?_
  · exact ensures_insertNew_grows hs rfl
      ⟨by simp [Constraint.handles], by simp [Constraint.inputs, Constraint.owned,
        Constraint.ownedQuantities, hthis, hthat]⟩
  · exact (ensures_setValue_grows ht.intact (ht.vars hthat) x).imp fun _ _ h => ht.trans h
  · exact (ensures_lock_grows ht.intact (ht.vars hthis) none false).imp fun _ _ h => ht.trans h

/-! ## Measuring -/

namespace Prepared

variable {id : ConstraintId} {owned : List (VarId × Quantity)}

omit [Scalar α] in
lemma spent_le (h : Prepared s id owned s') : s'.spent ≤ s.spent + (1 + 2 * owned.length) := by
  induction h with
  | reserve _ => exact (spent_withIds s).le
  | own q x _ ih =>
      refine (spent_addVariable _ x _).trans ?_
      rw [List.length_append, List.length_singleton]
      omega

lemma grown (h : Prepared s id owned s') (hs : s.Intact) :
    Grows (1 + 2 * owned.length) s s' where
  intact := h.intact hs
  coords hc := by rwa [h.same.2.1]
  vars := h.grows
  owners hget _ := by rwa [h.same.1]
  spent := h.spent_le

omit [Scalar α] in
/-- The variables that will be owned are new. -/
lemma fresh (h : Prepared s id owned s') :
    s.ids.next ≤ s'.ids.next ∧ ∀ e ∈ owned, s.ids.next ≤ e.1.index := by
  induction h with
  | reserve _ => exact ⟨Nat.le_succ _, by simp⟩
  | own q x _ ih =>
      refine ⟨ih.1.trans (Nat.le_succ _), fun e he => ?_⟩
      rcases List.mem_append.1 he with he | he
      · exact ih.2 e he
      · rw [List.mem_singleton.1 he]
        exact ih.1

end Prepared

/-- The constraint `c` was introduced, with variables that were not there before. -/
structure Introduced (c : Constraint α) (i : ConstraintId) (s s' : Sketch α) : Prop
    extends Grows 5 s s' where
  constraint : s'.constraints.get? i = some c
  fresh : ∀ v ∈ c.owned, s.arena.contains v = false

/-- Adding a constraint whose owned variables have been prepared. -/
lemma ensures_insertPrepared_introduced (hs : s₀.Intact) {id : ConstraintId} {c : Constraint α}
    (hadd : s₀.Addable c) (hprepared : Prepared s₀ id c.ownedQuantities s) :
    Ensures E (insertConstraint (some id) c) (fun i => Introduced c i s₀) s := by
  have hgrown := hprepared.grown hs
  have hfree : id ∉ s.constraints.keys := by
    rw [hprepared.same.1, hprepared.index]
    exact fun hmem => Nat.lt_irrefl _ (hs.constraintIds hmem)
  have hsame : s.sameKey c = none := by
    cases hkey : c.key with
    | none => simp [sameKey, hkey]
    | some key => simp [sameKey, hkey, hprepared.same.2.2, hadd.unknown hkey]
  have hadded := ensures_insertConstraint_added (E := E) hgrown.intact.toSoundExcept
    (hprepared.live hadd) fun i (hi : some id = some i) => Option.some.inj hi ▸ hfree
  have hboth := hadded.both (ensures_insertPrepared invariant_intact hs hadd hprepared)
  refine (hboth.and (ensures_insertConstraint_ids (some id) c)).mono (fun _ h => h.1) ?_
  rintro i s' ⟨⟨h, hs'⟩, hids⟩
  have hgrows : Grows 0 s s' := ⟨h.grown hgrown.intact hs' (Or.inr hsame), h.spent_le
    (by simpa using (congrArg IdSupply.next hids).le)⟩
  have hcost : 1 + 2 * c.ownedQuantities.length + 0 ≤ 5 := by
    cases c <;> simp [Constraint.ownedQuantities]
  refine ⟨(hgrown.trans hgrows).mono hcost, by rw [h.get?, if_pos rfl], ?_⟩
  intro v hv
  obtain ⟨e, he, rfl⟩ := List.mem_map.1 hv
  by_contra hcontains
  rw [Bool.not_eq_false] at hcontains
  exact absurd (hs.variableIds hcontains) (Nat.not_lt.2 (hprepared.fresh.2 e he))

/-- Measuring one quantity. -/
lemma ensures_ownOne_introduced (hs : s.Intact) (q : Quantity) (x : α) {c : VarId → Constraint α}
    (howned : ∀ v, (c v).ownedQuantities = [(v, q)]) (hadd : ∀ v, s.Addable (c v)) :
    Ensures E (do
      let id ← reserve
      let v ← own id q x
      insertConstraint (some id) (c v)) (fun i s' => ∃ v, Introduced (c v) i s s') s := by
  simp only [ensures_bind]
  refine ensures_reserve.imp fun id s₁ h₁ => ?_
  refine (ensures_own h₁ q x).imp fun v s₂ h₂ => ?_
  exact (ensures_insertPrepared_introduced hs (hadd v) (howned v ▸ h₂)).imp fun _ _ h => ⟨v, h⟩

/-- A handle that is there has a position. -/
lemma position_ok (hs : s.Intact) {id : HandleId} (hid : s.handles.contains id = true) :
    ∃ p, s.position id = .ok p := by
  obtain ⟨c, hc⟩ := (contains_iff_coords? id).1 hid
  obtain ⟨hx, hy⟩ := hs.grounded id c hc
  obtain ⟨x, hx⟩ := Arena.value_ok hx
  obtain ⟨y, hy⟩ := Arena.value_ok hy
  refine ⟨⟨x, y⟩, ?_⟩
  rw [position, (coords_eq_ok_iff id c).2 hc, ok_bind, Coords.read, hx, ok_bind, hy]
  rfl

section

variable {start finish : HandleId}

lemma ensures_distance_introduced (hs : s.Intact) (hstart : s.handles.contains start = true)
    (hfinish : s.handles.contains finish = true) :
    Ensures E (distance start finish)
      (fun i s' => ∃ v, Introduced (.distance start finish v) i s s') s := by
  obtain ⟨p, hp⟩ := position_ok hs hstart
  obtain ⟨q, hq⟩ := position_ok hs hfinish
  rw [distance, ensures_get_bind, ensures_found hp, ensures_found hq]
  exact ensures_ownOne_introduced hs _ _ (fun _ => rfl) fun _ =>
    addable_between rfl rfl hp hq (by rintro k ⟨⟩)

lemma ensures_angle_introduced (hs : s.Intact) (hstart : s.handles.contains start = true)
    (hfinish : s.handles.contains finish = true) :
    Ensures E (angle start finish)
      (fun i s' => ∃ v, Introduced (.angle start finish v) i s s') s := by
  obtain ⟨p, hp⟩ := position_ok hs hstart
  obtain ⟨q, hq⟩ := position_ok hs hfinish
  rw [angle, ensures_get_bind, ensures_found hp, ensures_found hq]
  exact ensures_ownOne_introduced hs _ _ (fun _ => rfl) fun _ =>
    addable_between rfl rfl hp hq (by rintro k ⟨⟩)

/-- The polar vector between two handles is introduced, unless it was introduced before. -/
lemma ensures_polar_introduced (hs : s.Intact) (hstart : s.handles.contains start = true)
    (hfinish : s.handles.contains finish = true) :
    Ensures E (polar start finish) (fun i s' => ∃ length bearing,
      Introduced (.polar start finish length bearing) i s s' ∨
        s' = s ∧ s.constraints.get? i = some (.polar start finish length bearing)) s := by
  obtain ⟨v, hv, -⟩ := find_ok hstart
  obtain ⟨w, hw, -⟩ := find_ok hfinish
  rw [polar, ensures_get_bind]
  simp only [ensures_bind, ensures_discard, ensures_ofExcept, hv, hw]
  refine ⟨fun _ _ => ⟨fun _ _ => ?_, by rintro e ⟨⟩⟩, by rintro e ⟨⟩⟩
  cases hmemo : s.memo.get? (.polar start finish) with
  | some existing =>
      obtain ⟨c, hget, hkey⟩ := hs.memo hmemo
      obtain ⟨length, bearing, rfl⟩ : ∃ length bearing, c = .polar start finish length bearing := by
        cases c <;> simp_all [Constraint.key, ite_eq_iff]
      exact ⟨length, bearing, Or.inr ⟨rfl, hget⟩⟩
  | none =>
      obtain ⟨p, hp⟩ := position_ok hs hstart
      obtain ⟨q, hq⟩ := position_ok hs hfinish
      simp only
      rw [ensures_found hp, ensures_found hq]
      simp only [ensures_bind]
      refine ensures_reserve.imp fun id s₁ h₁ => ?_
      refine (ensures_own h₁ _ _).imp fun length s₂ h₂ => ?_
      refine (ensures_own h₂ _ _).imp fun bearing s₃ h₃ => ?_
      have hadd : s.Addable (.polar start finish length bearing) :=
        addable_between rfl rfl hp hq fun hkey => by
          cases hkey
          exact hmemo
      exact (ensures_insertPrepared_introduced hs hadd h₃).imp fun _ _ h =>
        ⟨length, bearing, Or.inl h⟩

end

lemma ensures_formula_introduced (hs : s.Intact) {m x b : VarId} (hm : s.arena.contains m = true)
    (hx : s.arena.contains x = true) (hb : s.arena.contains b = true) :
    Ensures E (formula m x b) (fun i s' => ∃ v, Introduced (.formula m x b v) i s s') s := by
  obtain ⟨y, hy⟩ := Arena.value_ok hm
  obtain ⟨z, hz⟩ := Arena.value_ok hx
  obtain ⟨w, hw⟩ := Arena.value_ok hb
  have hvalue : Residual.formulaValue s.arena m x b = .ok (y * z + w) := by
    rw [Residual.formulaValue, hy, ok_bind, hz, ok_bind, hw]
    rfl
  rw [formula, ensures_get_bind, ensures_found hvalue]
  refine ensures_ownOne_introduced hs _ _ (fun _ => rfl) fun v =>
    { handles := by simp [Constraint.handles], inputs := fun u hu => ?_, unknown := by rintro k ⟨⟩ }
  simp only [Constraint.inputs, List.mem_cons, List.not_mem_nil, or_false] at hu
  rcases hu with rfl | rfl | rfl
  · exact hm
  · exact hx
  · exact hb

/-! ## Solving -/

/-- A solve takes nothing away. -/
lemma Grown.solveWith {σ : Type} (hs : s.Intact) (m : Minimizer σ α) (memory : σ) :
    Grown s (s.solveWith m memory).2.2 := by
  obtain ⟨cs, s', outcomes, after, b, hclustered, hs', hcs, -, hwithin, hsolve⟩ :=
    hs.solveWith_spec m memory
  obtain ⟨cs', s'', hclustered', -, -, hconstraints, -, hpoints, hids⟩ := hs.clustered_spec
  rw [hclustered] at hclustered'
  cases hclustered'
  rw [hsolve]
  refine ⟨hs'.revalue hwithin.wellFormed hwithin.shape, fun hc => ?_, fun {v} hv => ?_, ?_⟩
  · rwa [← HandleTable.coords?_congr hpoints] at hc
  · rw [Arena.contains_iff_mem_ids, ← hids, ← Arena.contains_iff_mem_ids] at hv
    exact (hwithin.contains v).trans hv
  · intro i c hget _
    rwa [← hconstraints] at hget

/-- Neither does one that fails. -/
lemma ensures_solve_grown (hs : s.Intact) : Ensures (Grown s) solve (fun _ => Grown s) s := by
  have hgrown := Grown.solveWith hs (Bfgs.minimizer s.config) ()
  show Ensures _ (set (s.solveWith (Bfgs.minimizer s.config) ()).2.2 >>= fun _ =>
    Edit.ofExcept (s.solveWith (Bfgs.minimizer s.config) ()).1) _ s
  rw [ensures_bind, ensures_set, ensures_ofExcept]
  exact ⟨fun _ _ => hgrown, fun _ _ => hgrown⟩

end Sketch

end SketchSolver
