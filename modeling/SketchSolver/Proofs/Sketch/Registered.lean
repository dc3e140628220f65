import Mathlib
import SketchSolver.Proofs.Cluster.Unifies
import SketchSolver.Proofs.Sketch.Change

/-!
# The registers of a sketch

A sketch writes some things down twice.  The memo repeats the keys of the constraints, and the
label of a variable repeats which constraint owns it or which handle it is a coordinate of.

* `Sketch.Filed` — the parts that every single removal keeps: the memo is complete, coordinates are
  labelled as such, what a constraint names was there before it, and no number is given out twice.
* `Sketch.Tidy P` — what is labelled as owned is owned by the constraint on the label, apart from
  the variables in `P`.  A cascade drops a constraint first and then what it has owned, so those
  variables are excused in between.
* `Sketch.Registered` — all of it, without excuse.  `invariant_registered` says that every change
  of an intact sketch keeps it.
-/

namespace SketchSolver

/-- One of the coordinates. -/
def Coords.component (c : Coords) : Component → VarId
  | .x => c.x
  | .y => c.y

namespace Constraint

variable {α : Type} {c d : Constraint α} {key : ConstraintKey}

lemma inputs_of_key (hc : c.key = some key) (hd : d.key = some key) : c.inputs = d.inputs := by
  cases c <;> cases d <;> grind [Constraint.key, inputs]

lemma ownedQuantities_of_key (hc : c.key = some key) (hd : d.key = some key)
    (howned : c.owned = d.owned) : c.ownedQuantities = d.ownedQuantities := by
  cases c <;> cases d <;> grind [Constraint.key, owned, ownedQuantities]

lemma owned_eq_nil_of_key (hc : c.key = some key) (hd : d.key = some key) (howned : c.owned = []) :
    d.owned = [] := by
  cases c <;> cases d <;> grind [Constraint.key, owned, ownedQuantities]

end Constraint

namespace Sketch

variable {α : Type} {s s' : Sketch α}

/-- The numbers of all variables, handles and constraints. -/
def indices (s : Sketch α) : List Nat :=
  s.arena.ids.map (·.index) ++ s.handles.ids.map (·.index) ++ s.constraints.keys.map (·.index)

/-- The memo, the labels of the coordinates and the numbers of all things are in order. -/
structure Filed (s : Sketch α) : Prop where
  remembered : ∀ {id c key}, s.constraints.get? id = some c → c.key = some key →
    s.memo.get? key = some id
  coordinate : ∀ {v h k}, s.arena.label? v = some (.coordinate h k) ↔
    ∃ p, s.handles.coords? h = some p ∧ p.component k = v
  inputsOlder : ∀ {id c}, s.constraints.get? id = some c → ∀ v ∈ c.inputs, v.index < id.index
  ownedYounger : ∀ {id c}, s.constraints.get? id = some c → ∀ v ∈ c.owned, id.index < v.index
  apart : s.indices.Nodup

/-- What is labelled as owned, and is not in `P`, is owned by the constraint on its label. -/
def Tidy (P : VarId → Prop) (s : Sketch α) : Prop :=
  ∀ v id q, s.arena.label? v = some (.quantity id q) → ¬ P v →
    ∃ c, s.constraints.get? id = some c ∧ (v, q) ∈ c.ownedQuantities

/-- The labels of what is owned are in order, too. -/
structure Registered (s : Sketch α) : Prop extends Filed s where
  tidy : s.Tidy fun _ => False
  labelled : ∀ {id c v q}, s.constraints.get? id = some c → (v, q) ∈ c.ownedQuantities →
    s.arena.label? v = some (.quantity id q)

/-- The registers depend on labels and coordinates only. -/
lemma Registered.congr (h : s.Registered) (hconstraints : s'.constraints = s.constraints)
    (hmemo : s'.memo = s.memo) (hlabels : s'.arena.labels = s.arena.labels)
    (hpoints : s'.handles.points = s.handles.points) : s'.Registered where
  remembered := by
    rw [hconstraints, hmemo]
    exact h.remembered
  coordinate := by
    simp only [Arena.label?_congr hlabels, HandleTable.coords?_congr hpoints]
    exact h.coordinate
  inputsOlder := by
    rw [hconstraints]
    exact h.inputsOlder
  ownedYounger := by
    rw [hconstraints]
    exact h.ownedYounger
  apart := by
    rw [indices, hconstraints, Arena.ids_of_labels hlabels, HandleTable.ids_congr hpoints]
    exact h.apart
  tidy := by
    unfold Tidy
    simp only [Arena.label?_congr hlabels, hconstraints]
    exact h.tidy
  labelled := by
    simp only [Arena.label?_congr hlabels, hconstraints]
    exact h.labelled

/-! ## Removals -/

lemma Filed.label_component (h : s.Filed) {i : HandleId} {p : Coords}
    (hp : s.handles.coords? i = some p) (k : Component) :
    s.arena.label? (p.component k) = some (.coordinate i k) :=
  h.coordinate.2 ⟨p, hp, rfl⟩

lemma Filed.component_ne (h : s.Filed) {i j : HandleId} {p q : Coords}
    (hp : s.handles.coords? i = some p) (hq : s.handles.coords? j = some q) (hne : i ≠ j)
    (k l : Component) : p.component k ≠ q.component l := by
  intro heq
  have hlabel := h.label_component hp k
  rw [heq, h.label_component hq l] at hlabel
  cases hlabel
  exact hne rfl

lemma Filed.dropConstraint (h : s.Filed) (id : ConstraintId) : (s.dropConstraint id).Filed := by
  have hget : ∀ {i c}, (s.dropConstraint id).constraints.get? i = some c →
      i ≠ id ∧ s.constraints.get? i = some c := by
    intro i c hget
    rw [Sketch.dropConstraint, OrderedMap.get?_erase] at hget
    split at hget
    · cases hget
    · exact ⟨by assumption, hget⟩
  refine { h with
    remembered := fun hc hkey => ?_
    inputsOlder := fun hc => h.inputsOlder (hget hc).2
    ownedYounger := fun hc => h.ownedYounger (hget hc).2
    apart := h.apart.sublist (.append_left ((s.constraints.keys_erase_sublist id).map _) _) }
  refine (s.memo.get?_filter _ _ _).2 ⟨h.remembered (hget hc).2 hkey, ?_⟩
  simpa using (hget hc).1

lemma Filed.removeVariable (h : s.Filed) {v : VarId} (howner : s.handles.ownerOf v = none) :
    Filed { s with arena := s.arena.remove v, clusters := none } := by
  refine { h with coordinate := fun {w i k} => ?_, apart := h.apart.sublist ?_ }
  · rw [Arena.label?_remove]
    split
    · rename_i hw
      refine ⟨by rintro ⟨⟩, fun ⟨p, hp, hk⟩ => ?_⟩
      obtain ⟨hx, hy⟩ := HandleTable.ownerOf_eq_none howner hp
      cases k with
      | x => exact absurd (hk.trans hw) hx
      | y => exact absurd (hk.trans hw) hy
    · exact h.coordinate
  · exact .append_right (.append_right ((Arena.ids_remove_sublist _ _).map _) _) _

lemma Filed.removeHandle (h : s.Filed) {id : HandleId} {w : Handle}
    (hget : s.handles.get? id = some w) :
    Filed { s with
      handles := s.handles.remove id
      arena := (s.arena.remove w.x).remove w.y
      clusters := none } := by
  have hw : s.handles.coords? id = some ⟨w.x, w.y⟩ := by
    rw [HandleTable.coords?_eq, hget, Option.map_some]
  refine { h with coordinate := fun {v i k} => ?_, apart := h.apart.sublist ?_ }
  · rw [Arena.label?_remove, Arena.label?_remove, HandleTable.coords?_remove]
    by_cases hi : i = id
    · subst hi
      -- a coordinate of the handle that is removed is removed with it
      simp only [if_true, reduceCtorEq, false_and, exists_false, iff_false]
      split_ifs with hy hx
      · simp
      · simp
      · rw [h.coordinate, hw]
        rintro ⟨p, ⟨⟩, hk⟩
        cases k with
        | x => exact hx hk.symm
        | y => exact hy hk.symm
    · rw [if_neg hi, ← h.coordinate]
      split_ifs with hy hx
      · simp only [false_iff, h.coordinate]
        rintro ⟨p, hp, hk⟩
        exact h.component_ne hp hw hi k .y (hk.trans hy)
      · simp only [false_iff, h.coordinate]
        rintro ⟨p, hp, hk⟩
        exact h.component_ne hp hw hi k .x (hk.trans hx)
      · rfl
  · have harena : ((s.arena.remove w.x).remove w.y).ids.Sublist s.arena.ids :=
      (Arena.ids_remove_sublist _ _).trans (Arena.ids_remove_sublist _ _)
    have hhandles : (s.handles.remove id).ids.Sublist s.handles.ids := by
      rw [HandleTable.ids, HandleTable.remove, OrderedMap.keys_mapValues]
      exact s.handles.handles.keys_erase_sublist id
    exact .append_right ((harena.map _).append (hhandles.map _)) _

lemma Removal.filed (hstep : Removal s s') (h : s.Filed) : s'.Filed := by
  cases hstep with
  | ofConstraint id => exact h.dropConstraint id
  | ofVariable howner => exact h.removeVariable howner
  | ofHandle hget => exact h.removeHandle hget

/-- What is there after some removals was there before. -/
structure Keeps (s s' : Sketch α) : Prop where
  table : ∀ {id c}, s'.constraints.get? id = some c → s.constraints.get? id = some c
  arena : ∀ {v}, s'.arena.contains v = true → s.arena.contains v = true
  label : ∀ {v}, s'.arena.contains v = true → s'.arena.label? v = s.arena.label? v

lemma Removal.keeps (hstep : Removal s s') : Keeps s s' := by
  cases hstep with
  | ofConstraint id =>
      refine ⟨fun {i c} hget => ?_, fun hv => hv, fun _ => rfl⟩
      rw [dropConstraint, OrderedMap.get?_erase] at hget
      split at hget
      · cases hget
      · exact hget
  | ofVariable _ =>
      refine ⟨id, fun hv => ((Arena.contains_remove _ _ _).1 hv).2, fun hv => ?_⟩
      rw [Arena.label?_remove, if_neg ((Arena.contains_remove _ _ _).1 hv).1]
  | ofHandle _ =>
      have hgone : ∀ {x y v}, ((s.arena.remove x).remove y).contains v = true →
          v ≠ y ∧ v ≠ x ∧ s.arena.contains v = true := by
        intro x y v hv
        rwa [Arena.contains_remove, Arena.contains_remove] at hv
      refine ⟨id, fun hv => (hgone hv).2.2, fun hv => ?_⟩
      rw [Arena.label?_remove, if_neg (hgone hv).1, Arena.label?_remove, if_neg (hgone hv).2.1]

lemma Removals.filed (h : Removals s s') (hs : s.Filed) : s'.Filed := by
  induction h with
  | refl => exact hs
  | tail _ hstep ih => exact hstep.filed ih

lemma Removals.keeps (h : Removals s s') : Keeps s s' := by
  induction h with
  | refl => exact ⟨id, id, fun _ => rfl⟩
  | tail _ hstep ih =>
      obtain ⟨hconstraint, hvariable, hlabel⟩ := hstep.keeps
      exact ⟨fun hget => ih.table (hconstraint hget), fun hv => ih.arena (hvariable hv),
        fun hv => (hlabel hv).trans (ih.label (hvariable hv))⟩

/-! ## Cascades leave nothing behind -/

section

variable {P Q : VarId → Prop} {cut : ConstraintId → Sketch α → Sketch α}

/-- Removing excused variables ends their excuse. -/
lemma Tidy.narrow (h : Tidy P s) (hconstraints : s'.constraints = s.constraints)
    (hlabel : ∀ {v r}, s'.arena.label? v = some r → s.arena.label? v = some r ∧ (P v → Q v)) :
    Tidy Q s' := by
  intro v id q hv hQ
  obtain ⟨hold, hPQ⟩ := hlabel hv
  rw [hconstraints]
  exact h v id q hold fun hP => hQ (hPQ hP)

/-- Cutting leaves nothing behind that was owned by what it cuts. -/
def Tidies (cut : ConstraintId → Sketch α → Sketch α) : Prop :=
  ∀ (P : VarId → Prop) (id : ConstraintId) (s : Sketch α), Tidy P s → Tidy P (cut id s)

lemma Tidies.foldl (hcut : Tidies cut) (ids : List ConstraintId) (h : Tidy P s) :
    Tidy P (ids.foldl (fun s id => cut id s) s) := by
  induction ids generalizing s with
  | nil => exact h
  | cons id ids ih => exact ih (hcut P id s h)

lemma Tidies.removeHandle (hcut : Tidies cut) {id : HandleId} {w : Handle}
    (hget : s.handles.get? id = some w) (h : Tidy (fun v => P v ∨ w.owns v = true) s) :
    Tidy P (dropHandle cut id s) := by
  rw [dropHandle, hget]
  refine hcut.foldl _ (h.narrow rfl fun {v r} hv => ?_)
  simp only [Arena.label?_remove] at hv
  split_ifs at hv with hy hx
  refine ⟨hv, fun hor => hor.resolve_right ?_⟩
  simpa [Handle.owns] using ⟨Ne.symm hx, Ne.symm hy⟩

lemma Tidies.dropHandle (hcut : Tidies cut) (id : HandleId) (h : Tidy P s) :
    Tidy P (dropHandle cut id s) := by
  cases hget : s.handles.get? id with
  | none =>
      rw [Sketch.dropHandle, hget]
      exact h
  | some w => exact hcut.removeHandle hget fun v i q hv hP => h v i q hv (hP ∘ Or.inl)

lemma Tidies.dropVariable (hcut : Tidies cut) {v : VarId} (h : Tidy (fun w => P w ∨ w = v) s) :
    Tidy P (dropVariable cut v s) := by
  rw [Sketch.dropVariable]
  cases howner : s.handles.ownerOf v with
  | some id =>
      obtain ⟨w, hget, howns⟩ := HandleTable.ownerOf_eq_some howner
      refine hcut.removeHandle hget fun x i q hx hP => h x i q hx ?_
      rintro (hold | rfl)
      · exact hP (Or.inl hold)
      · exact hP (Or.inr howns)
  | none =>
      refine hcut.foldl _ (h.narrow rfl fun {w r} hw => ?_)
      simp only [Arena.label?_remove] at hw
      split_ifs at hw with hne
      exact ⟨hw, fun hor => hor.resolve_right hne⟩

lemma Tidies.dropOwned (hcut : Tidies cut) (owned : List VarId)
    (h : Tidy (fun v => P v ∨ v ∈ owned) s) :
    Tidy P (owned.foldl
      (fun s own => if s.arena.contains own then Sketch.dropVariable cut own s else s) s) := by
  induction owned generalizing s with
  | nil => exact fun v i q hv hP => h v i q hv (by simpa using hP)
  | cons own owned ih =>
      have h' : Tidy (fun w => (P w ∨ w ∈ owned) ∨ w = own) s := fun v i q hv hP =>
        h v i q hv (by simp only [List.mem_cons]; tauto)
      rw [List.foldl_cons]
      split
      · exact ih (hcut.dropVariable h')
      · rename_i habsent
        refine ih fun v i q hv hP => h' v i q hv ?_
        rintro (hold | rfl)
        · exact hP hold
        · exact habsent (Arena.contains_of_label? hv)

theorem tidies_cascade (limit : Nat) : Tidies (cascade (α := α) limit) := by
  induction limit with
  | zero => exact fun P id s h => h
  | succ limit ih =>
      intro P id s h
      rw [cascade]
      cases hget : s.constraints.get? id with
      | none => exact h
      | some c =>
          refine ih.dropOwned c.owned fun v i q hv hP => ?_
          obtain ⟨d, hd, hq⟩ := h v i q hv fun hv' => hP (Or.inl hv')
          have hi : i ≠ id := by
            rintro rfl
            rw [hget] at hd
            cases hd
            exact hP (Or.inr (List.mem_map_of_mem (f := Prod.fst) hq))
          exact ⟨d, by rw [dropConstraint, OrderedMap.get?_erase, if_neg hi, hd], hq⟩

end

lemma Removed.tidy (h : Removed s s') (hs : s.Tidy fun _ => False) : s'.Tidy fun _ => False := by
  cases h with
  | ofConstraint _ => exact tidies_cascade _ _ _ _ hs
  | ofVariable v => exact (tidies_cascade _).dropVariable fun w i q hw _ => hs w i q hw not_false
  | ofHandle id => exact (tidies_cascade _).dropHandle id hs

/-! ## Additions -/

section

variable [Scalar α]

/-- Every number that is taken came out of the supply. -/
lemma SoundExcept.indices_lt {P : ConstraintId → Prop} (h : SoundExcept P s) :
    ∀ n ∈ s.indices, n < s.ids.next := by
  intro n hn
  rcases List.mem_append.1 hn with hn | hn
  · rcases List.mem_append.1 hn with hn | hn
    · obtain ⟨v, hv, rfl⟩ := List.mem_map.1 hn
      exact h.variableIds ((s.arena.contains_iff_mem_ids v).2 hv)
    · obtain ⟨i, hi, rfl⟩ := List.mem_map.1 hn
      exact h.handleIds ((s.handles.handles.contains_iff_mem_keys i).2 hi)
  · obtain ⟨i, hi, rfl⟩ := List.mem_map.1 hn
    exact h.constraintIds hi

lemma SoundExcept.label?_of_le {P : ConstraintId → Prop} (h : SoundExcept P s) {v : VarId}
    (hv : s.ids.next ≤ v.index) : s.arena.label? v = none := by
  rw [Option.eq_none_iff_forall_ne_some]
  intro r hr
  have := h.variableIds (Arena.contains_of_label? hr)
  omega

lemma SoundExcept.indices_addVariable {P : ConstraintId → Prop} (h : SoundExcept P s) (x : α)
    (r : Option Represents) :
    (Sketch.addVariable x r s).2.indices.Perm (s.ids.next :: s.indices) := by
  have hnew : (⟨s.ids.next⟩ : VarId) ∉ s.arena.vars.keys := by
    intro hmem
    exact absurd (h.variableIds ((s.arena.contains_iff_mem_ids _).2 hmem)) (Nat.lt_irrefl _)
  have hids : (Sketch.addVariable x r s).2.arena.ids = s.arena.ids ++ [⟨s.ids.next⟩] :=
    OrderedMap.keys_insert_of_not_mem _ hnew
  rw [indices, indices, hids]
  simp only [List.map_append, List.append_assoc, List.map_cons, List.map_nil, List.cons_append,
    List.nil_append]
  exact List.perm_middle

lemma SoundExcept.indices_addHandle {P : ConstraintId → Prop} (h : SoundExcept P s)
    (position : Point α) : (Sketch.addHandle position s).2.indices.Perm
      (s.ids.next :: (s.ids.next + 2) :: (s.ids.next + 1) :: s.indices) := by
  let n := s.ids.next
  let s₁ : Sketch α := { s with ids := ⟨n + 1⟩ }
  let s₂ := (s₁.addVariable position.x (some (.coordinate ⟨n⟩ .x))).2
  let s₃ := (s₂.addVariable position.y (some (.coordinate ⟨n⟩ .y))).2
  have h₁ : SoundExcept P s₁ := h.withIds (Nat.le_succ n)
  have h₂ : SoundExcept P s₂ := (h₁.addVariable _ _).toSoundExcept
  have hx : s₂.indices.Perm ((n + 1) :: s.indices) := h₁.indices_addVariable _ _
  have hy : s₃.indices.Perm ((n + 2) :: s₂.indices) := h₂.indices_addVariable _ _
  have hnew : (⟨n⟩ : HandleId) ∉ s.handles.handles.keys := fun hmem =>
    absurd (h.handleIds ((s.handles.handles.contains_iff_mem_keys _).2 hmem)) (Nat.lt_irrefl _)
  have hids : (Sketch.addHandle position s).2.handles.ids = s.handles.ids ++ [⟨n⟩] :=
    OrderedMap.keys_insert_of_not_mem _ hnew
  have hinsert : (Sketch.addHandle position s).2.indices.Perm (n :: s₃.indices) := by
    rw [indices, indices, hids]
    simp only [List.map_append, List.map_cons, List.map_nil, List.append_assoc, List.cons_append,
      List.nil_append]
    rw [← List.append_assoc, ← List.append_assoc]
    exact List.perm_middle
  exact hinsert.trans ((hy.trans (hx.cons _)).cons n)

variable {id : ConstraintId} {owned : List (VarId × Quantity)}

/-- The variables that are prepared for a constraint bear its number, and no other label
changes. -/
lemma Prepared.label?_eq_some (h : Prepared s id owned s') (hs : s.Intact) {v : VarId}
    {r : Represents} : s'.arena.label? v = some r ↔
      (∃ q, (v, q) ∈ owned ∧ r = .quantity id q) ∨ s.arena.label? v = some r := by
  induction h with
  | reserve _ => simp
  | @own owned t q x hprepared ih =>
      have ht := (hprepared.intact hs).toSoundExcept
      have hnew : ∀ e ∈ owned, e.1 ≠ ⟨t.ids.next⟩ := by
        intro e he heq
        have hlive := hprepared.contains_owned e he
        rw [heq] at hlive
        exact absurd (ht.variableIds hlive) (Nat.lt_irrefl _)
      have hlabel : (addVariable x (some (.quantity id q)) t).2.arena.label? v =
          if v = ⟨t.ids.next⟩ then some (.quantity id q) else t.arena.label? v :=
        Arena.label?_insert _ _ _ _ _
      rw [hlabel]
      split
      · rename_i hv
        subst hv
        have hold : s.arena.label? ⟨t.ids.next⟩ ≠ some r := fun hr =>
          absurd (ih.2 (Or.inr hr)) (by simp [ht.label?_of_le])
        have hnone : ∀ q', (⟨t.ids.next⟩, q') ∉ owned := fun q' hmem => hnew _ hmem rfl
        simp [hold, hnone, eq_comm]
      · rename_i hv
        rw [ih]
        simp [hv]

omit [Scalar α] in
lemma Prepared.younger (h : Prepared s id owned s') : ∀ e ∈ owned, id.index < e.1.index := by
  induction h with
  | reserve _ => simp
  | own q x hprepared ih =>
      intro e he
      rcases List.mem_append.1 he with he | he
      · exact ih e he
      · rw [List.mem_singleton.1 he]
        exact hprepared.taken

lemma Prepared.apart (h : Prepared s id owned s') (hs : s.Intact) (hapart : s.indices.Nodup) :
    (id.index :: s'.indices).Nodup := by
  induction h with
  | reserve hid =>
      subst hid
      exact List.nodup_cons.2 ⟨fun hmem => Nat.lt_irrefl _ (hs.indices_lt _ hmem), hapart⟩
  | @own owned t q x hprepared ih =>
      have ht := hprepared.intact hs
      have hperm := (ht.indices_addVariable x (some (.quantity id q))).cons id.index
      refine (hperm.trans (List.Perm.swap _ _ _)).nodup_iff.2 (List.nodup_cons.2 ⟨?_, ih⟩)
      intro hmem
      have htaken := hprepared.taken
      rcases List.mem_cons.1 hmem with heq | hmem
      · omega
      · exact Nat.lt_irrefl _ (ht.indices_lt _ hmem)

lemma Registered.addVariable (h : s.Registered) (hs : s.Intact) (x : α) (label : Option String) :
    (Sketch.addVariable x (label.map .label) s).2.Registered := by
  have hlabel : ∀ v, (Sketch.addVariable x (label.map .label) s).2.arena.label? v =
      if v = ⟨s.ids.next⟩ then label.map .label else s.arena.label? v :=
    fun v => Arena.label?_insert _ _ v x _
  have hnext : s.arena.label? ⟨s.ids.next⟩ = none := hs.label?_of_le le_rfl
  have hcoordinate : ∀ {v i k}, (Sketch.addVariable x (label.map .label) s).2.arena.label? v =
      some (.coordinate i k) ↔ s.arena.label? v = some (.coordinate i k) := by
    intro v i k
    rw [hlabel]
    split
    · rename_i hv
      cases label <;> simp [hv, hnext]
    · rfl
  have hquantity : ∀ {v i q}, (Sketch.addVariable x (label.map .label) s).2.arena.label? v =
      some (.quantity i q) ↔ s.arena.label? v = some (.quantity i q) := by
    intro v i q
    rw [hlabel]
    split
    · rename_i hv
      cases label <;> simp [hv, hnext]
    · rfl
  exact {
    remembered := h.remembered
    coordinate := hcoordinate.trans h.coordinate
    inputsOlder := h.inputsOlder
    ownedYounger := h.ownedYounger
    apart := (hs.indices_addVariable x _).nodup_iff.2
      (List.nodup_cons.2 ⟨fun hmem => Nat.lt_irrefl _ (hs.indices_lt _ hmem), h.apart⟩)
    tidy := fun v i q hv => h.tidy v i q (hquantity.1 hv)
    labelled := fun hget hq => hquantity.2 (h.labelled hget hq) }

lemma Registered.addHandle (h : s.Registered) (hs : s.Intact) (position : Point α) :
    (Sketch.addHandle position s).2.Registered := by
  let n := s.ids.next
  have hlabel : ∀ v, (Sketch.addHandle position s).2.arena.label? v =
      if v = ⟨n + 2⟩ then some (.coordinate ⟨n⟩ .y)
      else if v = ⟨n + 1⟩ then some (.coordinate ⟨n⟩ .x) else s.arena.label? v := by
    intro v
    rw [← Arena.label?_insert, ← Arena.label?_insert]
    rfl
  have hcoords : ∀ i, (Sketch.addHandle position s).2.handles.coords? i =
      if i = ⟨n⟩ then some ⟨⟨n + 1⟩, ⟨n + 2⟩⟩ else s.handles.coords? i :=
    fun i => HandleTable.coords?_insert _ _ _ _ _
  have hfresh : ∀ {v : VarId}, n ≤ v.index → s.arena.label? v = none := hs.label?_of_le
  have hnone : s.handles.coords? ⟨n⟩ = none := by
    rw [Option.eq_none_iff_forall_ne_some]
    intro p hp
    exact absurd (hs.handleIds ((HandleTable.contains_iff_coords? _).2 ⟨p, hp⟩)) (Nat.lt_irrefl _)
  have hquantity : ∀ {v i q}, (Sketch.addHandle position s).2.arena.label? v =
      some (.quantity i q) ↔ s.arena.label? v = some (.quantity i q) := by
    intro v i q
    rw [hlabel]
    split_ifs with hy hx
    · simp [hy, hfresh]
    · simp [hx, hfresh]
    · rfl
  exact {
    remembered := h.remembered
    coordinate := fun {v i k} => by
      rw [hlabel, hcoords]
      by_cases hi : i = ⟨n⟩
      · have hold : s.arena.label? v ≠ some (.coordinate ⟨n⟩ k) := by
          rw [Ne, h.coordinate, hnone]
          simp
        subst hi
        split_ifs with hy hx <;> cases k <;> simp_all [Coords.component, eq_comm]
      · rw [if_neg hi, ← h.coordinate]
        split_ifs with hy hx
        · simp [hy, hfresh, Ne.symm hi]
        · simp [hx, hfresh, Ne.symm hi]
        · rfl
    inputsOlder := h.inputsOlder
    ownedYounger := h.ownedYounger
    apart := (hs.indices_addHandle position).nodup_iff.2 <| by
      have hle : ∀ k, s.ids.next + k ∉ s.indices := fun k hmem => by
        have := hs.indices_lt _ hmem
        omega
      simpa [h.apart] using And.intro (hle 0) (And.intro (hle 2) (hle 1))
    tidy := fun v i q hv => h.tidy v i q (hquantity.1 hv)
    labelled := fun hget hq => hquantity.2 (h.labelled hget hq) }

lemma Registered.addConstraint {t : Sketch α} {c : Constraint α} {b : Arena α} {u : HandleTable}
    (h : s.Registered) (hs : s.Intact) (hadd : s.Addable c)
    (hprepared : Prepared s id c.ownedQuantities t) (hlabels : b.labels = t.arena.labels)
    (hpoints : u.points = t.handles.points) :
    Registered { t with
      memo := t.remember id c
      constraints := t.constraints.insert id c
      arena := b
      handles := u
      clusters := none } := by
  obtain ⟨hconstraints, hhandles, hmemo⟩ := hprepared.same
  have hget : ∀ {i d}, (s.constraints.insert id c).get? i = some d ↔
      i = id ∧ d = c ∨ i ≠ id ∧ s.constraints.get? i = some d := by
    intro i d
    rw [OrderedMap.get?_insert]
    by_cases hi : i = id <;> simp [hi, eq_comm]
  have hold : ∀ {i d}, s.constraints.get? i = some d → i ≠ id := by
    rintro i d hd rfl
    have := hs.constraintIds (OrderedMap.mem_keys_of_get? hd)
    rw [hprepared.index] at this
    exact Nat.lt_irrefl _ this
  have hid : id.index = s.ids.next := congrArg ConstraintId.index hprepared.index
  have hlabel : ∀ {v r}, b.label? v = some r ↔
      (∃ q, (v, q) ∈ c.ownedQuantities ∧ r = .quantity id q) ∨ s.arena.label? v = some r := by
    intro v r
    rw [Arena.label?_congr hlabels, hprepared.label?_eq_some hs]
  have hcoords : ∀ i, u.coords? i = s.handles.coords? i := fun i => by
    rw [HandleTable.coords?_congr hpoints, hhandles]
  have hremember : ∀ {key i}, (t.remember id c).get? key = some i ↔
      c.key = some key ∧ i = id ∨ c.key ≠ some key ∧ s.memo.get? key = some i := by
    intro key i
    rw [get?_remember, hmemo]
  rw [hconstraints]
  exact {
    remembered := fun {i d key} hd hkey => by
      rw [hremember]
      rcases hget.1 hd with ⟨rfl, rfl⟩ | ⟨hi, hd⟩
      · exact Or.inl ⟨hkey, rfl⟩
      · refine Or.inr ⟨fun hc => ?_, h.remembered hd hkey⟩
        have hunknown := hadd.unknown hc
        rw [h.remembered hd hkey] at hunknown
        cases hunknown
    coordinate := fun {v i k} => by
      simp only [hlabel, hcoords, h.coordinate, reduceCtorEq, and_false, exists_false, false_or]
    inputsOlder := fun {i d} hd v hv => by
      rcases hget.1 hd with ⟨rfl, rfl⟩ | ⟨-, hd⟩
      · rw [hid]
        exact hs.variableIds (hadd.inputs v hv)
      · exact h.inputsOlder hd v hv
    ownedYounger := fun {i d} hd v hv => by
      rcases hget.1 hd with ⟨rfl, rfl⟩ | ⟨-, hd⟩
      · obtain ⟨e, he, rfl⟩ := List.mem_map.1 hv
        exact hprepared.younger e he
      · exact h.ownedYounger hd v hv
    apart := by
      have hnew : id ∉ t.constraints.keys := fun hmem => by
        obtain ⟨d, hd⟩ := (t.constraints.mem_keys_iff_exists id).1 hmem
        exact hold (hconstraints ▸ hd) rfl
      have hkeys := OrderedMap.keys_insert_of_not_mem c hnew
      rw [hconstraints] at hkeys
      refine List.Perm.nodup_iff ?_ |>.2 (hprepared.apart hs h.apart)
      simp only [indices, Arena.ids_of_labels hlabels, HandleTable.ids_congr hpoints, hkeys,
        hconstraints, List.map_append, List.map_cons, List.map_nil]
      rw [← List.append_assoc]
      exact List.perm_append_singleton _ _
    tidy := fun v i q hv _ => by
      rcases hlabel.1 hv with ⟨q', hq, heq⟩ | hv
      · cases heq
        exact ⟨c, hget.2 (Or.inl ⟨rfl, rfl⟩), hq⟩
      · obtain ⟨d, hd, hq⟩ := h.tidy v i q hv not_false
        exact ⟨d, hget.2 (Or.inr ⟨hold hd, hd⟩), hq⟩
    labelled := fun {i d v q} hd hq => by
      rcases hget.1 hd with ⟨rfl, rfl⟩ | ⟨-, hd⟩
      · exact hlabel.2 (Or.inl ⟨q, hq, rfl⟩)
      · exact hlabel.2 (Or.inr (h.labelled hd hq)) }

/-! ## Updates -/

omit [Scalar α] in
/-- Putting a constraint in the place of one with the same key that names and owns the same. -/
lemma Registered.replace (h : s.Registered) {id : ConstraintId} {old c : Constraint α}
    {key : ConstraintKey} (hold : s.constraints.get? id = some old) (hkey : old.key = some key)
    (hkey' : c.key = some key) (howned : old.ownedQuantities = c.ownedQuantities) :
    Registered { s with constraints := s.constraints.insert id c } := by
  have hinputs := Constraint.inputs_of_key hkey hkey'
  have hkeys : (s.constraints.insert id c).keys = s.constraints.keys :=
    OrderedMap.keys_insert_of_mem c (OrderedMap.mem_keys_of_get? hold)
  -- every constraint stands for one that was there before
  have hget : ∀ {i d}, (s.constraints.insert id c).get? i = some d →
      ∃ d', s.constraints.get? i = some d' ∧ d'.key = d.key ∧ d'.inputs = d.inputs ∧
        d'.ownedQuantities = d.ownedQuantities := by
    intro i d hd
    rw [OrderedMap.get?_insert] at hd
    split at hd
    · rename_i hi
      cases hd
      exact ⟨old, hi ▸ hold, hkey.trans hkey'.symm, hinputs, howned⟩
    · exact ⟨d, hd, rfl, rfl, rfl⟩
  exact {
    remembered := fun hd hdkey => by
      obtain ⟨d', hd', hsame, -⟩ := hget hd
      exact h.remembered hd' (hsame.trans hdkey)
    coordinate := h.coordinate
    inputsOlder := fun hd => by
      obtain ⟨d', hd', -, hsame, -⟩ := hget hd
      exact hsame ▸ h.inputsOlder hd'
    ownedYounger := fun {i d} hd => by
      obtain ⟨d', hd', -, -, hsame⟩ := hget hd
      rw [Constraint.owned, ← hsame]
      exact h.ownedYounger hd'
    apart := by
      rw [indices]
      simp only [hkeys]
      exact h.apart
    tidy := fun v i q hv _ => by
      obtain ⟨d, hd, hq⟩ := h.tidy v i q hv not_false
      by_cases hi : i = id
      · subst hi
        rw [hold] at hd
        cases hd
        exact ⟨c, by simp, howned ▸ hq⟩
      · exact ⟨d, by simp [hi, hd], hq⟩
    labelled := fun hd hq => by
      obtain ⟨d', hd', -, -, hsame⟩ := hget hd
      exact h.labelled hd' (hsame ▸ hq) }

/-! ## Every change -/

theorem Change.registered (hchange : Change s s') (hs : s.Intact) (h : s.Registered) :
    s'.Registered := by
  cases hchange with
  | revalue hwf hshape => exact h.congr rfl rfl (Arena.labels_congr hshape) rfl
  | addVariable x label => exact h.addVariable hs x label
  | addHandle position => exact h.addHandle hs position
  | addConstraint hadd hprepared hrelate =>
      exact h.addConstraint hs hadd hprepared (Constraint.unifies_relate hrelate).labels
        (Constraint.points_relate hrelate)
  | replace hold hkey hkey' howned hlive hrelate =>
      have hnone := Constraint.owned_eq_nil_of_key hkey' hkey howned
      have hsame := Constraint.ownedQuantities_of_key hkey hkey' (hnone.trans howned.symm)
      exact (h.replace hold hkey hkey' hsame).congr rfl rfl
        (Constraint.unifies_relate hrelate).labels (Constraint.points_relate hrelate)
  | replaceQuietly hold hkey hkey' hlive hquiet =>
      have howned := (sameNames_of_isQuietUpdate (hkey'.trans hkey.symm) hquiet).owned
      exact h.replace hold hkey hkey' (Constraint.ownedQuantities_of_key hkey hkey' howned)
  | @moveFinger id i p point q hold hpoint =>
      exact (h.replace (c := .finger i q) hold rfl rfl rfl).congr rfl rfl rfl rfl
  | remove hremoved =>
      have hkeeps := hremoved.removals.keeps
      exact {
        toFiled := hremoved.removals.filed h.toFiled
        tidy := hremoved.tidy h.tidy
        labelled := fun hget hq => by
          have hv := (hremoved.intact hs).live hget not_false
          have hmem := List.mem_map_of_mem (f := Prod.fst) hq
          rw [hkeeps.label (hv.named _ (List.mem_append_right _ hmem))]
          exact h.labelled (hkeeps.table hget) hq }
  | detach v => exact h.congr rfl rfl (Arena.labels_detach _ _) rfl
  | invalidate => exact h.congr rfl rfl rfl rfl
  | cluster hbuild =>
      exact h.congr rfl rfl ((Cluster.unifies_build hbuild).labels.trans (Arena.labels_reset _))
        (Cluster.points_build hbuild)
  | configure config stabilizeGizmos fingerOfGod => exact h.congr rfl rfl rfl rfl

/-- **Every change of an intact sketch keeps its registers right.** -/
theorem invariant_registered : Invariant fun s : Sketch α => s.Intact ∧ s.Registered :=
  invariant_intact.of_change fun hs h hchange => hchange.registered hs h

omit [Scalar α] in
lemma registered_withConfig (config : Config α) : (withConfig config).Registered where
  remembered hget := by cases hget
  coordinate := ⟨(by rintro ⟨⟩), (by rintro ⟨p, ⟨⟩, -⟩)⟩
  inputsOlder hget := by cases hget
  ownedYounger hget := by cases hget
  apart := .nil
  tidy v id q hv := by cases hv
  labelled hget := by cases hget

end

end Sketch

end SketchSolver
