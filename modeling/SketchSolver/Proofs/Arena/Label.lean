import Mathlib
import SketchSolver.Proofs.Arena.View

/-!
# What the variables of an arena stand for

A variable is labelled when it is added, and nobody changes its label afterwards: writes,
unifications and detaching keep all labels, and a removal takes one away with its variable.

`Arena.labels` is the view that shows this.  It lists the variables, so keeping the labels includes
keeping the variables (`ids_of_labels`).  `Arena.Unifies` is any number of unifications.
-/

namespace SketchSolver

namespace Arena

variable {α : Type} {a b : Arena α}

/-- What each variable stands for. -/
def labels (a : Arena α) : OrderedMap VarId (Option Represents) :=
  a.vars.mapValues Variable.represents

/-- What one variable stands for, if it is there and anyone said. -/
def label? (a : Arena α) (v : VarId) : Option Represents :=
  (a.labels.get? v).join

lemma label?_congr (h : b.labels = a.labels) (v : VarId) : b.label? v = a.label? v := by
  rw [label?, label?, h]

lemma keys_labels (a : Arena α) : a.labels.keys = a.ids :=
  OrderedMap.keys_mapValues _ _

lemma ids_of_labels (h : b.labels = a.labels) : b.ids = a.ids := by
  rw [← keys_labels, ← keys_labels, h]

/-- The shape of an arena shows its labels. -/
lemma labels_congr (h : b.shape = a.shape) : b.labels = a.labels := by
  have hlabels : ∀ c : Arena α, c.shape.mapValues Prod.fst = c.labels := by
    intro c
    refine OrderedMap.ext ?_
    simp [shape, labels, OrderedMap.mapValues, Function.comp_def]
  rw [← hlabels, h, hlabels]

/-- Labels and links are the shape. -/
lemma shape_of_labels (hlabels : b.labels = a.labels) (hlink : b.link? = a.link?) :
    b.shape = a.shape := by
  have hkeys : b.shape.keys = a.shape.keys := by
    rw [shape, shape, OrderedMap.keys_mapValues, OrderedMap.keys_mapValues]
    exact ids_of_labels hlabels
  refine OrderedMap.ext_of_get? hkeys fun k => ?_
  have hlabel := congrArg (OrderedMap.get? · k) hlabels
  have hlinked := congrFun hlink k
  simp only [labels, shape, link?, get?, OrderedMap.get?_mapValues] at hlabel hlinked ⊢
  cases hb : b.vars.get? k <;> cases ha : a.vars.get? k <;> simp_all

lemma contains_of_label? {v : VarId} {r : Represents} (h : a.label? v = some r) :
    a.contains v = true := by
  rw [label?, labels, OrderedMap.get?_mapValues] at h
  cases hv : a.vars.get? v with
  | none => simp [hv] at h
  | some x => simp [contains, OrderedMap.contains, hv]

/-! ## Labels after a change -/

lemma labels_modify {f : Variable α → Variable α} (hf : ∀ v, (f v).represents = v.represents)
    (a : Arena α) (id : VarId) : (a.modify id f).labels = a.labels :=
  a.vars.mapValues_modify_of_view id hf

@[simp] lemma labels_modifyLink (a : Arena α) (id : VarId) (f : Link α → Link α) :
    (a.modifyLink id f).labels = a.labels :=
  labels_modify (f := fun v => { v with link := f v.link }) (fun _ => rfl) a id

lemma labels_foldl {β : Type} {f : Arena α → β → Arena α}
    (h : ∀ a x, (f a x).labels = a.labels) (xs : List β) (a : Arena α) :
    (xs.foldl f a).labels = a.labels := by
  induction xs generalizing a with
  | nil => rfl
  | cons x xs ih => rw [List.foldl_cons, ih, h]

@[simp] lemma labels_reset (a : Arena α) : a.reset.labels = a.labels := by
  refine OrderedMap.ext ?_
  simp [reset, labels, OrderedMap.mapValues, Function.comp_def]

@[simp] lemma label?_insert (a : Arena α) (id k : VarId) (x : α) (r : Option Represents) :
    (a.insert id x r).label? k = if k = id then r else a.label? k := by
  rw [label?, label?, labels, labels, OrderedMap.get?_mapValues, OrderedMap.get?_mapValues, insert,
    OrderedMap.get?_insert]
  by_cases hk : k = id <;> simp [hk, Variable.fresh]

lemma labels_remove (a : Arena α) (id : VarId) : (a.remove id).labels = a.labels.erase id := by
  have herase : (Arena.mk (a.vars.erase id)).labels = a.labels.erase id := by
    refine OrderedMap.ext ?_
    simp [labels, OrderedMap.mapValues, OrderedMap.erase, OrderedMap.filter, List.filter_map,
      Function.comp_def]
  cases hid : a.get? id with
  | none =>
      have habsent : id ∉ a.labels.keys := by
        rw [labels, OrderedMap.keys_mapValues]
        exact (OrderedMap.get?_eq_none_iff _ _).1 hid
      rw [remove, hid, OrderedMap.erase_of_not_mem habsent]
  | some v =>
      rw [remove, hid]
      simp only
      split
      · rw [labels_modifyLink, herase]
      · rw [labels_foldl fun b m => labels_modifyLink b m _, herase]

lemma ids_remove_sublist (a : Arena α) (id : VarId) : (a.remove id).ids.Sublist a.ids := by
  rw [← keys_labels, ← keys_labels, labels_remove]
  exact a.labels.keys_erase_sublist id

@[simp] lemma label?_remove (a : Arena α) (id k : VarId) :
    (a.remove id).label? k = if k = id then none else a.label? k := by
  rw [label?, labels_remove, OrderedMap.get?_erase]
  by_cases hk : k = id <;> simp [hk, label?]

variable [Scalar α]

@[simp] lemma labels_detach (a : Arena α) (id : VarId) : (a.detach id).labels = a.labels := by
  simp only [detach]
  split
  · rfl
  · rw [labels_modifyLink, labels_modifyLink]

lemma labels_setValue {id : VarId} {x : α} (h : a.setValue id x = .ok b) :
    b.labels = a.labels := by
  have hfollow : ∀ (y : α) (c : Arena α) (m : VarId), (follow y c m).labels = c.labels := by
    intro y c m
    refine labels_modify (fun v => ?_) c m
    rcases v with ⟨z, r, l⟩
    cases l <;> rfl
  simp only [setValue] at h
  split at h
  · cases h
    rw [writeRoot, labels_foldl (hfollow _)]
    generalize (a.trail id).2.foldl (fun x o => o.apply x) x = y
    exact labels_modify (f := fun v => { v with value := y }) (fun _ => rfl) a _
  · cases h

lemma labels_adoptAll (a : Arena α) (into : VarId) (offset : Affine α) (members : List VarId) :
    (a.adoptAll into offset members).1.labels = a.labels := by
  induction members generalizing a with
  | nil => rfl
  | cons m members ih =>
      rw [adoptAll]
      cases hadopt : a.adopt into offset m with
      | none => exact ih a
      | some c =>
          have hc : c.labels = a.labels := by
            rw [adopt] at hadopt
            split at hadopt
            · cases hadopt
              exact labels_modifyLink _ _ _
            · cases hadopt
          exact (ih c).trans hc

lemma labels_unify {this that : VarId} {offset : Affine α} {merged : Bool}
    (h : a.unify this that offset = .ok (merged, b)) : b.labels = a.labels := by
  simp only [unify, absorbRoot] at h
  obtain ⟨-, -, h⟩ := bind_eq_ok_iff.1 h
  obtain ⟨-, -, h⟩ := bind_eq_ok_iff.1 h
  split at h
  · cases h
    rfl
  · obtain ⟨c, hc, hpure⟩ := bind_eq_ok_iff.1 h
    cases hpure
    obtain ⟨x, -, hset⟩ := bind_eq_ok_iff.1 hc
    rw [labels_setValue hset, labels_modifyLink, labels_adoptAll, labels_modifyLink]

/-! ## Any number of unifications -/

/-- Unifications lead from one arena to the other. -/
abbrev Unifies : Arena α → Arena α → Prop :=
  Relation.ReflTransGen fun a b =>
    ∃ this that offset merged, a.unify this that offset = .ok (merged, b)

lemma unifies_of_unify {this that : VarId} {offset : Affine α} {merged : Bool}
    (h : a.unify this that offset = .ok (merged, b)) : a.Unifies b :=
  .single ⟨this, that, offset, merged, h⟩

lemma Unifies.labels (h : a.Unifies b) : b.labels = a.labels := by
  induction h with
  | refl => rfl
  | tail _ hstep ih =>
      obtain ⟨this, that, offset, merged, hunify⟩ := hstep
      exact (labels_unify hunify).trans ih

end Arena

end SketchSolver
