import Mathlib
import SketchSolver.Cluster.Build
import SketchSolver.Proofs.Arena.Alike
import SketchSolver.Proofs.Arena.Twins
import SketchSolver.Proofs.Cluster.Unifies
import SketchSolver.Proofs.Constraint

/-!
# Clustering alike

What a clustering looks like depends on numbers only as far as links do.  Two clusterings whose
inputs differ in values, in the positions of fingers, constants and pins, and in numbers that the
solver tolerates, have the same clusters, up to the positions of the fingers
(`Cluster.Alike.build`).

`F` relates the positions of the fingers on a point, and `r` the numbers of linear relationships.
There is one lemma for each function on the way, and each says that what is alike before it is alike
after it.  The arenas are related by some `A` in which the second one simulates the first one.
-/

namespace SketchSolver

open Arena (Simulates Answered)

variable {α : Type} {r : α → α → Prop} {F : Coords → Point α → Point α → Prop}

/-! ## Residuals -/

/-- The same residuals, with fingers at related positions. -/
inductive Residual.Alike (F : Coords → Point α → Point α → Prop) : Residual α → Residual α → Prop
  where
  | finger (point : Coords) {p q : Point α} :
      F point p q → Alike F (.finger point p) (.finger point q)
  | distance (a b : Coords) (length : VarId) : Alike F (.distance a b length) (.distance a b length)
  | angle (a b : Coords) (bearing : VarId) : Alike F (.angle a b bearing) (.angle a b bearing)
  | formula (m x b result : VarId) : Alike F (.formula m x b result) (.formula m x b result)

/-- The same constraints, which differ in numbers only.  Fingers are at related positions. -/
inductive Constraint.Alike (r : α → α → Prop) (F : Coords → Point α → Point α → Prop)
    (t : HandleTable) : Constraint α → Constraint α → Prop where
  | constant (var : VarId) (x y : α) : Alike r F t (.constant var x) (.constant var y)
  | pin (handle : HandleId) (p q : Point α) : Alike r F t (.pin handle p) (.pin handle q)
  | finger (handle : HandleId) {p q : Point α} :
      (∀ c, t.coords? handle = some c → F c p q) →
      Alike r F t (.finger handle p) (.finger handle q)
  | linear (y x : VarId) {m m' b b' : α} : Affine.Near r ⟨m, b⟩ ⟨m', b'⟩ →
      Alike r F t (.linear y m x b) (.linear y m' x b')
  | absorb (parent child : HandleId) : Alike r F t (.absorb parent child) (.absorb parent child)
  | polar (start finish : HandleId) (length bearing : VarId) :
      Alike r F t (.polar start finish length bearing) (.polar start finish length bearing)
  | distance (start finish : HandleId) (length : VarId) :
      Alike r F t (.distance start finish length) (.distance start finish length)
  | angle (start finish : HandleId) (bearing : VarId) :
      Alike r F t (.angle start finish bearing) (.angle start finish bearing)
  | formula (m x b result : VarId) :
      Alike r F t (.formula m x b result) (.formula m x b result)

/-- The same constraints in the same order, which differ in numbers only. -/
structure ConstraintTable.Alike (r : α → α → Prop) (F : Coords → Point α → Point α → Prop)
    (t : HandleTable) (K K' : ConstraintTable α) : Prop where
  keys : K.keys = K'.keys
  get? : ∀ id, Option.Rel (Constraint.Alike r F t) (K.get? id) (K'.get? id)

/-- The same clusters, with fingers at related positions. -/
structure Cluster.Alike (F : Coords → Point α → Point α → Prop) (c d : Cluster α) : Prop where
  constraints : c.constraints = d.constraints
  residuals : List.Forall₂ (Residual.Alike F) c.residuals d.residuals
  referenced : c.referenced = d.referenced
  vars : c.vars = d.vars

namespace Constraint.Alike

variable {c d : Constraint α} {t u : HandleTable}

lemma congr (hpoints : u.points = t.points) (h : c.Alike r F t d) : c.Alike r F u d := by
  cases h with
  | finger handle hF =>
      refine .finger handle fun p hp => hF p ?_
      rwa [← HandleTable.coords?_congr hpoints]
  | linear y x hnear => exact .linear y x hnear
  | _ => constructor

lemma sameNames (h : c.Alike r F t d) : c.SameNames d := by
  cases h <;> exact ⟨rfl, rfl, rfl⟩

/-- The residuals of constraints that are alike are alike. -/
lemma residuals (h : c.Alike r F t d) :
    Echoes (List.Forall₂ (Residual.Alike F)) (Residual.ofConstraint t c)
      (Residual.ofConstraint t d) := by
  cases h with
  | finger handle hF =>
      rintro rs hrs
      obtain ⟨p, hp, hpure⟩ := bind_eq_ok_iff.1 hrs
      cases hpure
      refine ⟨_, by rw [Residual.ofConstraint, hp]; rfl, .cons (.finger p ?_) .nil⟩
      exact hF p ((HandleTable.coords_eq_ok_iff handle p).1 hp)
  | polar start finish length bearing =>
      exact .bind_self _ fun a => .bind_self _ fun b =>
        .ok (.cons (.distance a b length) (.cons (.angle a b bearing) .nil))
  | distance start finish length =>
      exact .bind_self _ fun a => .bind_self _ fun b => .ok (.cons (.distance a b length) .nil)
  | angle start finish bearing =>
      exact .bind_self _ fun a => .bind_self _ fun b => .ok (.cons (.angle a b bearing) .nil)
  | formula m x b result => exact .ok (.cons (.formula m x b result) .nil)
  | _ => exact .ok .nil

variable [Scalar α] {A : Arena α → Arena α → Prop} {a b : Arena α}

/-- Constraints that are alike unify alike. -/
lemma relate (hA : Simulates r A) (h : c.Alike r F t d) (hab : A a b) (u : HandleTable) :
    Echoes (fun p q => A p.1 q.1 ∧ p.2 = q.2) (c.relate a u) (d.relate b u) := by
  have hidentity := Affine.Near.refl hA.refl (Affine.identity : Affine α)
  cases h with
  | linear y x hnear => exact (hA.unify hab hnear y x).bind fun _ _ hunify => .ok ⟨hunify.2, rfl⟩
  | absorb parent child =>
      refine .bind_self _ fun p => .bind_self _ fun q => ?_
      refine (hA.unify hab hidentity p.x q.x).bind fun _ _ hx => ?_
      refine (hA.unify hx.2 hidentity p.y q.y).bind fun _ _ hy => ?_
      exact .bind_self _ fun u' => .ok ⟨hy.2, rfl⟩
  | _ => exact .ok ⟨hab, rfl⟩

end Constraint.Alike

lemma ConstraintTable.Alike.entries {K K' : ConstraintTable α} {t : HandleTable}
    (h : K.Alike r F t K') :
    List.Forall₂ (fun e e' => e.1 = e'.1 ∧ e.2.Alike r F t e'.2) K.entries K'.entries := by
  rw [OrderedMap.entries_eq K, OrderedMap.entries_eq K', ← h.keys]
  refine List.rel_filterMap ?_ (List.forall₂_eq_eq_eq.symm ▸ rfl : List.Forall₂ Eq K.keys K.keys)
  rintro id _ rfl
  have hget := h.get? id
  simp only
  generalize K.get? id = k at hget ⊢
  generalize K'.get? id = k' at hget ⊢
  cases hget with
  | none => exact .none
  | some halike => exact .some ⟨rfl, halike⟩

section

variable [Scalar α] {A : Arena α → Arena α → Prop} {a b : Arena α}

/-! ## Collecting residuals -/

namespace Residual.Alike

variable {x x' y y' : Residual α} {xs xs' new new' : List (Residual α)}

lemma clash (hA : Simulates r A) (hab : A a b) (hx : x.Alike F x') (hy : y.Alike F y') :
    x.clash a y = x'.clash b y' := by
  have hsame : ∀ c d : Coords, c.sameAs d a = c.sameAs d b := fun c d => by
    rw [Coords.sameAs, Coords.sameAs, hA.equals hab, hA.equals hab]
  cases hx <;> cases hy <;> simp only [Residual.clash, hsame]

lemma addTo (hA : Simulates r A) (hab : A a b) (hxs : List.Forall₂ (Residual.Alike F) xs xs')
    (hx : x.Alike F x') :
    Echoes (Answered (List.Forall₂ (Residual.Alike F)) A) (x.addTo xs a)
      (x'.addTo xs' b) := by
  have hclash : xs.findSome? (x.clash a) = xs'.findSome? (x'.clash b) := by
    induction hxs with
    | nil => rfl
    | cons hy _ ih => rw [List.findSome?_cons, List.findSome?_cons, clash hA hab hx hy, ih]
  rw [Residual.addTo, Residual.addTo, hclash]
  cases xs'.findSome? (x'.clash b) with
  | none => exact .ok ⟨List.rel_append hxs (.cons hx .nil), hab⟩
  | some found =>
      obtain ⟨theirs, ours, offset⟩ := found
      exact (hA.unify hab (.refl hA.refl offset) theirs ours).bind fun _ _ h => .ok ⟨hxs, h.2⟩

lemma addAllTo (hA : Simulates r A) (hab : A a b)
    (hxs : List.Forall₂ (Residual.Alike F) xs xs')
    (hnew : List.Forall₂ (Residual.Alike F) new new') :
    Echoes (Answered (List.Forall₂ (Residual.Alike F)) A) (addAllTo xs a new)
      (addAllTo xs' b new') :=
  .foldlM hnew (fun _ _ _ _ hst hx => addTo hA hst.2 hst.1 hx) ⟨hxs, hab⟩

end Residual.Alike

/-! ## Sorting in and merging -/

namespace Cluster

variable {t : HandleTable}

namespace Alike

variable {c c' d d' : Cluster α} {cs cs' : List (Cluster α)}

lemma recompute (hA : Simulates r A) (hab : A a b) (h : c.Alike F d) :
    (c.recompute a).Alike F (d.recompute b) :=
  ⟨h.constraints, h.residuals, h.referenced, by
    rw [Cluster.recompute, Cluster.recompute, h.referenced, hA.canonical hab]⟩

omit [Scalar α] in
lemma overlaps (hc : c.Alike F c') (hd : d.Alike F d') : c.overlaps d = c'.overlaps d' := by
  rw [Cluster.overlaps, Cluster.overlaps, hc.vars, hd.vars]

lemma ofConstraint (hA : Simulates r A) (hab : A a b) {k k' : Constraint α}
    (h : k.Alike r F t k') (id : ConstraintId) :
    Echoes (Answered (Cluster.Alike F) A) (ofConstraint t a id k)
      (ofConstraint t b id k') := by
  rw [Cluster.ofConstraint, Cluster.ofConstraint, h.sameNames.vars]
  refine .bind_self _ fun vs => h.residuals.bind fun rs rs' hrs => ?_
  refine (Residual.Alike.addAllTo hA hab .nil hrs).bind fun p q hpq => .ok ⟨?_, hpq.2⟩
  exact recompute hA hpq.2 ⟨rfl, hpq.1, rfl, rfl⟩

lemma merge (hA : Simulates r A) (hab : A a b) (hc : c.Alike F c') (hd : d.Alike F d') :
    Echoes (Answered (Cluster.Alike F) A) (merge a c d) (merge b c' d') := by
  refine (Residual.Alike.addAllTo hA hab hc.residuals hd.residuals).bind fun p q hpq =>
    .ok ⟨recompute hA hpq.2 ⟨?_, hpq.1, ?_, rfl⟩, hpq.2⟩
  · exact congrArg₂ (· ++ ·) hc.constraints hd.constraints
  · exact congrArg₂ (· ++ ·) hc.referenced hd.referenced

lemma mergeAll (hA : Simulates r A) (hab : A a b) (hc : c.Alike F c')
    (hcs : List.Forall₂ (Cluster.Alike F) cs cs') :
    Echoes (Answered (Cluster.Alike F) A) (mergeAll a c cs) (mergeAll b c' cs') :=
  .foldlM hcs (fun _ _ _ _ hst hd => merge hA hst.2 hst.1 hd) ⟨hc, hab⟩

omit [Scalar α] in
/-- Lists that are alike are cut in two at the same place. -/
lemma span {p q : Cluster α → Bool} (hcs : List.Forall₂ (Cluster.Alike F) cs cs')
    (hpq : ∀ c d, c.Alike F d → p c = q d) :
    List.Forall₂ (Cluster.Alike F) (cs.span p).1 (cs'.span q).1 ∧
      List.Forall₂ (Cluster.Alike F) (cs.span p).2 (cs'.span q).2 := by
  rw [List.span_eq_takeWhile_dropWhile, List.span_eq_takeWhile_dropWhile]
  induction hcs with
  | nil => exact ⟨.nil, .nil⟩
  | @cons c d _ _ hcd hrest ih =>
      rw [List.takeWhile_cons, List.takeWhile_cons, List.dropWhile_cons, List.dropWhile_cons,
        hpq _ _ hcd]
      cases q d with
      | true => exact ⟨.cons hcd ih.1, ih.2⟩
      | false => exact ⟨.nil, .cons hcd hrest⟩

omit [Scalar α] in
lemma filter {p q : Cluster α → Bool} (hcs : List.Forall₂ (Cluster.Alike F) cs cs')
    (hpq : ∀ c d, c.Alike F d → p c = q d) :
    List.Forall₂ (Cluster.Alike F) (cs.filter p) (cs'.filter q) :=
  List.rel_filter (fun c d hcd => Bool.eq_iff_iff.1 (hpq c d hcd)) hcs

lemma join (hA : Simulates r A) (hab : A a b) (hcs : List.Forall₂ (Cluster.Alike F) cs cs')
    (hc : c.Alike F c') :
    Echoes (Answered (List.Forall₂ (Cluster.Alike F)) A) (join a cs c)
      (join b cs' c') := by
  obtain ⟨hbefore, hrest⟩ := span hcs fun d d' hd => congrArg (! ·) (hd.overlaps hc)
  rw [Cluster.join, Cluster.join]
  generalize cs.span (fun d => !d.overlaps c) = cut at hbefore hrest ⊢
  generalize cs'.span (fun d => !d.overlaps c') = cut' at hbefore hrest ⊢
  obtain ⟨before, rest⟩ := cut
  obtain ⟨before', rest'⟩ := cut'
  cases hrest with
  | nil => exact .ok ⟨List.rel_append hcs (.cons hc .nil), hab⟩
  | cons hfirst hafter =>
      simp only [List.partition_eq_filter_filter]
      have hjoining := filter hafter fun d d' hd => hd.overlaps hc
      have hapart := filter hafter fun d d' hd => congrArg (! ·) (hd.overlaps hc)
      refine (mergeAll hA hab hfirst (List.rel_append (List.rel_reverse hjoining)
        (.cons hc .nil))).bind fun p q hpq => .ok ⟨?_, hpq.2⟩
      exact List.rel_append hbefore (.cons hpq.1 hapart)

omit [Scalar α] in
/-- The first overlap is at the same place. -/
lemma firstOverlap (hcs : List.Forall₂ (Cluster.Alike F) cs cs') :
    Option.Rel
      (fun p q => List.Forall₂ (Cluster.Alike F) p.1 q.1 ∧ p.2.1.Alike F q.2.1 ∧
        List.Forall₂ (Cluster.Alike F) p.2.2.1 q.2.2.1 ∧ p.2.2.2.1.Alike F q.2.2.2.1 ∧
        List.Forall₂ (Cluster.Alike F) p.2.2.2.2 q.2.2.2.2)
      (firstOverlap cs) (firstOverlap cs') := by
  induction hcs with
  | nil => exact .none
  | @cons c c' rest rest' hc hrest ih =>
      obtain ⟨hbetween, hlater⟩ := span hrest fun d d' hd => congrArg (! ·) (hc.overlaps hd)
      rw [Cluster.firstOverlap, Cluster.firstOverlap]
      generalize rest.span (fun d => !c.overlaps d) = cut at hbetween hlater ⊢
      generalize rest'.span (fun d => !c'.overlaps d) = cut' at hbetween hlater ⊢
      obtain ⟨between, later⟩ := cut
      obtain ⟨between', later'⟩ := cut'
      cases hlater with
      | nil =>
          simp only
          generalize Cluster.firstOverlap rest = found at ih ⊢
          generalize Cluster.firstOverlap rest' = found' at ih ⊢
          cases ih with
          | none => exact .none
          | some h => exact .some ⟨.cons hc h.1, h.2⟩
      | cons hd hafter => exact .some ⟨.nil, hc, hbetween, hd, hafter⟩

lemma consolidateWithin (hA : Simulates r A) (limit : Nat) (hab : A a b)
    (hcs : List.Forall₂ (Cluster.Alike F) cs cs') :
    Echoes (Answered (List.Forall₂ (Cluster.Alike F)) A) (consolidateWithin limit a cs)
      (consolidateWithin limit b cs') := by
  induction limit generalizing a b cs cs' with
  | zero => exact .ok ⟨hcs, hab⟩
  | succ limit ih =>
      have hupdated : List.Forall₂ (Cluster.Alike F) (cs.map (Cluster.recompute a))
          (cs'.map (Cluster.recompute b)) :=
        List.rel_map (fun _ _ h => recompute hA hab h) hcs
      have hfirst := firstOverlap hupdated
      rw [Cluster.consolidateWithin, Cluster.consolidateWithin]
      simp only
      generalize Cluster.firstOverlap (cs.map (Cluster.recompute a)) = found at hfirst ⊢
      generalize Cluster.firstOverlap (cs'.map (Cluster.recompute b)) = found' at hfirst ⊢
      cases hfirst with
      | none => exact .ok ⟨hupdated, hab⟩
      | @some found found' hfound =>
          obtain ⟨hbefore, hc, hbetween, hd, hafter⟩ := hfound
          refine (merge hA hab hc hd).bind fun p q hpq => ih hpq.2 ?_
          exact List.rel_append (List.rel_append hbefore (.cons hpq.1 hbetween)) hafter

lemma sortIn (hA : Simulates r A) (hab : A a b)
    (hcs : List.Forall₂ (Cluster.Alike F) cs cs') {k k' : Constraint α} (h : k.Alike r F t k')
    (id : ConstraintId) :
    Echoes (Answered (List.Forall₂ (Cluster.Alike F)) A) (sortIn t cs a id k)
      (sortIn t cs' b id k') :=
  (ofConstraint hA hab h id).bind fun _ _ hpq => join hA hpq.2 hcs hpq.1

lemma sortAll (hA : Simulates r A) (hab : A a b) (hcs : List.Forall₂ (Cluster.Alike F) cs cs')
    {entries entries' : List (ConstraintId × Constraint α)}
    (h : List.Forall₂ (fun e e' => e.1 = e'.1 ∧ e.2.Alike r F t e'.2) entries entries') :
    Echoes (Answered (List.Forall₂ (Cluster.Alike F)) A)
      (entries.foldlM (fun (cs, a) (id, k) => Cluster.sortIn t cs a id k) (cs, a))
      (entries'.foldlM (fun (cs, b) (id, k) => Cluster.sortIn t cs b id k) (cs', b)) := by
  refine .foldlM h ?_ ⟨hcs, hab⟩
  rintro ⟨ds, x⟩ ⟨ds', y⟩ ⟨id, k⟩ ⟨_, k'⟩ ⟨hds, hxy⟩ ⟨rfl, hk⟩
  exact sortIn hA hxy hds hk id

end Alike

/-! ## Clustering -/

variable {K K' : ConstraintTable α} {u : HandleTable}

lemma Alike.relateAll (hA : Simulates r A) (hK : K.Alike r F t K') (hreset : A a.reset b.reset)
    (hpoints : u.points = t.points) :
    Echoes (fun p q => A p.1 q.1 ∧ p.2 = q.2 ∧ p.2.points = t.points) (relateAll K a t)
      (relateAll K' b u) := by
  have hvalues : List.Forall₂ (fun k k' => k.Alike r F t k') K.values K'.values :=
    List.rel_map (fun _ _ h => h.2) hK.entries
  have hfold : Echoes (fun p q => A p.1 q.1 ∧ p.2 = q.2) (Cluster.relateAll K a t)
      (Cluster.relateAll K' b u) := by
    refine .foldlM hvalues ?_ ⟨hreset, (HandleTable.reset_congr hpoints).symm⟩
    rintro ⟨a₁, t₁⟩ ⟨b₁, u₁⟩ k k' ⟨hab, rfl⟩ h
    exact h.relate hA hab t₁
  intro p hp
  obtain ⟨q, hq, hab, htable⟩ := hfold p hp
  exact ⟨q, hq, hab, htable, points_relateAll hp⟩

/-- **Clustering alike.**  Constraints that are alike, over the same variables and handles, have
clusters that are alike; the same handles are merged and the same variables are unified. -/
theorem Alike.build (hA : Simulates r A) (hK : K.Alike r F t K') (hreset : A a.reset b.reset)
    (hpoints : u.points = t.points) :
    Echoes (fun p q => List.Forall₂ (Cluster.Alike F) p.1 q.1 ∧ A p.2.1 q.2.1 ∧ p.2.2 = q.2.2)
      (build K a t) (build K' b u) := by
  rw [Cluster.build, Cluster.build]
  refine (relateAll hA hK hreset hpoints).bind ?_
  rintro ⟨a₁, t₁⟩ ⟨b₁, u₁⟩ ⟨hab, rfl, hpoints₁⟩
  have hentries : List.Forall₂ (fun e e' => e.1 = e'.1 ∧ e.2.Alike r F t₁ e'.2) K.entries
      K'.entries := hK.entries.imp fun e e' h => ⟨h.1, h.2.congr hpoints₁⟩
  refine (sortAll hA hab .nil hentries).bind ?_
  rintro ⟨cs, a₂⟩ ⟨cs', b₂⟩ ⟨hcs, hab₂⟩
  simp only [consolidate, hcs.length_eq]
  exact (consolidateWithin hA _ hab₂ hcs).bind fun _ _ h => .ok ⟨h.1, h.2, rfl⟩

/-! ## Clustering again -/

omit [Scalar α] in
/-- Where the clusters determine what they are like, there is one list that is like a given one. -/
lemma Alike.eq_map {f : Residual α → Residual α} (hf : ∀ x y, x.Alike F y → y = f x)
    {cs cs' : List (Cluster α)} (h : List.Forall₂ (Cluster.Alike F) cs cs') :
    cs' = cs.map fun c => { c with residuals := c.residuals.map f } := by
  have hresiduals : ∀ {rs rs'}, List.Forall₂ (Residual.Alike F) rs rs' → rs' = rs.map f := by
    intro rs rs' hrs
    induction hrs with
    | nil => rfl
    | cons hx _ ih => rw [List.map_cons, hf _ _ hx, ih]
  induction h with
  | nil => rfl
  | @cons c d _ _ hc _ ih =>
      obtain ⟨constraints, residuals, referenced, vars⟩ := d
      obtain ⟨rfl, hrs, rfl, rfl⟩ := hc
      obtain rfl := hresiduals hrs
      rw [List.map_cons, ih]

omit [Scalar α] in
/-- Clusters that are alike are the same if fingers are related only where they are the same. -/
lemma Alike.eq {cs cs' : List (Cluster α)} (hF : ∀ {c p q}, F c p q → q = p)
    (h : List.Forall₂ (Cluster.Alike F) cs cs') : cs' = cs := by
  have hid := eq_map (f := id) (fun x y hxy => by
    cases hxy with
    | finger c hpq => rw [hF hpq, id]
    | _ => rfl) h
  simpa using hid

/-- What stands for its group after a clustering has the value that it had before. -/
lemma build_roots {cs : List (Cluster α)} (hbuild : build K a t = .ok (cs, b, u)) :
    b.WellFormed ∧ ∀ k, b.canonical k = k → b.value? k = a.value? k := by
  obtain ⟨hb, hroots⟩ := (Arena.wellFormed_reset a).unifies (unifies_build hbuild)
  refine ⟨hb, fun k hk => ?_⟩
  rw [(hroots k hk).2, Arena.value?_reset]

/-- A clustering that unifies what was unified before changes nothing at all. -/
lemma build_fixed (ha : a.WellFormed) {cs : List (Cluster α)}
    (hbuild : build K a t = .ok (cs, b, u)) (hlink : b.link? = a.link?) : b = a := by
  have hlabels := (unifies_build hbuild).labels.trans (Arena.labels_reset a)
  have hshape := Arena.shape_of_labels hlabels hlink
  obtain ⟨hb, hroots⟩ := build_roots hbuild
  refine Arena.ext_of_shape hshape fun k => ha.value?_congr_of_roots hb hshape ?_
  refine hroots _ ?_
  rw [Arena.canonical_congr hshape, ha.canonical_canonical]

/-- **Clustering again.**  Once the arena is unified as a clustering leaves it, clustering the same
constraints changes neither the arena nor the handles, whatever the values are now.  The clusters
differ in the positions of fingers, as far as these have changed. -/
theorem build_again (hK : K.Alike Eq F t K') {cs : List (Cluster α)} {c : Arena α}
    (hbuild : build K a t = .ok (cs, b, u)) (hc : c.WellFormed) (hshape : c.shape = b.shape) :
    ∃ cs', build K' c u = .ok (cs', c, u) ∧ List.Forall₂ (Cluster.Alike F) cs cs' := by
  have hlabels := (unifies_build hbuild).labels.trans (Arena.labels_reset a)
  have hids : c.ids = a.ids := (Arena.ids_congr hshape).trans (Arena.ids_of_labels hlabels)
  obtain ⟨⟨cs', c', u'⟩, hbuild', hcs, halike, rfl⟩ :=
    Alike.build (Arena.Alike.simulates Scalar.tolerates_eq) hK (.reset hids) (points_build hbuild) _
      hbuild
  have hlink : c'.link? = c.link? := halike.link?_eq.trans (Arena.link?_congr hshape).symm
  rw [build_fixed hc hbuild' hlink] at hbuild'
  exact ⟨cs', hbuild', hcs⟩

end Cluster

end

end SketchSolver
