import Mathlib
import SketchSolver.Cluster.Build
import SketchSolver.Proofs.Cluster.Merge
import SketchSolver.Proofs.Ordered

/-!
# Building clusters

Clustering sorts the constraints in one at a time and then merges until nothing overlaps.  Two
invariants describe it.

**While it runs**: `Cluster.Sorted`.  Every constraint done so far is in exactly one cluster, the
clusters are sound and connected, and each begins with its oldest constraint.  Overlaps are
allowed: a unification may bring two clusters together after both were made.

**In the end**: `Cluster.Clustering`.  In addition the canonical variables are up to date and no two
clusters have one in common.

**Main statements.**

* `Cluster.join_spec`, `Cluster.sortAll_spec` — sorting in keeps the first invariant.
* `Cluster.consolidateWithin_spec` — consolidating turns the first into the second.
* `Cluster.build_spec` — clustering a sketch never fails and answers with a `Clustering`.
* `Cluster.Clustering.same_iff` — in a `Clustering`, constraints are in one cluster exactly if they
  are joined by a chain of neighbours.
-/

namespace SketchSolver

variable {α : Type}

/-- The constraint with this identifier refers to the variable. -/
def ConstraintTable.Refers (constraints : ConstraintTable α) (t : HandleTable) (id : ConstraintId)
    (v : VarId) : Prop :=
  ∃ k, constraints.get? id = some k ∧ k.Uses t v

namespace Cluster

variable [Scalar α] {R : ConstraintId → VarId → Prop} {a b : Arena α}
  {done : List ConstraintId} {cs before after : List (Cluster α)}

/-! ## The two invariants -/

/-- The constraints `done` are sorted into connected clusters, oldest first. -/
structure Sorted (R : ConstraintId → VarId → Prop) (a : Arena α) (done : List ConstraintId)
    (cs : List (Cluster α)) : Prop where
  perm : (cs.flatMap (·.constraints)).Perm done
  sound : ∀ c ∈ cs, c.Sound R a
  connected : ∀ c ∈ cs, c.Connected R a
  ordered : cs.Pairwise Before

/-- In addition, the clusters know their canonical variables and share none. -/
structure Clustering (R : ConstraintId → VarId → Prop) (a : Arena α) (done : List ConstraintId)
    (cs : List (Cluster α)) : Prop extends Sorted R a done cs where
  exact : ∀ c ∈ cs, ∀ v, v ∈ c.vars ↔ ∃ w ∈ c.referenced, a.canonical w = v
  disjoint : cs.Pairwise fun c d => ∀ v ∈ c.vars, ¬ v ∈ d.vars

lemma sorted_nil (R : ConstraintId → VarId → Prop) (a : Arena α) : Sorted R a [] [] :=
  ⟨.refl _, by simp, by simp, .nil⟩

lemma Sorted.mem_done (h : Sorted R a done cs) {c : Cluster α} (hc : c ∈ cs) {i : ConstraintId}
    (hi : i ∈ c.constraints) : i ∈ done :=
  h.perm.mem_iff.1 (List.mem_flatMap.2 ⟨c, hc, hi⟩)

lemma Sorted.exists_of_mem_done (h : Sorted R a done cs) {i : ConstraintId} (hi : i ∈ done) :
    ∃ c ∈ cs, i ∈ c.constraints :=
  List.mem_flatMap.1 (h.perm.mem_iff.2 hi)

lemma Sorted.mono (hcoarse : a.Coarsens b) (h : Sorted R a done cs) : Sorted R b done cs where
  perm := h.perm
  sound c hc := (h.sound c hc).mono hcoarse
  connected c hc := (h.connected c hc).mono hcoarse
  ordered := h.ordered

/-- All constraints of a cluster that are joined with one constraint are joined. -/
lemma connected_of_hub {c : Cluster α} (hub : ConstraintId)
    (h : ∀ i ∈ c.constraints, Joined R a i hub) : c.Connected R a :=
  fun i hi j hj => (h i hi).trans (h j hj).symm

omit [Scalar α] in
/-- A cluster that begins like another one is older than the same ones. -/
lemma Before.of_head {c m d : Cluster α} (hhead : m.constraints.head? = c.constraints.head?)
    (h : c.Before d) : m.Before d :=
  fun i hi => h i (hhead ▸ hi)

lemma Sound.head?_append {c : Cluster α} (h : c.Sound R a) (rest : List ConstraintId) :
    (c.constraints ++ rest).head? = c.constraints.head? := by
  obtain ⟨i, others, hi, -⟩ := h.oldest
  rw [hi]
  rfl

/-! ## Sorting in one constraint -/

/-- A new cluster of one constraint that is younger than all others. -/
structure Newest (R : ConstraintId → VarId → Prop) (a : Arena α) (done : List ConstraintId)
    (id : ConstraintId) (new : Cluster α) : Prop where
  constraints : new.constraints = [id]
  sound : new.Sound R a
  younger : ∀ i ∈ done, i.index < id.index

lemma Newest.connected {id : ConstraintId} {new : Cluster α} (h : Newest R a done id new) :
    new.Connected R a := by
  refine connected_of_hub id fun i hi => ?_
  rw [h.constraints, List.mem_singleton] at hi
  exact hi ▸ .refl

lemma Newest.follows {id : ConstraintId} {new c : Cluster α} (h : Newest R a done id new)
    (hc : ∀ i ∈ c.constraints, i ∈ done) : c.Before new := by
  intro i hi j hj
  rw [h.constraints, List.mem_singleton] at hj
  exact hj ▸ h.younger i (hc i (List.mem_of_mem_head? hi))

/-- A new cluster that overlaps no other one stays alone. -/
lemma Sorted.append {id : ConstraintId} {new : Cluster α} (h : Sorted R a done cs)
    (hnew : Newest R a done id new) : Sorted R a (done ++ [id]) (cs ++ [new]) where
  perm := by
    simp only [List.flatMap_append, List.flatMap_cons, List.flatMap_nil, List.append_nil,
      hnew.constraints]
    exact h.perm.append_right [id]
  sound c hc := by
    rcases List.mem_append.1 hc with hc | hc
    · exact h.sound c hc
    · exact List.mem_singleton.1 hc ▸ hnew.sound
  connected c hc := by
    rcases List.mem_append.1 hc with hc | hc
    · exact h.connected c hc
    · exact List.mem_singleton.1 hc ▸ hnew.connected
  ordered := by
    refine List.pairwise_append.2 ⟨h.ordered, List.pairwise_singleton _ _, fun c hc d hd => ?_⟩
    exact List.mem_singleton.1 hd ▸ hnew.follows fun i hi => h.mem_done hc hi

/-- Replacing some of the clusters after one by nothing, and that one by a cluster that has taken
them over, keeps a list sorted. -/
lemma Sorted.takeOver {before after apart : List (Cluster α)} {first m : Cluster α}
    {done' rest : List ConstraintId} (h : Sorted R a done (before ++ first :: after))
    (hcoarse : a.Coarsens b) (hapart : apart.Sublist after)
    (hm : m.constraints = first.constraints ++ rest)
    (hsound : m.Sound R b) (hconnected : m.Connected R b)
    (hbefore : ∀ c ∈ before, c.Before m)
    (hperm : ((before ++ m :: apart).flatMap (·.constraints)).Perm done') :
    Sorted R b done' (before ++ m :: apart) := by
  have hsub : (before ++ apart).Sublist (before ++ first :: after) :=
    (hapart.trans (List.sublist_cons_self first after)).append_left before
  have hfirst : first ∈ before ++ first :: after := by simp
  have hmem : ∀ {c}, c ∈ before ++ m :: apart → c = m ∨ c ∈ before ++ first :: after := by
    intro c hc
    rcases List.mem_append.1 hc with hc | hc
    · exact Or.inr (List.mem_append_left _ hc)
    · rcases List.mem_cons.1 hc with rfl | hc
      · exact Or.inl rfl
      · exact Or.inr (hsub.subset (List.mem_append_right _ hc))
  obtain ⟨hbb, hfa, hcross⟩ := List.pairwise_append.1 h.ordered
  obtain ⟨hfirstBefore, haa⟩ := List.pairwise_cons.1 hfa
  refine ⟨hperm, fun c hc => ?_, fun c hc => ?_, ?_⟩
  · rcases hmem hc with rfl | hc
    · exact hsound
    · exact (h.sound c hc).mono hcoarse
  · rcases hmem hc with rfl | hc
    · exact hconnected
    · exact (h.connected c hc).mono hcoarse
  · have hhead : m.constraints.head? = first.constraints.head? := by
      rw [hm, (h.sound first hfirst).head?_append]
    refine List.pairwise_append.2 ⟨hbb, List.pairwise_cons.2 ⟨fun d hd => ?_, haa.sublist hapart⟩,
      fun c hc d hd => ?_⟩
    · exact (hfirstBefore d (hapart.subset hd)).of_head hhead
    · rcases List.mem_cons.1 hd with rfl | hd
      · exact hbefore c hc
      · exact hcross c hc d (List.mem_cons_of_mem _ (hapart.subset hd))

omit [Scalar α] in
/-- What `span` splits off in front fails the test, and what remains begins with a success. -/
lemma span_not_eq {p : Cluster α → Bool} {xs before rest : List (Cluster α)}
    (h : xs.span (fun c => !p c) = (before, rest)) :
    xs = before ++ rest ∧ (∀ c ∈ before, p c = false) ∧ ∀ c ∈ rest.head?, p c = true := by
  rw [List.span_eq_takeWhile_dropWhile, Prod.mk.injEq] at h
  obtain ⟨rfl, rfl⟩ := h
  refine ⟨List.takeWhile_append_dropWhile.symm, fun c hc => ?_, fun c hc => ?_⟩
  · simpa using List.mem_takeWhile_imp hc
  · have hhead := List.head?_dropWhile_not (fun c => !p c) xs
    rw [Option.mem_def.1 hc] at hhead
    simpa using hhead

lemma join_of_apart {new : Cluster α} (h : cs.span (fun c => !c.overlaps new) = (before, [])) :
    join a cs new = .ok (cs ++ [new], a) := by
  rw [join, h]

lemma join_of_overlaps {first new m : Cluster α}
    (h : cs.span (fun c => !c.overlaps new) = (before, first :: after))
    (hmerge : mergeAll a first ((after.filter (·.overlaps new)).reverse ++ [new]) = .ok (m, b)) :
    join a cs new = .ok (before ++ m :: after.filter (fun d => !d.overlaps new), b) := by
  have hpartition : after.partition (·.overlaps new) =
      (after.filter (·.overlaps new), after.filter fun d => !d.overlaps new) :=
    List.partition_eq_filter_filter
  rw [join, h]
  simp only [hpartition, hmerge, ok_bind]
  rfl

omit [Scalar α] in
/-- The clusters that are taken over, and those that are not, are all there are. -/
lemma perm_joined (p : Cluster α → Bool) (before after : List (Cluster α)) (first new : Cluster α) :
    (first :: ((after.filter p).reverse ++ [new]) ++ (before ++ after.filter fun d => !p d)).Perm
      (before ++ first :: after ++ [new]) := by
  have hafter := List.filter_append_perm p after
  rw [← Multiset.coe_eq_coe] at hafter ⊢
  simp only [← Multiset.coe_add, ← Multiset.cons_coe, Multiset.coe_reverse,
    List.cons_append] at hafter ⊢
  rw [← hafter]
  simp only [← Multiset.singleton_add, Multiset.coe_nil, add_zero]
  abel

omit [Scalar α] in
/-- So are their constraints. -/
lemma perm_taken {p : Cluster α → Bool} {first new m : Cluster α}
    (hm : m.constraints = first.constraints ++
      ((after.filter p).reverse ++ [new]).flatMap (·.constraints))
    (h : ((before ++ first :: after).flatMap (·.constraints)).Perm done) :
    ((before ++ m :: after.filter fun d => !p d).flatMap (·.constraints)).Perm
      (done ++ new.constraints) := by
  have hjoined := (perm_joined p before after first new).flatMap_right (·.constraints)
  simp only [List.flatMap_append, List.flatMap_cons, List.flatMap_nil, List.append_nil, hm] at *
  exact ((List.perm_append_comm_assoc _ _ _).trans hjoined).trans (h.append_right _)

/-- **Sorting in.**  A new cluster joins all those that it overlaps. -/
theorem join_spec {id : ConstraintId} {new : Cluster α} (ha : a.WellFormed)
    (h : Sorted R a done cs) (hnew : Newest R a done id new) :
    ∃ cs' b, join a cs new = .ok (cs', b) ∧ b.WellFormed ∧ a.Coarsens b ∧
      Sorted R b (done ++ [id]) cs' := by
  rcases hspan : cs.span fun c => !c.overlaps new with ⟨before, _ | ⟨first, after⟩⟩
  · exact ⟨cs ++ [new], a, join_of_apart hspan, ha, .refl a, h.append hnew⟩
  · obtain ⟨rfl, -, hoverlaps⟩ := span_not_eq hspan
    have hfirst : first ∈ before ++ first :: after := by simp
    have hid : id ∈ new.constraints := by simp [hnew.constraints]
    obtain ⟨-, hlater, hcross⟩ := List.pairwise_append.1 h.ordered
    have hjoining : ∀ d ∈ after.filter (·.overlaps new),
        d ∈ after ∧ d ∈ before ++ first :: after ∧ d.overlaps new = true := by
      intro d hd
      obtain ⟨hd, hover⟩ := List.mem_filter.1 hd
      exact ⟨hd, List.mem_append_right _ (List.mem_cons_of_mem _ hd), hover⟩
    have hyounger : ∀ c ∈ before ++ first :: after, c.Before new := fun c hc =>
      hnew.follows fun i hi => h.mem_done hc hi
    have htaken : ∀ d ∈ (after.filter (·.overlaps new)).reverse ++ [new],
        d.Sound R a ∧ first.Before d := by
      intro d hd
      rcases List.mem_append.1 hd with hd | hd
      · obtain ⟨hafter, hmem, -⟩ := hjoining d (List.mem_reverse.1 hd)
        exact ⟨h.sound d hmem, (List.pairwise_cons.1 hlater).1 d hafter⟩
      · rw [List.mem_singleton.1 hd]
        exact ⟨hnew.sound, hyounger first hfirst⟩
    obtain ⟨m, b, hmerge, hwf, hcoarse, hm, hsound⟩ := mergeAll_spec ha (h.sound first hfirst)
      (fun d hd => (htaken d hd).1) (fun d hd => (htaken d hd).2)
    have hmem : ∀ {i}, i ∈ m.constraints →
        i ∈ first.constraints ∨ (∃ d ∈ after.filter (·.overlaps new), i ∈ d.constraints) ∨
          i = id := by
      intro i hi
      rw [hm] at hi
      simpa [hnew.constraints] using hi
    -- whatever is taken over is joined with the new constraint
    have hjoined : ∀ d ∈ before ++ first :: after, d.overlaps new = true →
        ∀ i ∈ d.constraints, Joined R b i id := fun d hd hover i hi =>
      (joined_of_overlaps (h.sound d hd) hnew.sound (h.connected d hd) hnew.connected hover
        i hi id hid).mono hcoarse
    have hconnected : m.Connected R b := by
      refine connected_of_hub id fun i hi => ?_
      rcases hmem hi with hi | ⟨d, hd, hi⟩ | rfl
      · exact hjoined first hfirst (hoverlaps first rfl) i hi
      · exact hjoined d (hjoining d hd).2.1 (hjoining d hd).2.2 i hi
      · exact .refl
    have hbefore : ∀ c ∈ before, c.Before m := by
      intro c hc i hi j hj
      rcases hmem hj with hj | ⟨d, hd, hj⟩ | rfl
      · exact hcross c hc first List.mem_cons_self i hi j hj
      · exact hcross c hc d (List.mem_cons_of_mem _ (hjoining d hd).1) i hi j hj
      · exact hyounger c (List.mem_append_left _ hc) i hi j hid
    refine ⟨_, b, join_of_overlaps hspan hmerge, hwf, hcoarse,
      h.takeOver hcoarse List.filter_sublist hm hsound hconnected hbefore ?_⟩
    rw [← hnew.constraints]
    exact perm_taken hm h.perm

/-- **Sorting in all of them**, oldest first. -/
theorem sortAll_spec {t : HandleTable} {entries : List (ConstraintId × Constraint α)}
    (ha : a.WellFormed) (hground : t.Grounded a) (hlive : ∀ e ∈ entries, e.2.Live t a)
    (hR : ∀ e ∈ entries, ∀ v, R e.1 v ↔ e.2.Uses t v)
    (hindex : (done ++ entries.map Prod.fst).Pairwise (·.index < ·.index))
    (h : Sorted R a done cs) :
    ∃ cs' b, entries.foldlM (fun (cs, arena) (id, k) => sortIn t cs arena id k) (cs, a) =
        .ok (cs', b) ∧
      b.WellFormed ∧ a.Coarsens b ∧ Sorted R b (done ++ entries.map Prod.fst) cs' := by
  induction entries generalizing a done cs with
  | nil => exact ⟨cs, a, rfl, ha, .refl a, by simpa using h⟩
  | cons e entries ih =>
      obtain ⟨id, k⟩ := e
      have hk : k.Live t a := hlive _ List.mem_cons_self
      obtain ⟨new, a₁, hnew, hwf₁, hcoarse₁, hid, hsound⟩ :=
        ofConstraint_spec ha hground hk (hR _ List.mem_cons_self)
      have hyounger : ∀ i ∈ done, i.index < id.index := fun i hi =>
        (List.pairwise_append.1 hindex).2.2 i hi id (by simp)
      obtain ⟨cs₂, a₂, hjoin, hwf₂, hcoarse₂, hsorted⟩ :=
        join_spec hwf₁ (h.mono hcoarse₁) ⟨hid, hsound, hyounger⟩
      have hcoarse : a.Coarsens a₂ := hcoarse₁.trans hcoarse₂
      obtain ⟨cs', b, hfold, hwf, hcoarse₃, hsorted'⟩ := ih hwf₂
        (hground.congr rfl fun v hv => hcoarse.contains.2 hv)
        (fun e he => (hlive e (List.mem_cons_of_mem _ he)).congr rfl
          fun v hv => hcoarse.contains.2 hv)
        (fun e he => hR e (List.mem_cons_of_mem _ he)) (by simpa using hindex) hsorted
      refine ⟨cs', b, ?_, hwf, hcoarse.trans hcoarse₃, by simpa using hsorted'⟩
      simp only [List.foldlM_cons, sortIn, hnew, ok_bind, hjoin]
      exact hfold

/-! ## Consolidating -/

omit [Scalar α] in
lemma firstOverlap_eq_some {c d : Cluster α} {between : List (Cluster α)}
    (h : firstOverlap cs = some (before, c, between, d, after)) :
    cs = before ++ c :: (between ++ d :: after) ∧ c.overlaps d = true := by
  induction cs generalizing before with
  | nil => cases h
  | cons e rest ih =>
      rw [firstOverlap] at h
      rcases hspan : rest.span fun d => !e.overlaps d with ⟨apart, _ | ⟨f, others⟩⟩
      · rw [hspan] at h
        obtain ⟨⟨before', found⟩, hfound, heq⟩ := Option.map_eq_some_iff.1 h
        cases heq
        obtain ⟨rfl, hoverlaps⟩ := ih hfound
        exact ⟨rfl, hoverlaps⟩
      · rw [hspan] at h
        cases h
        obtain ⟨rfl, -, hoverlaps⟩ := span_not_eq hspan
        exact ⟨rfl, hoverlaps d rfl⟩

omit [Scalar α] in
lemma pairwise_of_firstOverlap_eq_none (h : firstOverlap cs = none) :
    cs.Pairwise fun c d => c.overlaps d = false := by
  induction cs with
  | nil => exact .nil
  | cons e rest ih =>
      rw [firstOverlap] at h
      rcases hspan : rest.span fun d => !e.overlaps d with ⟨apart, _ | ⟨f, others⟩⟩
      · rw [hspan] at h
        obtain ⟨hrest, hapart, -⟩ := span_not_eq hspan
        rw [List.append_nil] at hrest
        subst hrest
        exact .cons hapart (ih (Option.map_eq_none_iff.1 h))
      · rw [hspan] at h
        cases h

lemma Sorted.recompute (ha : a.Linked) (h : Sorted R a done cs) :
    Sorted R a done (cs.map (recompute a)) where
  perm := by
    rw [List.flatMap_map]
    exact h.perm
  sound c hc := by
    obtain ⟨d, hd, rfl⟩ := List.mem_map.1 hc
    exact (h.sound d hd).recompute ha
  connected c hc := by
    obtain ⟨d, hd, rfl⟩ := List.mem_map.1 hc
    exact h.connected d hd
  ordered := List.pairwise_map.2 h.ordered

/-- Merging one cluster with a later one that it overlaps keeps a list sorted. -/
lemma Sorted.merge (ha : a.WellFormed) {c d : Cluster α} {between : List (Cluster α)}
    (h : Sorted R a done (before ++ c :: (between ++ d :: after))) (hover : c.overlaps d = true) :
    ∃ m b, merge a c d = .ok (m, b) ∧ b.WellFormed ∧ a.Coarsens b ∧
      Sorted R b done (before ++ m :: (between ++ after)) := by
  have hc : c ∈ before ++ c :: (between ++ d :: after) := by simp
  have hd : d ∈ before ++ c :: (between ++ d :: after) := by simp
  obtain ⟨-, hlater, hcross⟩ := List.pairwise_append.1 h.ordered
  obtain ⟨m, b, hmerge, hwf, hcoarse, hm, hsound⟩ := merge_spec ha (h.sound c hc) (h.sound d hd)
    ((List.pairwise_cons.1 hlater).1 d (by simp))
  obtain ⟨i, others, hi, -⟩ := (h.sound c hc).oldest
  have hic : i ∈ c.constraints := by simp [hi]
  -- everything is joined with the oldest constraint
  have hconnected : m.Connected R b := by
    refine connected_of_hub i fun j hj => ?_
    rw [hm] at hj
    rcases List.mem_append.1 hj with hj | hj
    · exact (h.connected c hc j hj i hic).mono hcoarse
    · exact ((joined_of_overlaps (h.sound c hc) (h.sound d hd) (h.connected c hc)
        (h.connected d hd) hover i hic j hj).symm).mono hcoarse
  refine ⟨m, b, hmerge, hwf, hcoarse, h.takeOver hcoarse ?_ hm hsound hconnected ?_ ?_⟩
  · exact (List.sublist_cons_self d after).append_left between
  · intro x hx i hi j hj
    rw [hm] at hj
    rcases List.mem_append.1 hj with hj | hj
    · exact hcross x hx c List.mem_cons_self i hi j hj
    · exact hcross x hx d (by simp) i hi j hj
  · refine List.Perm.trans ?_ h.perm
    simp only [List.flatMap_append, List.flatMap_cons, hm, List.append_assoc]
    refine List.Perm.append_left _ (List.Perm.append_left _ ?_)
    rw [← List.append_assoc, ← List.append_assoc]
    exact List.perm_append_comm.append_right _

/-- **Consolidating.**  As long as there may be more merges than clusters, consolidating ends with
clusters that share no variable. -/
theorem consolidateWithin_spec {limit : Nat} (ha : a.WellFormed) (h : Sorted R a done cs)
    (hlimit : cs.length < limit) :
    ∃ cs' b, consolidateWithin limit a cs = .ok (cs', b) ∧ b.WellFormed ∧ a.Coarsens b ∧
      Clustering R b done cs' := by
  induction limit generalizing a cs with
  | zero => exact absurd hlimit (Nat.not_lt_zero _)
  | succ limit ih =>
      have hsorted := h.recompute ha.toLinked
      rw [consolidateWithin]
      rcases hfirst : firstOverlap (cs.map (recompute a)) with
        _ | ⟨before, c, between, d, after⟩
      · refine ⟨_, a, rfl, ha, .refl a, hsorted, fun c hc v => ?_, ?_⟩
        · obtain ⟨d, -, rfl⟩ := List.mem_map.1 hc
          exact mem_vars_recompute a d v
        · refine (pairwise_of_firstOverlap_eq_none hfirst).imp fun {c d} hover => ?_
          rw [overlaps, Bool.not_eq_false', OrderedSet.isDisjoint_eq_true_iff] at hover
          exact hover
      · obtain ⟨hlist, hover⟩ := firstOverlap_eq_some hfirst
        have hlength := congrArg List.length hlist
        rw [hlist] at hsorted
        obtain ⟨m, a₁, hmerge, hwf₁, hcoarse₁, hsorted₁⟩ := hsorted.merge ha hover
        obtain ⟨cs', b, hrest, hwf, hcoarse, hclustering⟩ := ih hwf₁ hsorted₁ (by
          simp only [List.length_map, List.length_append, List.length_cons] at hlength ⊢
          omega)
        refine ⟨cs', b, ?_, hwf, hcoarse₁.trans hcoarse, hclustering⟩
        simp only [hmerge, ok_bind]
        simpa using hrest

/-! ## Clustering a sketch -/

lemma relateAll_spec {constraints : ConstraintTable α} {t : HandleTable}
    (hground : t.Grounded a) (hlive : ∀ e ∈ constraints.entries, e.2.Live t a) :
    ∃ b u, relateAll constraints a t = .ok (b, u) ∧ b.WellFormed ∧ b.ids = a.ids ∧ u.Rooted ∧
      u.points = t.points := by
  let P : Arena α × HandleTable → Prop := fun state =>
    state.1.WellFormed ∧ state.1.ids = a.ids ∧ state.2.Rooted ∧ state.2.points = t.points
  have hstep : ∀ state, ∀ k ∈ constraints.values, P state →
      ∃ state', k.relate state.1 state.2 = .ok state' ∧ P state' := by
    rintro ⟨b, u⟩ k hk ⟨hwf, hids, hrooted, hpoints⟩
    obtain ⟨e, he, rfl⟩ := List.mem_map.1 hk
    have hcontains : ∀ v, a.contains v = true → b.contains v = true := fun v hv =>
      (Arena.contains_of_ids hids v).trans hv
    obtain ⟨b', u', hrelate, hwf', hcoarse, hrooted', hpoints'⟩ :=
      ((hlive e he).congr hpoints hcontains).relate_spec hwf hrooted
        (hground.congr hpoints hcontains)
    exact ⟨(b', u'), hrelate, hwf', hcoarse.ids.trans hids, hrooted', hpoints'.trans hpoints⟩
  have hreset : P (a.reset, t.reset) := ⟨Arena.wellFormed_reset a, Arena.ids_reset a,
    HandleTable.rooted_reset t, HandleTable.points_reset t⟩
  obtain ⟨⟨b, u⟩, hfold, hP⟩ := foldlM_ok hstep hreset
  exact ⟨b, u, hfold, hP⟩

/-- **Clustering never fails.**  If all constraints are live and listed oldest first, then
clustering answers with a `Clustering` of them.  No variable comes or goes and no coordinate
moves. -/
theorem build_spec {constraints : ConstraintTable α} {t : HandleTable}
    (hground : t.Grounded a) (hlive : ∀ e ∈ constraints.entries, e.2.Live t a)
    (hindex : constraints.keys.Pairwise (·.index < ·.index)) :
    ∃ cs b u, build constraints a t = .ok (cs, b, u) ∧ b.WellFormed ∧ b.ids = a.ids ∧ u.Rooted ∧
      u.points = t.points ∧ Clustering (constraints.Refers t) b constraints.keys cs := by
  obtain ⟨a₁, u, hrelate, hwf₁, hids₁, hrooted, hpoints⟩ := relateAll_spec hground hlive
  have hcontains : ∀ v, a.contains v = true → a₁.contains v = true := fun v hv =>
    (Arena.contains_of_ids hids₁ v).trans hv
  have hR : ∀ e ∈ constraints.entries, ∀ v, constraints.Refers t e.1 v ↔ e.2.Uses u v := by
    rintro ⟨id, k⟩ he v
    have hget : constraints.get? id = some k := (constraints.mem_entries_iff id k).1 he
    rw [Constraint.Uses.congr hpoints]
    constructor
    · rintro ⟨k', hk', huses⟩
      rw [hget] at hk'
      cases hk'
      exact huses
    · intro huses
      exact ⟨k, hget, huses⟩
  obtain ⟨cs₂, a₂, hsort, hwf₂, hcoarse₂, hsorted⟩ := sortAll_spec hwf₁
    (hground.congr hpoints hcontains) (fun e he => (hlive e he).congr hpoints hcontains) hR hindex
    (sorted_nil _ a₁)
  obtain ⟨cs, b, hconsolidate, hwf, hcoarse, hclustering⟩ :=
    consolidateWithin_spec hwf₂ hsorted (Nat.lt_succ_self cs₂.length)
  refine ⟨cs, b, u, ?_, hwf, (hcoarse₂.trans hcoarse).ids.trans hids₁, hrooted, hpoints,
    hclustering⟩
  simp only [build, hrelate, ok_bind, hsort, consolidate, hconsolidate]
  rfl

/-! ## What a clustering says -/

/-- Clusterings look at the canonical variables and the constraints only. -/
lemma Clustering.congr (hids : b.ids = a.ids) (hcanonical : b.canonical = a.canonical)
    (h : Clustering R a done cs) : Clustering R b done cs := by
  have hcoarse : a.Coarsens b := ⟨hids, fun huv => by rw [hcanonical]; exact huv⟩
  refine ⟨h.toSorted.mono hcoarse, fun c hc v => ?_, h.disjoint⟩
  rw [hcanonical]
  exact h.exact c hc v

/-- Moving a finger is no matter to the clusters. -/
lemma Clustering.moveFinger (h : Clustering R a done cs) (point : Coords) (position : Point α) :
    Clustering R a done (cs.map (·.moveFinger point position)) where
  perm := by
    rw [List.flatMap_map]
    exact h.perm
  sound c hc := by
    obtain ⟨d, hd, rfl⟩ := List.mem_map.1 hc
    refine { h.sound d hd with residuals := fun r hr w hw => ?_ }
    obtain ⟨r', hr', rfl⟩ := List.mem_map.1 hr
    exact (h.sound d hd).residuals r' hr' w (Residual.vars_moveFinger point position r' ▸ hw)
  connected c hc := by
    obtain ⟨d, hd, rfl⟩ := List.mem_map.1 hc
    exact h.connected d hd
  ordered := List.pairwise_map.2 h.ordered
  exact c hc := by
    obtain ⟨d, hd, rfl⟩ := List.mem_map.1 hc
    exact h.exact d hd
  disjoint := List.pairwise_map.2 h.disjoint

/-- Clusters with a variable in common are one cluster. -/
lemma Clustering.eq_of_mem_vars (h : Clustering R a done cs) {c d : Cluster α} (hc : c ∈ cs)
    (hd : d ∈ cs) {v : VarId} (hvc : v ∈ c.vars) (hvd : v ∈ d.vars) : c = d := by
  by_contra hne
  have : Std.Symm fun c d : Cluster α => ∀ v ∈ c.vars, ¬ v ∈ d.vars :=
    ⟨fun c d hcd v hv hv' => hcd v hv' hv⟩
  exact h.disjoint.forall hc hd hne v hvc hvd

/-- What a constraint of a cluster refers to has its canonical variable in the cluster. -/
lemma Clustering.canonical_mem_vars (h : Clustering R a done cs) {c : Cluster α} (hc : c ∈ cs)
    {i : ConstraintId} (hi : i ∈ c.constraints) {v : VarId} (hv : R i v) :
    a.canonical v ∈ c.vars :=
  (h.exact c hc _).2 ⟨v, ((h.sound c hc).referenced v).2 ⟨i, hi, hv⟩, rfl⟩

/-- **Same cluster.**  Two constraints are in the same cluster exactly if a chain of neighbours
leads from one to the other. -/
theorem Clustering.same_iff (h : Clustering R a done cs) (hdone : ∀ i v, R i v → i ∈ done)
    {i j : ConstraintId} (hi : i ∈ done) :
    (∃ c ∈ cs, i ∈ c.constraints ∧ j ∈ c.constraints) ↔ Joined R a i j := by
  constructor
  · rintro ⟨c, hc, hic, hjc⟩
    exact h.connected c hc i hic j hjc
  · intro hjoined
    induction hjoined with
    | refl =>
        obtain ⟨c, hc, hic⟩ := h.exists_of_mem_done hi
        exact ⟨c, hc, hic, hic⟩
    | tail _ hlast ih =>
        obtain ⟨c, hc, hic, hkc⟩ := ih
        obtain ⟨v, w, hv, hw, heq⟩ := hlast
        obtain ⟨d, hd, hjd⟩ := h.exists_of_mem_done (hdone _ w hw)
        have hvars : a.canonical v ∈ d.vars := heq ▸ h.canonical_mem_vars hd hjd hw
        obtain rfl := h.eq_of_mem_vars hc hd (h.canonical_mem_vars hc hkc hv) hvars
        exact ⟨c, hc, hic, hjd⟩

end Cluster

end SketchSolver
