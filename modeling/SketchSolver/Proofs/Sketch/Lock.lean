import Mathlib
import SketchSolver.Proofs.Cluster.Apart
import SketchSolver.Proofs.Sketch.Coherent
import SketchSolver.Proofs.Sketch.Constant
import SketchSolver.Proofs.Sketch.Integrity

/-!
# Locks

A lock writes a value and then puts constants at the present values on the members of a group.

* `Sketch.Settled` — clustering anew would change nothing but the clusters.  With exact numbers this
  is so whenever the clustering is kept (`Cached.settled`), and constants do not change it.
* `Sketch.Holding` — what a run of `holdHere` leads to: further constants at the present values, and
  nothing else.
* `ensures_lock_holding` — a lock writes and then holds.
* `reachable_lock_wins` — so after a lock and a solve the variable has the value it was locked to,
  unless the lock only scrubs and an older constant of the group disputes it (`Undisputed`).
* `scrub_loses` — in which case the older constant may decide.
-/

namespace SketchSolver

open Arena

namespace Sketch

open Edit

variable {α σ : Type} [Scalar α] {s s' s₀ : Sketch α}

/-! ## Settled sketches -/

/-- Clustering anew would change neither unifications nor values. -/
def Settled (s : Sketch α) : Prop :=
  ∃ cs, Cluster.build s.constraints s.arena s.handles = .ok (cs, s.arena, s.handles)

lemma Cached.settled (h : s.Cached Eq) (hs : s.Intact) {cs : List (Cluster α)}
    (hcs : s.clusters = some cs) : s.Settled := by
  obtain ⟨K, hK, hbuild⟩ := h cs hcs
  obtain ⟨cs', hagain, -⟩ := Cluster.build_again hK hbuild hs.arena rfl
  exact ⟨cs', hagain⟩

namespace Settled

/-- Writing values keeps a sketch settled. -/
lemma revalue (h : s.Settled) {b : Arena α} (hb : b.WellFormed) (hshape : b.shape = s.arena.shape) :
    Settled { s with arena := b } := by
  obtain ⟨cs, hbuild⟩ := h
  exact ⟨cs, build_same hbuild hb hshape⟩

/-- So does another value for a constant. -/
lemma replace (h : s.Settled) (hs : s.Intact) {id : ConstraintId} {u : VarId} {z : α}
    (hget : s.constraints.get? id = some (.constant u z)) (y : α) :
    Settled { s with constraints := s.constraints.insert id (.constant u y) } := by
  obtain ⟨cs, hbuild⟩ := h
  have hkeys := OrderedMap.keys_insert_of_mem (.constant u y) (OrderedMap.mem_keys_of_get? hget)
  have halike : s.constraints.Alike Eq (fun _ => Eq) s.handles
      (s.constraints.insert id (.constant u y)) := by
    refine ⟨hkeys.symm, fun j => ?_⟩
    rw [OrderedMap.get?_insert]
    split_ifs with hj
    · subst hj
      rw [hget]
      exact .some (.constant u z y)
    · cases s.constraints.get? j with
      | none => exact .none
      | some k => exact .some (.refl Scalar.tolerates_eq fun _ _ _ => rfl)
  obtain ⟨cs', hagain, -⟩ := Cluster.build_again halike hbuild hs.arena rfl
  exact ⟨cs', hagain⟩

/-- And so does a new constant. -/
lemma insert (h : s.Settled) (hs : s.Intact) {id : ConstraintId} (hid : id ∉ s.constraints.keys)
    (u : VarId) (y : α) :
    Settled { s with constraints := s.constraints.insert id (.constant u y) } := by
  obtain ⟨cs, hbuild⟩ := h
  exact Cluster.build_insert_constant (Sound.live_entries hs.toSoundExcept) hbuild hid u y

/-- Clustering a settled sketch changes nothing but the clusters. -/
lemma clustered (h : s.Settled) {cs : List (Cluster α)} (hclustered : s.clustered = .ok (cs, s')) :
    s' = { s with clusters := some cs } := by
  obtain ⟨cs', hbuild⟩ := h
  rw [Sketch.clustered] at hclustered
  split at hclustered
  · rename_i hcs
    cases hclustered
    rw [← hcs]
  · rw [hbuild] at hclustered
    cases hclustered
    rfl

end Settled

/-! ## Holding values -/

/-- Further constants hold these variables at the present values, and nothing else has changed. -/
structure Holding (held : List VarId) (s₀ s : Sketch α) : Prop where
  arena : s.arena = s₀.arena
  handles : s.handles = s₀.handles
  stabilizeGizmos : s.stabilizeGizmos = s₀.stabilizeGizmos
  settled : s₀.Settled → s.Settled
  constants : ∀ u ∈ held, ∃ id y, s.constraints.get? id = some (.constant u y) ∧
    s₀.arena.value? u = some y
  others : ∀ id k, s.constraints.get? id = some k → s₀.constraints.get? id = some k ∨
    ∃ u ∈ held, ∃ y, k = .constant u y ∧ s₀.arena.value? u = some y

lemma Holding.refl (s : Sketch α) : Holding [] s s :=
  ⟨rfl, rfl, rfl, id, by simp, fun _ _ hget => Or.inl hget⟩

/-- One more constant at a present value.  What was under its identifier before, if anything, is a
constant on the same variable. -/
lemma Holding.insert {held : List VarId} (h : Holding held s₀ s) {u : VarId} {y : α}
    (hvalue : s₀.arena.value? u = some y) {id : ConstraintId}
    (hid : ∀ k, s.constraints.get? id = some k → ∃ z, k = .constant u z)
    (harena : s'.arena = s.arena) (hhandles : s'.handles = s.handles)
    (hgizmos : s'.stabilizeGizmos = s.stabilizeGizmos)
    (hconstraints : s'.constraints = s.constraints.insert id (.constant u y))
    (hsettled : s.Settled → s'.Settled) : Holding (u :: held) s₀ s' where
  arena := harena.trans h.arena
  handles := hhandles.trans h.handles
  stabilizeGizmos := hgizmos.trans h.stabilizeGizmos
  settled hs := hsettled (h.settled hs)
  constants w hw := by
    have hnew : s'.constraints.get? id = some (.constant u y) := by
      rw [hconstraints, OrderedMap.get?_insert, if_pos rfl]
    rcases List.mem_cons.1 hw with rfl | hw
    · exact ⟨id, y, hnew, hvalue⟩
    · obtain ⟨j, z, hget, hz⟩ := h.constants w hw
      by_cases hj : j = id
      · subst hj
        obtain ⟨_, ⟨⟩⟩ := hid _ hget
        exact ⟨j, y, hnew, hvalue⟩
      · exact ⟨j, z, by rw [hconstraints, OrderedMap.get?_insert, if_neg hj, hget], hz⟩
  others j k hget := by
    rw [hconstraints, OrderedMap.get?_insert] at hget
    split at hget
    · cases hget
      exact Or.inr ⟨u, List.mem_cons_self, y, rfl, hvalue⟩
    · refine (h.others j k hget).imp (fun hk => hk) fun hk => ?_
      obtain ⟨w, hw, hk⟩ := hk
      exact ⟨w, List.mem_cons_of_mem _ hw, hk⟩

/-- Putting a constant on a variable replaces the one that is there, or adds a new one. -/
lemma ensures_constant {E : Sketch α → Prop} (hs : s.Intact) (hE : E s) {u : VarId} {y : α}
    {Q : ConstraintId → Sketch α → Prop}
    (hagain : ∀ id z, s.constraints.get? id = some (.constant u z) →
      Q id { s with constraints := s.constraints.insert id (.constant u y) })
    (hnew : ∀ id ids memo, id ∉ s.constraints.keys → Q id { s with
      ids, memo, constraints := s.constraints.insert id (.constant u y), clusters := none }) :
    Ensures E (constant u y) Q s := by
  simp only [constant, insertConstraint, ensures_bind, ensures_get, ensures_ofExcept]
  refine ⟨fun _ _ => ?_, fun _ _ => hE⟩
  cases hsame : s.sameKey (.constant u y) with
  | some found =>
      obtain ⟨id, old⟩ := found
      obtain ⟨hold, key, hkey, hkey'⟩ := sameKey_eq_some hs.toSoundExcept hsame
      obtain ⟨z, rfl⟩ : ∃ z, old = .constant u z := by
        cases old <;> grind [Constraint.key]
      have hquiet : isQuietUpdate (.constant u z) (.constant u y) = true := by simp [isQuietUpdate]
      simp only [ensures_bind, ensures_set, settleUpdate, if_pos hquiet, ensures_pure]
      exact hagain id z hold
  | none =>
      have hid : (⟨s.ids.next⟩ : ConstraintId) ∉ s.constraints.keys := fun hmem =>
        absurd (hs.constraintIds hmem) (Nat.lt_irrefl _)
      simp only [ensures_bind, ensures_set, ensures_pure]
      exact hnew _ _ _ hid

/-- Holding one more variable. -/
lemma ensures_holdHere_holding {held : List VarId} (h : Holding held s₀ s) (hs : s.Intact)
    (u : VarId) :
    Ensures (fun _ => True) (holdHere u) (fun _ s' => Holding (u :: held) s₀ s' ∧ s'.Intact) s := by
  have hintact := ensures_holdHere invariant_intact hs u
  refine (Ensures.and (E := fun _ => True) ?_ hintact).mono (fun _ _ => trivial) fun _ _ => id
  simp only [holdHere, ensures_bind, ensures_get, ensures_ofExcept, ensures_discard]
  refine ⟨fun y hy => ?_, fun _ _ => trivial⟩
  have hvalue : s₀.arena.value? u = some y := by
    rw [← h.arena]
    exact (Arena.value_eq_ok_iff _ _ _).1 hy
  refine ensures_constant hs trivial (fun id z hget => ?_) fun id ids memo hid => ?_
  · refine h.insert hvalue (fun k hk => ?_) rfl rfl rfl rfl fun hset => hset.replace hs hget y
    rw [hget] at hk
    cases hk
    exact ⟨z, rfl⟩
  · refine h.insert hvalue (fun k hk => ?_) rfl rfl rfl rfl fun hset => hset.insert hs hid u y
    exact absurd (OrderedMap.mem_keys_of_get? hk) hid

/-- Holding several variables. -/
lemma ensures_forM_holding {held : List VarId} (h : Holding held s₀ s) (hs : s.Intact)
    (us : List VarId) : Ensures (fun _ => True) (us.forM holdHere)
      (fun _ s' => Holding (us.reverse ++ held) s₀ s' ∧ s'.Intact) s := by
  induction us generalizing held s with
  | nil => exact ⟨h, hs⟩
  | cons u us ih =>
      show Ensures _ (holdHere u >>= fun _ => us.forM holdHere) _ s
      rw [ensures_bind]
      refine (ensures_holdHere_holding h hs u).imp fun _ s' hs' => ?_
      simpa using ih hs'.1 hs'.2

/-- What a lock puts constants on. -/
def lockTargets (a : Arena α) (v : VarId) (scrub : Bool) : List VarId :=
  a.canonical v :: if scrub then [] else a.absorbedMembers (a.canonical v)

/-- Unless the lock scrubs, these are the variables of the group. -/
lemma mem_lockTargets {a : Arena α} (ha : a.WellFormed) (u v : VarId) :
    u ∈ lockTargets a v false ↔ a.canonical u = a.canonical v := by
  rw [lockTargets, if_neg Bool.false_ne_true, List.mem_cons, absorbedMembers, ha.mem_membersOf,
    ha.canonical_canonical]
  constructor
  · rintro (rfl | ⟨hu, -⟩)
    · exact ha.canonical_canonical v
    · exact hu
  · intro hu
    by_cases hroot : u = a.canonical v
    · exact Or.inl hroot
    · exact Or.inr ⟨hu, hroot⟩

/-- Every variable that a lock puts a constant on is there. -/
lemma contains_of_mem_lockTargets {a : Arena α} (ha : a.WellFormed) {v w : VarId} {scrub : Bool}
    (hv : a.contains v = true) (hw : w ∈ lockTargets a v scrub) : a.contains w = true := by
  have hgroup : w ∈ lockTargets a v false := by
    cases scrub with
    | false => exact hw
    | true => exact List.mem_cons.2 (Or.inl (by simpa [lockTargets] using hw))
  rw [mem_lockTargets ha] at hgroup
  rw [← ha.contains_canonical_iff, hgroup]
  exact ha.contains_canonical hv

/-- A lock without a value holds the canonical variable and, unless it scrubs, the rest of the
group. -/
lemma ensures_lock_none_holding (hs : s.Intact) (v : VarId) (scrub : Bool) :
    Ensures (fun _ => True) (lock v none scrub)
      (fun _ s' => Holding (lockTargets s.arena v scrub).reverse s s') s := by
  refine ensures_read trivial fun root hroot => ?_
  obtain ⟨_, -, hpure⟩ := bind_eq_ok_iff.1 hroot
  cases hpure
  refine (ensures_forM_holding (.refl _) hs (lockTargets s.arena v scrub)).imp
    fun _ s' hholding => ?_
  simpa using hholding.1

/-- **A lock** writes its value, and then holds the canonical variable and, unless it scrubs, the
rest of the group. -/
theorem ensures_lock_holding (hs : s.Intact) (v : VarId) (x : α) (scrub : Bool) :
    Ensures (fun _ => True) (lock v (some x) scrub) (fun _ s' => ∃ a,
      s.arena.setValue v x = .ok a ∧
        Holding (lockTargets a v scrub).reverse { s with arena := a } s') s := by
  rw [lock, ensures_bind, setValue, onArena, ensures_get_bind]
  refine ensures_read trivial fun a hset => ?_
  obtain ⟨ha, hshape, -⟩ := hs.arena.of_setValue hset
  have hs' : Intact { s with arena := a } := hs.revalue ha hshape
  exact (ensures_lock_none_holding hs' v scrub).imp fun _ s' hholding => ⟨a, hset, hholding⟩

/-! ## The value after a lock -/

/-- Where the canonical variable of `v` has a constant, no constant of the group that stands before
it in its cluster asks for another value than the present one. -/
def Undisputed (s : Sketch α) (v : VarId) : Prop :=
  ∀ cs s', s.clustered = .ok (cs, s') → ∀ c ∈ cs, ∀ before id after y,
    c.constraints = before ++ id :: after →
    s'.constraints.get? id = some (.constant (s'.arena.canonical v) y) →
    ∀ j ∈ before, ∀ u z, s'.constraints.get? j = some (.constant u z) →
      s'.arena.canonical u = s'.arena.canonical v → s'.arena.value? u = some z

/-- Constants expose nothing. -/
lemma Holding.exposed_subset {held : List VarId} (h : Holding held s₀ s) :
    s.exposed ⊆ s₀.exposed := by
  intro w hw
  rw [mem_exposed_iff, h.handles] at hw
  refine mem_exposed_iff.2 (hw.imp (fun hw => hw) ?_)
  rintro ⟨id, m, x, b, hget, hdegenerate⟩
  rcases h.others id _ hget with hget | ⟨u, -, y, ⟨⟩, -⟩
  exact ⟨id, m, x, b, hget, hdegenerate⟩

omit [Scalar α] in
/-- A variable has one constant at most. -/
lemma Registered.constant_unique (h : s.Registered) {i j : ConstraintId} {u : VarId} {y z : α}
    (hi : s.constraints.get? i = some (.constant u y))
    (hj : s.constraints.get? j = some (.constant u z)) : i = j ∧ y = z := by
  have hmemo := h.remembered hi rfl
  rw [h.remembered hj rfl] at hmemo
  cases hmemo
  rw [hi] at hj
  cases hj
  exact ⟨rfl, rfl⟩

/-- A constant on a variable that is held is at the value that is held. -/
lemma Holding.value_of_constant {held : List VarId} (h : Holding held s₀ s) (hs : s.Registered)
    {u : VarId} (hu : u ∈ held) {id : ConstraintId} {y : α}
    (hget : s.constraints.get? id = some (.constant u y)) : s₀.arena.value? u = some y := by
  obtain ⟨j, z, hj, hz⟩ := h.constants u hu
  obtain ⟨-, rfl⟩ := hs.constant_unique hget hj
  exact hz

end Sketch

/-! ## Exact numbers -/

namespace Sketch

open Edit

variable {α σ : Type} [Exact α] {s s₁ : Sketch α}

/-- What has been read from a variable is written to it again. -/
lemma Reachable.lift_lower (h : Reachable s) (u : VarId) (z : α) :
    s.arena.lift u (s.arena.lower u z) = z := by
  have hlinked := h.intact.arena.toLinked
  rw [hlinked.lift_eq, hlinked.apply_lower h.invertible]

/-- Whenever the clustering is kept, clustering anew would change nothing but the clusters. -/
lemma Reachable.settled (h : Reachable s) {cs : List (Cluster α)} (hcs : s.clusters = some cs) :
    s.Settled :=
  (h.cached Scalar.tolerates_eq fun x y hxy => by simpa using hxy).settled h.intact hcs

/-- A lock leads from reachable sketches to reachable ones. -/
lemma Reachable.after_lock (h : Reachable s) {v : VarId} {x : Option α} {scrub : Bool}
    (hlock : lock v x scrub s = .ok ⟨⟩ s₁) : Reachable s₁ := by
  have hafter := (ensures_bind _ _).1 (h.ensures_perform (.lock v x scrub))
  rw [Ensures, hlock] at hafter
  exact hafter

/-- **The latest lock wins.**  Take a group that nothing but constants decides on: no handle has a
coordinate in it, no degenerate linear relationship sets it, and gizmos are not stabilised.  If a
variable of it is locked to a value, it has this value after a solve, whatever the minimizer does
and whatever was locked before.  If the lock only scrubs, this takes that no older constant of the
group disputes it. -/
theorem reachable_lock_wins (h : Reachable s) {cs : List (Cluster α)} (hcs : s.clusters = some cs)
    {v : VarId} {x : α} {scrub : Bool}
    (hexposed : ∀ w ∈ s.exposed, s.arena.canonical w ≠ s.arena.canonical v)
    (hgizmos : s.stabilizeGizmos = false) (hlock : lock v (some x) scrub s = .ok ⟨⟩ s₁)
    (hscrub : scrub = false ∨ s₁.Undisputed v) (m : Minimizer σ α) (memory : σ) :
    (s₁.solveWith m memory).2.2.arena.value? v = some x := by
  have hspec := ensures_lock_holding h.intact v x scrub
  rw [Ensures, hlock] at hspec
  obtain ⟨a, hset, hholding⟩ := hspec
  obtain ⟨ha, hshape, hvalue⟩ := h.intact.arena.of_setValue hset
  have hs₁ : Reachable s₁ := h.after_lock hlock
  have harena : s₁.arena = a := hholding.arena
  have hcanonical : s₁.arena.canonical = s.arena.canonical := by
    rw [harena, canonical_congr hshape]
  -- clustering comes to the same groups again, and one of the constants decides
  obtain ⟨cs₁, s₂, hclustered, -⟩ := hs₁.intact.clustered_spec
  obtain rfl := (hholding.settled ((h.settled hcs).revalue ha hshape)).clustered hclustered
  obtain ⟨id, y₀, hroot, hy₀⟩ := hholding.constants (a.canonical v) (by simp [lockTargets])
  have hgroup : s₁.arena.canonical (a.canonical v) = s₁.arena.canonical v := by
    rw [harena, ha.canonical_canonical]
  obtain ⟨c, hc, first, i, rest, u, y, hsplit, hid, hget, hu, hfinal⟩ :=
    hs₁.intact.solveWith_decided hclustered
      (fun w hw => by
        rw [hcanonical]
        exact hexposed w (hholding.exposed_subset hw))
      (fun hstabilize => by
        rw [hholding.stabilizeGizmos, hgizmos] at hstabilize
        cases hstabilize)
      hroot hgroup m memory
  -- whichever decides, it is at the value that the lock has led to
  have hpresent : a.value? u = some y := by
    rcases hscrub with rfl | hundisputed
    · have hheld : u ∈ lockTargets a v false := (mem_lockTargets ha u v).2 (harena ▸ hu)
      exact hholding.value_of_constant hs₁.registered (List.mem_reverse.2 hheld) hget
    · rcases List.mem_cons.1 hid with rfl | hid
      · rw [hroot] at hget
        cases hget
        exact hy₀
      · obtain ⟨between, after, rfl⟩ := List.append_of_mem hid
        have hagrees := hundisputed _ _ hclustered c hc (first ++ i :: between) id after y₀
          (by rw [hsplit]; simp) (harena ▸ hroot) i (by simp) u y hget hu
        rwa [harena] at hagrees
  -- that value is the one that `x` stands for
  rw [hvalue, if_pos (by rw [← hcanonical]; exact hu)] at hpresent
  cases hpresent
  rw [hfinal]
  show some (s₁.arena.lower v (s₁.arena.lift u (s.arena.lower u (s.arena.lift v x)))) = some x
  have hshape₁ : s₁.arena.shape = s.arena.shape := by rw [harena, hshape]
  rw [Arena.lower_congr hshape₁, Arena.lift_congr hshape₁, h.lift_lower,
    h.lower_lift (Or.inr ⟨inferInstance, rfl⟩)]

/-- The two variables after clustering. -/
def clusteredTied : Sketch ℚ :=
  Operation.cluster.perform.after tied

lemma reachable_clusteredTied : Reachable clusteredTied :=
  .perform _ reachable_tied

lemma eq_ok_after {x : Edit ℚ Unit} {s : Sketch ℚ} (h : (x.run' s).isSome = true) :
    x s = .ok ⟨⟩ (x.after s) :=
  (exists_ok_after h).choose_spec

/-- A lock to the value that the constants call for. -/
def agreedTied : Sketch ℚ :=
  (lock ⟨0⟩ (some 9) true).after clusteredTied

lemma agreedTied_constants {j : ConstraintId} {u : VarId} {z : ℚ}
    (h : (Operation.cluster.perform.after agreedTied).constraints.get? j = some (.constant u z)) :
    (Operation.cluster.perform.after agreedTied).arena.value? u = some z := by
  have hmem := (OrderedMap.mem_entries_iff _ _ _).2 h
  have hentries : (Operation.cluster.perform.after agreedTied).constraints.entries =
      [(⟨2⟩, .linear ⟨0⟩ 2 ⟨1⟩ 1), (⟨3⟩, .constant ⟨1⟩ 4), (⟨4⟩, .constant ⟨0⟩ 9)] := by
    decide +kernel
  rw [hentries] at hmem
  simp only [List.mem_cons, Prod.mk.injEq, List.not_mem_nil, or_false] at hmem
  rcases hmem with ⟨-, ⟨⟩⟩ | ⟨-, ⟨⟩⟩ | ⟨-, ⟨⟩⟩ <;> decide +kernel

/-- The lock of a whole group wins over the constant on one of its variables, and a lock that only
scrubs wins if it agrees with that constant. -/
theorem lock_wins_tied :
    ((((lock ⟨0⟩ (some 5) false).after clusteredTied).solveWith stay ()).2.2.arena.value? ⟨0⟩ =
      some 5) ∧
    (agreedTied.solveWith stay ()).2.2.arena.value? ⟨0⟩ = some 9 := by
  have hclusters : clusteredTied.clusters = some [tiedCluster] := by decide +kernel
  constructor
  · exact reachable_lock_wins reachable_clusteredTied hclusters (by decide +kernel)
      (by decide +kernel) (eq_ok_after (by decide +kernel)) (Or.inl rfl) stay ()
  · refine reachable_lock_wins reachable_clusteredTied hclusters (by decide +kernel)
      (by decide +kernel) (eq_ok_after (by decide +kernel)) (Or.inr ?_) stay ()
    intro _ _ hclustered _ _ _ _ _ _ _ _ _ _ _ _ hget _
    rw [← after_cluster hclustered] at hget ⊢
    exact agreedTied_constants hget

/-- **A scrub loses** against an older constant, even on the very variable that is locked. -/
theorem scrub_loses :
    ¬ ∀ (s s₁ : Sketch ℚ) (cs : List (Cluster ℚ)) (v : VarId) (x : ℚ) (scrub : Bool),
      Reachable s → s.clusters = some cs →
      (∀ w ∈ s.exposed, s.arena.canonical w ≠ s.arena.canonical v) →
      s.stabilizeGizmos = false → lock v (some x) scrub s = .ok ⟨⟩ s₁ →
      ∀ m : Minimizer Unit ℚ, (s₁.solveWith m ()).2.2.arena.value? v = some x := by
  intro hwins
  have hvalue := hwins clusteredTied _ [tiedCluster] ⟨1⟩ 9 true reachable_clusteredTied
    (by decide +kernel) (by decide +kernel) (by decide +kernel) (eq_ok_after (by decide +kernel))
    stay
  have hother : (((lock ⟨1⟩ (some 9) true).after clusteredTied).solveWith stay ()).2.2.arena.value?
      ⟨1⟩ ≠ some 9 := by decide +kernel
  exact hother hvalue

end Sketch

end SketchSolver
