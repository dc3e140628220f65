import Mathlib
import SketchSolver.Proofs.Arena.Forest
import SketchSolver.Proofs.Sketch.Consistent
import SketchSolver.Proofs.Sketch.Insert
import SketchSolver.Proofs.Sketch.Rearrange
import SketchSolver.Proofs.Sketch.Rebuild

/-!
# Relationships that hold

With exact numbers a relationship takes effect when it is issued or when the sketch is clustered,
and then it holds until its two sides are taken apart.

* `Sketch.InForce` — how a tie takes effect, and how it stays.
* `InForce.of_scales` — a small forest with moderate scales takes effect when it is clustered.
* `InForce.bound` — what is in force is unified by the map that was asked for.
* `InForce.holds` — so it is an equation between the values.
* `inForce_holds` — the ties of the relationships that are there.
* `relationships_broken` — a removal or a break can take two sides apart that a relationship is
  still to keep together, and issuing that relationship once more leaves them apart.  A request
  between sides that are together, or one that composes to a degenerate map, merges nothing.  What
  does not hold then does not hold until the next clustering, and in a long row of ties (`ladder`)
  not even after that.
-/

namespace SketchSolver

namespace Sketch

open Arena Edit

variable {α : Type} [Exact α] {s s' : Sketch α} {e : Tie α}

/-- The tie has taken effect and has stayed so.

* It takes effect when the sketch is clustered, if the ties that are there form a forest and none of
  the maps between their variables is degenerate.
* It takes effect when a relationship is issued that asks for it, be it a new one or a new version
  of one that is there, if that merges two groups, or if its two sides are unified by its map
  anyhow.  A relationship that is there as it is issued is left alone.
* It stays so in every operation that leaves its two sides together, and in every solve.

A relationship that is replaced or removed leaves its tie in force for as long as the sides are
together; which ties the sketch asks for is another matter. -/
inductive InForce (e : Tie α) : Sketch α → Prop where
  | current {s : Sketch α} {cs : List (Cluster α)} : Reachable s → s.clusters = some cs →
      Forest (s.constraints.ties s.handles) → Regular (s.constraints.ties s.handles) →
      e ∈ s.constraints.ties s.handles → InForce e s
  | issued {s s' : Sketch α} {op : Operation α} {k : Constraint α} {answer : Answer α}
      {rs : List (Request α)} {b : Arena α} {r : Request α} : Reachable s →
      op.relationship = some k → (∀ id, s.constraints.get? id ≠ some k) →
      op.perform s = .ok answer s' → s.arena.Requests rs b →
      rs.map Request.toTie = k.ties s.handles → r ∈ rs → r.toTie = e →
      (r.Merges ∨ e.this ≠ e.that ∧ s.arena.Bound e) → InForce e s'
  | kept {s : Sketch α} (op : Operation α) : op ≠ .cluster → InForce e s →
      (op.perform.after s).arena.canonical e.this = (op.perform.after s).arena.canonical e.that →
      InForce e (op.perform.after s)
  | solved {s : Sketch α} {cs : List (Cluster α)} {σ : Type} (m : Minimizer σ α) (memory : σ) :
      s.clusters = some cs → InForce e s → InForce e (s.solveWith m memory).2.2

/-- In particular, up to 102 ties of a forest that scale by something between a thousandth and a
thousand are in force while a clustering is kept. -/
lemma InForce.of_scales {cs : List (Cluster α)} (h : Reachable s) (hcs : s.clusters = some cs)
    (hforest : Forest (s.constraints.ties s.handles))
    (hlength : (s.constraints.ties s.handles).length ≤ 102)
    (hscales : ∀ e ∈ s.constraints.ties s.handles,
      1 / 1000 ≤ |e.offset.scale| ∧ |e.offset.scale| ≤ 1000)
    (he : e ∈ s.constraints.ties s.handles) : InForce e s :=
  .current h hcs hforest (regular_of_forest hforest hlength hscales) he

/-- With exact numbers, a relationship that compares as equal is the same. -/
lemma eq_of_beq {c d : Constraint α} (hd : d.Relates) (h : (c == d) = true) : c = d := by
  have halike := Constraint.alike_of_beq (t := .empty) (fun x y hxy => by simpa using hxy) h
  cases halike with
  | linear y x hnear =>
      obtain ⟨hscale, hshift⟩ := hnear
      simp only at hscale hshift
      rw [hscale, hshift]
  | absorb => rfl
  | _ => exact hd.elim

/-- What is in force is unified by the map that was asked for, and has two sides. -/
theorem InForce.bound (h : InForce e s) : Reachable s ∧ s.arena.Bound e ∧ e.this ≠ e.that := by
  induction h with
  | @current s cs hs hcs hforest hregular he =>
      obtain ⟨ties, drops, hrebuild⟩ := hs.rebuild hcs
      rw [← hrebuild.asked] at hforest hregular he
      refine ⟨hs, bound_of_forest hrebuild.run hforest hregular e he, fun hsame => ?_⟩
      obtain ⟨before, after, hsplit⟩ := List.append_of_mem he
      exact hforest before e after hsplit (hsame ▸ .refl _)
  | @issued s s' op k answer rs b r hs hop hnew hrun hrequests hties hr he hmet =>
      have hafter := after_eq hrun
      have hs' : Reachable s' := hafter ▸ .perform op hs
      have hrelated := op.ensures_related hop hs.intact
      rw [Ensures, hrun] at hrelated
      rcases hrelated with hrelated | ⟨-, id, old, hold, hbeq⟩
      · obtain ⟨b', hrelate, hshape⟩ := hrelated.made
        obtain ⟨rs', hrequests', hties'⟩ := Constraint.requests_relate hrelate
        obtain ⟨rfl, rfl⟩ := hrequests.unique hrequests' (hties.trans hties'.symm)
        subst he
        rcases hmet with hmerges | ⟨hne, hbound⟩
        · refine ⟨hs', Bound.of_shape ?_ hshape, fun hsame => hmerges.1 (by rw [hsame])⟩
          exact hs.intact.arena.requests_bound hs.invertible hrequests r hr hmerges
        · refine ⟨hs', Bound.of_shape ?_ hshape, hne⟩
          exact hbound.unifies hs.intact.arena hs.invertible hrequests.unifies
      · obtain rfl := eq_of_beq (Operation.relates_of_relationship hop) hbeq
        exact absurd hold (hnew id)
  | @kept s op hop _ htogether ih =>
      obtain ⟨hs, hbound, hne⟩ := ih
      have hs' := Reachable.perform op hs
      refine ⟨hs', ?_, hne⟩
      rcases op.sheds_or_related hop hs.intact with hsheds | ⟨c, -, hrelated⟩
      · exact hbound.sheds hsheds hs.intact.arena.toLinked hs.invertible
          hs'.intact.arena.toLinked htogether
      · obtain ⟨b, hrelate, hshape⟩ := hrelated.made
        obtain ⟨rs, hrun, -⟩ := Constraint.requests_relate hrelate
        exact (hbound.unifies hs.intact.arena hs.invertible hrun.unifies).of_shape hshape
  | @solved s cs σ m memory hcs _ ih =>
      obtain ⟨hs, hbound, hne⟩ := ih
      refine ⟨.solveWith m memory hs, ?_, hne⟩
      obtain ⟨cs', s', _, _, b, hclustered, -, -, -, hwithin, hsolve⟩ :=
        hs.intact.solveWith_spec m memory
      rw [clustered, hcs] at hclustered
      cases hclustered
      rw [hsolve]
      exact hbound.of_shape hwithin.shape

/-- The value of the one side is what the map of the tie makes of the value of the other side. -/
lemma InForce.holds (h : InForce e s) :
    ∃ x, s.arena.value? e.that = some x ∧
      s.arena.value? e.this = some (e.offset.scale * x + e.offset.shift) := by
  obtain ⟨hs, hbound, hne⟩ := h.bound
  have hwf := hs.intact.arena
  -- a variable that is not there is its own canonical variable
  have hthat : s.arena.contains e.that = true := by
    by_contra habsent
    rw [Bool.not_eq_true] at habsent
    have hroot := hbound.canonical
    rw [canonical_of_absent habsent] at hroot
    cases hthis : s.arena.contains e.this with
    | false =>
        rw [canonical_of_absent hthis] at hroot
        exact hne hroot
    | true =>
        have hlive := hwf.contains_canonical hthis
        rw [hroot, habsent] at hlive
        cases hlive
  obtain ⟨x, hx⟩ := (s.arena.contains_iff_value? e.that).1 hthat
  refine ⟨x, hx, ?_⟩
  rw [hbound.value hwf hs.invertible, hx]
  rfl

/-- **A relationship that is in force holds.**  While a clustering is kept, all relationships of a
small forest with moderate scales are in force. -/
theorem inForce_holds :
    (∀ {s : Sketch α}, ∀ e ∈ s.constraints.ties s.handles, InForce e s →
      ∃ x, s.arena.value? e.that = some x ∧
        s.arena.value? e.this = some (e.offset.scale * x + e.offset.shift)) ∧
    ∀ {s : Sketch α} {cs : List (Cluster α)}, Reachable s → s.clusters = some cs →
      Forest (s.constraints.ties s.handles) → (s.constraints.ties s.handles).length ≤ 102 →
      (∀ e ∈ s.constraints.ties s.handles,
        1 / 1000 ≤ |e.offset.scale| ∧ |e.offset.scale| ≤ 1000) →
      ∀ e ∈ s.constraints.ties s.handles, InForce e s :=
  ⟨fun _ _ => InForce.holds, fun hs hcs hforest hlength hscales _ he =>
    .of_scales hs hcs hforest hlength hscales he⟩

/-! ## Two variables that are tied -/

/-- Two variables. -/
def pair : Sketch ℚ :=
  (Operation.addVariable 1 none).perform.after <|
    (Operation.addVariable 1 none).perform.after empty

lemma reachable_pair : Reachable pair :=
  .perform _ (.perform _ (.withConfig _))

/-- Two variables, the first one tied to the second one. -/
def coupled : Sketch ℚ :=
  (Operation.linear ⟨0⟩ 2 ⟨1⟩ 1).perform.after pair

lemma reachable_coupled : Reachable coupled :=
  .perform _ reachable_pair

/-- A linear relationship, if it is all there is, asks for one tie. -/
lemma ties_linear (id : ConstraintId) {y x : VarId} {m b : ℚ} {s : Sketch ℚ}
    (hentries : s.constraints.entries = [(id, .linear y m x b)]) :
    s.constraints.ties s.handles = [⟨y, x, ⟨m, b⟩⟩] := by
  simp [ConstraintTable.ties, OrderedMap.values, hentries, Constraint.ties]

lemma ties_coupled :
    (Operation.cluster.perform.after coupled).constraints.ties
      (Operation.cluster.perform.after coupled).handles = [⟨⟨0⟩, ⟨1⟩, ⟨2, 1⟩⟩] :=
  ties_linear ⟨2⟩ (by decide +kernel)

lemma ties_written :
    ((Operation.setValue ⟨1⟩ 4).perform.after coupled).constraints.ties
      ((Operation.setValue ⟨1⟩ 4).perform.after coupled).handles = [⟨⟨0⟩, ⟨1⟩, ⟨2, 1⟩⟩] :=
  ties_linear ⟨2⟩ (by decide +kernel)

/-- After one variable is tied to the other one, it follows at once when that is written.  The tie
is in force as well once the sketch is clustered. -/
theorem holds_pair :
    (∃ x, ((Operation.setValue ⟨1⟩ 4).perform.after coupled).arena.value? ⟨1⟩ = some x ∧
      ((Operation.setValue ⟨1⟩ 4).perform.after coupled).arena.value? ⟨0⟩ = some (2 * x + 1)) ∧
    InForce ⟨⟨0⟩, ⟨1⟩, ⟨2, 1⟩⟩ (Operation.cluster.perform.after coupled) := by
  have hzero : pair.arena.contains ⟨0⟩ = true := by decide +kernel
  have hone : pair.arena.contains ⟨1⟩ = true := by decide +kernel
  obtain ⟨merged, b, hunify, -⟩ := reachable_pair.intact.arena.unify_coarsens hzero hone ⟨2, 1⟩
  obtain ⟨answer, hrun⟩ := exists_ok_after (x := (Operation.linear ⟨0⟩ 2 ⟨1⟩ 1).perform)
    (s := pair) (by decide +kernel)
  have hnone : pair.constraints.entries = [] := by decide +kernel
  have hissued : InForce ⟨⟨0⟩, ⟨1⟩, ⟨2, 1⟩⟩ coupled := by
    refine .issued (r := ⟨⟨⟨0⟩, ⟨1⟩, ⟨2, 1⟩⟩, pair.arena⟩) reachable_pair rfl ?_ hrun
      (.single hunify) rfl List.mem_cons_self rfl (Or.inl ⟨by decide +kernel, by decide +kernel⟩)
    intro id hget
    rw [OrderedMap.get?, hnone] at hget
    cases hget
  refine ⟨inForce_holds.1 _ (ties_written ▸ List.mem_cons_self)
    (.kept _ (by rintro ⟨⟩) hissued (by decide +kernel)), ?_⟩
  obtain ⟨cs, hcs⟩ := Option.isSome_iff_exists.1
    (by decide +kernel : (Operation.cluster.perform.after coupled).clusters.isSome = true)
  refine inForce_holds.2 (.perform _ reachable_coupled) hcs ?_ ?_ ?_ _
    (ties_coupled ▸ List.mem_cons_self)
  · rw [ties_coupled]
    exact forest_singleton (by decide)
  · rw [ties_coupled]
    decide
  · rw [ties_coupled]
    simp only [List.mem_singleton, forall_eq]
    norm_num

/-! ## Relationships that do not hold -/

/-- The operation succeeds, and afterwards the tie does not hold, though it belongs to a
relationship that is there, the ties of all these relationships form a forest, and their scales are
moderate. -/
structure Breaks (op : Operation ℚ) (s : Sketch ℚ) (e : Tie ℚ) : Prop where
  reachable : Reachable s
  succeeds : ∃ answer, op.perform s = .ok answer (op.perform.after s)
  forest : Forest ((op.perform.after s).constraints.ties (op.perform.after s).handles)
  scales : ∀ d ∈ (op.perform.after s).constraints.ties (op.perform.after s).handles,
    1 / 1000 ≤ |d.offset.scale| ∧ |d.offset.scale| ≤ 1000
  mem : e ∈ (op.perform.after s).constraints.ties (op.perform.after s).handles
  broken : ¬ ∃ x, (op.perform.after s).arena.value? e.that = some x ∧
    (op.perform.after s).arena.value? e.this = some (e.offset.scale * x + e.offset.shift)

/-- One linear relationship that does not hold. -/
lemma breaks_linear {op : Operation ℚ} {s : Sketch ℚ} (id : ConstraintId) {y x : VarId}
    {m b u v : ℚ} (hs : Reachable s) (hrun : (op.perform.run' s).isSome = true)
    (hentries : (op.perform.after s).constraints.entries = [(id, .linear y m x b)])
    (hne : y ≠ x) (hscale : 1 / 1000 ≤ |m| ∧ |m| ≤ 1000)
    (hy : (op.perform.after s).arena.value? y = some u)
    (hx : (op.perform.after s).arena.value? x = some v) (hbroken : u ≠ m * v + b) :
    Breaks op s ⟨y, x, ⟨m, b⟩⟩ := by
  have hties := ties_linear id hentries
  refine ⟨hs, exists_ok_after hrun, ?_, ?_, hties ▸ List.mem_cons_self, ?_⟩
  · rw [hties]
    exact forest_singleton hne
  · rw [hties]
    rintro d hd
    obtain rfl := List.mem_singleton.1 hd
    exact hscale
  · rintro ⟨x', hthat, hthis⟩
    rw [hx] at hthat
    cases hthat
    rw [hy] at hthis
    exact hbroken (Option.some.inj hthis)

/-! ### A long row of ties -/

/-- The linear relationship that asks for a rung. -/
def rungConstraint (i : Nat) : Constraint ℚ :=
  .linear ⟨i⟩ (1 / 1000) ⟨i + 1⟩ 0

/-- As many variables as a row of 103 ties needs. -/
def scattered : Sketch ℚ :=
  (List.range 104).foldl (fun s _ => (Operation.addVariable 0 none).perform.after s) empty

/-- That many of them, tied in a row. -/
def ladder : Nat → Sketch ℚ
  | 0 => scattered
  | n + 1 => (Operation.linear ⟨n⟩ (1 / 1000) ⟨n + 1⟩ 0).perform.after (ladder n)

/-- A ladder with so many rungs can be reached, and consists of them. -/
structure IsLadder (n : Nat) (s : Sketch ℚ) : Prop where
  reachable : Reachable s
  contains : ∀ i < 104, s.arena.contains ⟨i⟩ = true
  values : s.constraints.values = (List.range n).map rungConstraint

lemma isLadder_scattered : IsLadder 0 scattered where
  reachable := by
    refine List.foldlRecOn (motive := Reachable) _ _ (.withConfig _) fun s hs _ _ => .perform _ hs
  contains := by decide +kernel
  values := by decide +kernel

/-- The next rung can be added. -/
lemma IsLadder.step {n : Nat} {s : Sketch ℚ} (h : IsLadder n s) (hn : n < 103) :
    IsLadder (n + 1) ((Operation.linear ⟨n⟩ (1 / 1000) ⟨n + 1⟩ 0).perform.after s) := by
  have hs := h.reachable.intact
  have hlive : (rungConstraint n).Live s.handles s.arena := by
    refine ⟨by simp [rungConstraint, Constraint.handles], fun v hv => ?_⟩
    simp only [rungConstraint, Constraint.inputs, Constraint.owned, Constraint.ownedQuantities,
      List.map_nil, List.append_nil, List.mem_cons, List.not_mem_nil, or_false] at hv
    rcases hv with rfl | rfl
    · exact h.contains n (by omega)
    · exact h.contains (n + 1) (by omega)
  have hensures : Ensures (fun _ => False) (Operation.linear ⟨n⟩ (1 / 1000) ⟨n + 1⟩ 0).perform
      (fun _ s' => ∃ id, Added (rungConstraint n) id s s') s :=
    (ensures_map _ _).2 ((ensures_insertConstraint_added hs.toSoundExcept hlive (by simp)).imp
      fun id _ hadded => ⟨id, hadded⟩)
  obtain ⟨answer, s', hrun, id, hadded⟩ := hensures.exists_ok
  rw [after_eq hrun]
  refine ⟨after_eq hrun ▸ .perform _ h.reachable, fun i hi => ?_, ?_⟩
  · have hids : s'.arena.ids = s.arena.ids := by
      rcases hadded.drawn with ⟨hsame, -⟩ | hrelate
      · rw [hsame]
      · obtain ⟨rs, hrequests, -⟩ := Constraint.requests_relate hrelate
        exact (hs.arena.unifies_coarsens hrequests.unifies).ids
    rw [contains_of_ids hids]
    exact h.contains i hi
  · have hnew : id ∉ s.constraints.keys := by
      intro hmem
      obtain ⟨old, hold⟩ := (s.constraints.mem_keys_iff_exists id).1 hmem
      obtain ⟨-, key, hkey, hkey'⟩ := sameKey_eq_some hs.toSoundExcept (hadded.replaced hold)
      have hvalue := OrderedMap.mem_values_of_get? hold
      rw [h.values] at hvalue
      obtain ⟨j, hj, rfl⟩ := List.mem_map.1 hvalue
      cases hkey
      cases hkey'
      exact absurd (List.mem_range.1 hj) (Nat.lt_irrefl n)
    rw [hadded.constraints, OrderedMap.values, OrderedMap.entries_insert_of_not_mem _ hnew,
      List.map_append, ← OrderedMap.values, h.values, List.range_succ, List.map_append]
    rfl

lemma isLadder_ladder {n : Nat} (hn : n ≤ 103) : IsLadder n (ladder n) := by
  induction n with
  | zero => exact isLadder_scattered
  | succ n ih => exact (ih (Nat.le_of_succ_le hn)).step hn

/-- A ladder asks for its rungs. -/
lemma IsLadder.ties {n : Nat} {s : Sketch ℚ} (h : IsLadder n s) (t : HandleTable) :
    s.constraints.ties t = (List.range n).map rung := by
  rw [ConstraintTable.ties, h.values, List.flatMap_map, List.map_eq_flatMap]
  rfl

/-- A ladder measures nothing. -/
lemma IsLadder.residuals {n : Nat} {s : Sketch ℚ} (h : IsLadder n s) (t : HandleTable) :
    s.constraints.residuals t = [] := by
  rw [ConstraintTable.residuals, h.values, List.flatMap_map]
  exact List.flatMap_eq_nil_iff.2 fun _ _ => rfl

/-- A ladder is one still when it is clustered. -/
lemma IsLadder.clustered {n : Nat} {s t : Sketch ℚ} {cs : List (Cluster ℚ)} (h : IsLadder n s)
    (hclustered : s.clustered = .ok (cs, t)) : IsLadder n t ∧ t.clusters = some cs := by
  obtain ⟨_, _, hclustered', -, hcs, hconstraints, -, -, hids⟩ := h.reachable.intact.clustered_spec
  rw [hclustered] at hclustered'
  cases hclustered'
  refine ⟨⟨h.reachable.clustered hclustered, fun i hi => ?_, ?_⟩, hcs⟩
  · rw [contains_of_ids hids]
    exact h.contains i hi
  · rw [hconstraints]
    exact h.values

/-- The last rung of a long ladder unifies nothing when the ladder is clustered. -/
lemma IsLadder.apart {s : Sketch ℚ} {cs : List (Cluster ℚ)} (h : IsLadder 103 s)
    (hcs : s.clusters = some cs) : s.arena.canonical ⟨102⟩ ≠ s.arena.canonical ⟨103⟩ := by
  obtain ⟨ties, drops, hrebuild⟩ := h.reachable.rebuild hcs
  -- nothing was dropped, so the rungs are all that was asked for
  obtain rfl : drops = [] := List.eq_nil_iff_forall_not_mem.2 fun r hr => by
    obtain ⟨x, hx, -⟩ := hrebuild.clashes r hr
    rw [h.residuals] at hx
    cases hx
  have hrun := hrebuild.run
  rw [List.append_nil] at hrun
  exact hrun.refused_rung (hrebuild.asked.trans (h.ties s.handles))

/-- What is written to the foot of the last rung does not reach the rest of the ladder then. -/
lemma IsLadder.breaks {s : Sketch ℚ} (h : IsLadder 103 s)
    (hapart : s.arena.canonical ⟨102⟩ ≠ s.arena.canonical ⟨103⟩) :
    ∃ x, Breaks (.setValue ⟨103⟩ x) s (rung 102) := by
  obtain ⟨w, hw⟩ := (s.arena.contains_iff_value? ⟨102⟩).1 (h.contains 102 (by decide))
  obtain ⟨b, hset, -, -, hvalue⟩ :=
    h.reachable.intact.arena.setValue_spec (h.contains 103 (by decide)) (1000 * w + 1)
  have hensures : Ensures (fun _ => False) (Operation.setValue ⟨103⟩ (1000 * w + 1)).perform
      (fun _ s' => s' = { s with arena := b }) s := by
    show Ensures _ (setValue ⟨103⟩ (1000 * w + 1) >>= fun _ => pure _) _ s
    rw [ensures_bind, setValue, onArena, ensures_get_bind, ensures_found hset]
    rfl
  obtain ⟨answer, s', hrun, rfl⟩ := hensures.exists_ok
  have hafter := after_eq hrun
  have hties := h.ties s.handles
  refine ⟨1000 * w + 1, h.reachable, ⟨answer, hafter ▸ hrun⟩, ?_, ?_, ?_, ?_⟩ <;> rw [hafter]
  · show Forest (s.constraints.ties s.handles)
    rw [hties]
    exact forest_rungs 103
  · show ∀ d ∈ s.constraints.ties s.handles, _
    rw [hties]
    intro d hd
    obtain ⟨i, -, rfl⟩ := List.mem_map.1 hd
    norm_num [rung]
  · show rung 102 ∈ s.constraints.ties s.handles
    rw [hties]
    exact List.mem_map_of_mem (List.mem_range.2 (Nat.lt_succ_self 102))
  · rintro ⟨x, hthat, hthis⟩
    have hwritten : b.value? ⟨103⟩ = some (1000 * w + 1) := by
      rw [hvalue, if_pos rfl, h.reachable.lower_lift (Or.inr ⟨inferInstance, rfl⟩)]
    have hkept : b.value? ⟨102⟩ = some w := by
      rw [hvalue, if_neg hapart, hw]
    have hx := Option.some.inj (hthat.symm.trans hwritten)
    have hw' := Option.some.inj (hthis.symm.trans hkept)
    simp only [rung] at hw'
    linarith

/-- Clustering does not make the last rung of a long ladder hold. -/
lemma breaks_rung : ∃ x,
    Breaks (.setValue ⟨103⟩ x) (Operation.cluster.perform.after (ladder 103)) (rung 102) := by
  have hladder := isLadder_ladder (n := 103) le_rfl
  obtain ⟨cs, t, hclustered, -⟩ := hladder.reachable.intact.clustered_spec
  obtain ⟨ht, hcs⟩ := hladder.clustered hclustered
  rw [after_cluster hclustered]
  exact ht.breaks (ht.apart hcs)

/-! ### Some short ones -/

/-- Three variables. -/
def triple : Sketch ℚ :=
  (Operation.addVariable 1 none).perform.after pair

/-- Three variables, tied in a row. -/
def chained : Sketch ℚ :=
  (Operation.linear ⟨1⟩ 1 ⟨2⟩ 0).perform.after <|
    (Operation.linear ⟨0⟩ 1 ⟨1⟩ 0).perform.after triple

lemma reachable_chained : Reachable chained :=
  .perform _ (.perform _ (.perform _ reachable_pair))

/-- The first variable of the row is removed. -/
def beheaded : Sketch ℚ :=
  (Operation.removeVariable ⟨0⟩).perform.after chained

/-- The first tie of the row is broken. -/
def broken : Sketch ℚ :=
  (Operation.breakOff ⟨0⟩ ⟨1⟩).perform.after chained

/-- A variable that is a tiny part of another one, though the relationship is not there any more. -/
def dwindled : Sketch ℚ :=
  (Operation.removeConstraint ⟨3⟩).perform.after <|
    (Operation.linear ⟨0⟩ (1 / 10 ^ 306) ⟨1⟩ 0).perform.after triple

/-- **Relationships that do not hold.** -/
theorem relationships_broken :
    -- the canonical variable of the group is removed, so its members stand alone
    Breaks (.setValue ⟨1⟩ 5) beheaded ⟨⟨1⟩, ⟨2⟩, ⟨1, 0⟩⟩ ∧
    -- and to issue again what is there already does not bring them together
    Breaks (.linear ⟨1⟩ 1 ⟨2⟩ 0) ((Operation.setValue ⟨1⟩ 5).perform.after beheaded)
      ⟨⟨1⟩, ⟨2⟩, ⟨1, 0⟩⟩ ∧
    -- a member that is broken off leaves the others behind
    Breaks (.setValue ⟨1⟩ 5) broken ⟨⟨1⟩, ⟨2⟩, ⟨1, 0⟩⟩ ∧
    -- the two sides are together already, under another map
    Breaks (.linear ⟨0⟩ 3 ⟨1⟩ 0) coupled ⟨⟨0⟩, ⟨1⟩, ⟨3, 0⟩⟩ ∧
    -- the map between the roots is degenerate
    Breaks (.linear ⟨1⟩ (1 / 1000) ⟨2⟩ 0) dwindled ⟨⟨1⟩, ⟨2⟩, ⟨1 / 1000, 0⟩⟩ ∧
    -- so it can be even when the sketch is clustered
    ∃ x, Breaks (.setValue ⟨103⟩ x) (Operation.cluster.perform.after (ladder 103)) (rung 102) := by
  have hone : (1 / 1000 : ℚ) ≤ |1| ∧ |(1 : ℚ)| ≤ 1000 := by norm_num
  refine ⟨?_, ?_, ?_, ?_, ?_, breaks_rung⟩
  · exact breaks_linear ⟨4⟩ (u := 5) (v := 1) (.perform _ reachable_chained)
      (by decide +kernel) (by decide +kernel) (by decide) hone (by decide +kernel)
      (by decide +kernel) (by norm_num)
  · exact breaks_linear ⟨4⟩ (u := 5) (v := 1)
      (.perform _ (.perform _ reachable_chained)) (by decide +kernel) (by decide +kernel)
      (by decide) hone (by decide +kernel) (by decide +kernel) (by norm_num)
  · exact breaks_linear ⟨4⟩ (u := 5) (v := 1) (.perform _ reachable_chained)
      (by decide +kernel) (by decide +kernel) (by decide) hone (by decide +kernel)
      (by decide +kernel) (by norm_num)
  · exact breaks_linear ⟨2⟩ (u := 1) (v := 0) reachable_coupled (by decide +kernel)
      (by decide +kernel) (by decide) (by norm_num) (by decide +kernel) (by decide +kernel)
      (by norm_num)
  · exact breaks_linear ⟨4⟩ (u := 10 ^ 306) (v := 1)
      (.perform _ (.perform _ (.perform _ reachable_pair))) (by decide +kernel)
      (by decide +kernel) (by decide) (by norm_num) (by decide +kernel) (by decide +kernel)
      (by decide +kernel)

end Sketch

end SketchSolver
