import Mathlib
import SketchSolver.Proofs.Sketch.Known

/-!
# Constants

A constant writes its value when its turn comes, unless its group is known by then.  What is known
first is kept, so the first constraint to decide on a group decides for good.

* `Constraint.conclusion_cases` — which constraints decide on what: a constant on its variable, and
  all others on what `Sketch.exposed` lists.
* `Cluster.Ready.learning_first` — the first constraint of a cluster to decide on a group, if it is
  a constant, gives the group its value.
* `Intact.solveWith_first` — so this is the value after the solve.
* `reachable_constant_forces` — a constant that stands alone forces its value, unless gizmos are
  stabilised and it is on a rod.
* `rod_withstands` — a rod keeps its length, whatever it is locked to.
-/

namespace SketchSolver

open Arena KnownArena

variable {α σ : Type} [Scalar α]

/-! ## Which constraints decide on what -/

/-- The first pass of a cluster decides on a group by a constant, by a degenerate linear
relationship, or by a coordinate of a handle. -/
lemma Constraint.conclusion_cases {k : Constraint α} {t : HandleTable} {rule : Rule}
    (h : rule ∈ k.rules t) :
    (∃ x, k = .constant rule.conclusion x) ∨
      (∃ m x b, k = .linear rule.conclusion m x b ∧ (Affine.mk m b).isDegenerate = true) ∨
      ∃ i p, t.coords? i = some p ∧ (rule.conclusion = p.x ∨ rule.conclusion = p.y) := by
  have hpoint : ∀ {premises i p}, t.coords? i = some p → rule ∈ Rule.toPoint premises p →
      ∃ i p, t.coords? i = some p ∧ (rule.conclusion = p.x ∨ rule.conclusion = p.y) := by
    intro premises i p hp hrule
    simp only [Rule.toPoint, List.mem_cons, List.not_mem_nil, or_false] at hrule
    exact ⟨i, p, hp, hrule.imp (congrArg _) (congrArg _)⟩
  cases k with
  | constant v x =>
      obtain rfl := List.mem_singleton.1 h
      exact Or.inl ⟨x, rfl⟩
  | pin i position =>
      rw [rules] at h
      split at h
      · rename_i p hp
        exact Or.inr (Or.inr (hpoint hp h))
      · cases h
  | linear y m x b =>
      rw [rules] at h
      split at h
      · rename_i hdegenerate
        obtain rfl := List.mem_singleton.1 h
        exact Or.inr (Or.inl ⟨m, x, b, rfl, hdegenerate⟩)
      · cases h
  | polar start finish length bearing =>
      rw [rules] at h
      split at h
      · rename_i p q hp hq
        exact Or.inr (Or.inr ((List.mem_append.1 h).elim (hpoint hq) (hpoint hp)))
      · cases h
  | _ => cases h

/-! ## The first turn -/

/-- **The first one decides.**  If the first constraint of a cluster to decide on a group is a
constant, and the group is not known from the start, then a solve passes through a state in which
the group is known and has the value of the constant. -/
lemma Cluster.Ready.learning_first {constraints : ConstraintTable α} {t : HandleTable}
    {a : Arena α} {c : Cluster α} (hready : c.Ready constraints t a) (ha : a.WellFormed)
    {held : Knowns} (hheld : ∀ w ∈ held, w ∈ c.vars) {first rest : List ConstraintId}
    {id : ConstraintId} {u : VarId} {x : α} (hsplit : c.constraints = first ++ id :: rest)
    (hget : constraints.get? id = some (.constant u x))
    (hfirst : ∀ i ∈ first, ∀ rule ∈ rulesOf constraints t i,
      a.canonical rule.conclusion ≠ a.canonical u)
    (hu : ¬ a.canonical u ∈ held) (fingerOfGod : Bool) :
    ∃ k, c.Learning constraints t fingerOfGod ⟨a, held⟩ k ∧
      ∀ v, a.canonical v = a.canonical u →
        k.isKnown v = true ∧ k.arena.value? v = some (a.lower v (a.lift u x)) := by
  obtain ⟨_, _, -, hpasses⟩ := hready.exists_passes (k := ⟨a, held⟩) ha hheld fingerOfGod
  obtain ⟨_, _, hpass, -⟩ := hpasses.first ha
  obtain ⟨_, hall, -⟩ := bind_eq_ok_iff.1 hpass
  -- the turns before the constant, and its own
  rw [learnAll, hsplit, List.foldlM_append] at hall
  obtain ⟨⟨learned, l⟩, hbefore, hrest⟩ := bind_eq_ok_iff.1 hall
  rw [List.foldlM_cons] at hrest
  obtain ⟨_, hturn, -⟩ := bind_eq_ok_iff.1 hrest
  obtain ⟨y, hturn, -⟩ := bind_eq_ok_iff.1 hturn
  have hlearns : Learns (first.flatMap (rulesOf constraints t)) ⟨a, held⟩ (learned, l) :=
    learns_learnAll (fun i _ k x hk hturn => learns_turn hk hturn) ha hbefore
  have hwithin := hlearns.marks.within ha
  have hmark : l.mark u x = .ok y := by
    rw [ConstraintTable.find, hget] at hturn
    exact hturn
  have hunknown : ¬ l.arena.canonical u ∈ l.knowns := by
    rw [hwithin.canonical]
    intro hknown
    refine hlearns.sound (· ≠ a.canonical u) (fun w hw hwu => hu (hwu ▸ hw)) ?_ _ hknown rfl
    intro rule hrule _
    obtain ⟨i, hi, hrule⟩ := List.mem_flatMap.1 hrule
    exact hfirst i hi rule hrule
  rcases mark_cases hmark with ⟨hknown, -⟩ | ⟨-, -, hset, hknowns⟩
  · exact absurd hknown hunknown
  · refine ⟨y.2, .constraints ⟨first, id, learned, l, y, ?_, hbefore, hturn, ?_, .refl⟩,
      fun v hv => ?_⟩
    · exact ⟨rest, by rw [hsplit]; simp⟩
    · exact .single ⟨u, x, y.1, hmark⟩
    · obtain ⟨-, hshape, hvalue⟩ := hwithin.wellFormed.of_setValue hset
      have hgroup : l.arena.canonical v = l.arena.canonical u := by rwa [hwithin.canonical]
      refine ⟨?_, ?_⟩
      · rw [isKnown_iff, hknowns, OrderedSet.mem_insert, canonical_congr hshape, hgroup]
        exact Or.inr rfl
      · rw [hvalue, if_pos hgroup, Arena.lower_congr hwithin.shape,
          Arena.lift_congr hwithin.shape]

namespace Sketch

variable {s s' : Sketch α}

/-- What may be decided on before the search by something else than a constant: the coordinates of
all handles, and what degenerate linear relationships set. -/
def exposed (s : Sketch α) : List VarId :=
  s.handles.handles.values.flatMap (fun w => [w.x, w.y]) ++
    s.constraints.values.filterMap fun
      | .linear y m _ b => if (Affine.mk m b).isDegenerate then some y else none
      | _ => none

lemma mem_exposed_iff {w : VarId} : w ∈ s.exposed ↔
    (∃ i p, s.handles.coords? i = some p ∧ (w = p.x ∨ w = p.y)) ∨
      ∃ id m x b, s.constraints.get? id = some (.linear w m x b) ∧
        (Affine.mk m b).isDegenerate = true := by
  rw [exposed, List.mem_append, List.mem_flatMap, List.mem_filterMap]
  refine or_congr ⟨?_, ?_⟩ ⟨?_, ?_⟩
  · rintro ⟨handle, hmem, hw⟩
    obtain ⟨⟨i, _⟩, hentry, rfl⟩ := List.mem_map.1 hmem
    refine ⟨i, ⟨_, _⟩, ?_, List.mem_pair.1 hw⟩
    rw [HandleTable.coords?_eq, HandleTable.get?, (OrderedMap.mem_entries_iff _ i _).1 hentry]
    rfl
  · rintro ⟨i, p, hp, hw⟩
    rw [HandleTable.coords?_eq] at hp
    obtain ⟨handle, hhandle, rfl⟩ := Option.map_eq_some_iff.1 hp
    exact ⟨handle, OrderedMap.mem_values_of_get? hhandle, List.mem_pair.2 hw⟩
  · rintro ⟨k, hmem, hw⟩
    obtain ⟨⟨id, _⟩, hentry, rfl⟩ := List.mem_map.1 hmem
    have hget := (OrderedMap.mem_entries_iff _ id _).1 hentry
    split at hw
    · rename_i y m x b heq
      split at hw
      · rename_i hdegenerate
        cases hw
        exact ⟨id, m, x, b, heq ▸ hget, hdegenerate⟩
      · cases hw
    · cases hw
  · rintro ⟨id, m, x, b, hget, hdegenerate⟩
    exact ⟨_, OrderedMap.mem_values_of_get? hget, if_pos hdegenerate⟩

/-- What decides on a group that is not exposed is a constant. -/
lemma constant_of_concludes {i : ConstraintId} {rule : Rule}
    (hrule : rule ∈ Cluster.rulesOf s.constraints s.handles i) {v : VarId}
    (hexposed : ∀ w ∈ s.exposed, s.arena.canonical w ≠ s.arena.canonical v)
    (hgroup : s.arena.canonical rule.conclusion = s.arena.canonical v) :
    ∃ x, s.constraints.get? i = some (.constant rule.conclusion x) := by
  rw [Cluster.rulesOf] at hrule
  split at hrule
  · rename_i k hget
    rcases Constraint.conclusion_cases hrule with ⟨x, rfl⟩ | ⟨m, x, b, rfl, hdegenerate⟩ |
      ⟨j, p, hp, hpoint⟩
    · exact ⟨x, hget⟩
    · exact absurd hgroup (hexposed _ (mem_exposed_iff.2 (Or.inr ⟨i, m, x, b, hget, hdegenerate⟩)))
    · exact absurd hgroup (hexposed _ (mem_exposed_iff.2 (Or.inl ⟨j, p, hp, hpoint⟩)))
  · cases hrule

/-- **The first one decides for good.**  If the first constraint of a cluster to decide on a group
is a constant, and no rod of the cluster holds the group, then the group has the value of the
constant after the solve. -/
theorem Intact.solveWith_first (h : s.Intact) {cs : List (Cluster α)}
    (hclustered : s.clustered = .ok (cs, s')) {c : Cluster α} (hc : c ∈ cs)
    {first rest : List ConstraintId} {id : ConstraintId} {u : VarId} {x : α}
    (hsplit : c.constraints = first ++ id :: rest)
    (hget : s'.constraints.get? id = some (.constant u x))
    (hfirst : ∀ i ∈ first, ∀ rule ∈ Cluster.rulesOf s'.constraints s'.handles i,
      s'.arena.canonical rule.conclusion ≠ s'.arena.canonical u)
    (hrods : s'.stabilizeGizmos = true → ∀ length bearing,
      c.Rod s'.constraints s'.handles s'.arena length bearing → ∀ w ∈ [length, bearing],
        s'.arena.canonical w ≠ s'.arena.canonical u)
    (m : Minimizer σ α) (memory : σ) {v : VarId}
    (hv : s'.arena.canonical v = s'.arena.canonical u) :
    (s.solveWith m memory).2.2.arena.value? v = some (s'.arena.lower v (s'.arena.lift u x)) := by
  obtain ⟨hs', hcs⟩ := h.of_clustered hclustered
  obtain ⟨before, after, rfl⟩ := List.append_of_mem hc
  obtain ⟨outcomes, memory₁, a, held, -, hwithin, hready, hheld, hkept⟩ := hs'.kept hcs m memory
  obtain ⟨held', hheld', hinside, hmem⟩ := hready.preset_spec
  rw [hheld] at hheld'
  cases hheld'
  have hunheld : ¬ a.canonical u ∈ held := by
    rw [hmem, hwithin.canonical, Cluster.rod_congr hwithin.shape]
    rintro ⟨hstabilize, length, bearing, hrod, hu | hu⟩
    · exact hrods hstabilize length bearing hrod length (by simp) hu.symm
    · exact hrods hstabilize length bearing hrod bearing (by simp) hu.symm
  obtain ⟨k, hlearning, hk⟩ := hready.learning_first hwithin.wellFormed hinside hsplit hget
    (by rwa [hwithin.canonical]) hunheld s'.fingerOfGod
  obtain ⟨hknown, hvalue⟩ := hk v (by rwa [hwithin.canonical])
  rw [← h.solveWith_clustered hclustered, (hkept k hlearning v hknown).2, hvalue,
    Arena.lower_congr hwithin.shape, Arena.lift_congr hwithin.shape]

/-- **One of the constants decides.**  If a group has a constant, is not exposed, and is not held by
a rod, then after the solve it has the value of the first of its constants in the cluster. -/
theorem Intact.solveWith_decided (h : s.Intact) {cs : List (Cluster α)}
    (hclustered : s.clustered = .ok (cs, s')) {v : VarId}
    (hexposed : ∀ w ∈ s'.exposed, s'.arena.canonical w ≠ s'.arena.canonical v)
    (hrods : s'.stabilizeGizmos = true → ∀ c ∈ cs, ∀ length bearing,
      c.Rod s'.constraints s'.handles s'.arena length bearing → ∀ w ∈ [length, bearing],
        s'.arena.canonical w ≠ s'.arena.canonical v)
    {id : ConstraintId} {u₀ : VarId} {y₀ : α}
    (hconstant : s'.constraints.get? id = some (.constant u₀ y₀))
    (hu₀ : s'.arena.canonical u₀ = s'.arena.canonical v) (m : Minimizer σ α) (memory : σ) :
    ∃ c ∈ cs, ∃ first i rest u y, c.constraints = first ++ i :: rest ∧ id ∈ i :: rest ∧
      s'.constraints.get? i = some (.constant u y) ∧
      s'.arena.canonical u = s'.arena.canonical v ∧
      (s.solveWith m memory).2.2.arena.value? v =
        some (s'.arena.lower v (s'.arena.lift u y)) := by
  obtain ⟨hs', hcs⟩ := h.of_clustered hclustered
  obtain ⟨c, hc, hid⟩ :=
    (hs'.current hcs).exists_of_mem_done (OrderedMap.mem_keys_of_get? hconstant)
  let P : ConstraintId → Prop := fun i => ∃ rule ∈ Cluster.rulesOf s'.constraints s'.handles i,
    s'.arena.canonical rule.conclusion = s'.arena.canonical v
  have hP : P id := by
    refine ⟨⟨[], u₀⟩, ?_, hu₀⟩
    rw [Cluster.rulesOf, hconstant]
    exact List.mem_cons_self
  -- the first constraint of the cluster that decides on the group
  classical
  obtain ⟨i, hfind⟩ := Option.isSome_iff_exists.1
    (List.find?_isSome.2 ⟨id, hid, decide_eq_true hP⟩ : (c.constraints.find? (P ·)).isSome = true)
  obtain ⟨hi, first, rest, hsplit, hbefore⟩ := List.find?_eq_some_iff_append.1 hfind
  have hfirst : ∀ j ∈ first, ¬ P j := fun j hj => by simpa using hbefore j hj
  obtain ⟨rule, hrule, hgroup⟩ := of_decide_eq_true hi
  obtain ⟨y, hget⟩ := constant_of_concludes hrule hexposed hgroup
  refine ⟨c, hc, first, i, rest, rule.conclusion, y, hsplit, ?_, hget, hgroup, ?_⟩
  · rw [hsplit] at hid
    exact (List.mem_append.1 hid).resolve_left fun hid => hfirst id hid hP
  · refine h.solveWith_first hclustered hc hsplit hget ?_ ?_ m memory hgroup.symm
    · exact fun j hj r hr heq => hfirst j hj ⟨r, hr, heq.trans hgroup⟩
    · exact fun hstabilize length bearing hrod w hw heq =>
        hrods hstabilize c hc length bearing hrod w hw (heq.trans hgroup)

/-! ## A constant by itself -/

/-- **A constant forces its value.**  If nothing else may decide on the group of its variable — no
other constant is on it, no handle has a coordinate in it, no degenerate linear relationship sets
it, and if gizmos are stabilised then it is neither the length nor the angle of a rod — then after
a solve, whatever the minimizer does, the variable has the value of the constant.  With machine
numbers this is said of variables that stand for their group, with exact numbers of all. -/
theorem reachable_constant_forces (h : Reachable s) {cs : List (Cluster α)}
    (hclustered : s.clustered = .ok (cs, s')) {id : ConstraintId} {v : VarId} {x : α}
    (hconstant : s'.constraints.get? id = some (.constant v x))
    (halone : ∀ j u y, s'.constraints.get? j = some (.constant u y) →
      s'.arena.canonical u = s'.arena.canonical v → j = id)
    (hexposed : ∀ w ∈ s'.exposed, s'.arena.canonical w ≠ s'.arena.canonical v)
    (hrods : s'.stabilizeGizmos = true → ∀ c ∈ cs, ∀ length bearing,
      c.Rod s'.constraints s'.handles s'.arena length bearing → ∀ w ∈ [length, bearing],
        s'.arena.canonical w ≠ s'.arena.canonical v)
    (hv : s'.arena.canonical v = v ∨ Scalar.IsExact α) (m : Minimizer σ α) (memory : σ) :
    (s.solveWith m memory).2.2.arena.value? v = some x := by
  obtain ⟨c, hc, first, i, rest, u, y, -, -, hget, hu, hvalue⟩ :=
    h.intact.solveWith_decided hclustered hexposed hrods hconstant rfl m memory
  obtain rfl := halone i u y hget hu
  rw [hconstant] at hget
  cases hget
  rw [hvalue, (h.clustered hclustered).lower_lift hv]

/-- The rod has one constant on its length and one on its angle. -/
lemma rod_constants {j : ConstraintId} {u : VarId} {y : Float}
    (h : rod.constraints.get? j = some (.constant u y)) :
    j = ⟨10⟩ ∧ u = ⟨8⟩ ∨ j = ⟨11⟩ ∧ u = ⟨9⟩ := by
  have hmem := (OrderedMap.mem_entries_iff _ _ _).2 h
  have hentries : rod.constraints.entries = [(⟨6⟩, .pin ⟨0⟩ ⟨1, 2⟩), (⟨7⟩, .polar ⟨0⟩ ⟨3⟩ ⟨8⟩ ⟨9⟩),
      (⟨10⟩, .constant ⟨8⟩ 5), (⟨11⟩, .constant ⟨9⟩ 0)] := rfl
  rw [hentries] at hmem
  simp only [List.mem_cons, Prod.mk.injEq, List.not_mem_nil, or_false] at hmem
  rcases hmem with ⟨-, ⟨⟩⟩ | ⟨-, ⟨⟩⟩ | ⟨rfl, ⟨⟩⟩ | ⟨rfl, ⟨⟩⟩
  · exact Or.inl ⟨rfl, rfl⟩
  · exact Or.inr ⟨rfl, rfl⟩

/-- Two variables, one of which follows the other and is locked after that. -/
def tied : Sketch ℚ :=
  (Operation.constant ⟨1⟩ 4).perform.after <| (Operation.linear ⟨0⟩ 2 ⟨1⟩ 1).perform.after <|
    (Operation.addVariable 1 none).perform.after <|
      (Operation.addVariable 1 none).perform.after empty

lemma reachable_tied : Reachable tied :=
  .perform _ (.perform _ (.perform _ (.perform _ (.withConfig _))))

/-- The only cluster of the two variables. -/
def tiedCluster : Cluster ℚ where
  constraints := [⟨2⟩, ⟨3⟩]
  residuals := []
  referenced := [⟨0⟩, ⟨1⟩, ⟨1⟩]
  vars := .ofList [⟨0⟩]

-- the other one follows
example : (tied.solveWith stay ()).2.2.arena.value? ⟨0⟩ = some 9 := by decide +kernel

lemma tied_constants {j : ConstraintId} {u : VarId} {y : ℚ}
    (h : tied.constraints.get? j = some (.constant u y)) : j = ⟨3⟩ := by
  have hmem := (OrderedMap.mem_entries_iff _ _ _).2 h
  have hentries : tied.constraints.entries =
      [(⟨2⟩, .linear ⟨0⟩ 2 ⟨1⟩ 1), (⟨3⟩, .constant ⟨1⟩ 4)] := by decide +kernel
  rw [hentries] at hmem
  simp only [List.mem_cons, Prod.mk.injEq, List.not_mem_nil, or_false] at hmem
  rcases hmem with ⟨-, ⟨⟩⟩ | ⟨rfl, -⟩
  rfl

/-- Without stabilisation the rod gets the length that it is locked to, and a variable that is
locked gets its value even if it does not stand for its group. -/
theorem constant_forces_rod :
    (rod.solveWith stay ()).2.2.arena.value? ⟨8⟩ = some 5 ∧
      (tied.solveWith stay ()).2.2.arena.value? ⟨1⟩ = some 4 := by
  constructor
  · have hclustered : rod.clustered = .ok ([rodCluster], Operation.cluster.perform.after rod) := rfl
    have hconstant : (Operation.cluster.perform.after rod).constraints.get? ⟨10⟩ =
        some (.constant ⟨8⟩ 5) := rfl
    refine reachable_constant_forces reachable_rod hclustered hconstant
      (fun j u y hget hgroup => ?_) (by decide +kernel) (fun h => absurd h (by decide +kernel))
      (Or.inl (by decide +kernel)) stay ()
    rcases rod_constants hget with ⟨rfl, -⟩ | ⟨-, rfl⟩
    · rfl
    · exact absurd hgroup (by decide +kernel)
  · obtain ⟨hclustered, hsame⟩ :=
      reachable_tied.intact.clustered_eq (show _ = some [tiedCluster] by decide +kernel)
    have hconstant : (Operation.cluster.perform.after tied).constraints.get? ⟨3⟩ =
        some (.constant ⟨1⟩ 4) := by decide +kernel
    exact reachable_constant_forces reachable_tied hclustered hconstant
      (fun j u y hget _ => tied_constants (hsame ▸ hget)) (by decide +kernel)
      (fun h => absurd h (by decide +kernel)) (Or.inr ⟨inferInstance, rfl⟩) stay ()

/-- The rod while gizmos are stabilised. -/
def heldRod : Sketch Float :=
  (Operation.setStabilizeGizmos true).perform.after rod

/-- **A rod withstands.**  If gizmos are stabilised, a constant on the length of a rod does not
force its value, although nothing else decides on the length: the rod is held first. -/
theorem rod_withstands :
    ¬ ∀ (s s' : Sketch Float) (cs : List (Cluster Float)) (id : ConstraintId) (v : VarId)
      (x : Float), Reachable s → s.clustered = .ok (cs, s') →
      s'.constraints.get? id = some (.constant v x) →
      (∀ j u y, s'.constraints.get? j = some (.constant u y) →
        s'.arena.canonical u = s'.arena.canonical v → j = id) →
      (∀ w ∈ s'.exposed, s'.arena.canonical w ≠ s'.arena.canonical v) →
      s'.arena.canonical v = v →
      ∀ m : Minimizer Unit Float, (s.solveWith m ()).2.2.arena.value? v = some x := by
  intro hforces
  have hclustered : heldRod.clustered =
      .ok ([rodCluster], Operation.cluster.perform.after heldRod) := rfl
  have hlength := hforces heldRod _ _ ⟨10⟩ ⟨8⟩ 5 (.perform _ reachable_rod) hclustered rfl
    (fun j u y hget hgroup => ?_) (by decide +kernel) (by decide +kernel) stay
  · have hother : (heldRod.solveWith stay ()).2.2.arena.value? ⟨8⟩ ≠ some 5 := by decide +kernel
    exact hother hlength
  · rcases rod_constants hget with ⟨rfl, -⟩ | ⟨-, rfl⟩
    · rfl
    · exact absurd hgroup (by decide +kernel)

end Sketch

end SketchSolver
