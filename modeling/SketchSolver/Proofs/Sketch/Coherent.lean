import Mathlib
import SketchSolver.Proofs.Cluster.Alike
import SketchSolver.Proofs.Sketch.Integrity

/-!
# The clustering that a sketch keeps

A sketch keeps its clustering over writes and solves, and also when a constant, a pin or a finger is
issued again.  Then the constraints are no longer those that were clustered: their numbers may have
changed, and an update by an equal number may have changed the sign of a zero.

* `Sketch.Cached r` — the clustering is one of constraints that are alike, and clustering these
  again would change nothing.  Every change keeps this (`Change.cached`).
* `Sketch.Coherent r` — clustering the present constraints would lead to the same clusters, links
  and merges, up to numbers related by `r`.
* `reachable_coherent` — so it is for all reachable sketches, up to the signs of zeros, and updates
  that keep the clustering succeed and leave what clustering anew would leave.
-/

namespace SketchSolver

open Scalar (Tolerates)

variable {α : Type} {r : α → α → Prop}

/-- Both coordinates are related. -/
def Point.Near (r : α → α → Prop) (p q : Point α) : Prop :=
  r p.x q.x ∧ r p.y q.y

namespace Constraint

variable [Scalar α] {t : HandleTable} {c d e : Constraint α}

lemma Alike.refl (hr : Tolerates r) {F : Coords → Point α → Point α → Prop}
    (hF : ∀ {h p}, c = .finger h p → ∀ q, t.coords? h = some q → F q p p) : c.Alike r F t c := by
  cases c with
  | finger h p => exact .finger h (hF rfl)
  | linear y m x b => exact .linear y x (.refl hr.refl _)
  | _ => constructor

lemma Alike.trans (hr : Tolerates r) (h : c.Alike r (fun _ => Point.Near r) t d)
    (h' : d.Alike r (fun _ => Point.Near r) t e) : c.Alike r (fun _ => Point.Near r) t e := by
  cases h with
  | finger i hpq =>
      cases h' with
      | finger _ hqs =>
          exact .finger i fun p hp => ⟨hr.trans (hpq p hp).1 (hqs p hp).1,
            hr.trans (hpq p hp).2 (hqs p hp).2⟩
  | linear y x hf =>
      cases h' with
      | linear _ _ hg =>
          exact .linear y x ⟨hr.trans hf.scale hg.scale, hr.trans hf.shift hg.shift⟩
  | _ =>
      cases h'
      constructor

lemma near_of_beq (hbeq : ∀ x y : α, (x == y) = true → r x y) {p q : Point α}
    (h : (p == q) = true) : p.Near r q := by
  have hxy : (p.x == q.x) = true ∧ (p.y == q.y) = true := by
    obtain ⟨x, y⟩ := p
    obtain ⟨x', y'⟩ := q
    simpa [BEq.beq, instBEqPoint.beq] using h
  exact ⟨hbeq _ _ hxy.1, hbeq _ _ hxy.2⟩

/-- Constraints that compare as equal are alike. -/
lemma alike_of_beq (hbeq : ∀ x y : α, (x == y) = true → r x y) (h : (c == d) = true) :
    c.Alike r (fun _ => Point.Near r) t d := by
  cases c <;> cases d <;>
    simp only [BEq.beq, instBEqConstraint.beq, Bool.and_eq_true, decide_eq_true_eq,
      reduceCtorEq] at h
  case constant.constant =>
    obtain ⟨rfl, -⟩ := h
    exact .constant _ _ _
  case pin.pin =>
    obtain ⟨rfl, -⟩ := h
    exact .pin _ _ _
  case finger.finger =>
    obtain ⟨rfl, hpq⟩ := h
    exact .finger _ fun _ _ => near_of_beq hbeq hpq
  case linear.linear =>
    obtain ⟨rfl, hscale, rfl, hshift⟩ := h
    exact .linear _ _ ⟨hbeq _ _ hscale, hbeq _ _ hshift⟩
  case absorb.absorb =>
    obtain ⟨rfl, rfl⟩ := h
    exact .absorb _ _
  case polar.polar =>
    obtain ⟨rfl, rfl, rfl, rfl⟩ := h
    exact .polar _ _ _ _
  case distance.distance =>
    obtain ⟨rfl, rfl, rfl⟩ := h
    exact .distance _ _ _
  case angle.angle =>
    obtain ⟨rfl, rfl, rfl⟩ := h
    exact .angle _ _ _
  case formula.formula =>
    obtain ⟨rfl, rfl, rfl, rfl⟩ := h
    exact .formula _ _ _ _

/-- A quiet update leaves a constraint that is alike. -/
lemma alike_of_isQuietUpdate (hbeq : ∀ x y : α, (x == y) = true → r x y)
    (hkey : d.key = c.key) (h : Sketch.isQuietUpdate c d = true) :
    c.Alike r (fun _ => Point.Near r) t d := by
  unfold Sketch.isQuietUpdate at h
  rw [Bool.or_eq_true] at h
  rcases h with heq | hkind
  · exact alike_of_beq hbeq heq
  · split at hkind
    · obtain rfl : _ = _ := by simpa [Constraint.key] using hkey
      exact .constant _ _ _
    · obtain rfl : _ = _ := by simpa [Constraint.key] using hkey
      exact .pin _ _ _
    · cases hkind

end Constraint

lemma ConstraintTable.Alike.refl [Scalar α] (hr : Tolerates r)
    {F : Coords → Point α → Point α → Prop} (hF : ∀ c p, F c p p) {K : ConstraintTable α}
    {t : HandleTable} : K.Alike r F t K := by
  refine ⟨rfl, fun id => ?_⟩
  cases K.get? id with
  | none => exact .none
  | some k => exact .some (.refl hr fun {_ p} _ c _ => hF c p)

namespace Sketch

variable [Scalar α] {s s' : Sketch α}

/-- The clustering is one of constraints that are like the present ones, and clustering them again
would change nothing. -/
def Cached (r : α → α → Prop) (s : Sketch α) : Prop :=
  ∀ cs, s.clusters = some cs → ∃ K : ConstraintTable α,
    K.Alike r (fun _ => Point.Near r) s.handles s.constraints ∧
      Cluster.build K s.arena s.handles = .ok (cs, s.arena, s.handles)

lemma cached_of_none (h : s.clusters = none) : s.Cached r := by
  intro cs hcs
  rw [h] at hcs
  cases hcs

/-! ## Every change -/

omit [Scalar α] in
lemma Removals.clusters (h : Removals s s') : s' = s ∨ s'.clusters = none := by
  rcases Relation.ReflTransGen.cases_tail h with rfl | ⟨_, -, hstep⟩
  · exact Or.inl rfl
  · cases hstep <;> exact Or.inr rfl

omit [Scalar α] in
/-- The fingers on the point are at the new position. -/
lemma eq_moveFinger {point : Coords} {position : Point α} {x y : Residual α}
    (h : x.Alike (fun c p q => q = if c = point then position else p) y) :
    y = x.moveFinger point position := by
  cases h with
  | finger c hq => rw [hq, Residual.moveFinger]
  | _ => rfl

/-- Clustering the same constraints again. -/
lemma build_same {K : ConstraintTable α} {cs : List (Cluster α)} {a b c : Arena α}
    {t u : HandleTable} (hbuild : Cluster.build K a t = .ok (cs, b, u)) (hc : c.WellFormed)
    (hshape : c.shape = b.shape) : Cluster.build K c u = .ok (cs, c, u) := by
  have hK : K.Alike Eq (fun _ => Eq) t K := .refl Scalar.tolerates_eq fun _ _ => rfl
  obtain ⟨cs', hagain, hcs⟩ := Cluster.build_again hK hbuild hc hshape
  rwa [Cluster.Alike.eq Eq.symm hcs] at hagain

lemma Cached.replaceQuietly (hr : Tolerates r) (hbeq : ∀ x y : α, (x == y) = true → r x y)
    (h : s.Cached r) {id : ConstraintId} {old c : Constraint α}
    (hold : s.constraints.get? id = some old) (hkey : c.key = old.key)
    (hquiet : isQuietUpdate old c = true) :
    Cached r { s with constraints := s.constraints.insert id c } := by
  intro cs hcs
  obtain ⟨K, hK, hbuild⟩ := h cs hcs
  have hkeys := OrderedMap.keys_insert_of_mem c (OrderedMap.mem_keys_of_get? hold)
  refine ⟨K, ⟨hK.keys.trans hkeys.symm, fun j => ?_⟩, hbuild⟩
  have halike := hK.get? j
  rw [OrderedMap.get?_insert]
  split_ifs with hj
  · subst hj
    rw [hold] at halike
    generalize K.get? j = k at halike ⊢
    cases halike with
    | some hk => exact .some (hk.trans hr (Constraint.alike_of_isQuietUpdate hbeq hkey hquiet))
  · exact halike

/-- There is one finger on a handle, and no other handle has its coordinates.  So pointing that
finger somewhere else moves all fingers on the point, and nothing else. -/
lemma Registered.alike_moveFinger (hreg : s.Registered) {K : ConstraintTable α}
    (hK : K.Alike r (fun _ => Point.Near r) s.handles s.constraints) {id : ConstraintId}
    {i : HandleId} {p : Point α} {point : Coords}
    (hold : s.constraints.get? id = some (.finger i p)) (hpoint : s.handles.coords? i = some point)
    (q : Point α) :
    K.Alike Eq (fun c p p' => p' = if c = point then q else p) s.handles
      (K.insert id (.finger i q)) := by
  have hmem : id ∈ K.keys := hK.keys ▸ OrderedMap.mem_keys_of_get? hold
  refine ⟨(OrderedMap.keys_insert_of_mem _ hmem).symm, fun j => ?_⟩
  have halike := hK.get? j
  rw [OrderedMap.get?_insert]
  split_ifs with hj
  · subst hj
    rw [hold] at halike
    generalize K.get? j = k at halike ⊢
    cases halike with
    | some hk =>
        cases hk with
        | finger _ _ =>
            refine .some (.finger i fun c hc => ?_)
            rw [hpoint] at hc
            cases hc
            rw [if_pos rfl]
  · generalize hd : s.constraints.get? j = d at halike
    generalize K.get? j = k at halike ⊢
    cases halike with
    | none => exact .none
    | some hk =>
        refine .some (.refl Scalar.tolerates_eq fun {l p'} hfinger c hc => ?_)
        subst hfinger
        cases hk with
        | finger _ _ =>
            have hne : l ≠ i := by
              rintro rfl
              have hsame := hreg.remembered hd rfl
              rw [hreg.remembered hold rfl] at hsame
              exact hj (Option.some.inj hsame).symm
            rw [if_neg]
            rintro rfl
            exact hreg.component_ne hc hpoint hne .x .x rfl

lemma Cached.moveFinger (hr : Tolerates r) (hs : s.Intact) (hreg : s.Registered) (h : s.Cached r)
    {id : ConstraintId} {i : HandleId} {p : Point α} {point : Coords}
    (hold : s.constraints.get? id = some (.finger i p)) (hpoint : s.handles.coords? i = some point)
    (q : Point α) :
    Cached r { s with
      constraints := s.constraints.insert id (.finger i q)
      clusters := s.clusters.map fun cs => cs.map (·.moveFinger point q) } := by
  intro cs hcs
  obtain ⟨cs₀, hcs₀, rfl⟩ := Option.map_eq_some_iff.1 hcs
  obtain ⟨K, hK, hbuild⟩ := h cs₀ hcs₀
  have hmoved := hreg.alike_moveFinger hK hold hpoint q
  have hmem : id ∈ s.constraints.keys := OrderedMap.mem_keys_of_get? hold
  have hnew : ConstraintTable.Alike r (fun _ => Point.Near r) s.handles (K.insert id (.finger i q))
      (s.constraints.insert id (.finger i q)) := by
    refine ⟨?_, fun j => ?_⟩
    · rw [← hmoved.keys, OrderedMap.keys_insert_of_mem _ hmem, hK.keys]
    · rw [OrderedMap.get?_insert, OrderedMap.get?_insert]
      split_ifs
      · exact .some (.finger i fun _ _ => ⟨hr.refl _, hr.refl _⟩)
      · exact hK.get? j
  obtain ⟨cs', hagain, hcs'⟩ := Cluster.build_again hmoved hbuild hs.arena rfl
  refine ⟨_, hnew, ?_⟩
  rw [Cluster.Alike.eq_map (fun _ _ => eq_moveFinger) hcs'] at hagain
  exact hagain

theorem Change.cached (hr : Tolerates r) (hbeq : ∀ x y : α, (x == y) = true → r x y)
    (hchange : Change s s') (hs : s.Intact) (hreg : s.Registered) (h : s.Cached r) :
    s'.Cached r := by
  cases hchange with
  | revalue hwf hshape =>
      intro cs hcs
      obtain ⟨K, hK, hbuild⟩ := h cs hcs
      exact ⟨K, hK, build_same hbuild hwf hshape⟩
  | replaceQuietly hold hkey hkey' hlive hquiet =>
      exact h.replaceQuietly hr hbeq hold (hkey'.trans hkey.symm) hquiet
  | moveFinger q hold hpoint => exact h.moveFinger hr hs hreg hold hpoint q
  | remove hremoved =>
      rcases hremoved.removals.clusters with rfl | hnone
      · exact h
      · exact cached_of_none hnone
  | cluster hbuild =>
      rintro _ ⟨⟩
      have harena := ((Change.cluster hbuild).intact hs).arena
      exact ⟨s.constraints, .refl hr fun _ _ => ⟨hr.refl _, hr.refl _⟩,
        build_same hbuild harena rfl⟩
  | configure config stabilizeGizmos fingerOfGod => exact h
  | _ => exact cached_of_none rfl

/-- **Every change keeps the clustering as good as new**, or drops it. -/
theorem invariant_cached (hr : Tolerates r) (hbeq : ∀ x y : α, (x == y) = true → r x y) :
    Invariant fun s : Sketch α => (s.Intact ∧ s.Registered) ∧ s.Cached r :=
  invariant_registered.of_change fun hs h hchange => hchange.cached hr hbeq hs.1 hs.2 h

lemma Reachable.cached (hr : Tolerates r) (hbeq : ∀ x y : α, (x == y) = true → r x y)
    (h : Reachable s) : s.Cached r :=
  (h.invariant (invariant_cached hr hbeq) fun config =>
    ⟨⟨intact_withConfig config, registered_withConfig config⟩, cached_of_none rfl⟩).2

/-! ## Clustering anew -/

/-- Clustering the present constraints would lead to the clusters that are kept and would leave the
links and values of all variables and the merges of all handles, up to numbers related by `r`. -/
def Coherent (r : α → α → Prop) (s : Sketch α) : Prop :=
  ∀ cs, s.clusters = some cs → ∃ cs' b,
    Cluster.build s.constraints s.arena s.handles = .ok (cs', b, s.handles) ∧
      List.Forall₂ (Cluster.Alike fun _ => Point.Near r) cs cs' ∧
      s.arena.Alike r b ∧ ∀ v, Option.Rel r (s.arena.value? v) (b.value? v)

lemma Cached.coherent (hr : Tolerates r) (h : s.Cached r) : s.Coherent r := by
  intro cs hcs
  obtain ⟨K, hK, hbuild⟩ := h cs hcs
  obtain ⟨⟨cs', b, u⟩, hanew, hclusters, halike, rfl⟩ :=
    Cluster.Alike.build (Arena.Alike.simulates hr) hK (.reset rfl) rfl _ hbuild
  refine ⟨cs', b, hanew, hclusters, halike, halike.value hr fun k hk => ?_⟩
  exact (Cluster.build_roots hanew).2 k (by rw [halike.canonical hr, hk])

end Sketch

/-- Issuing such a constraint again keeps the clustering. -/
def Constraint.KeepsClusters : Constraint α → Prop
  | .constant .. | .pin .. | .finger .. => True
  | .linear .. | .absorb .. | .polar .. | .distance .. | .angle .. | .formula .. => False

/-- An earlier constraint with the key of such a constraint is of the same kind. -/
lemma Constraint.KeepsClusters.same_kind {c d : Constraint α} (hc : c.KeepsClusters)
    (hkey : d.key = c.key) :
    (∃ v x y, d = .constant v x ∧ c = .constant v y) ∨
      (∃ h p q, d = .pin h p ∧ c = .pin h q) ∨ ∃ h p q, d = .finger h p ∧ c = .finger h q := by
  cases c <;> cases hc <;> cases d <;> grind [Constraint.key]

namespace Sketch

open Edit

variable [Scalar α] {s : Sketch α}

/-- Drawing the consequences of such an update changes the clusters at most, and only what is in
them. -/
lemma ensures_settleUpdate_of_keepsClusters {old c : Constraint α} (hc : c.KeepsClusters)
    (hkey : old.key = c.key) (hlive : c.Live s.handles s.arena) :
    Ensures (fun _ => False) (settleUpdate old c) (fun _ s' =>
      ∃ kept, s' = { s with clusters := kept } ∧ kept.isSome = s.clusters.isSome) s := by
  have hsame : ∃ kept, s = { s with clusters := kept } ∧ kept.isSome = s.clusters.isSome :=
    ⟨s.clusters, rfl, rfl⟩
  unfold settleUpdate
  by_cases hquiet : isQuietUpdate old c = true
  · rw [if_pos hquiet]
    exact hsame
  · rw [if_neg hquiet]
    rcases hc.same_kind hkey with ⟨v, x, y, rfl, rfl⟩ | ⟨h, p, q, rfl, rfl⟩ | ⟨h, p, q, rfl, rfl⟩
    · simp [isQuietUpdate] at hquiet
    · simp [isQuietUpdate] at hquiet
    · obtain ⟨point, hpoint⟩ :=
        (HandleTable.contains_iff_coords? h).1 (hlive.handles h List.mem_cons_self)
      rw [ensures_get_bind]
      split
      · rename_i cs hcs
        simp only [ensures_bind, ensures_ofExcept, ensures_set,
          (HandleTable.coords_eq_ok_iff h point).2 hpoint]
        exact ⟨fun _ _ => ⟨_, rfl, by rw [hcs]; rfl⟩, by rintro e ⟨⟩⟩
      · exact hsame

/-- Such a constraint, when it is issued again, takes the place of the earlier one. -/
lemma Intact.insertConstraint_of_keepsClusters (hs : s.Intact) {c : Constraint α}
    (hc : c.KeepsClusters) {key : ConstraintKey} (hkey : c.key = some key) {id : ConstraintId}
    (hmemo : s.memo.get? key = some id) :
    ∃ kept, insertConstraint none c s =
        .ok id { s with constraints := s.constraints.insert id c, clusters := kept } ∧
      kept.isSome = s.clusters.isSome := by
  obtain ⟨old, hold, hkey'⟩ := hs.memo hmemo
  have hsameKey := hkey'.trans hkey.symm
  have hnames : old.SameNames c := by
    obtain ⟨_, _, _, rfl, rfl⟩ | ⟨_, _, _, rfl, rfl⟩ | ⟨_, _, _, rfl, rfl⟩ :=
      hc.same_kind hsameKey
    all_goals exact ⟨rfl, rfl, rfl⟩
  have hlive : c.Live s.handles s.arena := hnames.live (hs.live hold not_false)
  have hcheck := checkReferences_of_live hs.grounded hlive
  have hsame : s.sameKey c = some (id, old) := by simp [sameKey, hkey, hmemo, hold]
  have hensures : Ensures (fun _ => False) (insertConstraint none c)
      (fun i s' => i = id ∧ ∃ kept, s' = { s with
        constraints := s.constraints.insert id c, clusters := kept } ∧
          kept.isSome = s.clusters.isSome) s := by
    simp only [insertConstraint, ensures_bind, ensures_get, ensures_ofExcept, hcheck, hsame]
    refine ⟨fun _ _ => ?_, by rintro e ⟨⟩⟩
    simp only [ensures_set, ensures_pure]
    have hsettle := ensures_settleUpdate_of_keepsClusters
      (s := { s with constraints := s.constraints.insert id c }) hc hsameKey hlive
    exact hsettle.imp fun _ s' hs' => ⟨trivial, hs'⟩
  rw [Ensures] at hensures
  split at hensures
  · rename_i i s' hrun
    obtain ⟨rfl, kept, rfl, hkept⟩ := hensures
    exact ⟨kept, hrun, hkept⟩
  · cases hensures

/-- **The clustering that a sketch keeps** is what clustering anew would lead to, up to the signs of
zeros.  A constant, a pin or a finger that is issued again takes the place of the earlier one,
whether there is a clustering or not; if there is, it is kept, and is again what clustering anew
would lead to. -/
theorem reachable_coherent {s : Sketch Float} (h : Reachable s) :
    s.Coherent Double.UpToZero ∧
      ∀ c key id, c.KeepsClusters → c.key = some key → s.memo.get? key = some id →
        ∃ s', insertConstraint none c s = .ok id s' ∧ s'.clusters.isSome = s.clusters.isSome ∧
          s'.Coherent Double.UpToZero ∧
          insertConstraint none c s.invalidate = .ok id s'.invalidate := by
  have hr := Double.tolerates_upToZero
  have hinvariant := invariant_cached hr fun x y => Double.upToZero_of_beq
  have hs := h.invariant hinvariant fun config =>
    ⟨⟨intact_withConfig config, registered_withConfig config⟩, cached_of_none rfl⟩
  refine ⟨hs.2.coherent hr, fun c key id hc hkey hmemo => ?_⟩
  obtain ⟨kept, hrun, hkept⟩ := h.intact.insertConstraint_of_keepsClusters hc hkey hmemo
  have hinvalid : s.invalidate.Intact := h.intact.toSoundExcept.invalidate
  obtain ⟨kept', hrun', hkept'⟩ := hinvalid.insertConstraint_of_keepsClusters hc hkey hmemo
  obtain rfl : kept' = none := by simpa [invalidate] using hkept'
  have howned : c.owned = [] := by cases c <;> cases hc <;> rfl
  have hafter := ensures_insertNew hinvariant hs howned
  rw [Ensures, hrun] at hafter
  exact ⟨_, hrun, hkept, hafter.2.coherent hr, hrun'⟩

/-- Two handles, each dragged by a finger of its own, after clustering. -/
def grouped : Sketch Float :=
  Operation.cluster.perform.after dragged

lemma reachable_grouped : Reachable grouped :=
  .perform _ reachable_dragged

/-- Dragging one of the handles on keeps the clustering, which stays as good as new. -/
theorem coherent_grouped :
    grouped.clusters.isSome = true ∧
      ∃ s', insertConstraint none (.finger ⟨0⟩ ⟨1, 2⟩) grouped = .ok ⟨6⟩ s' ∧
        s'.clusters.isSome = true ∧ s'.Coherent Double.UpToZero := by
  obtain ⟨-, hagain⟩ := reachable_coherent reachable_grouped
  obtain ⟨s', hrun, hkept, hcoherent, -⟩ := hagain (.finger ⟨0⟩ ⟨1, 2⟩) _ ⟨6⟩ trivial rfl rfl
  exact ⟨rfl, s', hrun, hkept.trans rfl, hcoherent⟩

end Sketch

end SketchSolver
