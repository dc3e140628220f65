import Mathlib
import SketchSolver.Proofs.Cluster.Measured
import SketchSolver.Proofs.Residual
import SketchSolver.Proofs.Sketch.Consistent
import SketchSolver.Proofs.Sketch.Distinct
import SketchSolver.Proofs.Sketch.Integrity
import SketchSolver.Proofs.Sketch.Rebuild

/-!
# Residuals that were dropped

A residual that relates the same points as another one is dropped, and what both measure is unified.
If the points coincide and the unification is made, nothing is lost by that.

* `Request.Lossless` — what it takes for a residual to be dropped without a loss.
* `Registered.merges` — what is asked for residuals that are dropped is granted, if no relationship
  ties what a constraint measures.
* `reachable_vanishes` — where all residuals that are kept vanish, so does every one that was
  dropped without a loss, by way of others perhaps.
* `vanishes_measuredTwice` — a distance that is measured twice.
* `dropped_lost` — points count as the same within a tolerance, and what is asked for may be
  refused.  In either case a residual can be dropped for one that says something else.
-/

namespace SketchSolver

open Arena Residual

section

variable {α : Type} [Exact α] {a b : Arena α} {x y : Residual α} {rs : List (Request α)}

/-- By this request the first residual was dropped for the second one, and nothing is lost: the
points that count as the same coincide, and the request merges two groups, or what it asks for is
the case anyhow, up to full turns of an angle. -/
structure Request.Lossless (r : Request α) (b : Arena α) (x y : Residual α) : Prop where
  clash : x.clash r.found y = some (r.this, r.that, r.offset)
  coincide : ∀ p ∈ x.points, ∀ q ∈ y.points, q.sameAs p r.found = true → q.Coincide b p
  met : r.Merges ∨ ∃ n : ℤ,
    b.Bound ⟨r.this, r.that, ⟨r.offset.scale, r.offset.shift + n * x.period⟩⟩

/-- Then the first residual says what the second one says. -/
lemma Request.Lossless.repeats {r : Request α} (h : r.Lossless b x y) (hrun : a.reset.Requests rs b)
    (hr : r ∈ rs) : Repeats b x y := by
  rcases h.met with hmerges | ⟨n, hbound⟩
  · have hbound := (wellFormed_reset a).requests_bound (invertible_reset a) hrun r hr hmerges
    refine repeats_of_clash h.clash h.coincide 0 ?_
    rwa [Int.cast_zero, zero_mul, add_zero]
  · exact repeats_of_clash h.clash h.coincide n hbound

/-- Points that count as the same when something is asked for are unified in the end. -/
lemma Arena.Requests.canonical_of_sameAs (h : a.reset.Requests rs b) {r : Request α} (hr : r ∈ rs)
    {p q : Coords} (hsame : p.sameAs q r.found = true) :
    b.canonical p.x = b.canonical q.x ∧ b.canonical p.y = b.canonical q.y := by
  obtain ⟨before, after, rfl⟩ := List.append_of_mem hr
  obtain ⟨c, hbefore, hrest⟩ := h.split
  have hc := ((wellFormed_reset a).unifies hbefore.unifies).1
  have hcoarse := hc.unifies_coarsens hrest.unifies
  cases hrest
  rw [Coords.sameAs, Bool.and_eq_true] at hsame
  exact ⟨hcoarse.canonical (of_decide_eq_true (Bool.and_eq_true_iff.1 hsame.1).1),
    hcoarse.canonical (of_decide_eq_true (Bool.and_eq_true_iff.1 hsame.2).1)⟩

end

namespace Sketch

/-! ## What constraints measure -/

section

variable {α : Type} [Scalar α] {s : Sketch α}

omit [Scalar α] in
/-- What a residual of a constraint measures, the constraint owns. -/
lemma mem_owned_of_residual {t : HandleTable} {k : Constraint α} {x : Residual α}
    (hx : x ∈ k.residuals t) {u : VarId} (hu : u ∈ x.measured) : k.Measures u ∧ u ∈ k.owned := by
  rw [Constraint.residuals] at hx
  split at hx
  · have hmeasures := Constraint.measures_of_residual ‹_› x hx u hu
    exact ⟨hmeasures, hmeasures.elim (List.mem_map_of_mem (f := Prod.fst))
      (List.mem_map_of_mem (f := Prod.fst))⟩
  · cases hx

omit [Scalar α] in
lemma measured_of_residual {x : Residual α} (hx : x ∈ s.constraints.residuals s.handles) {u : VarId}
    (hu : u ∈ x.measured) : s.Measured u := by
  obtain ⟨k, hk, hx⟩ := List.mem_flatMap.1 hx
  obtain ⟨⟨id, k⟩, he, rfl⟩ := List.mem_map.1 hk
  exact ⟨id, k, (s.constraints.mem_entries_iff id k).1 he, (mem_owned_of_residual hx hu).1⟩

omit [Scalar α] in
/-- No two residuals measure the same variable. -/
lemma Registered.pairwise_measured (h : s.Registered) :
    (s.constraints.residuals s.handles).Pairwise fun x y =>
      ∀ u ∈ x.measured, ∀ v ∈ y.measured, u ≠ v := by
  rw [ConstraintTable.residuals, OrderedMap.values, List.flatMap_map, List.pairwise_flatMap]
  constructor
  · rintro ⟨id, k⟩ he
    have hget := (s.constraints.mem_entries_iff id k).1 he
    rw [Constraint.residuals]
    split
    · rename_i rs hrs
      cases k with
      | polar start finish length bearing =>
          obtain ⟨p, q, rfl⟩ := HandleTable.exists_of_coords hrs
          refine List.pairwise_pair.2 ?_
          rintro _ ⟨⟩ _ ⟨⟩ rfl
          -- one label would have to say both
          have hlength := h.labelled hget (v := length) List.mem_cons_self
          have hbearing := h.labelled hget (v := length)
            (List.mem_cons_of_mem _ List.mem_cons_self)
          rw [hlength] at hbearing
          cases hbearing
      | distance start finish length | angle start finish length =>
          obtain ⟨p, q, rfl⟩ := HandleTable.exists_of_coords hrs
          exact List.pairwise_singleton _ _
      | finger handle position =>
          obtain ⟨p, -, hpure⟩ := bind_eq_ok_iff.1 hrs
          cases hpure
          exact List.pairwise_singleton _ _
      | formula m x b result =>
          cases hrs
          exact List.pairwise_singleton _ _
      | _ =>
          cases hrs
          exact .nil
    · exact .nil
  · refine (List.pairwise_map.1 s.constraints.nodupKeys).imp_of_mem ?_
    rintro ⟨i, c⟩ ⟨j, d⟩ hc hd hne x hx y hy u hu _ hv rfl
    exact hne (h.owner_unique ((s.constraints.mem_entries_iff j d).1 hd)
      ((s.constraints.mem_entries_iff i c).1 hc) (mem_owned_of_residual hy hv).2
      (mem_owned_of_residual hx hu).2)

end

variable {α : Type} [Exact α] {s : Sketch α}

/-- No relationship ties what a constraint measures. -/
def Untied (s : Sketch α) : Prop :=
  ∀ e ∈ s.constraints.ties s.handles, ¬ s.Measured e.this ∧ ¬ s.Measured e.that

lemma untied_of_owned (h : ∀ e ∈ s.constraints.ties s.handles,
    ∀ v ∈ s.constraints.values.flatMap (·.owned), e.this ≠ v ∧ e.that ≠ v) : s.Untied := by
  have howned : ∀ v, s.Measured v → v ∈ s.constraints.values.flatMap (·.owned) := by
    rintro v ⟨id, k, hget, hmeasures⟩
    exact List.mem_flatMap.2 ⟨k, OrderedMap.mem_values_of_get? hget,
      hmeasures.elim (List.mem_map_of_mem (f := Prod.fst)) (List.mem_map_of_mem (f := Prod.fst))⟩
  exact fun e he => ⟨fun hthis => (h e he _ (howned _ hthis)).1 rfl,
    fun hthat => (h e he _ (howned _ hthat)).2 rfl⟩

/-- **What is asked for residuals that are dropped is granted**, unless a relationship ties what a
constraint measures. -/
theorem Registered.merges (h : s.Registered) (huntied : s.Untied) {a b : Arena α}
    {ties drops : List (Request α)} {cs : List (Cluster α)}
    (hrebuild : Cluster.Rebuild s.constraints s.handles a ties drops cs b) :
    ∀ r ∈ drops, r.Merges := by
  obtain ⟨c, hties, hcollects⟩ := hrebuild.collected
  have hreset := wellFormed_reset a
  refine hcollects.merges (hreset.unifies hties.unifies).1
    (hreset.invertible_unifies (invertible_reset a) hties.unifies)
    (loose_of_untied hties (fun x hx u hu r hr => ?_) h.pairwise_measured)
  have hmem : r.toTie ∈ s.constraints.ties s.handles :=
    hrebuild.asked ▸ List.mem_map_of_mem hr
  have hmeasured := measured_of_residual hx hu
  exact ⟨fun heq => (huntied _ hmem).1 (heq ▸ hmeasured),
    fun heq => (huntied _ hmem).2 (heq ▸ hmeasured)⟩

/-! ## Nothing is lost -/

/-- What is dropped for residuals that say the same, until one is kept, vanishes with that. -/
lemma vanishes_of_chain [PlaneLaws α] {pool : List (Residual α)} {drops : List (Request α)}
    {a b : Arena α} {god : Bool} (hb : b.WellFormed) (hinv : b.Invertible)
    (hshape : b.shape = a.shape) {x y : Residual α}
    (hchain : Relation.ReflTransGen (Dropped pool drops) y x) (hx : Vanishes b god x)
    (hrepeats : ∀ y' x', Relation.ReflTransGen (Dropped pool drops) y y' →
      Dropped pool drops y' x' → Repeats a y' x') : Vanishes b god y := by
  induction hchain using Relation.ReflTransGen.head_induction_on with
  | refl => exact hx
  | @head y z hstep _ ih =>
      have hz := ih fun y' x' hy' => hrepeats y' x' (.head hstep hy')
      exact ((hrepeats y z .refl hstep).of_shape hshape).vanishes hb hinv hz

/-- **Nothing is lost with residuals that are dropped** for others between points that coincide, if
what is asked for them is granted.  Take values that respect all unifications of a sketch whose
clustering is current.  If all residuals that are kept vanish, then so does every residual of every
constraint, unless it or one that it was dropped for was dropped with a loss.  What is asked for is
granted, if no relationship ties what a constraint measures. -/
theorem reachable_vanishes [PlaneLaws α] (h : Reachable s) {cs : List (Cluster α)}
    (hcs : s.clusters = some cs) :
    ∃ ties drops, Cluster.Rebuild s.constraints s.handles s.arena ties drops cs s.arena ∧
      (∀ (b : Arena α) (god : Bool), b.WellFormed → b.shape = s.arena.shape →
        (∀ c ∈ cs, ∀ x ∈ c.residuals, ∃ knowns, x.error knowns .empty god b = .ok (0, b)) →
        ∀ y ∈ s.constraints.residuals s.handles,
          (∀ y' x',
            Relation.ReflTransGen (Dropped (s.constraints.residuals s.handles) drops) y y' →
            Dropped (s.constraints.residuals s.handles) drops y' x' →
            ∃ r ∈ drops, r.Lossless s.arena y' x') →
          ∀ knowns, y.error knowns .empty god b = .ok (0, b)) ∧
      (s.Untied → ∀ r ∈ drops, r.Merges) := by
  obtain ⟨ties, drops, hrebuild⟩ := h.rebuild hcs
  refine ⟨ties, drops, hrebuild, fun b god hb hshape hkept y hy hlossless => ?_,
    fun huntied => h.registered.merges huntied hrebuild⟩
  obtain ⟨c, hc, x, hx, hchain⟩ := hrebuild.kept y hy
  obtain ⟨knowns, hzero⟩ := hkept c hc x hx
  refine vanishes_of_chain hb (h.invertible.of_sheds (.of_shape hshape)) hshape hchain
    (vanishes_of_error hzero) fun y' x' hy' hdrop => ?_
  obtain ⟨r, hr, hr'⟩ := hlossless y' x' hy' hdrop
  exact hr'.repeats hrebuild.run (List.mem_append_right ties hr)

/-! ## A distance that is measured twice -/

/-- Two handles, and their distance in both directions. -/
def measuredTwice : Sketch Taxicab :=
  Operation.cluster.perform.after <|
    (Operation.distance ⟨0⟩ ⟨3⟩).perform.after <| (Operation.distance ⟨3⟩ ⟨0⟩).perform.after <|
      (Operation.addHandle ⟨1, 0⟩).perform.after <| (Operation.addHandle ⟨0, 0⟩).perform.after empty

lemma reachable_measuredTwice : Reachable measuredTwice :=
  .perform _ (.perform _ (.perform _ (.perform _ (.perform _ (.withConfig _)))))

/-- The only cluster keeps one of the two residuals. -/
def measuredCluster : Cluster Taxicab where
  constraints := [⟨6⟩, ⟨8⟩]
  residuals := [.distance ⟨⟨4⟩, ⟨5⟩⟩ ⟨⟨1⟩, ⟨2⟩⟩ ⟨7⟩]
  referenced := [⟨4⟩, ⟨5⟩, ⟨1⟩, ⟨2⟩, ⟨7⟩, ⟨1⟩, ⟨2⟩, ⟨4⟩, ⟨5⟩, ⟨9⟩]
  vars := .ofList [⟨4⟩, ⟨5⟩, ⟨1⟩, ⟨2⟩, ⟨7⟩]

/-- Both distances give a residual, and the handles are apart. -/
lemma measuredTwice_spec : measuredTwice.clusters = some [measuredCluster] ∧
    measuredTwice.constraints.residuals measuredTwice.handles =
      [.distance ⟨⟨4⟩, ⟨5⟩⟩ ⟨⟨1⟩, ⟨2⟩⟩ ⟨7⟩, .distance ⟨⟨1⟩, ⟨2⟩⟩ ⟨⟨4⟩, ⟨5⟩⟩ ⟨9⟩] ∧
    ∀ p ∈ [(⟨⟨4⟩, ⟨5⟩⟩ : Coords), ⟨⟨1⟩, ⟨2⟩⟩], ∀ q ∈ [(⟨⟨4⟩, ⟨5⟩⟩ : Coords), ⟨⟨1⟩, ⟨2⟩⟩],
      measuredTwice.arena.canonical p.x = measuredTwice.arena.canonical q.x → p = q := by
  decide +kernel

/-- The second distance is right if the first one is. -/
theorem vanishes_measuredTwice :
    (Residual.distance ⟨⟨1⟩, ⟨2⟩⟩ ⟨⟨4⟩, ⟨5⟩⟩ ⟨9⟩).error .empty .empty false measuredTwice.arena =
      .ok (0, measuredTwice.arena) := by
  have hs := reachable_measuredTwice
  obtain ⟨hclusters, hresiduals, hapart⟩ := measuredTwice_spec
  obtain ⟨ties, drops, hrebuild, hvanishes, hmerges⟩ := reachable_vanishes hs hclusters
  have huntied : measuredTwice.Untied := untied_of_owned (by decide +kernel)
  refine hvanishes _ false hs.intact.arena rfl (fun c hc x hx => ⟨.empty, ?_⟩) _
    (by rw [hresiduals]; simp) (fun y' x' _ hdrop => ?_) .empty
  · obtain rfl := List.mem_singleton.1 hc
    obtain rfl := List.mem_singleton.1 hx
    refine error_distance_iff.2 ⟨⟨1, 0⟩, ⟨0, 0⟩, ?_, ?_, ?_⟩
    · exact Coords.read_eq_ok_iff.2 ⟨by decide +kernel, by decide +kernel⟩
    · exact Coords.read_eq_ok_iff.2 ⟨by decide +kernel, by decide +kernel⟩
    · decide +kernel
  · obtain ⟨hy', hx', r, hr, hclash⟩ := hdrop
    refine ⟨r, hr, hclash, fun p hp q hq hsame => ?_, Or.inl (hmerges huntied r hr)⟩
    -- the two handles are apart, so a point counts as the same as itself only
    obtain ⟨hx, -⟩ := hrebuild.run.canonical_of_sameAs (List.mem_append_right ties hr) hsame
    have hends : ∀ x ∈ measuredTwice.constraints.residuals measuredTwice.handles, ∀ p ∈ x.points,
        p ∈ [(⟨⟨4⟩, ⟨5⟩⟩ : Coords), ⟨⟨1⟩, ⟨2⟩⟩] := by
      rw [hresiduals]
      simp [points]
    obtain rfl := hapart q (hends _ hx' q hq) p (hends _ hy' p hp) hx
    exact .refl hs.intact.arena hs.invertible q

/-! ## What is lost -/

/-- Where all residuals that are kept vanish, so does every residual of every constraint. -/
def Preserves (s : Sketch Taxicab) (cs : List (Cluster Taxicab)) : Prop :=
  ∀ (b : Arena Taxicab) (god : Bool), b.WellFormed → b.shape = s.arena.shape →
    (∀ c ∈ cs, ∀ x ∈ c.residuals, ∃ knowns, x.error knowns .empty god b = .ok (0, b)) →
    ∀ y ∈ s.constraints.residuals s.handles, ∀ knowns, y.error knowns .empty god b = .ok (0, b)

/-- The distance that is kept is right, and another one is not. -/
lemma not_preserves {s : Sketch Taxicab} (hs : Reachable s) {c : Cluster Taxicab}
    {p q p' q' : Coords} {u v : VarId} (y z y' z' : Point Taxicab)
    (hkept : c.residuals = [.distance p q u])
    (hlost : .distance p' q' v ∈ s.constraints.residuals s.handles)
    (hvalues : s.arena.value? p.x = some y.x ∧ s.arena.value? p.y = some y.y ∧
      s.arena.value? q.x = some z.x ∧ s.arena.value? q.y = some z.y ∧
      s.arena.value? u = some (y.distance z))
    (hvalues' : s.arena.value? p'.x = some y'.x ∧ s.arena.value? p'.y = some y'.y ∧
      s.arena.value? q'.x = some z'.x ∧ s.arena.value? q'.y = some z'.y ∧
      s.arena.value? v ≠ some (y'.distance z')) :
    ¬ s.Preserves [c] := by
  obtain ⟨hpx, hpy, hqx, hqy, hu⟩ := hvalues
  obtain ⟨hpx', hpy', hqx', hqy', hv⟩ := hvalues'
  intro hpreserves
  have hzero := hpreserves s.arena false hs.intact.arena rfl (fun d hd x hx => ?_) _ hlost .empty
  · obtain ⟨y₁, z₁, hy₁, hz₁, hmeasured⟩ := error_distance_iff.1 hzero
    rw [Coords.read_eq_ok_iff.2 ⟨hpx', hpy'⟩] at hy₁
    rw [Coords.read_eq_ok_iff.2 ⟨hqx', hqy'⟩] at hz₁
    cases hy₁
    cases hz₁
    exact hv hmeasured
  · obtain rfl := List.mem_singleton.1 hd
    rw [hkept] at hx
    obtain rfl := List.mem_singleton.1 hx
    exact ⟨.empty, error_distance_iff.2 ⟨y, z, Coords.read_eq_ok_iff.2 ⟨hpx, hpy⟩,
      Coords.read_eq_ok_iff.2 ⟨hqx, hqy⟩, hu⟩⟩

/-- Two handles that are kept very close to each other, and the distance of each to a third one. -/
def near : Sketch Taxicab :=
  Operation.cluster.perform.after <|
    (Operation.distance ⟨3⟩ ⟨6⟩).perform.after <| (Operation.distance ⟨0⟩ ⟨6⟩).perform.after <|
      (Operation.linear ⟨5⟩ 1 ⟨2⟩ 0).perform.after <|
        (Operation.linear ⟨4⟩ 1 ⟨1⟩ 5e-6).perform.after <|
          (Operation.addHandle ⟨1, 0⟩).perform.after <|
            (Operation.addHandle ⟨5e-6, 0⟩).perform.after <|
              (Operation.addHandle ⟨0, 0⟩).perform.after empty

lemma reachable_near : Reachable near :=
  .perform _ (.perform _ (.perform _ (.perform _ (.perform _ (.perform _ (.perform _ (.perform _
    (.withConfig _))))))))

/-- The only cluster keeps the distance of the first handle. -/
def nearCluster : Cluster Taxicab where
  constraints := [⟨9⟩, ⟨10⟩, ⟨11⟩, ⟨13⟩]
  residuals := [.distance ⟨⟨1⟩, ⟨2⟩⟩ ⟨⟨7⟩, ⟨8⟩⟩ ⟨12⟩]
  referenced := [⟨4⟩, ⟨1⟩, ⟨5⟩, ⟨2⟩, ⟨1⟩, ⟨2⟩, ⟨7⟩, ⟨8⟩, ⟨12⟩, ⟨4⟩, ⟨5⟩, ⟨7⟩, ⟨8⟩, ⟨14⟩]
  vars := .ofList [⟨4⟩, ⟨5⟩, ⟨7⟩, ⟨8⟩, ⟨12⟩]

lemma near_spec : near.clusters = some [nearCluster] ∧
    near.constraints.residuals near.handles =
      [.distance ⟨⟨1⟩, ⟨2⟩⟩ ⟨⟨7⟩, ⟨8⟩⟩ ⟨12⟩, .distance ⟨⟨4⟩, ⟨5⟩⟩ ⟨⟨7⟩, ⟨8⟩⟩ ⟨14⟩] := by
  decide +kernel

/-- The distance of the second handle is dropped for that of the first one, though they differ. -/
lemma near_lost : ¬ near.Preserves [nearCluster] := by
  have hlost : .distance ⟨⟨4⟩, ⟨5⟩⟩ ⟨⟨7⟩, ⟨8⟩⟩ ⟨14⟩ ∈ near.constraints.residuals near.handles := by
    rw [near_spec.2]
    simp
  exact not_preserves reachable_near ⟨0, 0⟩ ⟨1, 0⟩ ⟨5e-6, 0⟩ ⟨1, 0⟩ rfl hlost (by decide +kernel)
    (by decide +kernel)

/-- The distance of two handles, measured twice, though the one measure is tied to be twice the
other one. -/
def doubled : Sketch Taxicab :=
  Operation.cluster.perform.after <| (Operation.setValue ⟨7⟩ 1).perform.after <|
    (Operation.linear ⟨9⟩ 2.0 ⟨7⟩ 0).perform.after <|
      (Operation.distance ⟨0⟩ ⟨3⟩).perform.after <| (Operation.distance ⟨0⟩ ⟨3⟩).perform.after <|
        (Operation.addHandle ⟨1, 0⟩).perform.after <|
          (Operation.addHandle ⟨0, 0⟩).perform.after empty

lemma reachable_doubled : Reachable doubled :=
  .perform _ (.perform _ (.perform _ (.perform _ (.perform _ (.perform _ (.perform _
    (.withConfig _)))))))

/-- The only cluster keeps the first distance. -/
def doubledCluster : Cluster Taxicab where
  constraints := [⟨6⟩, ⟨8⟩, ⟨10⟩]
  residuals := [.distance ⟨⟨1⟩, ⟨2⟩⟩ ⟨⟨4⟩, ⟨5⟩⟩ ⟨7⟩]
  referenced := [⟨1⟩, ⟨2⟩, ⟨4⟩, ⟨5⟩, ⟨7⟩, ⟨1⟩, ⟨2⟩, ⟨4⟩, ⟨5⟩, ⟨9⟩, ⟨9⟩, ⟨7⟩]
  vars := .ofList [⟨1⟩, ⟨2⟩, ⟨4⟩, ⟨5⟩, ⟨9⟩]

lemma doubled_spec : doubled.clusters = some [doubledCluster] ∧
    doubled.constraints.residuals doubled.handles =
      [.distance ⟨⟨1⟩, ⟨2⟩⟩ ⟨⟨4⟩, ⟨5⟩⟩ ⟨7⟩, .distance ⟨⟨1⟩, ⟨2⟩⟩ ⟨⟨4⟩, ⟨5⟩⟩ ⟨9⟩] := by
  decide +kernel

/-- The second distance is dropped, though what is asked for it is refused. -/
lemma doubled_lost : ¬ doubled.Preserves [doubledCluster] := by
  have hlost : .distance ⟨⟨1⟩, ⟨2⟩⟩ ⟨⟨4⟩, ⟨5⟩⟩ ⟨9⟩ ∈
      doubled.constraints.residuals doubled.handles := by
    rw [doubled_spec.2]
    simp
  exact not_preserves reachable_doubled ⟨0, 0⟩ ⟨1, 0⟩ ⟨0, 0⟩ ⟨1, 0⟩ rfl hlost (by decide +kernel)
    (by decide +kernel)

/-- **Residuals are lost** although no relationship ties what is measured, because points count as
the same within a tolerance; and although points that count as the same coincide, because what is
measured may be unified otherwise. -/
theorem dropped_lost :
    (¬ ∀ (s : Sketch Taxicab) (cs : List (Cluster Taxicab)), Reachable s → s.clusters = some cs →
      s.Untied → s.Preserves cs) ∧
    ¬ ∀ (s : Sketch Taxicab) (cs : List (Cluster Taxicab)), Reachable s → s.clusters = some cs →
      (∀ x ∈ s.constraints.residuals s.handles, ∀ y ∈ s.constraints.residuals s.handles,
        ∀ p ∈ x.points, ∀ q ∈ y.points, q.sameAs p s.arena = true → q.Coincide s.arena p) →
      s.Preserves cs := by
  refine ⟨fun halways => near_lost ?_, fun halways => doubled_lost ?_⟩
  · exact halways near _ reachable_near near_spec.1 (untied_of_owned (by decide +kernel))
  · refine halways doubled _ reachable_doubled doubled_spec.1 ?_
    have hends : ∀ x ∈ doubled.constraints.residuals doubled.handles, ∀ p ∈ x.points,
        p ∈ [(⟨⟨1⟩, ⟨2⟩⟩ : Coords), ⟨⟨4⟩, ⟨5⟩⟩] := by
      rw [doubled_spec.2]
      simp [points]
    have hapart : ∀ p ∈ [(⟨⟨1⟩, ⟨2⟩⟩ : Coords), ⟨⟨4⟩, ⟨5⟩⟩],
        ∀ q ∈ [(⟨⟨1⟩, ⟨2⟩⟩ : Coords), ⟨⟨4⟩, ⟨5⟩⟩], q.sameAs p doubled.arena = true → q = p := by
      decide +kernel
    intro x hx y hy p hp q hq hsame
    obtain rfl := hapart p (hends x hx p hp) q (hends y hy q hq) hsame
    exact .refl reachable_doubled.intact.arena reachable_doubled.invertible q

end Sketch

end SketchSolver
