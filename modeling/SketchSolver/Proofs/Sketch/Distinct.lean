import Mathlib
import SketchSolver.Proofs.Cluster.Distinct
import SketchSolver.Proofs.Sketch.Coherent
import SketchSolver.Proofs.Sketch.Consistent

/-!
# Residuals that relate the same points

Residuals that relate the same points are to become one, so that a relationship counts once.

* `reachable_distinct` — so it is, as long as no end of a residual is unified with a distance or an
  angle that a constraint owns.
* `crowded_twice` — otherwise two residuals that were told apart may come to relate the same
  points, and both stay.
-/

namespace SketchSolver

namespace Sketch

section

variable {α : Type} {s s' : Sketch α}

/-- The variable is a distance or an angle that a constraint of the sketch owns. -/
def Measured (s : Sketch α) (v : VarId) : Prop :=
  ∃ id k, s.constraints.get? id = some k ∧ k.Measures v

/-- A constraint that measures the same may take the place of another one. -/
lemma measured_replace {id : ConstraintId} {old c : Constraint α}
    (hold : s.constraints.get? id = some old) (hsame : c.ownedQuantities = old.ownedQuantities) :
    Measured { s with constraints := s.constraints.insert id c } = s.Measured := by
  funext v
  have hmeasures : c.Measures v ↔ old.Measures v := by
    rw [Constraint.Measures, Constraint.Measures, hsame]
  apply propext
  simp only [Measured, OrderedMap.get?_insert]
  constructor
  · rintro ⟨i, k, hget, hk⟩
    split_ifs at hget with hi
    · cases hget
      exact ⟨id, old, hold, hmeasures.1 hk⟩
    · exact ⟨i, k, hget, hk⟩
  · rintro ⟨i, k, hget, hk⟩
    by_cases hi : i = id
    · subst hi
      rw [hold] at hget
      cases hget
      exact ⟨i, c, by rw [if_pos rfl], hmeasures.2 hk⟩
    · exact ⟨i, k, by rw [if_neg hi, hget], hk⟩

variable [Scalar α]

/-- In each cluster no residual clashes with an earlier one, unless one of their ends is unified
with what a constraint measures. -/
def Separated (s : Sketch α) : Prop :=
  ∀ cs, s.clusters = some cs → Cluster.AllTidy s.Measured s.arena cs

lemma separated_of_none (h : s.clusters = none) : s.Separated := by
  intro cs hcs
  rw [h] at hcs
  cases hcs

theorem Change.separated (hchange : Change s s') (h : s.Separated) : s'.Separated := by
  cases hchange with
  | revalue hwf hshape =>
      intro cs hcs c hc
      exact (h cs hcs c hc).of_shape hshape
  | replaceQuietly hold hkey hkey' hlive hquiet =>
      have howned := (sameNames_of_isQuietUpdate (hkey'.trans hkey.symm) hquiet).owned
      intro cs hcs
      rw [measured_replace hold (Constraint.ownedQuantities_of_key hkey' hkey howned.symm)]
      exact h cs hcs
  | @moveFinger id i p point q hold hpoint =>
      intro cs hcs
      obtain ⟨cs₀, hcs₀, rfl⟩ := Option.map_eq_some_iff.1 hcs
      have hsame : Measured { s with
          constraints := s.constraints.insert id (.finger i q)
          clusters := s.clusters.map fun cs => cs.map (·.moveFinger point q) } = s.Measured :=
        measured_replace hold rfl
      rw [hsame]
      intro c hc
      obtain ⟨c₀, hc₀, rfl⟩ := List.mem_map.1 hc
      exact (h cs₀ hcs₀ c₀ hc₀).moveFinger point q
  | remove hremoved =>
      rcases hremoved.removals.clusters with rfl | hnone
      · exact h
      · exact separated_of_none hnone
  | cluster hbuild =>
      rintro _ ⟨⟩
      refine Cluster.tidy_of_build (fun e he v hv => ?_) hbuild
      exact ⟨e.1, e.2, (s.constraints.mem_entries_iff e.1 e.2).1 he, hv⟩
  | configure config stabilizeGizmos fingerOfGod => exact h
  | _ => exact separated_of_none rfl

lemma Reachable.separated (h : Reachable s) : s.Separated :=
  (h.invariant (invariant_intact.of_change fun _ hs hchange => hchange.separated hs) fun config =>
    ⟨intact_withConfig config, separated_of_none rfl⟩).2

/-- **One residual for one relationship.**  If the clusters of a reachable sketch have been built
then, of all their residuals, no two relate the same points, whichever clusters they are in: two
distances or two angles the ends of which are unified with each other, in the same or in opposite
order.  It takes an end that is unified with a distance or an angle that a constraint owns to make
an exception. -/
theorem reachable_distinct (h : Reachable s) {cs : List (Cluster α)} (hcs : s.clusters = some cs) :
    (cs.flatMap (·.residuals)).Pairwise fun x y => y.clash s.arena x = none ∨
      ∃ u ∈ x.ends ++ y.ends, ∃ v, s.Measured v ∧ s.arena.canonical v = s.arena.canonical u := by
  have hready := h.intact.ready hcs
  refine List.pairwise_flatMap.2 ⟨fun c hc => (h.separated cs hcs c hc).distinct, ?_⟩
  -- residuals of different clusters have no group in common
  refine (h.intact.disjoint hcs).imp_of_mem fun {c d} hc hd hdisjoint x hx y hy => ?_
  left
  rcases hclash : y.clash s.arena x with _ | e
  · rfl
  obtain ⟨u, hu, v, hv, huv⟩ := Residual.exists_of_clash hclash
  have hgroup := ((hready c hc).residual x hx u (Residual.mem_vars_of_ends hu)).group
  have hgroup' := ((hready d hd).residual y hy v (Residual.mem_vars_of_ends hv)).group
  exact absurd (huv ▸ hgroup') (hdisjoint _ hgroup)

end

/-! ## Told apart, and then unified -/

/-- Three handles.  The distances of the first two to the third are measured, and then their own
distance is, twice; their coordinates are tied so that it takes these two to be unified for the
handles to coincide. -/
def crowded : Sketch Float :=
  Operation.cluster.perform.after <|
    (Operation.linear ⟨2⟩ 1 ⟨5⟩ 0).perform.after <|
      (Operation.linear ⟨4⟩ 1 ⟨16⟩ 0).perform.after <|
        (Operation.linear ⟨1⟩ 1 ⟨14⟩ 0).perform.after <|
          (Operation.distance ⟨0⟩ ⟨3⟩).perform.after <|
            (Operation.distance ⟨0⟩ ⟨3⟩).perform.after <|
              (Operation.distance ⟨3⟩ ⟨6⟩).perform.after <|
                (Operation.distance ⟨0⟩ ⟨6⟩).perform.after <|
                  (Operation.addHandle ⟨0, 4⟩).perform.after <|
                    (Operation.addHandle ⟨3, 0⟩).perform.after <|
                      (Operation.addHandle ⟨0, 0⟩).perform.after empty

lemma reachable_crowded : Reachable crowded :=
  .perform _ (.perform _ (.perform _ (.perform _ (.perform _ (.perform _ (.perform _ (.perform _
    (.perform _ (.perform _ (.perform _ (.withConfig _)))))))))))

/-- Its only cluster keeps the distances of the first two handles to the third. -/
def crowdedCluster : Cluster Float where
  constraints := [⟨9⟩, ⟨11⟩, ⟨13⟩, ⟨15⟩, ⟨17⟩, ⟨18⟩, ⟨19⟩]
  residuals := [.distance ⟨⟨1⟩, ⟨2⟩⟩ ⟨⟨7⟩, ⟨8⟩⟩ ⟨10⟩, .distance ⟨⟨4⟩, ⟨5⟩⟩ ⟨⟨7⟩, ⟨8⟩⟩ ⟨12⟩,
    .distance ⟨⟨1⟩, ⟨2⟩⟩ ⟨⟨4⟩, ⟨5⟩⟩ ⟨14⟩]
  referenced := [⟨1⟩, ⟨2⟩, ⟨7⟩, ⟨8⟩, ⟨10⟩, ⟨4⟩, ⟨5⟩, ⟨7⟩, ⟨8⟩, ⟨12⟩, ⟨1⟩, ⟨2⟩, ⟨4⟩, ⟨5⟩, ⟨14⟩,
    ⟨1⟩, ⟨2⟩, ⟨4⟩, ⟨5⟩, ⟨16⟩, ⟨1⟩, ⟨14⟩, ⟨4⟩, ⟨16⟩, ⟨2⟩, ⟨5⟩]
  vars := .ofList [⟨1⟩, ⟨2⟩, ⟨7⟩, ⟨8⟩, ⟨10⟩, ⟨12⟩]

lemma clusters_crowded : crowded.clusters = some [crowdedCluster] := by
  decide +kernel

/-- The residuals that are kept are told apart, or have an end that is unified with a distance. -/
theorem distinct_crowded : crowdedCluster.residuals.Pairwise fun x y =>
    y.clash crowded.arena x = none ∨ ∃ u ∈ x.ends ++ y.ends, ∃ v, crowded.Measured v ∧
      crowded.arena.canonical v = crowded.arena.canonical u := by
  simpa using reachable_distinct reachable_crowded clusters_crowded

/-- **Two residuals for one relationship.**  Here the first two handles have been unified, so that
their distances to the third one relate the same points, and both are kept. -/
theorem crowded_twice :
    ¬ ∀ (s : Sketch Float) (cs : List (Cluster Float)), Reachable s → s.clusters = some cs →
      (cs.flatMap (·.residuals)).Pairwise fun x y => y.clash s.arena x = none := by
  intro halways
  have hpairwise := halways crowded _ reachable_crowded clusters_crowded
  have hpair := List.rel_of_pairwise_cons hpairwise List.mem_cons_self
  exact absurd hpair (by decide +kernel)

end Sketch

end SketchSolver
