import Mathlib
import SketchSolver.Proofs.Arena.Part
import SketchSolver.Proofs.Sketch.Coherent

/-!
# Clustering knows no history

What clustering leads to is determined by the constraints and the handles.  What was unified before,
all values and all variables that no constraint and no handle refers to are no matter.

The argument compares two sketches through what they have in common.  Clustering succeeds for the
variables that are in both, because constraints and handles refer to no others, and what happens
there happens in both sketches (`Cluster.build_part`).

* `reachable_build_determined` — so two sketches with the same constraints and handles are clustered
  in the same way.  Canonical variables keep their values, and clustering once more changes nothing.
-/

namespace SketchSolver

variable {α : Type} [Scalar α]

/-- Clustering a part and clustering the whole give the same clusters and merges, and the part stays
a part. -/
lemma Cluster.build_part {K : ConstraintTable α} {a b c : Arena α} {t u v : HandleTable}
    {cs : List (Cluster α)} (hsub : ∀ k, a.contains k = true → b.contains k = true)
    (hpoints : u.points = t.points) (hbuild : Cluster.build K a t = .ok (cs, c, v)) :
    ∃ d, Cluster.build K b u = .ok (cs, d, v) ∧ c.Part d := by
  have hK : K.Alike Eq (fun _ => Eq) t K := .refl Scalar.tolerates_eq fun _ _ => rfl
  obtain ⟨⟨cs', d, v'⟩, hbuild', hcs, hpart, rfl⟩ :=
    Cluster.Alike.build Arena.Part.simulates hK (.reset hsub) hpoints _ hbuild
  obtain rfl : cs' = cs := Cluster.Alike.eq Eq.symm hcs
  exact ⟨d, hbuild', hpart⟩

namespace Sketch

variable {s t : Sketch α}

/-- The variables that both sketches have can be clustered if the constraints and the handles are
the same. -/
lemma Intact.build_common (hs : s.Intact) (ht : t.Intact)
    (hconstraints : t.constraints = s.constraints) (hpoints : t.handles.points = s.handles.points) :
    ∃ cs c u, Cluster.build s.constraints (s.arena.restrict t.arena.contains) s.handles =
      .ok (cs, c, u) := by
  have hboth : ∀ {v}, s.arena.contains v = true → t.arena.contains v = true →
      (s.arena.restrict t.arena.contains).contains v = true := by
    intro v hv hv'
    rw [Arena.contains_restrict, hv, hv']
    rfl
  have hground : s.handles.Grounded (s.arena.restrict t.arena.contains) := by
    intro h p hp
    have hp' : t.handles.coords? h = some p := by rwa [HandleTable.coords?_congr hpoints]
    exact ⟨hboth (hs.grounded h p hp).1 (ht.grounded h p hp').1,
      hboth (hs.grounded h p hp).2 (ht.grounded h p hp').2⟩
  have hlive : ∀ e ∈ s.constraints.entries,
      e.2.Live s.handles (s.arena.restrict t.arena.contains) := by
    intro e he
    have hleft := Sound.live_entries hs.toSoundExcept e he
    have hright := Sound.live_entries ht.toSoundExcept e (hconstraints ▸ he)
    exact ⟨hleft.handles, fun v hv => hboth (hleft.named v hv) (hright.named v hv)⟩
  obtain ⟨cs, c, u, hbuild, -⟩ := Cluster.build_spec hground hlive hs.ordered
  exact ⟨cs, c, u, hbuild⟩

/-- **Clustering knows no history.**  Two reachable sketches with the same constraints, in the same
order, and the same handles have the same clusters and the same merges, and what both have is linked
in the same way, whatever was unified and whatever the values were before.  What stands for its
group has the value that it had, and clustering once more changes neither links nor values. -/
theorem reachable_build_determined (hs : Reachable s) (ht : Reachable t)
    (hconstraints : t.constraints = s.constraints) (hpoints : t.handles.points = s.handles.points) :
    ∃ cs a b u, Cluster.build s.constraints s.arena s.handles = .ok (cs, a, u) ∧
      Cluster.build t.constraints t.arena t.handles = .ok (cs, b, u) ∧
      (∀ v, a.contains v = true → b.contains v = true → a.link? v = b.link? v) ∧
      -- nothing refers to what only one of the sketches has
      (∀ v, a.contains v = true → b.contains v = false → a.link? v = some .alone) ∧
      (∀ v, b.contains v = true → a.contains v = false → b.link? v = some .alone) ∧
      (∀ v, a.canonical v = v → a.value? v = s.arena.value? v) ∧
      Cluster.build s.constraints a u = .ok (cs, a, u) := by
  obtain ⟨cs, c, u, hbuild⟩ := hs.intact.build_common ht.intact hconstraints hpoints
  obtain ⟨a, ha, hpart⟩ := Cluster.build_part (b := s.arena) (u := s.handles)
    (fun k hk => by
      rw [Arena.contains_restrict, Bool.and_eq_true] at hk
      exact hk.2) rfl hbuild
  obtain ⟨b, hb, hpart'⟩ := Cluster.build_part (b := t.arena) (u := t.handles)
    (fun k hk => by
      rw [Arena.contains_restrict, Bool.and_eq_true] at hk
      exact hk.1) hpoints hbuild
  have hcommon : ∀ v, c.contains v = (b.contains v && a.contains v) := fun v => by
    rw [Cluster.contains_build hbuild, Arena.contains_restrict, Cluster.contains_build ha,
      Cluster.contains_build hb]
  obtain ⟨hwf, hroots⟩ := Cluster.build_roots ha
  refine ⟨cs, a, b, u, ha, hconstraints ▸ hb, fun v hv hv' => ?_, fun v hv hv' => ?_,
    fun v hv hv' => ?_, hroots, build_same ha hwf rfl⟩
  · have hc : c.contains v = true := by rw [hcommon, hv, hv']; rfl
    rw [hpart.link hc, hpart'.link hc]
  · exact hpart.alone (by rw [hcommon, hv']; rfl) hv
  · exact hpart'.alone (by rw [hcommon, hv', Bool.and_false]) hv

/-- Two sketches with one relationship.  The second one has had another one, whose unification is
still there, and it has other values and one more variable. -/
theorem build_determined_dragged :
    let tied := (Operation.linear ⟨1⟩ 2 ⟨4⟩ 1).perform.after dragged
    let untied := (Operation.addVariable 7 none).perform.after <|
      (Operation.setValue ⟨4⟩ 5).perform.after <| (Operation.removeConstraint ⟨9⟩).perform.after <|
        (Operation.linear ⟨2⟩ 1 ⟨5⟩ 0).perform.after tied
    untied.arena.canonical ⟨5⟩ ≠ tied.arena.canonical ⟨5⟩ ∧
      untied.arena.value? ⟨4⟩ ≠ tied.arena.value? ⟨4⟩ ∧
      ∃ cs a b u, Cluster.build tied.constraints tied.arena tied.handles = .ok (cs, a, u) ∧
        Cluster.build untied.constraints untied.arena untied.handles = .ok (cs, b, u) ∧
        a.link? ⟨5⟩ = b.link? ⟨5⟩ ∧ b.link? ⟨10⟩ = some .alone ∧
        Cluster.build tied.constraints a u = .ok (cs, a, u) := by
  intro tied untied
  have htied : Reachable tied := .perform _ reachable_dragged
  obtain ⟨cs, a, b, u, ha, hb, hlink, -, halone, -, hagain⟩ :=
    reachable_build_determined htied (t := untied)
      (.perform _ (.perform _ (.perform _ (.perform _ htied))))
      (OrderedMap.ext (by decide +kernel)) (OrderedMap.ext (by decide +kernel))
  have hin : ∀ v, a.contains v = tied.arena.contains v := Cluster.contains_build ha
  have hin' : ∀ v, b.contains v = untied.arena.contains v := Cluster.contains_build hb
  refine ⟨by decide +kernel, by decide +kernel, cs, a, b, u, ha, hb, hlink _ ?_ ?_,
    halone _ ?_ ?_, hagain⟩
  · rw [hin]; decide +kernel
  · rw [hin']; decide +kernel
  · rw [hin']; decide +kernel
  · rw [hin]; decide +kernel

end Sketch

end SketchSolver
