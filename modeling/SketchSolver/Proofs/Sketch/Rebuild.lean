import Mathlib
import SketchSolver.Proofs.Cluster.Requests
import SketchSolver.Proofs.Sketch.Lock

/-!
# What a clustering unifies

While a clustering is kept, its unifications are those that the present constraints ask for, no
matter what was unified before.

* `Coherent.rebuild` — clustering the present constraints anew makes requests that lead to the
  present unifications.  With exact numbers they lead to the very clusters that are kept
  (`Reachable.rebuild`).
* `reachable_rebuilt` — so two variables are unified exactly when a chain of granted requests joins
  them.  Every tie of a constraint is among the requests, and only a degenerate map between the
  roots keeps it from being granted.
* `shrunk_apart` — that map is composed of earlier ones.  It can be degenerate although no tie is,
  and then a relationship does not unify its two variables.
-/

namespace SketchSolver

namespace Sketch

open Arena

section

variable {α : Type} [Scalar α] {s : Sketch α} {r : α → α → Prop}

/-- The requests that clustering the present constraints anew makes.  They lead to the clusters that
are kept and to the unifications that there are. -/
lemma Coherent.rebuild (h : s.Coherent r) {cs : List (Cluster α)} (hcs : s.clusters = some cs) :
    ∃ ties drops cs' b, Cluster.Rebuild s.constraints s.handles s.arena ties drops cs' b ∧
      List.Forall₂ (Cluster.Alike fun _ => Point.Near r) cs cs' ∧ s.arena.Alike r b := by
  obtain ⟨cs', b, hbuild, hclusters, halike, -⟩ := h cs hcs
  obtain ⟨ties, drops, hrebuild⟩ := Cluster.rebuild_of_build hbuild
  exact ⟨ties, drops, cs', b, hrebuild, hclusters, halike⟩

end

section

variable {α : Type} [Exact α] {s : Sketch α}

/-- With exact numbers, clustering the present constraints anew leads to the clusters and the
unifications that there are. -/
lemma Reachable.rebuild (h : Reachable s) {cs : List (Cluster α)} (hcs : s.clusters = some cs) :
    ∃ ties drops, Cluster.Rebuild s.constraints s.handles s.arena ties drops cs s.arena := by
  have hr : Scalar.Tolerates (Eq : α → α → Prop) := Scalar.tolerates_eq
  obtain ⟨cs', b, hbuild, hclusters, -⟩ :=
    (h.cached hr fun x y hxy => by simpa using hxy).coherent hr cs hcs
  obtain ⟨_, hsettled⟩ := h.settled hcs
  rw [hbuild] at hsettled
  cases hsettled
  obtain rfl : cs' = cs :=
    Cluster.Alike.eq (fun hpq => (Point.ext hpq.1 hpq.2).symm) hclusters
  exact Cluster.rebuild_of_build hbuild

end

/-- **What is unified while a clustering is kept.**  Clustering the present constraints makes
certain requests, which lead to the clusters that are kept up to the signs of zeros.

* Two variables are unified exactly when a chain of granted requests joins them.
* The two variables of every tie that a constraint asks for are unified, unless its request was
  refused because the map between the roots was degenerate by then. -/
theorem reachable_rebuilt {s : Sketch Float} (h : Reachable s) {cs : List (Cluster Float)}
    (hcs : s.clusters = some cs) :
    ∃ ties drops cs' b, Cluster.Rebuild s.constraints s.handles s.arena ties drops cs' b ∧
      List.Forall₂ (Cluster.Alike fun _ => Point.Near Double.UpToZero) cs cs' ∧
      (∀ u v, s.arena.canonical u = s.arena.canonical v ↔
        Chained (fun e => ∃ r ∈ ties ++ drops, r.Granted ∧ r.toTie = e) u v) ∧
      ∀ k ∈ s.constraints.values, ∀ e ∈ k.ties s.handles,
        s.arena.canonical e.this = s.arena.canonical e.that ∨
          ∃ r ∈ ties, r.toTie = e ∧ ¬ r.Granted := by
  have hr := Double.tolerates_upToZero
  have hcoherent := (h.cached hr fun x y => Double.upToZero_of_beq).coherent hr
  obtain ⟨ties, drops, cs', b, hrebuild, hclusters, halike⟩ := hcoherent.rebuild hcs
  have hcanonical := congrFun (halike.canonical hr)
  refine ⟨ties, drops, cs', b, hrebuild, hclusters, fun u v => ?_, fun k hk e he => ?_⟩
  · rw [← hcanonical, ← hcanonical]
    exact canonical_eq_iff_chained hrebuild.run u v
  · have hmem : e ∈ ties.map Request.toTie := by
      rw [hrebuild.asked]
      exact List.mem_flatMap.2 ⟨k, hk, he⟩
    obtain ⟨r, hr, rfl⟩ := List.mem_map.1 hmem
    rw [← hcanonical, ← hcanonical]
    by_cases hgranted : r.Granted
    · exact Or.inl ((wellFormed_reset _).requests_granted hrebuild.run r
        (List.mem_append_left drops hr) hgranted)
    · exact Or.inr ⟨r, hr, rfl, hgranted⟩

/-! ## A relationship that does not unify -/

/-- Three variables, each a tiny part of the next one. -/
def shrunk : Sketch Float :=
  Operation.cluster.perform.after <|
    (Operation.linear ⟨1⟩ 1e-155 ⟨2⟩ 0).perform.after <|
      (Operation.linear ⟨0⟩ 1e-155 ⟨1⟩ 0).perform.after <|
        (Operation.addVariable 0 none).perform.after <|
          (Operation.addVariable 0 none).perform.after <|
            (Operation.addVariable 0 none).perform.after empty

lemma reachable_shrunk : Reachable shrunk :=
  .perform _ (.perform _ (.perform _ (.perform _ (.perform _ (.perform _ (.withConfig _))))))

/-- The first relationship is granted, and then the map between the roots is degenerate for the
second one, although the second one is not. -/
theorem shrunk_apart :
    Reachable shrunk ∧ shrunk.clusters.isSome = true ∧
      shrunk.constraints.get? ⟨4⟩ = some (.linear ⟨1⟩ 1e-155 ⟨2⟩ 0) ∧
      (⟨1e-155, 0⟩ : Affine Float).isDegenerate = false ∧
      shrunk.arena.canonical ⟨1⟩ ≠ shrunk.arena.canonical ⟨2⟩ :=
  ⟨reachable_shrunk, by decide +kernel, by decide +kernel, by decide +kernel, by decide +kernel⟩

/-- So it is refused. -/
theorem rebuilt_shrunk :
    ∃ ties drops cs b,
      Cluster.Rebuild shrunk.constraints shrunk.handles shrunk.arena ties drops cs b ∧
      (∃ r ∈ ties, r.toTie = ⟨⟨1⟩, ⟨2⟩, ⟨1e-155, 0⟩⟩ ∧ ¬ r.Granted) ∧
      Chained (fun e => ∃ r ∈ ties ++ drops, r.Granted ∧ r.toTie = e) ⟨0⟩ ⟨1⟩ := by
  have hcurrent : shrunk.clusters.isSome = true := by decide +kernel
  obtain ⟨cs, hcs⟩ := Option.isSome_iff_exists.1 hcurrent
  obtain ⟨ties, drops, cs', b, hrebuild, -, hunified, hties⟩ :=
    reachable_rebuilt reachable_shrunk hcs
  refine ⟨ties, drops, cs', b, hrebuild, ?_, (hunified ⟨0⟩ ⟨1⟩).1 (by decide +kernel)⟩
  have hmem : Constraint.linear ⟨1⟩ 1e-155 ⟨2⟩ 0 ∈ shrunk.constraints.values := by
    rw [show shrunk.constraints.values =
      [.linear ⟨0⟩ 1e-155 ⟨1⟩ 0, .linear ⟨1⟩ 1e-155 ⟨2⟩ 0] from by decide +kernel]
    exact List.mem_cons_of_mem _ List.mem_cons_self
  exact (hties _ hmem _ List.mem_cons_self).resolve_left (by decide +kernel)

end Sketch

end SketchSolver
