import Mathlib
import SketchSolver.Proofs.Sketch.Reachable

/-!
# The clusters of a sketch

Clusters are the connected components of the constraints: two constraints are neighbours if they
refer to variables with one canonical variable, and a cluster is what neighbours lead to.  The
canonical variables are those after clustering, because clustering unifies.

* `Sketch.Older` — the order of creation.
* `reachable_clusters_partition` — what `Sketch.clustered` answers for a reachable sketch.
-/

namespace SketchSolver

namespace Sketch

variable {α : Type} {s : Sketch α}

/-- The first constraint was created before the second one: the table lists it first. -/
def Older (s : Sketch α) (i j : ConstraintId) : Prop :=
  [i, j].Sublist s.constraints.keys

/-- In a list that is ordered by a number, what has the smaller number stands first. -/
lemma pair_sublist_of_lt {κ : Type} {f : κ → Nat} {keys : List κ} {i j : κ}
    (hordered : keys.Pairwise (f · < f ·)) (hi : i ∈ keys) (hj : j ∈ keys) (hlt : f i < f j) :
    [i, j].Sublist keys := by
  induction keys with
  | nil => cases hi
  | cons k keys ih =>
      obtain ⟨hfirst, hordered⟩ := List.pairwise_cons.1 hordered
      rcases List.mem_cons.1 hi with rfl | hi'
      · have hj : j ∈ keys := by
          rcases List.mem_cons.1 hj with rfl | hj
          · exact absurd hlt (Nat.lt_irrefl _)
          · exact hj
        exact .cons_cons i (List.singleton_sublist.2 hj)
      · have hj : j ∈ keys := by
          rcases List.mem_cons.1 hj with rfl | hj
          · have := hfirst i hi'
            omega
          · exact hj
        exact .cons k (ih hordered hi' hj)

section

variable [Scalar α]

lemma SoundExcept.older_of_lt {P : ConstraintId → Prop} (h : SoundExcept P s) {i j : ConstraintId}
    (hi : i ∈ s.constraints.keys) (hj : j ∈ s.constraints.keys) (hlt : i.index < j.index) :
    s.Older i j :=
  pair_sublist_of_lt h.ordered hi hj hlt

/-- **The clusters of a reachable sketch** are the connected components of its constraints, each
with its oldest constraint first, and in the order of these. -/
theorem reachable_clusters_partition (h : Reachable s) :
    ∃ cs s', s.clustered = .ok (cs, s') ∧ s'.constraints = s.constraints ∧
      -- every constraint is in one cluster, once
      s.constraints.keys.Nodup ∧ (cs.flatMap (·.constraints)).Perm s.constraints.keys ∧
      -- no two clusters have a variable in common
      cs.Pairwise (fun c d => ∀ v ∈ c.vars, ¬ v ∈ d.vars) ∧
      -- a cluster knows the canonical variables of its constraints, and no others
      (∀ c ∈ cs, ∀ v, v ∈ c.vars ↔
        ∃ id ∈ c.constraints, ∃ w, s.Refers id w ∧ s'.arena.canonical w = v) ∧
      -- constraints are in one cluster exactly if neighbours lead from one to the other
      (∀ i ∈ s.constraints.keys, ∀ j,
        (∃ c ∈ cs, i ∈ c.constraints ∧ j ∈ c.constraints) ↔
          Cluster.Joined s.Refers s'.arena i j) ∧
      -- the oldest constraint comes first, and so does the cluster with the older one
      (∀ c ∈ cs, ∃ i rest, c.constraints = i :: rest ∧ ∀ j ∈ rest, s.Older i j) ∧
      cs.Pairwise fun c d => ∀ i ∈ c.constraints.head?, ∀ j ∈ d.constraints.head?, s.Older i j := by
  have hs := h.intact
  obtain ⟨cs, s', hclustered, hs', hcs, hconstraints, hrefers, -⟩ := hs.clustered_spec
  have hclustering := hs'.current hcs
  rw [hrefers, hconstraints] at hclustering
  have holder : ∀ {c d : Cluster α}, c ∈ cs → d ∈ cs → ∀ {i j}, i ∈ c.constraints →
      j ∈ d.constraints → i.index < j.index → s.Older i j := fun hc hd _ _ hi hj hlt =>
    hs.older_of_lt (hclustering.mem_done hc hi) (hclustering.mem_done hd hj) hlt
  refine ⟨cs, s', hclustered, hconstraints, s.constraints.nodupKeys, hclustering.perm,
    hclustering.disjoint, fun c hc v => ?_, fun i hi j => ?_, fun c hc => ?_, ?_⟩
  · rw [hclustering.exact c hc v]
    constructor
    · rintro ⟨w, hw, hcanonical⟩
      obtain ⟨id, hid, hR⟩ := ((hclustering.sound c hc).referenced w).1 hw
      exact ⟨id, hid, w, hR, hcanonical⟩
    · rintro ⟨id, hid, w, hR, hcanonical⟩
      exact ⟨w, ((hclustering.sound c hc).referenced w).2 ⟨id, hid, hR⟩, hcanonical⟩
  · exact hclustering.same_iff (fun _ _ hR => Refers.mem_keys hR) hi
  · obtain ⟨i, rest, hlist, holdest⟩ := (hclustering.sound c hc).oldest
    refine ⟨i, rest, hlist, fun j hj => holder hc hc ?_ ?_ (holdest j hj)⟩
    · rw [hlist]
      exact List.mem_cons_self
    · rw [hlist]
      exact List.mem_cons_of_mem _ hj
  · refine hclustering.ordered.imp_of_mem fun hc hd hbefore i hi j hj => ?_
    have hj' := List.mem_of_mem_head? hj
    exact holder hc hd (List.mem_of_mem_head? hi) hj' (hbefore i hi j hj')

end

/-- The fingers of two separate handles are in different clusters. -/
theorem clusters_partition_dragged :
    ∃ cs s', dragged.clustered = .ok (cs, s') ∧
      (cs.flatMap (·.constraints)).Perm [⟨6⟩, ⟨7⟩] ∧
      ((∃ c ∈ cs, ⟨6⟩ ∈ c.constraints ∧ ⟨7⟩ ∈ c.constraints) ↔
        Cluster.Joined dragged.Refers s'.arena ⟨6⟩ ⟨7⟩) := by
  obtain ⟨cs, s', hclustered, -, -, hperm, -, -, hsame, -⟩ :=
    reachable_clusters_partition reachable_dragged
  exact ⟨cs, s', hclustered, hperm, hsame ⟨6⟩ (by decide) ⟨7⟩⟩

end Sketch

end SketchSolver
