import Mathlib
import SketchSolver.Document.Read
import SketchSolver.Document.Write
import SketchSolver.Proofs.Document.Load

/-!
# A sketch that was saved and loaded

Unifications are not saved.  They follow from the constraints, and are made again when a sketch is
loaded and when it is clustered.  So a sketch that was saved, loaded and clustered is the sketch
that was saved, if its clustering was present.

* `Cached.build_of_no_fingers` — without fingers the clusters that are kept are exactly those that
  clustering anew leads to.
* `Loaded.build_again` — they are also those of what was loaded, with the same links and values.
* `reachable_saved` — so it is for all reachable sketches.  Values are those that clustering anew
  leaves.
* `negated_changed` — these may differ from the present ones, by the sign of a zero: an update by a
  constraint that compares as equal keeps the links, and what is saved is the update.
-/

namespace SketchSolver

open Scalar (Tolerates)

section

variable {α : Type} [Scalar α] {s t : Sketch α} {r : α → α → Prop}

/-- Without fingers, clustering the present constraints leads to the very clusters that are kept. -/
lemma Sketch.Cached.build_of_no_fingers (hr : Tolerates r) (h : s.Cached r) {cs : List (Cluster α)}
    (hcs : s.clusters = some cs) (hfingers : ∀ c ∈ s.constraints.values, c.isFinger = false) :
    ∃ b, Cluster.build s.constraints s.arena s.handles = .ok (cs, b, s.handles) ∧
      s.arena.Alike r b ∧ ∀ v, Option.Rel r (s.arena.value? v) (b.value? v) := by
  obtain ⟨K, hK, hbuild⟩ := h cs hcs
  have hK' : K.Alike r (fun _ _ _ => False) s.handles s.constraints := by
    refine ⟨hK.keys, fun id => ?_⟩
    have halike := hK.get? id
    generalize K.get? id = k at halike ⊢
    cases hd : s.constraints.get? id with
    | none =>
        rw [hd] at halike
        cases halike
        exact .none
    | some d =>
        have hfinger := hfingers d (OrderedMap.mem_values_of_get? hd)
        rw [hd] at halike
        cases halike with
        | some hk =>
            refine .some ?_
            cases hk with
            | finger => cases hfinger
            | linear y x hnear => exact .linear y x hnear
            | _ => constructor
  obtain ⟨⟨cs', b, _⟩, hanew, hclusters, halike, rfl⟩ :=
    Cluster.Alike.build (Arena.Alike.simulates hr) hK' (.reset rfl) rfl _ hbuild
  obtain rfl : cs' = cs := Cluster.Alike.eq (fun hpq => hpq.elim) hclusters
  refine ⟨b, hanew, halike, halike.value hr fun k hk => ?_⟩
  exact (Cluster.build_roots hanew).2 k (by rw [halike.canonical hr, hk])

namespace Document

open Sketch

omit [Scalar α] in
/-- What is saved of a sketch are the variables with their values, the handles and the
constraints. -/
lemma ofSketch_congr (hids : t.arena.ids = s.arena.ids) (hvalue : t.arena.value? = s.arena.value?)
    (hhandles : t.handles = s.handles) (hconstraints : t.constraints = s.constraints) :
    ofSketch t = ofSketch s := by
  have hvars : ∀ s : Sketch α, (ofSketch s).vars =
      s.arena.ids.filterMap fun k => (s.arena.value? k).map fun x => ⟨k, x⟩ := by
    intro s
    rw [ofSketch, OrderedMap.entries_eq, List.map_filterMap]
    refine List.filterMap_congr fun k _ => ?_
    rw [Arena.value?, Arena.get?, Option.map_map, Option.map_map]
    rfl
  have hsame : (ofSketch t).vars = (ofSketch s).vars := by
    rw [hvars, hvars, hids, hvalue]
  rw [ofSketch, ofSketch, hhandles, hconstraints]
  congr 1

/-- Whoever loads a sketch merges the handles that it has merged. -/
lemma Loaded.handles_eq (h : Loaded s s.lasting t) {cs : List (Cluster α)} {b : Arena α}
    (hbuild : Cluster.build s.constraints s.arena s.handles = .ok (cs, b, s.handles)) :
    t.handles = s.handles := by
  obtain ⟨c, hrelated, -⟩ := Cluster.relateAll_of_build hbuild
  obtain ⟨d, hrelated', -⟩ := h.related
  rw [relateAll_lasting h.entries, hrelated] at hrelated'
  exact (Prod.mk.inj (Except.ok.inj hrelated')).2.symm

/-- **Without fingers**, clustering what was loaded leads to what clustering the sketch itself
leads to. -/
theorem Loaded.build_again (h : Loaded s s.lasting t) (hs : s.Intact)
    (hfingers : ∀ c ∈ s.constraints.values, c.isFinger = false) {cs : List (Cluster α)}
    {b : Arena α}
    (hbuild : Cluster.build s.constraints s.arena s.handles = .ok (cs, b, s.handles)) :
    t.constraints = s.constraints ∧ ∃ a,
      Cluster.build t.constraints t.arena t.handles = .ok (cs, a, t.handles) ∧
        a.link? = b.link? ∧ a.value? = b.value? := by
  have hconstraints : t.constraints = s.constraints :=
    OrderedMap.ext (h.entries.trans (lasting_eq hfingers))
  have hhandles := h.handles_eq hbuild
  obtain ⟨cs', a, hbuild', hids, hroots⟩ := h.build_spec hs
  have hids' : t.arena.ids = s.arena.ids := by
    rw [← hids, Arena.ids_of_labels (Cluster.unifies_build hbuild').labels, Arena.ids_reset]
  have hK : s.constraints.Alike Eq (fun _ => Eq) s.handles s.constraints :=
    .refl Scalar.tolerates_eq fun _ _ => rfl
  obtain ⟨⟨cs'', c, _⟩, hanew, hclusters, halike, rfl⟩ := Cluster.Alike.build
    (Arena.Alike.simulates Scalar.tolerates_eq) hK (.reset hids') rfl _ hbuild
  obtain rfl : cs'' = cs := Cluster.Alike.eq Eq.symm hclusters
  have halike : b.Alike Eq c := halike
  rw [hconstraints, hhandles, hanew] at hbuild'
  obtain rfl : c = a := (Prod.mk.inj (Prod.mk.inj (Except.ok.inj hbuild')).2).1
  refine ⟨hconstraints, c, by rw [hconstraints, hhandles, hanew], halike.link?_eq,
    funext fun k => ?_⟩
  have hvalue := halike.value Scalar.tolerates_eq (fun k hk => by
    rw [hroots k (by rw [halike.canonical Scalar.tolerates_eq, hk]),
      (Cluster.build_roots hbuild).2 k hk]) k
  generalize b.value? k = x at hvalue
  generalize c.value? k = y at hvalue
  cases hvalue with
  | none => rfl
  | some hxy => rw [hxy]

end Document

end

namespace Sketch

/-- **A sketch that was saved and loaded.**  If the clustering was present, what was saved can be
loaded and clustered.

* Variables and constraints are there in the same order, except for fingers, and the handles with
  all that was merged.
* Without fingers the constraints and the clusters are the same, and the same variables are unified.
  Maps and values are those that clustering the sketch anew leaves, and those that it had up to the
  signs of zeros.  Saving it once more saves the same. -/
theorem reachable_saved {s : Sketch Float} (h : Reachable s) {cs : List (Cluster Float)}
    (hcs : s.clusters = some cs) :
    ∃ t cs' t', (Document.ofSketch s).toSketch = .ok t ∧
      -- so reading what was written, if it is read as it was meant, leads to this sketch
      (Document.read (Document.ofSketch s).write = .ok (Document.ofSketch s) →
        Document.load (Document.ofSketch s).write = .ok t) ∧
      t.clustered = .ok (cs', t') ∧ t'.arena.ids = s.arena.ids ∧ t'.handles = s.handles ∧
      t'.constraints.entries = s.lasting ∧
      ((∀ c ∈ s.constraints.values, c.isFinger = false) →
        t'.constraints = s.constraints ∧ cs' = cs ∧ s.arena.Alike Double.UpToZero t'.arena ∧
          (∀ v, Option.Rel Double.UpToZero (s.arena.value? v) (t'.arena.value? v)) ∧
          ∃ b, Cluster.build s.constraints s.arena s.handles = .ok (cs, b, s.handles) ∧
            t'.arena.link? = b.link? ∧ t'.arena.value? = b.value? ∧
            Document.ofSketch t' = Document.ofSketch { s with arena := b }) := by
  have hs := h.intact
  have hr := Double.tolerates_upToZero
  have hcached := h.cached hr fun x y => Double.upToZero_of_beq
  obtain ⟨cs₀, b₀, hanew, -⟩ := hcached.coherent hr cs hcs
  obtain ⟨t, hload, hloaded⟩ := Document.toSketch_spec hs h.registered
  have hhandles := hloaded.handles_eq hanew
  obtain ⟨cs', a, hbuild, hids, -⟩ := hloaded.build_spec hs
  have hclustered : t.clustered =
      .ok (cs', { t with arena := a, handles := t.handles, clusters := some cs' }) := by
    rw [clustered, hloaded.clusters, hbuild]
    rfl
  refine ⟨t, cs', _, hload, fun hread => ?_, hclustered, hids, hhandles, hloaded.entries,
    fun hfingers => ?_⟩
  · rw [Document.load, hread, ok_bind, hload]
  · obtain ⟨b, hbuild', halike, hvalue⟩ := hcached.build_of_no_fingers hr hcs hfingers
    obtain ⟨hconstraints, a', hbuild'', hlink, hsame⟩ := hloaded.build_again hs hfingers hbuild'
    rw [hbuild] at hbuild''
    cases hbuild''
    have ha : a.WellFormed := (Cluster.build_roots hbuild).1
    refine ⟨hconstraints, rfl, ⟨halike.left, ha, hids, fun k => ?_⟩, fun v => ?_, b, hbuild', hlink,
      hsame, Document.ofSketch_congr ?_ hsame hhandles hconstraints⟩
    · rw [hlink]
      exact halike.link k
    · rw [hsame]
      exact hvalue v
    · exact hids.trans halike.ids.symm

deriving instance DecidableEq for SavedVariable, SavedConstraint, Document

/-- The distance between two handles, and a variable that is twice as large. -/
def spanned : Sketch Float :=
  Operation.cluster.perform.after <| (Operation.linear ⟨8⟩ 2 ⟨7⟩ 0).perform.after <|
    (Operation.addVariable 1 none).perform.after <| (Operation.distance ⟨0⟩ ⟨3⟩).perform.after <|
      (Operation.addHandle ⟨4, 6⟩).perform.after <|
        (Operation.addHandle ⟨1, 2⟩).perform.after empty

lemma reachable_spanned : Reachable spanned :=
  .perform _ (.perform _ (.perform _ (.perform _ (.perform _ (.perform _ (.withConfig _))))))

/-- Everything is there again, although what is unified was not saved. -/
theorem saved_spanned :
    ∃ t cs t', (Document.ofSketch spanned).toSketch = .ok t ∧
      t.clustered = .ok (cs, t') ∧ spanned.clusters = some cs ∧
      t'.arena.ids = spanned.arena.ids ∧ t'.arena.canonical ⟨7⟩ = ⟨8⟩ ∧
      t'.handles = spanned.handles ∧ t'.constraints = spanned.constraints ∧
      Document.ofSketch t' = Document.ofSketch spanned := by
  have hcurrent : spanned.clusters.isSome = true := by decide +kernel
  obtain ⟨cs, hcs⟩ := Option.isSome_iff_exists.1 hcurrent
  obtain ⟨t, cs', t', hload, -, hclustered, hids, hhandles, -, hsame⟩ :=
    reachable_saved reachable_spanned hcs
  obtain ⟨hconstraints, rfl, halike, -, b, hbuild, -, -, hdocument⟩ := hsame (by decide +kernel)
  have hnew : ((Cluster.build spanned.constraints spanned.arena spanned.handles).toOption.map
      fun r => Document.ofSketch { spanned with arena := r.2.1 }) =
        some (Document.ofSketch spanned) := by decide +kernel
  rw [hbuild] at hnew
  refine ⟨t, cs', t', hload, hclustered, hcs, hids, ?_, hhandles, hconstraints,
    hdocument.trans (Option.some.inj hnew)⟩
  rw [halike.canonical Double.tolerates_upToZero]
  decide +kernel

/-- Two variables that are equal.  One of them is minus zero, and then the relationship is issued
again with a shift of minus zero, which compares as equal to the one that was there. -/
def negated : Sketch Float :=
  (Operation.linear ⟨0⟩ 1 ⟨1⟩ (-0.0)).perform.after <| Operation.cluster.perform.after <|
    (Operation.linear ⟨0⟩ 1 ⟨1⟩ 0).perform.after <|
      (Operation.addVariable 5 none).perform.after <|
        (Operation.addVariable (-0.0) none).perform.after empty

lemma reachable_negated : Reachable negated :=
  .perform _ (.perform _ (.perform _ (.perform _ (.perform _ (.withConfig _)))))

/-- So the sign of a zero may change: the clustering that was kept has the earlier shift, and after
loading it is the later one. -/
theorem negated_changed :
    Reachable negated ∧ negated.clusters.isSome = true ∧
      (∀ c ∈ negated.constraints.values, c.isFinger = false) ∧
      negated.arena.value? ⟨1⟩ = some (-0.0) ∧
      ∃ t cs t', (Document.ofSketch negated).toSketch = .ok t ∧
        t.clustered = .ok (cs, t') ∧ t'.arena.value? ⟨1⟩ = some 0.0 ∧
        t'.arena.value? ⟨1⟩ ≠ negated.arena.value? ⟨1⟩ ∧
        Document.ofSketch t' ≠ Document.ofSketch negated := by
  have hchanged : (((Document.ofSketch negated).toSketch >>= clustered).toOption.map
      fun r => (r.2.arena.value? ⟨1⟩, decide (Document.ofSketch r.2 = Document.ofSketch negated))) =
        some (some 0.0, false) := by decide +kernel
  have hbefore : negated.arena.value? ⟨1⟩ = some (-0.0) := by decide +kernel
  refine ⟨reachable_negated, by decide +kernel, by decide +kernel, hbefore, ?_⟩
  cases hload : (Document.ofSketch negated).toSketch with
  | error e =>
      rw [hload] at hchanged
      cases hchanged
  | ok t =>
      rw [hload, ok_bind] at hchanged
      cases hclustered : t.clustered with
      | error e =>
          rw [hclustered] at hchanged
          cases hchanged
      | ok r =>
          rw [hclustered] at hchanged
          obtain ⟨hvalue, hdocument⟩ := Prod.mk.inj (Option.some.inj hchanged)
          refine ⟨t, r.1, r.2, rfl, hclustered, hvalue, ?_, of_decide_eq_false hdocument⟩
          rw [hvalue, hbefore]
          decide +kernel

end Sketch

end SketchSolver
