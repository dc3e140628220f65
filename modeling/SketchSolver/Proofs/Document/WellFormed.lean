import Mathlib
import SketchSolver.Proofs.Arena.Step
import SketchSolver.Proofs.Document.Accept

/-!
# What a loaded sketch is like

A document says which variables the handles and the constraints have.  Loading takes its word for
it, so two handles share a coordinate, or two constraints a variable that they own, exactly if the
document says so.

Unifications are made while constraints are loaded.  They are sound as long as what a constraint
owns stands alone when the constraint comes (`Document.OwnedAlone`), because then adding it once
more changes its label only.

* `wellFormed_addConstraint` — loading one more constraint keeps the arena well-formed.
* `OwnersFirst.ownedAlone` — it is enough that no coordinate is owned, and that a constraint comes
  before whatever names a variable that it owns.
* `loaded_spec` — all of it.
* `loaded_chained` — what is loaded otherwise: a chain of two steps, and shared variables.
-/

namespace SketchSolver

open Arena

instance decidableDisjoint {β : Type} [DecidableEq β] (xs ys : List β) :
    Decidable (xs.Disjoint ys) :=
  decidable_of_iff (∀ x ∈ xs, x ∉ ys) ⟨fun h _ => h _, fun h _ => @h _⟩

/-- Among entries with different keys, what names a variable is unique exactly if no two entries
name the same one. -/
lemma unique_iff_pairwise {β κ : Type} {xs : List β} {key : β → κ} {names : β → List VarId}
    (hnodup : (xs.map key).Nodup) :
    (∀ v, (∃ i, ∃ x ∈ xs, key x = i ∧ v ∈ names x) → ∃! i, ∃ x ∈ xs, key x = i ∧ v ∈ names x) ↔
      xs.Pairwise fun x y => (names x).Disjoint (names y) := by
  constructor
  · intro h
    refine (List.pairwise_map.1 hnodup).imp_of_mem fun {x y} hx hy hne v hvx hvy => hne ?_
    exact (h v ⟨_, x, hx, rfl, hvx⟩).unique ⟨x, hx, rfl, hvx⟩ ⟨y, hy, rfl, hvy⟩
  · rintro h v ⟨i, x, hx, hxi, hvx⟩
    refine ⟨i, ⟨x, hx, hxi, hvx⟩, ?_⟩
    rintro j ⟨y, hy, rfl, hvy⟩
    by_contra hne
    have hxy : x ≠ y := by
      rintro rfl
      exact hne hxi
    have : Std.Symm fun x y => (names x).Disjoint (names y) := ⟨fun _ _ => List.Disjoint.symm⟩
    exact h.forall hx hy hxy hvx hvy

namespace Sketch

variable {α : Type}

/-- The variable is a coordinate of the handle. -/
def HasCoordinate (s : Sketch α) (i : HandleId) (v : VarId) : Prop :=
  ∃ c, s.handles.coords? i = some c ∧ v ∈ [c.x, c.y]

/-- The variable is owned by the constraint. -/
def HasOwner (s : Sketch α) (i : ConstraintId) (v : VarId) : Prop :=
  ∃ c, s.constraints.get? i = some c ∧ v ∈ c.owned

end Sketch

namespace Document

open Sketch

variable {α : Type} {d : Document α} {s t : Sketch α}

namespace Describes

lemma coords?_eq_some_iff (h : d.Describes s) {i : HandleId} {c : Coords} :
    s.handles.coords? i = some c ↔ ∃ k ∈ d.handles, k.id = i ∧ ⟨k.x, k.y⟩ = c := by
  rw [HandleTable.coords?, ← OrderedMap.mem_entries_iff, h.points]
  simp

lemma hasCoordinate_iff (h : d.Describes s) {i : HandleId} {v : VarId} :
    s.HasCoordinate i v ↔ ∃ k ∈ d.handles, k.id = i ∧ v ∈ [k.x, k.y] := by
  constructor
  · rintro ⟨c, hc, hv⟩
    obtain ⟨k, hk, hid, rfl⟩ := h.coords?_eq_some_iff.1 hc
    exact ⟨k, hk, hid, hv⟩
  · rintro ⟨k, hk, hid, hv⟩
    exact ⟨⟨k.x, k.y⟩, h.coords?_eq_some_iff.2 ⟨k, hk, hid, rfl⟩, hv⟩

lemma hasOwner_iff (h : d.Describes s) {i : ConstraintId} {v : VarId} :
    s.HasOwner i v ↔ ∃ e ∈ settled d.constraints, e.1 = i ∧ v ∈ e.2.owned := by
  simp only [HasOwner, ← OrderedMap.mem_entries_iff, h.constraints]
  constructor
  · rintro ⟨c, hc, hv⟩
    exact ⟨(i, c), hc, rfl, hv⟩
  · rintro ⟨⟨_, c⟩, hc, rfl, hv⟩
    exact ⟨c, hc, hv⟩

end Describes

variable [Scalar α]

/-! ## One constraint after the other -/

/-- Loading a constraint whose variables stand alone keeps the arena well-formed, and takes steps
only. -/
lemma wellFormed_addConstraint (h : d.Describes s) (hs : s.arena.WellFormed)
    {k : SavedConstraint α} (hk : addConstraint s k = .ok t)
    (howned : ∀ v ∈ k.constraint.owned, s.arena.link? v = some .alone) :
    t.arena.WellFormed ∧ s.arena.Steps t.arena := by
  obtain ⟨-, -, b, rs, hb, hrun, -⟩ := (accepts_addConstraint h k).of_ok hk
  have hsteps : s.arena.Steps t.arena :=
    .trans (.single (.relabel (hb.link_eq howned) hb.value)) hrun.unifies.steps
  exact ⟨hs.steps hsteps, hsteps⟩

/-- A document is loaded part by part. -/
lemma exists_prefix {before after : List (SavedConstraint α)} (h : d.toSketch = .ok s)
    (hsplit : d.constraints = before ++ after) :
    ∃ t, toSketch { d with constraints := before } = .ok t ∧
      after.foldlM addConstraint t = .ok s := by
  simp only [toSketch, hsplit, List.foldlM_append, bind_eq_ok_iff] at h ⊢
  obtain ⟨s₁, hvars, s₂, hhandles, t, hbefore, hafter⟩ := h
  exact ⟨t, ⟨s₁, hvars, s₂, hhandles, hbefore⟩, hafter⟩

/-- What has been loaded from a document is described by it. -/
lemma describes_of_toSketch (h : d.toSketch = .ok s) : d.Describes s :=
  ((accepts_toSketch d).of_ok h).2

/-- The last constraint of a document. -/
lemma exists_last {before : List (SavedConstraint α)} {k : SavedConstraint α}
    (h : toSketch { d with constraints := before ++ [k] } = .ok t) :
    ∃ s, toSketch { d with constraints := before } = .ok s ∧ addConstraint s k = .ok t := by
  obtain ⟨s, hs, hk⟩ := exists_prefix h rfl
  rw [List.foldlM_cons] at hk
  obtain ⟨t', hk, hpure⟩ := bind_eq_ok_iff.1 hk
  cases hpure
  exact ⟨s, hs, hk⟩

/-- Whenever a constraint is about to be loaded, the variables that it owns stand alone. -/
def OwnedAlone (d : Document α) : Prop :=
  ∀ before k after, d.constraints = before ++ k :: after →
    ∀ t, toSketch { d with constraints := before } = .ok t →
      ∀ v ∈ k.constraint.owned, t.arena.link? v = some .alone

namespace OwnedAlone

variable {before after : List (SavedConstraint α)}

/-- **The arena is well-formed** after every part of the document. -/
lemma wellFormed (hd : d.OwnedAlone) (hsplit : d.constraints = before ++ after)
    (ht : toSketch { d with constraints := before } = .ok t) : t.arena.WellFormed := by
  induction before using List.reverseRecOn generalizing after t with
  | nil => exact wellFormed_of_alone ((describes_of_toSketch ht).alone rfl)
  | append_singleton before k ih =>
      rw [List.append_assoc, List.singleton_append] at hsplit
      obtain ⟨s, hs, hk⟩ := exists_last ht
      exact (wellFormed_addConstraint (describes_of_toSketch hs) (ih hsplit hs) hk
        (hd before k after hsplit s hs)).1

/-- The rest of the document is loaded in steps. -/
lemma steps (hd : d.OwnedAlone) (h : d.toSketch = .ok s)
    (hsplit : d.constraints = before ++ after)
    (ht : toSketch { d with constraints := before } = .ok t) : t.arena.Steps s.arena := by
  induction after generalizing before t with
  | nil =>
      rw [List.append_nil] at hsplit
      rw [← hsplit, h] at ht
      cases ht
      exact .refl
  | cons k after ih =>
      have hsplit' : d.constraints = (before ++ [k]) ++ after := by
        rw [hsplit, List.append_assoc, List.singleton_append]
      obtain ⟨u, hu, -⟩ := exists_prefix h hsplit'
      obtain ⟨t', ht', hk⟩ := exists_last hu
      rw [ht] at ht'
      cases ht'
      exact (wellFormed_addConstraint (describes_of_toSketch ht) (hd.wellFormed hsplit ht) hk
        (hd before k after hsplit t ht)).2.trans (ih hsplit' hu)

end OwnedAlone

/-! ## Owners first -/

/-- No coordinate is owned, and whatever names a variable as an input comes after the constraint
that owns the variable. -/
structure OwnersFirst (d : Document α) : Prop where
  coordinates : ∀ h ∈ d.handles, ∀ k ∈ d.constraints, [h.x, h.y].Disjoint k.constraint.owned
  inputs : d.constraints.Pairwise fun e k => e.constraint.inputs.Disjoint k.constraint.owned

/-- Then an owned variable stands alone until its owner comes. -/
lemma OwnersFirst.alone (hd : d.OwnersFirst) (h : d.toSketch = .ok s)
    {before after : List (SavedConstraint α)} (hsplit : d.constraints = before ++ after)
    (ht : toSketch { d with constraints := before } = .ok t) :
    t.arena.WellFormed ∧
      ∀ k ∈ after, ∀ v ∈ k.constraint.owned, t.arena.link? v = some .alone := by
  induction before using List.reverseRecOn generalizing after t with
  | nil =>
      have hdescribes := describes_of_toSketch ht
      refine ⟨wellFormed_of_alone (hdescribes.alone rfl), fun k hk v hv => ?_⟩
      have hlists := ((accepts_toSketch d).of_ok h).1.references k (by simpa [hsplit] using hk)
      obtain ⟨l, hl⟩ := (contains_iff_link? _ v).1
        ((hdescribes.contains_iff v).2 (hlists.named v (List.mem_append_right _ hv)))
      rw [hl, hdescribes.alone rfl hl]
  | append_singleton before e ih =>
      rw [List.append_assoc, List.singleton_append] at hsplit
      obtain ⟨u, hu, he⟩ := exists_last ht
      have hdescribes := describes_of_toSketch hu
      obtain ⟨hwf, halone⟩ := ih hsplit hu
      refine ⟨(wellFormed_addConstraint hdescribes hwf he (halone e List.mem_cons_self)).1,
        fun k hk v hv => ?_⟩
      -- the variable is neither an input of `e` nor a coordinate, so `e` does not tie it
      obtain ⟨-, -, b, rs, hb, hrun, hties⟩ := (accepts_addConstraint hdescribes e).of_ok he
      have huntied : ∀ r ∈ rs, r.this ≠ v ∧ r.that ≠ v := by
        refine fun r hr => Constraint.tie_ne ?_ ?_ (hties (List.mem_map_of_mem hr))
        · have hinputs := hd.inputs
          rw [hsplit, List.pairwise_append, List.pairwise_cons] at hinputs
          exact fun hinput => hinputs.2.1.1 k hk hinput hv
        · intro i c hc hcoord
          obtain ⟨h, hh, -, rfl⟩ := hdescribes.coords?_eq_some_iff.1 hc
          exact hd.coordinates h hh k (by simp [hsplit, hk]) hcoord hv
      have hb' : b.WellFormed := hwf.congr (hb.link_eq (halone e List.mem_cons_self)) hb.value
      exact hrun.alone hb' (hb.alone (halone k (List.mem_cons_of_mem _ hk) v hv)) huntied

lemma OwnersFirst.ownedAlone (hd : d.OwnersFirst) (h : d.toSketch = .ok s) : d.OwnedAlone :=
  fun _ k _ hsplit _ ht => (hd.alone h hsplit ht).2 k List.mem_cons_self

/-! ## The loaded sketch -/

/-- **What a loaded sketch is like.**  A coordinate belongs to one handle, and an owned variable to
one constraint, exactly if the document says so.  If owned variables stand alone when their owners
come, the arena is well-formed after every part of the document, and after whatever steps are taken
from there, those of loading the rest among them: no unification is rewritten more than twice, and a
write reaches everything that shares the canonical variable. -/
theorem loaded_spec (h : d.toSketch = .ok s) :
    ((∀ v, (∃ i, s.HasCoordinate i v) → ∃! i, s.HasCoordinate i v) ↔
        d.handles.Pairwise fun i j => [i.x, i.y].Disjoint [j.x, j.y]) ∧
      ((∀ v, (∃ i, s.HasOwner i v) → ∃! i, s.HasOwner i v) ↔
        (settled d.constraints).Pairwise fun e f => e.2.owned.Disjoint f.2.owned) ∧
      (d.OwnersFirst → d.OwnedAlone) ∧
      (d.OwnedAlone → ∀ before after, d.constraints = before ++ after →
        ∃ t, toSketch { d with constraints := before } = .ok t ∧ t.arena.Steps s.arena ∧
          ∀ b, t.arena.Steps b → b.WellFormed ∧
            (∀ {this that offset n t u f}, b.UnifyRequest this that offset n t u f → n ≤ 2) ∧
            ∀ v, b.contains v = true → ∀ x, ∃ c, b.setValue v x = .ok c ∧
              ∀ k, b.canonical k = b.canonical v →
                c.value? k = some (b.lower k (b.lift v x))) := by
  have hdescribes := describes_of_toSketch h
  refine ⟨?_, ?_, fun hd => hd.ownedAlone h, fun hd before after hsplit => ?_⟩
  · simp only [hdescribes.hasCoordinate_iff]
    exact unique_iff_pairwise ((accepts_toSketch d).of_ok h).1.handles
  · simp only [hdescribes.hasOwner_iff]
    exact unique_iff_pairwise (hdescribes.constraints ▸ s.constraints.nodupKeys)
  · obtain ⟨t, ht, -⟩ := exists_prefix h hsplit
    exact ⟨t, ht, hd.steps h hsplit ht,
      fun b hsteps => (hd.wellFormed hsplit ht).steps_spec hsteps⟩

/-- A distance between two handles, and a variable that depends on it. -/
def measuring : Document Float where
  vars := [⟨⟨0⟩, 0⟩, ⟨⟨1⟩, 0⟩, ⟨⟨2⟩, 3⟩, ⟨⟨3⟩, 4⟩, ⟨⟨4⟩, 5⟩, ⟨⟨5⟩, 0⟩]
  handles := [⟨⟨6⟩, ⟨0⟩, ⟨1⟩⟩, ⟨⟨7⟩, ⟨2⟩, ⟨3⟩⟩]
  constraints := [⟨⟨8⟩, .distance ⟨6⟩ ⟨7⟩ ⟨4⟩⟩, ⟨⟨9⟩, .linear ⟨5⟩ 2 ⟨4⟩ 1⟩]

/-- The distance comes before the variable that depends on it, and nothing is shared. -/
theorem measuring_loaded : ∃ s, measuring.toSketch = .ok s ∧ s.arena.WellFormed ∧
    (∀ v, (∃ i, s.HasCoordinate i v) → ∃! i, s.HasCoordinate i v) ∧
    ∀ v, (∃ i, s.HasOwner i v) → ∃! i, s.HasOwner i v := by
  have heval : measuring.toSketch.isOk = true := by decide +kernel
  cases hload : measuring.toSketch with
  | error e =>
      rw [hload] at heval
      cases heval
  | ok s =>
      obtain ⟨hcoordinates, howners, hfirst, hparts⟩ := loaded_spec hload
      have halone : measuring.OwnedAlone := hfirst ⟨by decide, by decide⟩
      obtain ⟨t, -, hsteps, hafter⟩ := hparts halone measuring.constraints [] (by simp)
      exact ⟨s, rfl, (hafter s.arena hsteps).1, hcoordinates.2 (by decide), howners.2 (by decide)⟩

/-- Nothing is shared, but a distance owns variable 3, to which 4 has been tied by then. -/
def chained : Document Float where
  vars := [⟨⟨0⟩, 0⟩, ⟨⟨1⟩, 0⟩, ⟨⟨2⟩, 0⟩, ⟨⟨9⟩, 0⟩, ⟨⟨3⟩, 0⟩, ⟨⟨4⟩, 0⟩, ⟨⟨5⟩, 0⟩, ⟨⟨6⟩, 0⟩, ⟨⟨7⟩, 0⟩]
  handles := [⟨⟨20⟩, ⟨0⟩, ⟨1⟩⟩, ⟨⟨21⟩, ⟨2⟩, ⟨9⟩⟩]
  constraints := [⟨⟨30⟩, .linear ⟨3⟩ 1 ⟨4⟩ 0⟩, ⟨⟨31⟩, .distance ⟨20⟩ ⟨21⟩ ⟨3⟩⟩,
    ⟨⟨32⟩, .linear ⟨5⟩ 1 ⟨3⟩ 0⟩, ⟨⟨33⟩, .linear ⟨7⟩ 1 ⟨6⟩ 0⟩]

/-- Variable 4 follows 3, which follows 5, and 6 follows 7: to make 4 equal to 6 the request is
rewritten three times. -/
lemma chained_unlinked : ∃ s, chained.toSketch = .ok s ∧
    (∀ v, (∃ i, s.HasCoordinate i v) → ∃! i, s.HasCoordinate i v) ∧
    (∀ v, (∃ i, s.HasOwner i v) → ∃! i, s.HasOwner i v) ∧
    ¬ s.arena.Linked ∧ ∃ f, s.arena.UnifyRequest ⟨4⟩ ⟨6⟩ ⟨1, 0⟩ 3 ⟨5⟩ ⟨7⟩ f := by
  have heval : (chained.toSketch.map fun s =>
      [3, 4, 5, 6].map fun i => s.arena.canonical ⟨i⟩).toOption = some [⟨5⟩, ⟨3⟩, ⟨5⟩, ⟨7⟩] := by
    decide +kernel
  cases hload : chained.toSketch with
  | error e =>
      rw [hload] at heval
      cases heval
  | ok s =>
      rw [hload] at heval
      obtain ⟨h3, h4, h5, h6⟩ : s.arena.canonical ⟨3⟩ = ⟨5⟩ ∧ s.arena.canonical ⟨4⟩ = ⟨3⟩ ∧
          s.arena.canonical ⟨5⟩ = ⟨5⟩ ∧ s.arena.canonical ⟨6⟩ = ⟨7⟩ := by
        simpa [Except.map, Except.toOption] using heval
      have hdescribes := describes_of_toSketch hload
      refine ⟨s, rfl, ?_, ?_, fun h => ?_, ?_⟩
      · simp only [hdescribes.hasCoordinate_iff]
        exact (unique_iff_pairwise (by decide)).2 (by decide)
      · simp only [hdescribes.hasOwner_iff]
        exact (unique_iff_pairwise (by decide)).2 (by decide)
      · have hroot := h.canonical_canonical ⟨4⟩
        rw [h4, h3] at hroot
        exact absurd hroot (by decide)
      · have hstart : s.arena.UnifyRequest ⟨4⟩ ⟨6⟩ ⟨1, 0⟩ 0 ⟨4⟩ ⟨6⟩ ⟨1, 0⟩ := .start
        have hfirst := hstart.left (by simp [h4])
        rw [h4] at hfirst
        have hsecond := hfirst.left (by simp [h3])
        rw [h3] at hsecond
        have hthird := hsecond.right h5 (by simp [h6])
        rw [h6] at hthird
        exact ⟨_, hthird⟩

/-- Two handles share a coordinate, and two distances the variable that they own. -/
def overlapping : Document Float where
  vars := [⟨⟨0⟩, 0⟩, ⟨⟨1⟩, 0⟩, ⟨⟨2⟩, 0⟩, ⟨⟨4⟩, 0⟩]
  handles := [⟨⟨5⟩, ⟨0⟩, ⟨1⟩⟩, ⟨⟨6⟩, ⟨0⟩, ⟨2⟩⟩]
  constraints := [⟨⟨8⟩, .distance ⟨5⟩ ⟨6⟩ ⟨4⟩⟩, ⟨⟨9⟩, .distance ⟨6⟩ ⟨5⟩ ⟨4⟩⟩]

/-- The document can be loaded all the same. -/
lemma overlapping_shared : ∃ s, overlapping.toSketch = .ok s ∧
    ¬ (∀ v, (∃ i, s.HasCoordinate i v) → ∃! i, s.HasCoordinate i v) ∧
    ¬ ∀ v, (∃ i, s.HasOwner i v) → ∃! i, s.HasOwner i v := by
  have heval : overlapping.toSketch.isOk = true := by decide +kernel
  cases hload : overlapping.toSketch with
  | error e =>
      rw [hload] at heval
      cases heval
  | ok s =>
      have hdescribes := describes_of_toSketch hload
      refine ⟨s, rfl, fun h => ?_, fun h => ?_⟩
      · simp only [hdescribes.hasCoordinate_iff] at h
        have hsame : (⟨5⟩ : HandleId) = ⟨6⟩ :=
          (h ⟨0⟩ ⟨⟨5⟩, by decide⟩).unique (by decide) (by decide)
        exact absurd hsame (by decide)
      · simp only [hdescribes.hasOwner_iff] at h
        have hsame : (⟨8⟩ : ConstraintId) = ⟨9⟩ :=
          (h ⟨4⟩ ⟨⟨8⟩, by decide⟩).unique (by decide) (by decide)
        exact absurd hsame (by decide)

/-- **Not everything that is loaded is well-formed.**  Where a variable was tied before its owner
came, loading leaves a chain of two steps: the arena is not linked, and a request can be rewritten
three times.  Coordinates and owned variables are shared if the document shares them. -/
theorem loaded_chained :
    (∃ s, chained.toSketch = .ok s ∧
      (∀ v, (∃ i, s.HasCoordinate i v) → ∃! i, s.HasCoordinate i v) ∧
      (∀ v, (∃ i, s.HasOwner i v) → ∃! i, s.HasOwner i v) ∧
      ¬ s.arena.Linked ∧ ∃ f, s.arena.UnifyRequest ⟨4⟩ ⟨6⟩ ⟨1, 0⟩ 3 ⟨5⟩ ⟨7⟩ f) ∧
      ∃ s, overlapping.toSketch = .ok s ∧
        ¬ (∀ v, (∃ i, s.HasCoordinate i v) → ∃! i, s.HasCoordinate i v) ∧
        ¬ ∀ v, (∃ i, s.HasOwner i v) → ∃! i, s.HasOwner i v :=
  ⟨chained_unlinked, overlapping_shared⟩

end Document

end SketchSolver
