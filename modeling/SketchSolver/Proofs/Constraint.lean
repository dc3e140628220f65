import Mathlib
import SketchSolver.Constraint
import SketchSolver.Proofs.Arena.Unify
import SketchSolver.Proofs.Handle

/-!
# What a constraint refers to

* `Constraint.Live` — everything a constraint names is there.  Live constraints have variables
  (`Live.vars_spec`), and performing their unifications never fails (`Live.relate_spec`).
* `Constraint.Uses` — a constraint refers to a variable, by name or through a handle.  It depends
  on names and coordinates only, so neither merging handles nor changing the numbers in a
  constraint matters to it.
-/

namespace SketchSolver

deriving instance DecidableEq for Point, Constraint

namespace Constraint

variable {α : Type} {c d : Constraint α} {t u : HandleTable} {a : Arena α}

/-- Everything a constraint names is there. -/
structure Live (c : Constraint α) (t : HandleTable) (a : Arena α) : Prop where
  handles : ∀ h ∈ c.handles, t.contains h = true
  named : ∀ v ∈ c.inputs ++ c.owned, a.contains v = true

/-- The constraint refers to the variable, by name or as a coordinate of a handle. -/
def Uses (c : Constraint α) (t : HandleTable) (v : VarId) : Prop :=
  ∃ vs, c.vars t = .ok vs ∧ v ∈ vs

/-- Two constraints that name the same things, in the same roles. -/
structure SameNames (c d : Constraint α) : Prop where
  handles : c.handles = d.handles
  inputs : c.inputs = d.inputs
  owned : c.owned = d.owned

lemma sameNames_iff :
    c.SameNames d ↔ c.handles = d.handles ∧ c.inputs = d.inputs ∧ c.owned = d.owned :=
  ⟨fun h => ⟨h.handles, h.inputs, h.owned⟩, fun h => ⟨h.1, h.2.1, h.2.2⟩⟩

lemma SameNames.live (h : c.SameNames d) (hc : c.Live t a) : d.Live t a :=
  ⟨h.handles ▸ hc.handles, h.inputs ▸ h.owned ▸ hc.named⟩

lemma SameNames.vars (h : c.SameNames d) (t : HandleTable) : c.vars t = d.vars t := by
  rw [Constraint.vars, Constraint.vars, h.handles, h.inputs, h.owned]

lemma coords_congr (h : t.points = u.points) : t.coords = u.coords := by
  funext id
  cases ht : t.coords id with
  | ok c =>
      rw [HandleTable.coords_eq_ok_iff, HandleTable.coords?_congr h,
        ← HandleTable.coords_eq_ok_iff] at ht
      exact ht.symm
  | error e =>
      have hnone : ∀ v : HandleTable, (∀ c, v.coords id ≠ .ok c) →
          v.coords id = .error (.handleNotFound id) := by
        intro v hv
        rw [HandleTable.coords, HandleTable.find] at hv ⊢
        cases hget : v.get? id with
        | none => rfl
        | some w => exact absurd (by rw [hget]; rfl) (hv ⟨w.x, w.y⟩)
      have ht' : ∀ c, t.coords id ≠ .ok c := by
        intro c hc
        rw [ht] at hc
        cases hc
      have hu' : ∀ c, u.coords id ≠ .ok c := by
        intro c hc
        rw [HandleTable.coords_eq_ok_iff, ← HandleTable.coords?_congr h,
          ← HandleTable.coords_eq_ok_iff] at hc
        exact ht' c hc
      rw [← ht, hnone t ht', hnone u hu']

lemma vars_congr (h : t.points = u.points) (c : Constraint α) : c.vars t = c.vars u := by
  rw [vars, vars, coordinates, coordinates, coords_congr h]

lemma Uses.congr (h : t.points = u.points) {v : VarId} : c.Uses t v ↔ c.Uses u v := by
  rw [Uses, Uses, vars_congr h]

lemma Live.congr {b : Arena α} (h : c.Live t a) (hpoints : u.points = t.points)
    (hids : ∀ v, a.contains v = true → b.contains v = true) : c.Live u b :=
  ⟨fun i hi => (HandleTable.contains_congr hpoints i).2 (h.handles i hi),
    fun v hv => hids v (h.named v hv)⟩

/-! ## The variables of a live constraint -/

lemma coordinates_ok {ids : List HandleId} (h : ∀ i ∈ ids, t.contains i = true) :
    ∃ vs, coordinates t ids = .ok vs ∧
      ∀ v, v ∈ vs ↔ ∃ i ∈ ids, ∃ p, t.coords? i = some p ∧ (v = p.x ∨ v = p.y) := by
  induction ids with
  | nil => exact ⟨[], rfl, by simp⟩
  | cons i ids ih =>
      obtain ⟨vs, hvs, hmem⟩ := ih fun j hj => h j (List.mem_cons_of_mem _ hj)
      obtain ⟨p, hp⟩ := (HandleTable.contains_iff_coords? i).1 (h i (List.mem_cons_self))
      rw [coordinates, bind_eq_ok_iff] at hvs
      obtain ⟨cs, hcs, hflat⟩ := hvs
      refine ⟨p.x :: p.y :: vs, ?_, ?_⟩
      · rw [coordinates, List.mapM_cons, (HandleTable.coords_eq_ok_iff i p).2 hp, ok_bind, hcs]
        simp only [ok_bind, pure_eq_ok, List.flatMap_cons, Except.ok.injEq] at hflat ⊢
        rw [hflat]
        rfl
      · intro v
        simp only [List.mem_cons, hmem]
        constructor
        · rintro (hv | hv | ⟨j, hj, q, hq, hv⟩)
          · exact ⟨i, Or.inl rfl, p, hp, Or.inl hv⟩
          · exact ⟨i, Or.inl rfl, p, hp, Or.inr hv⟩
          · exact ⟨j, Or.inr hj, q, hq, hv⟩
        · rintro ⟨j, rfl | hj, q, hq, hv⟩
          · rw [hp] at hq
            obtain rfl : p = q := Option.some.inj hq
            rcases hv with hv | hv
            · exact Or.inl hv
            · exact Or.inr (Or.inl hv)
          · exact Or.inr (Or.inr ⟨j, hj, q, hq, hv⟩)

lemma handles_of_coordinates {ids : List HandleId} {vs : List VarId}
    (h : coordinates t ids = .ok vs) : ∀ i ∈ ids, t.contains i = true := by
  induction ids generalizing vs with
  | nil => simp
  | cons i ids ih =>
      rw [coordinates, List.mapM_cons] at h
      simp only [bind_eq_ok_iff] at h
      obtain ⟨cs, ⟨p, hp, rest, hrest, -⟩, -⟩ := h
      intro j hj
      rcases List.mem_cons.1 hj with rfl | hj
      · rw [HandleTable.contains_iff_coords?]
        exact ⟨p, (HandleTable.coords_eq_ok_iff j p).1 hp⟩
      · have hvs : coordinates t ids = .ok (rest.flatMap fun c => [c.x, c.y]) := by
          rw [coordinates, hrest]
          rfl
        exact ih hvs j hj

/-- The variables of a live constraint: coordinates of its handles, and what it names. -/
theorem Live.vars_spec (h : c.Live t a) :
    ∃ vs, c.vars t = .ok vs ∧
      ∀ v, v ∈ vs ↔
        (∃ i ∈ c.handles, ∃ p, t.coords? i = some p ∧ (v = p.x ∨ v = p.y)) ∨
          v ∈ c.inputs ++ c.owned := by
  obtain ⟨vs, hvs, hmem⟩ := coordinates_ok h.handles
  refine ⟨vs ++ c.inputs ++ c.owned, by rw [vars, hvs]; rfl, fun v => ?_⟩
  rw [List.append_assoc, List.mem_append, hmem]

lemma Live.uses_iff (h : c.Live t a) (v : VarId) :
    c.Uses t v ↔
      (∃ i ∈ c.handles, ∃ p, t.coords? i = some p ∧ (v = p.x ∨ v = p.y)) ∨
        v ∈ c.inputs ++ c.owned := by
  obtain ⟨vs, hvs, hmem⟩ := h.vars_spec
  constructor
  · rintro ⟨ws, hws, hv⟩
    rw [hvs] at hws
    cases hws
    exact (hmem v).1 hv
  · intro hv
    exact ⟨vs, hvs, (hmem v).2 hv⟩

/-- The handles of a live constraint have coordinates, and the constraint refers to them. -/
lemma Live.coords_ok (h : c.Live t a) {i : HandleId} (hi : i ∈ c.handles) :
    ∃ p, t.coords i = .ok p ∧ c.Uses t p.x ∧ c.Uses t p.y := by
  obtain ⟨p, hp⟩ := (HandleTable.contains_iff_coords? i).1 (h.handles i hi)
  refine ⟨p, (HandleTable.coords_eq_ok_iff i p).2 hp, ?_, ?_⟩
  · exact (h.uses_iff p.x).2 (Or.inl ⟨i, hi, p, hp, Or.inl rfl⟩)
  · exact (h.uses_iff p.y).2 (Or.inl ⟨i, hi, p, hp, Or.inr rfl⟩)

/-- Everything a live constraint refers to is a variable of the arena. -/
lemma Live.contains_of_uses (h : c.Live t a) (hground : t.Grounded a) {v : VarId}
    (hv : c.Uses t v) : a.contains v = true := by
  rcases (h.uses_iff v).1 hv with ⟨i, -, p, hp, rfl | rfl⟩ | hnamed
  · exact (hground i p hp).1
  · exact (hground i p hp).2
  · exact h.named v hnamed

/-- A constraint whose variables can be listed, and are there, is live. -/
lemma live_of_vars {vs : List VarId} (hvs : c.vars t = .ok vs)
    (hlive : ∀ v ∈ vs, a.contains v = true) : c.Live t a := by
  rw [vars] at hvs
  obtain ⟨ws, hws, hrest⟩ := bind_eq_ok_iff.1 hvs
  obtain rfl : ws ++ c.inputs ++ c.owned = vs := by simpa using hrest
  refine ⟨handles_of_coordinates hws, fun v hv => hlive v ?_⟩
  rw [List.append_assoc]
  exact List.mem_append_right _ hv

/-- A constraint that does not mention a variable names neither it nor a handle it belongs to. -/
lemma mentions_eq_false {v : VarId} (h : c.mentions t v = false) :
    (∀ i ∈ c.handles, ∀ p, t.coords? i = some p → p.x ≠ v ∧ p.y ≠ v) ∧
      v ∉ c.inputs ++ c.owned := by
  rw [mentions, Bool.or_eq_false_iff] at h
  obtain ⟨hhandles, hnamed⟩ := h
  refine ⟨fun i hi p hp => ?_, by simpa using hnamed⟩
  rw [List.any_eq_false] at hhandles
  have hi' := hhandles i hi
  rw [HandleTable.coords?_eq] at hp
  obtain ⟨w, hw, rfl⟩ := Option.map_eq_some_iff.1 hp
  rw [hw] at hi'
  simpa [Handle.owns] using hi'

/-! ## Performing the unifications of a constraint -/

variable [Scalar α]

/-- **Relating.**  Performing the unifications of a live constraint never fails.  It keeps arena
and table well-formed, coarsens the arena and moves no coordinate. -/
theorem Live.relate_spec (h : c.Live t a) (ha : a.WellFormed) (ht : t.Rooted)
    (hground : t.Grounded a) :
    ∃ b u, c.relate a t = .ok (b, u) ∧ b.WellFormed ∧ a.Coarsens b ∧ u.Rooted ∧
      u.points = t.points := by
  have hquiet : ∀ {r : Except SolverError (Arena α × HandleTable)}, r = .ok (a, t) →
      ∃ b u, r = .ok (b, u) ∧ b.WellFormed ∧ a.Coarsens b ∧ u.Rooted ∧ u.points = t.points := by
    rintro r rfl
    exact ⟨a, t, rfl, ha, .refl a, ht, rfl⟩
  cases c with
  | linear y m x b =>
      have hy : a.contains y = true := h.named y (by simp [inputs])
      have hx : a.contains x = true := h.named x (by simp [inputs])
      obtain ⟨merged, a₁, hunify, hwf, hcoarse⟩ := ha.unify_coarsens hy hx ⟨m, b⟩
      exact ⟨a₁, t, by rw [relate, hunify]; rfl, hwf, hcoarse, ht, rfl⟩
  | absorb parent child =>
      have hparent : t.contains parent = true := h.handles parent (List.mem_cons_self)
      have hchild : t.contains child = true :=
        h.handles child (List.mem_cons_of_mem _ List.mem_cons_self)
      obtain ⟨p, hp⟩ := (HandleTable.contains_iff_coords? parent).1 hparent
      obtain ⟨q, hq⟩ := (HandleTable.contains_iff_coords? child).1 hchild
      obtain ⟨merged₁, a₁, hunify₁, hwf₁, hcoarse₁⟩ :=
        ha.unify_coarsens (hground parent p hp).1 (hground child q hq).1 .identity
      obtain ⟨merged₂, a₂, hunify₂, hwf₂, hcoarse₂⟩ :=
        hwf₁.unify_coarsens (hcoarse₁.contains.2 (hground parent p hp).2)
          (hcoarse₁.contains.2 (hground child q hq).2) .identity
      obtain ⟨u, habsorb, hrooted, hpoints⟩ := ht.absorb_spec hparent hchild
      refine ⟨a₂, u, ?_, hwf₂, hcoarse₁.trans hcoarse₂, hrooted, hpoints⟩
      rw [relate, (HandleTable.coords_eq_ok_iff parent p).2 hp,
        (HandleTable.coords_eq_ok_iff child q).2 hq]
      simp only [ok_bind, hunify₁, hunify₂, habsorb]
      rfl
  | constant var value => exact hquiet rfl
  | pin handle position => exact hquiet rfl
  | finger handle position => exact hquiet rfl
  | polar start finish length bearing => exact hquiet rfl
  | distance start finish length => exact hquiet rfl
  | angle start finish bearing => exact hquiet rfl
  | formula m x b result => exact hquiet rfl

end Constraint

end SketchSolver
