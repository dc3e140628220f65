import Mathlib
import SketchSolver.Proofs.Solve.Free

/-!
# The objective is a function

Looking at the objective writes parameters and free variables to the arena, and what was written
stays there for the next look.  What a look comes to is still a function of the point it is given.

The parameters are overwritten before anything is read.  A free variable is referred to by its
owner only (`Problem.Owned`), and its owner comes to zero whatever it reads.  So the sum depends on
what is `Fixed` alone: on the groups of the cluster that are not free.

* `Residual.both_error_fixed` — one term, in two runs that agree on what is fixed.
* `Problem.both_write_full` — writing all parameters makes two runs agree on what is fixed if
  they agree on what a search leaves alone.
* `Problem.both_evaluate_full` — a look at a full point comes to the same wherever it begins.
* `Problem.objective_full` — so it does after any other looks.
-/

namespace SketchSolver

open Arena

variable {α : Type} [Scalar α] {R W : VarId → Prop} {a b a₀ b₀ : Arena α}

/-- It looks at points with so many components only. -/
inductive Search.Full {β : Type} (n : Nat) : Search α β → Prop
  | done (answer : β) : Full n (.done answer)
  | probe {point : List α} {next : α → Search α β} :
      point.length = n → (∀ value, Full n (next value)) → Full n (.probe point next)

namespace Cluster

variable {c : Cluster α}

/-- Only one residual refers to a group that is referred to once. -/
lemma eq_of_references {w : VarId} (hone : c.references a w = 1) {r d : Residual α}
    (hr : r ∈ c.residuals) (hd : d ∈ c.residuals) (hrw : w ∈ r.vars.map a.canonical)
    (hdw : w ∈ d.vars.map a.canonical) : r = d := by
  rw [references, List.countP_eq_length_filter, List.length_eq_one_iff] at hone
  obtain ⟨x, hx⟩ := hone
  have honly : ∀ y ∈ c.residuals, w ∈ y.vars.map a.canonical → y = x := by
    intro y hy hyw
    rw [← List.mem_singleton, ← hx, List.mem_filter, List.contains_iff_mem]
    exact ⟨hy, hyw⟩
  rw [honly r hr hrw, honly d hd hdw]

end Cluster

namespace Problem

variable {ctx : SolveContext α} {c : Cluster α} {p : Problem α}

/-- Every free variable is owned by a residual, and no other residual refers to its group. -/
structure Owned (c : Cluster α) (p : Problem α) (a : Arena α) : Prop where
  owner : ∀ w ∈ p.free, ∃ r ∈ c.residuals, ∃ v, r.owned = some v ∧ a.canonical v = w
  once : ∀ w ∈ p.free, c.references a w = 1

lemma Owned.congr (h : Owned c p a) (hcanonical : b.canonical = a.canonical) : Owned c p b where
  owner := by
    rw [hcanonical]
    exact h.owner
  once w hw := by
    rw [Cluster.references, hcanonical]
    exact h.once w hw

lemma owned_of_prepare (h : prepare ctx c a = .ok (p, b)) : Owned c p b where
  owner w hw := by
    obtain ⟨k, rfl, rfl⟩ := eq_of_prepare h
    rw [Cluster.free, OrderedSet.mem_ofList, List.mem_filter, List.mem_map] at hw
    obtain ⟨⟨v, hv, hcanonical⟩, -⟩ := hw
    obtain ⟨r, hr, howned⟩ := List.mem_filterMap.1 hv
    exact ⟨r, hr, v, howned, hcanonical⟩
  once := (prepare_free h).2

/-- Whoever refers to a free group is its owner. -/
lemma Owned.owned_of_mem (h : Owned c p a) {r : Residual α} (hr : r ∈ c.residuals) {u : VarId}
    (hu : u ∈ r.vars) (hfree : a.canonical u ∈ p.free) :
    ∃ v, r.owned = some v ∧ a.canonical v = a.canonical u := by
  obtain ⟨d, hd, v, howned, hcanonical⟩ := h.owner _ hfree
  have hdw : a.canonical u ∈ d.vars.map a.canonical :=
    hcanonical ▸ List.mem_map_of_mem (Residual.mem_vars_of_owned howned)
  obtain rfl := Cluster.eq_of_references (h.once _ hfree) hr hd (List.mem_map_of_mem hu) hdw
  exact ⟨v, howned, hcanonical⟩

/-- What a search leaves alone in a cluster. -/
def Settled (c : Cluster α) (p : Problem α) (v : VarId) : Prop :=
  v ∈ c.vars ∧ ¬ p.Unknown v

/-- What the objective depends on: the groups of a cluster that are not free. -/
def Fixed (c : Cluster α) (p : Problem α) (v : VarId) : Prop :=
  v ∈ c.vars ∧ ¬ v ∈ p.free

end Problem

/-! ## One term -/

section

variable {ctx : SolveContext α} {c : Cluster α} {p : Problem α}
  (hready : c.Ready ctx.constraints ctx.handles a₀) (howned : p.Owned c a₀)

include hready howned

/-- **One term.**  It comes to the same in two runs that agree on what is fixed, and neither of them
writes anything of that. -/
theorem Residual.both_error_fixed (h : Twins (p.Fixed c) (· ∈ p.free) a₀ b₀ a b) {r : Residual α}
    (hr : r ∈ c.residuals) (fingerOfGod : Bool) :
    Both (Agreed (p.Fixed c) (· ∈ p.free) a₀ b₀) (r.error p.knowns p.free fingerOfGod a)
      (r.error p.knowns p.free fingerOfGod b) := by
  by_cases hfree : ∃ u ∈ r.vars, a₀.canonical u ∈ p.free
  · -- the owner of a free variable: it is zero, and writes to the free group
    obtain ⟨u, hu, hfree⟩ := hfree
    obtain ⟨v, hv, hcanonical⟩ := howned.owned_of_mem hr hu hfree
    rw [← hcanonical] at hfree
    have hside : ∀ {a : Arena α}, a.WellFormed → a.shape = a₀.shape →
        ∃ a', r.error p.knowns p.free fingerOfGod a = .ok (0, a') ∧
          Within (· ∈ p.free) a a' := by
      intro a ha hshape
      obtain ⟨⟨e, a'⟩, -, herror, -⟩ := Residual.both_error (R := (· ∈ c.vars)) (W := (· ∈ p.free))
        (.self ha) ((hready.congr hshape).residual r hr) p.knowns (fun _ h => h) fingerOfGod
      rcases Residual.error_spec herror with ⟨-, hnot⟩ | ⟨v', y, -, -, hzero, -⟩
      · exact absurd (by rwa [canonical_congr hshape]) (hnot v hv)
      · subst hzero
        exact ⟨a', herror, (Residual.error_within ha herror).mono fun w hw => hw.1⟩
    obtain ⟨a', hx, ha'⟩ := hside h.left.wellFormed h.shape_left
    obtain ⟨b', hy, hb'⟩ := hside h.right.wellFormed h.shape_right
    rw [hx, hy]
    exact both_ok.2 ⟨rfl, h.trans (ha'.twins hb' h.restart fun v hv => hv.2) fun _ h => h⟩
  · push Not at hfree
    refine Residual.both_error h (fun v hv => ?_) p.knowns (fun _ h => h) fingerOfGod
    obtain ⟨hcontains, hgroup⟩ := hready.residual r hr v hv
    exact ⟨hcontains, hgroup, hfree v hv⟩

end

/-! ## The objective -/

namespace Problem

variable {ctx : SolveContext α} {c : Cluster α} {p : Problem α} {x : List α}

section

variable (hready : c.Ready ctx.constraints ctx.handles a₀) (hfits : Fits c p)

include hready hfits

/-- The sum of the squared residuals depends on what is fixed. -/
lemma both_totalError_fixed (howned : p.Owned c a₀)
    (h : Twins (p.Fixed c) (· ∈ p.free) a₀ b₀ a b) (fingerOfGod : Bool) :
    Both (Agreed (p.Fixed c) (· ∈ p.free) a₀ b₀) (p.totalError fingerOfGod a)
      (p.totalError fingerOfGod b) := by
  refine both_foldlM ?_ ⟨rfl, h⟩
  rintro r hr ⟨total, a⟩ ⟨-, b⟩ ⟨rfl, h⟩
  rw [hfits.residuals] at hr
  refine (Residual.both_error_fixed hready howned h hr fingerOfGod).bind ?_
  rintro ⟨e, a'⟩ ⟨-, b'⟩ ⟨rfl, h'⟩
  exact both_ok.2 ⟨rfl, h'⟩

/-- Once all parameters have been written, two runs agree on what is fixed. -/
lemma both_write_full (hx : x.length = p.parameters.length)
    (h : Twins (p.Settled c) p.Unknown a₀ b₀ a b) :
    Both (Twins (p.Fixed c) p.Unknown a₀ b₀) (write p.parameters x a)
      (write p.parameters x b) := by
  have hroots : ∀ {a : Arena α}, a.shape = a₀.shape →
      ∀ v ∈ p.parameters, a.contains v = true ∧ a.canonical v = v := fun hshape v hv =>
    (hready.congr hshape).root v (hfits.parameters v hv)
  obtain ⟨a', hwrite, hwithin, hvalues⟩ :=
    write_spec h.left.wellFormed hfits.nodup (hroots h.shape_left) x
  obtain ⟨b', hwrite', hwithin', hvalues'⟩ :=
    write_spec h.right.wellFormed hfits.nodup (hroots h.shape_right) x
  have hshape : b'.shape = a'.shape := by
    rw [hwithin'.shape, hwithin.shape, h.shape_right, h.shape_left]
  rw [hwrite, hwrite']
  refine both_ok.2 ⟨h.left.trans (hwithin.mono fun _ => Or.inl),
    h.right.trans (hwithin'.mono fun _ => Or.inl), h.shape, fun v hv => ?_⟩
  refine hwithin'.wellFormed.value?_congr_of_roots hwithin.wellFormed hshape.symm ?_
  have hroot : b'.canonical v = a₀.canonical v := by
    rw [hwithin'.canonical, h.canonical_right]
  obtain ⟨hmem, hnotFree⟩ := hv
  obtain ⟨-, hself⟩ := hready.root _ hmem
  rw [hroot]
  by_cases hparameter : a₀.canonical v ∈ p.parameters
  · -- a parameter has been written on both sides
    rw [← List.map_fst_zip hx.ge, List.mem_map] at hparameter
    obtain ⟨⟨w, y⟩, hwy, hw⟩ := hparameter
    rw [← hw, hvalues w y hwy, hvalues' w y hwy]
  · rw [hwithin.frame, hwithin'.frame]
    · refine h.agree _ ?_
      rw [hself]
      exact ⟨hmem, fun hunknown => hunknown.elim hparameter hnotFree⟩
    · rwa [h.canonical_right, hself]
    · rwa [h.canonical_left, hself]

/-- **Looking at a full point.**  Two runs that agree on what a search leaves alone come to the
same, and agree on what is fixed from then on. -/
theorem both_evaluate_full (howned : p.Owned c a₀) (hx : x.length = p.parameters.length)
    (h : Twins (p.Settled c) p.Unknown a₀ b₀ a b) (fingerOfGod : Bool) :
    Both (Agreed (p.Fixed c) p.Unknown a₀ b₀) (p.evaluate fingerOfGod x a)
      (p.evaluate fingerOfGod x b) := by
  rw [evaluate, evaluate]
  refine (both_write_full hready hfits hx h).bind fun a' b' h' => ?_
  have howned' : p.Owned c a' := howned.congr h'.canonical_left
  refine (both_totalError_fixed (hready.congr h'.shape_left) hfits howned' h'.restart
    fingerOfGod).imp ?_
  rintro ⟨total, a''⟩ ⟨-, b''⟩ ⟨rfl, h''⟩
  exact ⟨rfl, h'.trans h'' fun v => Or.inr⟩

end

/-! ## One look after the other -/

section

variable (hready : c.Ready ctx.constraints ctx.handles a) (hfits : Fits c p)

include hready hfits

/-- One look from wherever earlier looks have led to. -/
lemma objective_within (h : Within p.Unknown a b) (fingerOfGod : Bool) (point : List α) :
    ∃ total b', p.objective fingerOfGod point (b, none) = (total, b', none) ∧
      Within p.Unknown a b' := by
  obtain ⟨total, b', hevaluate, hwithin, -⟩ := evaluate_spec hready hfits h fingerOfGod point
  exact ⟨total, b', by rw [objective, hevaluate], hwithin⟩

/-- Where some looks lead to. -/
lemma objective_foldl (h : Within p.Unknown a b) (fingerOfGod : Bool) (points : List (List α)) :
    ∃ b', points.foldl (fun state point => (p.objective fingerOfGod point state).2) (b, none) =
      (b', none) ∧ Within p.Unknown a b' := by
  induction points generalizing b with
  | nil => exact ⟨b, rfl, h⟩
  | cons point points ih =>
      obtain ⟨total, b₁, hlook, h₁⟩ := objective_within hready hfits h fingerOfGod point
      rw [List.foldl_cons, hlook]
      exact ih h₁

/-- **A look at a full point depends on the point only**, wherever it begins. -/
theorem objective_full (howned : p.Owned c a) (ha : a.WellFormed)
    (hx : x.length = p.parameters.length) (h : Within p.Unknown a b) (fingerOfGod : Bool) :
    ∃ b', p.objective fingerOfGod x (b, none) =
        ((p.objective fingerOfGod x (a, none)).1, b', none) ∧ Within p.Unknown a b' := by
  have htwins : Twins (p.Settled c) p.Unknown a a b a :=
    h.twins (.refl ha) (.self ha) fun v hv => hv.2
  obtain ⟨⟨total, b'⟩, ⟨total', a'⟩, hb', ha', heq, h'⟩ :=
    both_evaluate_full hready hfits howned hx htwins fingerOfGod
  obtain rfl : total = total' := heq
  refine ⟨b', ?_, h'.left⟩
  rw [objective, objective, hb', ha']

/-- **A search at full points** comes to what it would come to on a function, and no evaluation
fails. -/
theorem run_objective_full {β : Type} {search : Search α β}
    (hsearch : search.Full p.parameters.length) (howned : p.Owned c a) (ha : a.WellFormed)
    (h : Within p.Unknown a b) (fingerOfGod : Bool) :
    ∃ b', search.run (p.objective fingerOfGod) (b, none) =
        (search.runPure fun point => (p.objective fingerOfGod point (a, none)).1, b', none) ∧
      Within p.Unknown a b' := by
  induction hsearch generalizing b with
  | done answer => exact ⟨b, rfl, h⟩
  | probe hpoint hnext ih =>
      obtain ⟨b₁, hlook, h₁⟩ := objective_full hready hfits howned ha hpoint h fingerOfGod
      obtain ⟨b', hrun, h'⟩ := ih _ h₁
      refine ⟨b', ?_, h'⟩
      simp only [Search.run, hlook]
      exact hrun

end

end Problem

end SketchSolver
