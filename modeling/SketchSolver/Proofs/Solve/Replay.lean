import Mathlib
import SketchSolver.Proofs.Solve.Calls
import SketchSolver.Proofs.Solve.Converge
import SketchSolver.Proofs.Solve.Visits

/-!
# Drawing the same consequences again

What is known gets its value once and keeps it.  So if everything that becomes known has its value
from the start, the marks are the same ones, in the same order, and none of them changes anything.

* `Arena.Fulfils` — an arena in which everything that is known has its value already.
* `KnownArena.Replays` — a turn that, on such an arena, learns the same and leaves the arena as it
  is.  Marks do so (`replays_mark`), and so do all turns built from them (`replays_guard`): each
  reads what is known, apart from the angle, which reads its own former value and for which it must
  not matter whether it is asked once or twice.
* `Cluster.Passes.replay` — so a cluster is propagated again in as many passes.
* `solveCluster_again` — a cluster in which everything is determined is left as it is the second
  time.
-/

namespace SketchSolver

open Arena KnownArena

variable {α : Type} [Scalar α] {f : Arena α}

/-! ## Values that are there already -/

/-- Everything that is known has its value already. -/
structure Arena.Fulfils (f : Arena α) (k : KnownArena α) : Prop where
  shape : f.shape = k.arena.shape
  agree : ∀ v, k.isKnown v = true → f.value? v = k.arena.value? v

namespace Arena.Fulfils

variable {k l : KnownArena α} {v : VarId} {c : Coords}

/-- What was known earlier has the same value. -/
lemma of_marks (h : f.Fulfils l) (hmarks : Marks k l) (hk : k.arena.WellFormed) : f.Fulfils k where
  shape := h.shape.trans (hmarks.within hk).shape
  agree v hv := by rw [h.agree v (hmarks.isKnown hk hv), hmarks.value? hk hv]

lemma isKnown (h : f.Fulfils k) : (⟨f, k.knowns⟩ : KnownArena α).isKnown = k.isKnown := by
  funext v
  simp only [KnownArena.isKnown, canonical_congr h.shape]

lemma isKnownPoint (h : f.Fulfils k) :
    (⟨f, k.knowns⟩ : KnownArena α).isKnownPoint = k.isKnownPoint := by
  funext c
  simp only [KnownArena.isKnownPoint, h.isKnown]

lemma value (h : f.Fulfils k) (hv : k.isKnown v = true) : f.value v = k.arena.value v :=
  value_congr (h.agree v hv)

lemma read (h : f.Fulfils k) (hc : k.isKnownPoint c = true) : c.read f = c.read k.arena := by
  rw [KnownArena.isKnownPoint, Bool.and_eq_true] at hc
  rw [Coords.read, Coords.read, h.value hc.1, h.value hc.2]

/-- What was not known is there as it was marked. -/
lemma of_mark {y : α} {x : Bool × KnownArena α} (h : f.Fulfils x.2) (hk : k.arena.WellFormed)
    (hmark : k.mark v y = .ok x) (hunknown : ¬ k.arena.canonical v ∈ k.knowns) {w : VarId}
    (hgroup : f.canonical w = f.canonical v) : f.value? w = some (f.lower w (f.lift v y)) := by
  rcases mark_cases hmark with ⟨hknown, -, -⟩ | ⟨-, -, hset, hknowns⟩
  · exact absurd hknown hunknown
  · obtain ⟨-, hshape, hvalue⟩ := hk.of_setValue hset
    have hshape' : f.shape = k.arena.shape := h.shape.trans hshape
    rw [canonical_congr hshape'] at hgroup
    have hw : x.2.isKnown w = true := by
      rw [isKnown_iff, hknowns, canonical_congr hshape, hgroup, OrderedSet.mem_insert]
      exact Or.inr rfl
    rw [h.agree w hw, hvalue, if_pos hgroup, lower_congr hshape', lift_congr hshape']

end Arena.Fulfils

/-! ## Turns -/

namespace KnownArena

/-- On an arena that fulfils what the turn comes to, the turn learns the same and leaves the arena
as it is. -/
def Replays (f : Arena α) (step : KnownArena α → Except SolverError (Bool × KnownArena α)) : Prop :=
  ∀ ⦃k x⦄, k.arena.WellFormed → step k = .ok x → Marks k x.2 ∧
    (f.Fulfils x.2 → step ⟨f, k.knowns⟩ = .ok (x.1, ⟨f, x.2.knowns⟩))

/-- Doing nothing. -/
lemma replays_idle : Replays f fun k => .ok (false, k) := by
  rintro k _ - ⟨⟩
  exact ⟨.refl, fun _ => rfl⟩

/-- **A mark** writes what is there already. -/
lemma replays_mark (hf : f.WellFormed) (v : VarId) (y : α) : Replays f (·.mark v y) := by
  intro k x hk h
  refine ⟨.single ⟨v, y, x.1, h⟩, fun hfulfils => ?_⟩
  have hbefore := hfulfils.of_marks (.single ⟨v, y, x.1, h⟩) hk
  have hcanonical : f.canonical = k.arena.canonical := canonical_congr hbefore.shape
  rcases mark_cases h with ⟨hknown, hflag, hx⟩ | ⟨hunknown, hflag, hset, hknowns⟩
  · rw [hx, hflag]
    simp only [mark, hcanonical, (OrderedSet.contains_eq_true_iff _ _).2 hknown, if_true]
  · have hthere : f.contains v = true := by
      rw [contains_congr hbefore.shape]
      exact hk.contains_of_setValue hset
    obtain ⟨f', hset', -, hshape', hvalue'⟩ := hf.setValue_spec hthere y
    have hsame : f' = f := by
      refine ext_of_shape hshape' fun w => ?_
      rw [hvalue']
      split
      · rename_i hgroup
        exact (hfulfils.of_mark hk h hunknown hgroup).symm
      · rfl
    have hnew : ¬ k.knowns.contains (k.arena.canonical v) = true := by
      rwa [OrderedSet.contains_eq_true_iff]
    simp only [mark, hcanonical, hnew, hset', ok_bind, pure_eq_ok, hsame, hflag, hknowns]
    rfl

/-- One turn after the other. -/
lemma Replays.andThen {step step' : KnownArena α → Except SolverError (Bool × KnownArena α)}
    (h : Replays f step) (h' : Replays f step') :
    Replays f fun k => do
      let (x, k) ← step k
      let (y, k) ← step' k
      return (x || y, k) := by
  intro k z hk hrun
  obtain ⟨⟨x, k₁⟩, hx, hrest⟩ := bind_eq_ok_iff.1 hrun
  obtain ⟨⟨y, k₂⟩, hy, hpure⟩ := bind_eq_ok_iff.1 hrest
  cases hpure
  obtain ⟨hmarks, hreplay⟩ := h hk hx
  have hk₁ := (hmarks.within hk).wellFormed
  obtain ⟨hmarks', hreplay'⟩ := h' hk₁ hy
  refine ⟨hmarks.trans hmarks', fun hfulfils => ?_⟩
  simp only [hreplay (hfulfils.of_marks hmarks' hk₁), hreplay' hfulfils, ok_bind]
  rfl

lemma replays_markPoint (hf : f.WellFormed) (c : Coords) (p : Point α) :
    Replays f (·.markPoint c p) :=
  (replays_mark hf c.x p.x).andThen (replays_mark hf c.y p.y)

/-- **A turn that waits.**  Its guard reads what is known.  Where the guard holds, everything that
was known before has its value as well. -/
lemma replays_guard {guard : KnownArena α → Bool}
    {step : KnownArena α → Except SolverError (Bool × KnownArena α)}
    (hguard : ∀ ⦃k⦄, f.Fulfils k → guard ⟨f, k.knowns⟩ = guard k)
    (hstep : ∀ ⦃k x⦄, k.arena.WellFormed → guard k = true → step k = .ok x → Marks k x.2 ∧
      (f.Fulfils k → f.Fulfils x.2 → step ⟨f, k.knowns⟩ = .ok (x.1, ⟨f, x.2.knowns⟩))) :
    Replays f fun k => if guard k then step k else .ok (false, k) := by
  intro k x hk h
  dsimp only at h ⊢
  split at h
  · rename_i hready
    obtain ⟨hmarks, hreplay⟩ := hstep hk hready h
    refine ⟨hmarks, fun hfulfils => ?_⟩
    have hbefore := hfulfils.of_marks hmarks hk
    rw [hguard hbefore, if_pos hready]
    exact hreplay hbefore hfulfils
  · rename_i hwaits
    cases h
    refine ⟨.refl, fun hfulfils => ?_⟩
    rw [hguard hfulfils, if_neg hwaits]

end KnownArena

/-- **One constraint's turn.**  It reads what is known. -/
lemma Constraint.replays_propagate (hf : f.WellFormed) (c : Constraint α) (t : HandleTable) :
    Replays f (c.propagate t) := by
  cases c with
  | constant v y => exact replays_mark hf v y
  | pin i position =>
      intro k x hk h
      obtain ⟨p, hp, h⟩ := bind_eq_ok_iff.1 h
      obtain ⟨hmarks, hreplay⟩ := replays_markPoint hf p position hk h
      refine ⟨hmarks, fun hfulfils => ?_⟩
      rw [propagate, hp, ok_bind]
      exact hreplay hfulfils
  | linear y m z b =>
      exact replays_guard (fun _ _ => rfl) fun k x hk _ h =>
        (replays_mark hf y b hk h).imp_right fun hreplay _ => hreplay
  | polar start finish length bearing =>
      refine replays_guard (fun k hk => by rw [hk.isKnown]) fun k x hk hboth h => ?_
      rw [Bool.and_eq_true] at hboth
      obtain ⟨p, hp, h⟩ := bind_eq_ok_iff.1 h
      obtain ⟨q, hq, h⟩ := bind_eq_ok_iff.1 h
      obtain ⟨θ, hθ, h⟩ := bind_eq_ok_iff.1 h
      obtain ⟨r, hr, h⟩ := bind_eq_ok_iff.1 h
      split at h
      · rename_i hstart hfinish
        obtain ⟨u, hu, h⟩ := bind_eq_ok_iff.1 h
        obtain ⟨hmarks, hreplay⟩ := replays_markPoint hf q _ hk h
        refine ⟨hmarks, fun hbefore hfulfils => ?_⟩
        rw [← hbefore.value hboth.2] at hθ
        rw [← hbefore.value hboth.1] at hr
        rw [← hbefore.read hstart] at hu
        simp only [hbefore.isKnownPoint, hstart, hfinish, hp, hq, hθ, hr, hu, ok_bind]
        exact hreplay hfulfils
      · rename_i hstart hfinish
        obtain ⟨u, hu, h⟩ := bind_eq_ok_iff.1 h
        obtain ⟨hmarks, hreplay⟩ := replays_markPoint hf p _ hk h
        refine ⟨hmarks, fun hbefore hfulfils => ?_⟩
        rw [← hbefore.value hboth.2] at hθ
        rw [← hbefore.value hboth.1] at hr
        rw [← hbefore.read hfinish] at hu
        simp only [hbefore.isKnownPoint, hstart, hfinish, hp, hq, hθ, hr, hu, ok_bind]
        exact hreplay hfulfils
      · cases h
        refine ⟨.refl, fun hbefore _ => ?_⟩
        rw [← hbefore.value hboth.2] at hθ
        rw [← hbefore.value hboth.1] at hr
        simp only [hbefore.isKnownPoint, hp, hq, hθ, hr, ok_bind]
        rfl
  | _ => exact replays_idle

section

variable (hf : f.WellFormed) (hundo : ∀ v x, f.lower v (f.lift v x) = x)
  (hangle : ∀ (p q : Point α) (y : α),
    angleBetween p q (angleBetween p q y) = angleBetween p q y)

include hf hundo hangle

/-- **One residual's turn.**  It reads what is known, and an angle reads in addition what it has
been before.  The second time, that is what it will be. -/
lemma Residual.replays_propagate (r : Residual α) (fingerOfGod : Bool) :
    Replays f (r.propagate fingerOfGod) := by
  cases r with
  | finger p position =>
      exact replays_guard (fun _ _ => rfl) fun k x hk _ h =>
        (replays_markPoint hf p position hk h).imp_right fun hreplay _ => hreplay
  | distance p q length =>
      refine replays_guard (fun k hk => by rw [hk.isKnown, hk.isKnownPoint])
        fun k x hk hready h => ?_
      simp only [Bool.and_eq_true] at hready
      obtain ⟨u, hu, h⟩ := bind_eq_ok_iff.1 h
      obtain ⟨w, hw, h⟩ := bind_eq_ok_iff.1 h
      obtain ⟨hmarks, hreplay⟩ := replays_mark hf length _ hk h
      refine ⟨hmarks, fun hbefore hfulfils => ?_⟩
      rw [← hbefore.read hready.1.2] at hu
      rw [← hbefore.read hready.2] at hw
      simp only [hu, hw, ok_bind]
      exact hreplay hfulfils
  | angle p q bearing =>
      refine replays_guard (fun k hk => by rw [hk.isKnown, hk.isKnownPoint])
        fun k x hk hready h => ?_
      simp only [Bool.and_eq_true, Bool.not_eq_true'] at hready
      obtain ⟨previous, -, h⟩ := bind_eq_ok_iff.1 h
      obtain ⟨u, hu, h⟩ := bind_eq_ok_iff.1 h
      obtain ⟨w, hw, h⟩ := bind_eq_ok_iff.1 h
      obtain ⟨hmarks, hreplay⟩ := replays_mark hf bearing _ hk h
      refine ⟨hmarks, fun hbefore hfulfils => ?_⟩
      rw [← hbefore.read hready.1.2] at hu
      rw [← hbefore.read hready.2] at hw
      -- the angle that is marked is the one that is there
      have hthere : f.value bearing = .ok (angleBetween u w previous) := by
        have hunknown : ¬ k.arena.canonical bearing ∈ k.knowns := by
          rw [← isKnown_iff, hready.1.1]
          exact Bool.false_ne_true
        rw [value_eq_ok_iff, hfulfils.of_mark hk h hunknown rfl, hundo]
      simp only [hthere, hu, hw, ok_bind, hangle]
      exact hreplay hfulfils
  | formula m z b result =>
      refine replays_guard (fun k hk => by rw [hk.isKnown]) fun k x hk hready h => ?_
      simp only [List.all_cons, List.all_nil, Bool.and_eq_true, Bool.and_true] at hready
      obtain ⟨y, hy, h⟩ := bind_eq_ok_iff.1 h
      obtain ⟨hmarks, hreplay⟩ := replays_mark hf result _ hk h
      refine ⟨hmarks, fun hbefore hfulfils => ?_⟩
      have hsame : formulaValue f m z b = formulaValue k.arena m z b := by
        rw [formulaValue, formulaValue, hbefore.value hready.2.1, hbefore.value hready.2.2.1,
          hbefore.value hready.2.2.2]
      simp only [hsame, hy, ok_bind]
      exact hreplay hfulfils

end

/-! ## Passes -/

namespace Cluster

variable {constraints : ConstraintTable α} {t : HandleTable} {fingerOfGod : Bool} {c : Cluster α}
  {ctx : SolveContext α} {k l l' : KnownArena α} {n n' : Nat}

/-- Taking turns. -/
lemma replays_learnAll {β : Type}
    {step : β → KnownArena α → Except SolverError (Bool × KnownArena α)} {items : List β}
    (hstep : ∀ item ∈ items, Replays f (step item)) : Replays f (learnAll step items) := by
  -- induction on the items, with any answer so far
  have hgeneral : ∀ changed : Bool, Replays f fun k =>
      items.foldlM (fun (changed, k) item => do
        let (learned, k) ← step item k
        return (changed || learned, k)) (changed, k) := by
    induction items with
    | nil =>
        rintro changed k _ - ⟨⟩
        exact ⟨.refl, fun _ => rfl⟩
    | cons item items ih =>
        intro changed k x hk h
        simp only [List.foldlM_cons] at h ⊢
        obtain ⟨_, hfirst, hrest⟩ := bind_eq_ok_iff.1 h
        obtain ⟨y, hy, hpure⟩ := bind_eq_ok_iff.1 hfirst
        cases hpure
        obtain ⟨hmarks, hreplay⟩ := hstep item List.mem_cons_self hk hy
        have hk₁ := (hmarks.within hk).wellFormed
        obtain ⟨hmarks', hreplay'⟩ :=
          ih (fun i hi => hstep i (List.mem_cons_of_mem _ hi)) (changed || y.1) hk₁ hrest
        refine ⟨hmarks.trans hmarks', fun hfulfils => ?_⟩
        rw [hreplay (hfulfils.of_marks hmarks' hk₁)]
        exact hreplay' hfulfils
  exact hgeneral false

/-- Passes come to one end. -/
lemma Passes.unique (h : c.Passes constraints t fingerOfGod n k l)
    (h' : c.Passes constraints t fingerOfGod n' k l') : l' = l := by
  induction h generalizing n' with
  | last hpass =>
      cases h' with
      | last hpass' =>
          rw [hpass] at hpass'
          cases hpass'
          rfl
      | more hpass' =>
          rw [hpass] at hpass'
          cases hpass'
  | more hpass _ ih =>
      cases h' with
      | last hpass' =>
          rw [hpass] at hpass'
          cases hpass'
      | more hpass' hrest' =>
          rw [hpass] at hpass'
          cases hpass'
          exact ih hrest'

section

variable (hf : f.WellFormed) (hundo : ∀ v x, f.lower v (f.lift v x) = x)
  (hangle : ∀ (p q : Point α) (y : α),
    angleBetween p q (angleBetween p q y) = angleBetween p q y)

include hf hundo hangle

/-- **One pass** over a cluster. -/
lemma replays_pass : Replays f (c.pass constraints t fingerOfGod) := by
  refine (replays_learnAll fun id _ => ?_).andThen
    (replays_learnAll fun r _ => r.replays_propagate hf hundo hangle fingerOfGod)
  intro k x hk h
  obtain ⟨d, hfind, hturn⟩ := bind_eq_ok_iff.1 h
  simp only [hfind, ok_bind]
  exact d.replays_propagate hf t hk hturn

/-- **All passes.**  If everything that they make known has its value already, they make it known
again and leave the arena as it is. -/
theorem Passes.replay (h : c.Passes constraints t fingerOfGod n k l) (hk : k.arena.WellFormed)
    (hfulfils : f.Fulfils l) :
    c.Passes constraints t fingerOfGod n ⟨f, k.knowns⟩ ⟨f, l.knowns⟩ := by
  induction h with
  | last hpass => exact .last ((replays_pass hf hundo hangle hk hpass).2 hfulfils)
  | more hpass hrest ih =>
      obtain ⟨hmarks, hreplay⟩ := replays_pass hf hundo hangle hk hpass
      have hk₁ := (hmarks.within hk).wellFormed
      exact .more (hreplay (hfulfils.of_marks (hrest.marks hk₁) hk₁)) (ih hk₁ hfulfils)

/-- **Preparing again.**  What is known from the start depends on the unifications alone, and what
follows is there already. -/
theorem Ready.prepare_again {a : Arena α} (hready : c.Ready ctx.constraints ctx.handles a)
    (ha : a.WellFormed) {p : Problem α} {b : Arena α}
    (hprepare : Problem.prepare ctx c a = .ok (p, b))
    (hshape : f.shape = a.shape) (hthere : ∀ v, a.canonical v ∈ c.vars → f.value? v = b.value? v) :
    ∃ q, Problem.prepare ctx c f = .ok (q, f) ∧ q.knowns = p.knowns := by
  obtain ⟨held, n, k, hheld, hpasses, -, hprepare'⟩ := hready.prepare_spec ha
  rw [hprepare] at hprepare'
  cases hprepare'
  obtain ⟨held', n', k', hheld', hpasses', -, hprepare'⟩ :=
    (hready.congr hshape).prepare_spec hf
  obtain ⟨_, hheld'', hinside, -⟩ := hready.preset_spec
  rw [hheld] at hheld''
  cases hheld''
  obtain rfl : held' = held := by
    rw [preset, gizmoKnowns_congr hshape, ← preset, hheld] at hheld'
    cases hheld'
    rfl
  have hwithin := (hpasses.marks ha).within ha
  have hfulfils : f.Fulfils k := by
    refine ⟨hshape.trans hwithin.shape.symm, fun v hv => hthere v ?_⟩
    rw [isKnown_iff, hwithin.canonical] at hv
    exact hpasses.mem_vars hready ha hinside _ hv
  obtain rfl := (hpasses.replay hf hundo hangle ha hfulfils).unique hpasses'
  exact ⟨_, hprepare', rfl⟩

end

/-! ## Nothing left to search for -/

/-- **Everything is known.**  If nothing is left to search for, and no residual reads the group of
the variable it owns, then nothing is left to compute either: the owner of a free variable would
have computed it. -/
theorem Ready.all_known {a b : Arena α} (hready : c.Ready ctx.constraints ctx.handles a)
    (ha : a.WellFormed) (hunlooped : c.Unlooped a) {p : Problem α}
    (hprepare : Problem.prepare ctx c a = .ok (p, b)) (hempty : p.parameters = []) :
    ∀ v ∈ c.vars, v ∈ p.knowns := by
  obtain ⟨held, n, k, -, hpasses, -, hprepare'⟩ := hready.prepare_spec ha
  rw [hprepare] at hprepare'
  cases hprepare'
  have hwithin := (hpasses.marks ha).within ha
  have hready' := hready.congr hwithin.shape
  have hunlooped' : c.Unlooped k.arena := by
    rw [Unlooped, hwithin.canonical]
    exact hunlooped
  have howned := Problem.owned_of_prepare hprepare
  have hcases : ∀ v ∈ c.vars, ¬ v ∈ (c.problem k).free → v ∈ k.knowns := by
    intro v hv hfree
    by_contra hunknown
    have hparameter : v ∈ (c.problem k).parameters :=
      hready'.mem_parameters_iff v |>.2 ⟨hv, hunknown, hfree⟩
    rw [hempty] at hparameter
    cases hparameter
  intro v hv
  refine hcases v hv fun hfree => ?_
  obtain ⟨r, hr, w, hw, hgroup⟩ := howned.owner v hfree
  -- what its owner reads is known, so it was computed
  have hinputs : ∀ u ∈ r.inputs, a.canonical u ∈ k.knowns := by
    intro u hu
    have hfixed := howned.fixed_of_mem_inputs hready' hunlooped' hr hu
    rw [hwithin.canonical] at hfixed
    exact hcases _ hfixed.1 hfixed.2
  have hrule : ⟨r.inputs, w⟩ ∈ c.rules ctx.constraints ctx.handles ctx.fingerOfGod := by
    refine List.mem_append_right _ (List.mem_flatMap.2 ⟨r, hr, ?_⟩)
    cases r <;> cases hw <;> exact List.mem_cons_self
  have hknown := (hpasses.least ha).closed _ hrule hinputs
  rw [← hwithin.canonical, hgroup] at hknown
  exact not_known_of_unknown hready' (Or.inr hfree) hknown

/-- A cluster in which everything is known is left as it was prepared. -/
lemma Ready.solveCluster_known {a b : Arena α} (hready : c.Ready ctx.constraints ctx.handles a)
    (ha : a.WellFormed) {p : Problem α} (hprepare : Problem.prepare ctx c a = .ok (p, b))
    (hknown : ∀ v ∈ c.vars, v ∈ p.knowns) {σ : Type} (m : Minimizer σ α) (memory : σ) :
    solveCluster ctx m memory c a = .ok (.determined, memory, b) := by
  obtain ⟨held, n, k, -, hpasses, -, hprepare'⟩ := hready.prepare_spec ha
  rw [hprepare] at hprepare'
  cases hprepare'
  have hwithin := (hpasses.marks ha).within ha
  have hready' := hready.congr hwithin.shape
  have hfits := hready'.fits_problem
  have hnone : ∀ v, ¬ (c.problem k).Unknown v := fun v hunknown =>
    not_known_of_unknown hready' hunknown (hknown v (hfits.mem_vars hunknown))
  have hempty : (c.problem k).parameters = [] :=
    List.eq_nil_iff_forall_not_mem.2 fun v hv => hnone v (Or.inl hv)
  obtain ⟨⟨total, b⟩, _, htotal, -, -, htwins⟩ := Problem.both_totalError
    (W := (· ∈ (c.problem k).free)) hready' hfits (fun v hv => hv) (.self hwithin.wellFormed)
    ctx.fingerOfGod
  obtain rfl : b = k.arena := ext_of_shape htwins.left.shape fun v =>
    htwins.left.frame v fun hfree => hnone _ (Or.inr hfree)
  rw [solveCluster, hprepare]
  simp only [ok_bind, hempty, List.isEmpty_nil, if_true, htotal]
  rfl

/-- **The second time.**  When a cluster has been solved in which nothing was left to search for,
an arena on which its groups are as that has left them stays as it is. -/
theorem Ready.solveCluster_again {a b : Arena α}
    (hready : c.Ready ctx.constraints ctx.handles a) (ha : a.WellFormed)
    (hunlooped : c.Unlooped a) {p : Problem α} (hprepare : Problem.prepare ctx c a = .ok (p, b))
    (hempty : p.parameters = []) (hf : f.WellFormed) (hshape : f.shape = a.shape)
    (hundo : ∀ v x, f.lower v (f.lift v x) = x)
    (hangle : ∀ (p q : Point α) (y : α),
      angleBetween p q (angleBetween p q y) = angleBetween p q y)
    (hthere : ∀ v, a.canonical v ∈ c.vars → f.value? v = b.value? v) {σ : Type}
    (m : Minimizer σ α) (memory : σ) :
    solveCluster ctx m memory c f = .ok (.determined, memory, f) := by
  obtain ⟨q, hagain, hknowns⟩ :=
    hready.prepare_again hf hundo hangle ha hprepare hshape hthere
  refine (hready.congr hshape).solveCluster_known hf hagain (fun v hv => ?_) m memory
  rw [hknowns]
  exact hready.all_known ha hunlooped hprepare hempty v hv

end Cluster

end SketchSolver
