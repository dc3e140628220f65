import Mathlib
import SketchSolver.Proofs.Solve.Prepare

/-!
# What follows from what is known

Before the search, values are computed that follow directly, and their variables are marked known.
Which values these are depends on the arithmetic; which variables become known does not.

* `Rule` — once some variables are known, another one is.  `Constraint.rules` and `Residual.rules`
  list the rules of every kind of constraint and of residual.
* `KnownArena.Marks` — one mark after the other.  Nothing else is ever done before the search, and a
  mark leaves everything alone that is known already (`Marks.value?`).
* `KnownArena.Learns` — what a turn comes to that follows some rules: it makes known only what these
  force, and if it answers that it learned nothing, they have nothing to add.
* `Constraint.learns_propagate`, `Residual.learns_propagate` — every turn is of this kind.
-/

namespace SketchSolver

open Arena

variable {α : Type}

/-! ## Rules -/

/-- Once all the premises are known, the conclusion is. -/
structure Rule where
  /-- What has to be known. -/
  premises : List VarId
  /-- What is known then. -/
  conclusion : VarId

namespace Rule

/-- The rules that lead from some premises to both coordinates of a point. -/
def toPoint (premises : List VarId) (c : Coords) : List Rule :=
  [⟨premises, c.x⟩, ⟨premises, c.y⟩]

/-- The rule has nothing to add to a set of groups. -/
def Holds [Scalar α] (rule : Rule) (a : Arena α) (S : VarId → Prop) : Prop :=
  (∀ v ∈ rule.premises, S (a.canonical v)) → S (a.canonical rule.conclusion)

lemma holds_toPoint [Scalar α] (a : Arena α) (S : VarId → Prop) (premises : List VarId)
    (c : Coords) : (∀ rule ∈ toPoint premises c, rule.Holds a S) ↔
      ((∀ v ∈ premises, S (a.canonical v)) → S (a.canonical c.x) ∧ S (a.canonical c.y)) := by
  simp only [toPoint, List.forall_mem_cons, List.not_mem_nil, false_imp_iff, implies_true,
    and_true, Holds, forall_and]

lemma holds_congr [Scalar α] {a b : Arena α} (h : b.canonical = a.canonical) (rule : Rule)
    (S : VarId → Prop) : rule.Holds b S ↔ rule.Holds a S := by
  rw [Holds, Holds, h]

end Rule

/-- The rules of a constraint.

A constant makes its variable known, a pin its handle, and a degenerate linear relationship its
dependent variable.  A polar vector leads from its length, its angle and either end to the other
end. -/
def Constraint.rules [Scalar α] (t : HandleTable) : Constraint α → List Rule
  | .constant v _ => [⟨[], v⟩]
  | .pin h _ =>
    match t.coords? h with
    | some p => Rule.toPoint [] p
    | none => []
  | .linear y m _ b => if (Affine.mk m b).isDegenerate then [⟨[], y⟩] else []
  | .polar start finish length bearing =>
    match t.coords? start, t.coords? finish with
    | some p, some q =>
      Rule.toPoint [length, bearing, p.x, p.y] q ++ Rule.toPoint [length, bearing, q.x, q.y] p
    | _, _ => []
  | .finger .. | .absorb .. | .distance .. | .angle .. | .formula .. => []

/-- The rules of a residual: from everything it reads to what it owns, and in finger-of-god mode to
the point that a finger drags. -/
def Residual.rules (fingerOfGod : Bool) : Residual α → List Rule
  | .finger p _ => if fingerOfGod then Rule.toPoint [] p else []
  | .distance p q length => [⟨[p.x, p.y, q.x, q.y], length⟩]
  | .angle p q bearing => [⟨[p.x, p.y, q.x, q.y], bearing⟩]
  | .formula m x b result => [⟨[m, x, b], result⟩]

variable [Scalar α]

/-- A write changes one group. -/
lemma Arena.WellFormed.within_setValue {a b : Arena α} (ha : a.WellFormed) {id : VarId} {x : α}
    (h : a.setValue id x = .ok b) {W : VarId → Prop} (hid : W (a.canonical id)) : Within W a b := by
  obtain ⟨hb, hshape, hvalue⟩ := ha.of_setValue h
  refine ⟨hb, hshape, fun v hv => ?_⟩
  rw [hvalue, if_neg]
  intro heq
  exact hv (heq ▸ hid)

namespace KnownArena

variable {k l m : KnownArena α}

lemma isKnown_iff (k : KnownArena α) (v : VarId) :
    k.isKnown v = true ↔ k.arena.canonical v ∈ k.knowns := by
  rw [isKnown, OrderedSet.contains_eq_true_iff]

lemma isKnownPoint_iff (k : KnownArena α) (c : Coords) :
    k.isKnownPoint c = true ↔
      k.arena.canonical c.x ∈ k.knowns ∧ k.arena.canonical c.y ∈ k.knowns := by
  rw [isKnownPoint, Bool.and_eq_true, isKnown_iff, isKnown_iff]

/-! ## Marks -/

/-- One mark after the other leads from the first to the second. -/
def Marks : KnownArena α → KnownArena α → Prop :=
  Relation.ReflTransGen fun k l => ∃ v x learned, k.mark v x = .ok (learned, l)

lemma Marks.trans (hkl : Marks k l) (hlm : Marks l m) : Marks k m :=
  Relation.ReflTransGen.trans hkl hlm

/-- A mark does nothing to what is known.  Otherwise it writes a value and makes its group known. -/
lemma mark_cases {v : VarId} {x : α} {learned : Bool} (h : k.mark v x = .ok (learned, l)) :
    (k.arena.canonical v ∈ k.knowns ∧ learned = false ∧ l = k) ∨
      (¬ k.arena.canonical v ∈ k.knowns ∧ learned = true ∧ k.arena.setValue v x = .ok l.arena ∧
        l.knowns = k.knowns.insert (k.arena.canonical v)) := by
  rw [mark] at h
  split at h
  · rename_i hknown
    cases h
    exact Or.inl ⟨(OrderedSet.contains_eq_true_iff _ _).1 hknown, rfl, rfl⟩
  · rename_i hunknown
    rw [OrderedSet.contains_eq_true_iff] at hunknown
    obtain ⟨a, hset, hpure⟩ := bind_eq_ok_iff.1 h
    cases hpure
    exact Or.inr ⟨hunknown, rfl, hset, rfl⟩

/-- What a chain of marks has written are the groups that it made known. -/
lemma Marks.spec (h : Marks k l) (hk : k.arena.WellFormed) :
    (∀ v ∈ k.knowns, v ∈ l.knowns) ∧
      Within (fun v => v ∈ l.knowns ∧ ¬ v ∈ k.knowns) k.arena l.arena := by
  induction h with
  | refl => exact ⟨fun v hv => hv, .refl hk⟩
  | @tail l m _ hstep ih =>
      obtain ⟨hgrows, hwithin⟩ := ih
      obtain ⟨v, x, learned, hmark⟩ := hstep
      rcases mark_cases hmark with ⟨-, -, rfl⟩ | ⟨hnew, -, hset, hknowns⟩
      · exact ⟨hgrows, hwithin⟩
      · have hmem : ∀ u, u ∈ m.knowns ↔ u ∈ l.knowns ∨ u = l.arena.canonical v := fun u => by
          rw [hknowns, OrderedSet.mem_insert]
        refine ⟨fun u hu => (hmem u).2 (Or.inl (hgrows u hu)), (hwithin.mono fun u hu => ?_).trans
          (hwithin.wellFormed.within_setValue hset ?_)⟩
        · exact ⟨(hmem u).2 (Or.inl hu.1), hu.2⟩
        · exact ⟨(hmem _).2 (Or.inr rfl), fun hold => hnew (hgrows _ hold)⟩

lemma Marks.within (h : Marks k l) (hk : k.arena.WellFormed) :
    Within (fun v => v ∈ l.knowns ∧ ¬ v ∈ k.knowns) k.arena l.arena :=
  (h.spec hk).2

lemma Marks.canonical (h : Marks k l) (hk : k.arena.WellFormed) :
    l.arena.canonical = k.arena.canonical :=
  (h.within hk).canonical

/-- **What is known stays known.** -/
lemma Marks.isKnown (h : Marks k l) (hk : k.arena.WellFormed) {v : VarId}
    (hv : k.isKnown v = true) : l.isKnown v = true := by
  rw [isKnown_iff] at hv ⊢
  rw [h.canonical hk]
  exact (h.spec hk).1 _ hv

/-- **Whatever is known first is authoritative**: marks do not change its value. -/
theorem Marks.value? (h : Marks k l) (hk : k.arena.WellFormed) {v : VarId}
    (hv : k.isKnown v = true) : l.arena.value? v = k.arena.value? v :=
  (h.within hk).frame v fun hnew => hnew.2 ((k.isKnown_iff v).1 hv)

/-! ## Turns -/

/-- What a turn comes to that follows some rules. -/
structure Learns (rules : List Rule) (k : KnownArena α) (x : Bool × KnownArena α) : Prop where
  /-- It does nothing but mark. -/
  marks : Marks k x.2
  /-- It makes known only what the rules force. -/
  sound : ∀ S : VarId → Prop, (∀ v ∈ k.knowns, S v) →
    (∀ rule ∈ rules, rule.Holds k.arena S) → ∀ v ∈ x.2.knowns, S v
  /-- If it answers that it learned nothing then it has done nothing, and there was nothing to
  learn. -/
  idle : x.1 = false → x.2 = k ∧ ∀ rule ∈ rules, rule.Holds k.arena (· ∈ k.knowns)
  /-- If it answers that it learned something then it has. -/
  fresh : x.1 = true → ∃ v ∈ x.2.knowns, ¬ v ∈ k.knowns

namespace Learns

variable {rules rules' : List Rule} {x y : Bool × KnownArena α}

/-- Doing nothing, when there is nothing to learn. -/
lemma nothing (h : ∀ rule ∈ rules, rule.Holds k.arena (· ∈ k.knowns)) :
    Learns rules k (false, k) :=
  ⟨.refl, fun _ hS _ => hS, fun _ => ⟨rfl, h⟩, by rintro ⟨⟩⟩

/-- Doing nothing for a rule one of whose premises is not known. -/
lemma waits {rule : Rule} {v : VarId} (hv : v ∈ rule.premises) (hunknown : k.isKnown v = false) :
    Learns [rule] k (false, k) := by
  refine nothing fun r hr hpremises => ?_
  obtain rfl := List.mem_singleton.1 hr
  rw [← Bool.not_eq_true, isKnown_iff] at hunknown
  exact absurd (hpremises v hv) hunknown

/-- One turn after the other. -/
lemma append (hx : Learns rules k x) (hy : Learns rules' x.2 y) (hk : k.arena.WellFormed) :
    Learns (rules ++ rules') k (x.1 || y.1, y.2) where
  marks := hx.marks.trans hy.marks
  sound S hS hrules := by
    refine hy.sound S (hx.sound S hS fun r hr => hrules r (List.mem_append_left _ hr)) ?_
    intro r hr
    rw [Rule.holds_congr (hx.marks.canonical hk)]
    exact hrules r (List.mem_append_right _ hr)
  idle hflag := by
    obtain ⟨hx₁, hy₁⟩ := Bool.or_eq_false_iff.1 hflag
    obtain ⟨hxk, hrules⟩ := hx.idle hx₁
    obtain ⟨hyx, hrules'⟩ := hy.idle hy₁
    rw [hxk] at hyx hrules'
    exact ⟨hyx, fun r hr => (List.mem_append.1 hr).elim (hrules r) (hrules' r)⟩
  fresh hflag := by
    rcases (Bool.or_eq_true _ _).mp hflag with hx₁ | hy₁
    · obtain ⟨v, hv, hnew⟩ := hx.fresh hx₁
      exact ⟨v, (hy.marks.spec (hx.marks.within hk).wellFormed).1 v hv, hnew⟩
    · obtain ⟨v, hv, hnew⟩ := hy.fresh hy₁
      exact ⟨v, hv, fun hold => hnew ((hx.marks.spec hk).1 v hold)⟩

/-- A turn may follow fewer rules than there are, if the others have nothing to add when it learns
nothing. -/
lemma weaken (h : Learns rules k x) (hsub : rules ⊆ rules')
    (hrest : x.1 = false → ∀ rule ∈ rules', rule.Holds k.arena (· ∈ k.knowns)) :
    Learns rules' k x :=
  ⟨h.marks, fun S hS hrules => h.sound S hS fun r hr => hrules r (hsub hr),
    fun hflag => ⟨(h.idle hflag).1, hrest hflag⟩, h.fresh⟩

end Learns

/-- Marking the conclusion of a rule whose premises are known. -/
lemma learns_mark {premises : List VarId} {v : VarId} {y : α} {x : Bool × KnownArena α}
    (h : k.mark v y = .ok x) (hpremises : ∀ u ∈ premises, k.isKnown u = true) :
    Learns [⟨premises, v⟩] k x := by
  have hmarks : Marks k x.2 := .single ⟨v, y, x.1, h⟩
  rcases mark_cases h with ⟨hknown, hflag, hx⟩ | ⟨hunknown, hflag, -, hknowns⟩
  · refine ⟨hmarks, fun S hS _ => hx ▸ hS, fun _ => ⟨hx, fun r hr _ => ?_⟩, fun htrue => ?_⟩
    · obtain rfl := List.mem_singleton.1 hr
      exact hknown
    · rw [hflag] at htrue
      cases htrue
  · have hmem : ∀ u, u ∈ x.2.knowns ↔ u ∈ k.knowns ∨ u = k.arena.canonical v := fun u => by
      rw [hknowns, OrderedSet.mem_insert]
    refine ⟨hmarks, fun S hS hrules u hu => ?_, fun hfalse => ?_, fun _ => ?_⟩
    · rcases (hmem u).1 hu with hold | rfl
      · exact hS u hold
      · exact hrules _ List.mem_cons_self fun w hw => hS _ ((k.isKnown_iff w).1 (hpremises w hw))
    · rw [hflag] at hfalse
      cases hfalse
    · exact ⟨_, (hmem _).2 (Or.inr rfl), hunknown⟩

/-- Marking both coordinates of a point, once the premises are known. -/
lemma learns_markPoint {premises : List VarId} {c : Coords} {p : Point α}
    {x : Bool × KnownArena α} (hk : k.arena.WellFormed) (h : k.markPoint c p = .ok x)
    (hpremises : ∀ u ∈ premises, k.isKnown u = true) : Learns (Rule.toPoint premises c) k x := by
  obtain ⟨⟨learned, k₁⟩, hx, hrest⟩ := bind_eq_ok_iff.1 h
  obtain ⟨⟨learned', k₂⟩, hy, hpure⟩ := bind_eq_ok_iff.1 hrest
  cases hpure
  have hfirst := learns_mark hx hpremises
  exact hfirst.append (learns_mark hy fun u hu => hfirst.marks.isKnown hk (hpremises u hu)) hk

end KnownArena

open KnownArena

variable {k : KnownArena α} {x : Bool × KnownArena α}

/-! ## Every kind of constraint -/

/-- The rules of a polar vector have nothing to add if each end is known as soon as the other one
is. -/
lemma Constraint.holds_polar {t : HandleTable} {start finish : HandleId} {length bearing : VarId}
    {p q : Coords} (hp : t.coords? start = some p) (hq : t.coords? finish = some q)
    (heach : k.isKnown length = true → k.isKnown bearing = true →
      (k.isKnownPoint p = true ↔ k.isKnownPoint q = true)) :
    ∀ rule ∈ (polar start finish length bearing : Constraint α).rules t,
      rule.Holds k.arena (· ∈ k.knowns) := by
  simp only [rules, hp, hq, List.forall_mem_append, Rule.holds_toPoint, List.forall_mem_cons,
    List.not_mem_nil, false_imp_iff, implies_true, and_true]
  simp only [isKnown_iff, isKnownPoint_iff] at heach
  exact ⟨fun h => (heach h.1 h.2.1).1 h.2.2, fun h => (heach h.1 h.2.1).2 h.2.2⟩

/-- A mark from one point to another: its premises are known, and if it learns nothing, then the
other point is known as well. -/
lemma learns_acrossPoint {premises : List VarId} {d e : Coords} {position : Point α}
    (hk : k.arena.WellFormed) (hpremises : ∀ v ∈ premises, k.isKnown v = true)
    (hd : k.isKnownPoint d = true) (h : k.markPoint e position = .ok x) :
    Learns (Rule.toPoint (premises ++ [d.x, d.y]) e) k x ∧
      (x.1 = false → k.isKnownPoint e = true) := by
  have hall : ∀ v ∈ premises ++ [d.x, d.y], k.isKnown v = true := by
    rw [isKnownPoint, Bool.and_eq_true] at hd
    simp only [List.forall_mem_append, List.forall_mem_cons, List.not_mem_nil, false_imp_iff,
      implies_true, and_true]
    exact ⟨hpremises, hd⟩
  have hlearns := learns_markPoint hk h hall
  refine ⟨hlearns, fun hflag => (k.isKnownPoint_iff e).2 ?_⟩
  have hholds := (Rule.holds_toPoint _ _ _ _).1 (hlearns.idle hflag).2
  exact hholds fun v hv => (k.isKnown_iff v).1 (hall v hv)

/-- **A polar vector's turn**: once its length and its angle are known, each end leads to the other
one. -/
theorem Constraint.learns_polar {t : HandleTable} {start finish : HandleId} {length bearing : VarId}
    (h : (polar start finish length bearing : Constraint α).propagate t k = .ok x)
    (hk : k.arena.WellFormed) :
    Learns ((polar start finish length bearing : Constraint α).rules t) k x := by
  rw [propagate] at h
  split at h
  · rename_i hboth
    rw [Bool.and_eq_true] at hboth
    have hpremises : ∀ v ∈ [length, bearing], k.isKnown v = true := by simp [hboth]
    obtain ⟨p, hp, h⟩ := bind_eq_ok_iff.1 h
    obtain ⟨q, hq, h⟩ := bind_eq_ok_iff.1 h
    obtain ⟨_, -, h⟩ := bind_eq_ok_iff.1 h
    obtain ⟨_, -, h⟩ := bind_eq_ok_iff.1 h
    rw [HandleTable.coords_eq_ok_iff] at hp hq
    split at h
    · rename_i hstart _
      obtain ⟨_, -, h⟩ := bind_eq_ok_iff.1 h
      obtain ⟨hlearns, hreached⟩ := learns_acrossPoint hk hpremises hstart h
      refine hlearns.weaken (by simp [rules, hp, hq]) fun hflag => ?_
      exact holds_polar hp hq fun _ _ => iff_of_true hstart (hreached hflag)
    · rename_i _ hfinish
      obtain ⟨_, -, h⟩ := bind_eq_ok_iff.1 h
      obtain ⟨hlearns, hreached⟩ := learns_acrossPoint hk hpremises hfinish h
      refine hlearns.weaken (by simp [rules, hp, hq]) fun hflag => ?_
      exact holds_polar hp hq fun _ _ => iff_of_true (hreached hflag) hfinish
    · rename_i hforwards hbackwards
      cases h
      refine .nothing (holds_polar hp hq fun _ _ => ?_)
      cases hp' : k.isKnownPoint p <;> cases hq' : k.isKnownPoint q
      · exact Iff.rfl
      · exact absurd hq' (hbackwards hp')
      · exact absurd hq' (hforwards hp')
      · exact Iff.rfl
  · rename_i hboth
    rw [Bool.and_eq_true] at hboth
    cases h
    refine .nothing ?_
    rcases hp : t.coords? start with _ | p
    · simp [rules, hp]
    · rcases hq : t.coords? finish with _ | q
      · simp [rules, hp, hq]
      · exact holds_polar hp hq fun hlength hbearing => absurd ⟨hlength, hbearing⟩ hboth

/-- **One constraint's turn** follows the rules of the constraint. -/
theorem Constraint.learns_propagate {c : Constraint α} {t : HandleTable}
    (h : c.propagate t k = .ok x) (hk : k.arena.WellFormed) : Learns (c.rules t) k x := by
  have hidle : ∀ {rules}, rules = [] → (.ok (false, k) : Except SolverError _) = .ok x →
      Learns rules k x := by
    rintro _ rfl ⟨⟩
    exact .nothing (by simp)
  have hnone : ∀ u ∈ ([] : List VarId), k.isKnown u = true := by simp
  cases c with
  | constant v y => exact learns_mark h hnone
  | pin i position =>
      obtain ⟨p, hp, h⟩ := bind_eq_ok_iff.1 h
      rw [rules, (HandleTable.coords_eq_ok_iff i p).1 hp]
      exact learns_markPoint hk h hnone
  | linear y m z b =>
      rw [propagate] at h
      rw [rules]
      split at h
      · rename_i hdegenerate
        rw [if_pos hdegenerate]
        exact learns_mark h hnone
      · rename_i hdegenerate
        exact hidle (if_neg hdegenerate) h
  | polar start finish length bearing => exact learns_polar h hk
  | _ => exact hidle rfl h

/-! ## Every kind of residual -/

/-- **One residual's turn** follows the rules of the residual. -/
theorem Residual.learns_propagate {r : Residual α} {fingerOfGod : Bool}
    (h : r.propagate fingerOfGod k = .ok x) (hk : k.arena.WellFormed) :
    Learns (r.rules fingerOfGod) k x := by
  -- a residual waits until everything it reads is known, and does nothing once its own variable is
  have hidle : ∀ {premises : List VarId} {v : VarId},
      (k.isKnown v = true ∨ ∃ u ∈ premises, k.isKnown u = false) →
      (.ok (false, k) : Except SolverError _) = .ok x → Learns [⟨premises, v⟩] k x := by
    rintro premises v (hknown | ⟨u, hu, hunknown⟩) ⟨⟩
    · refine .nothing fun r hr _ => ?_
      obtain rfl := List.mem_singleton.1 hr
      exact (k.isKnown_iff v).1 hknown
    · exact .waits hu hunknown
  cases r with
  | finger p position =>
      rw [propagate] at h
      rw [rules]
      split at h
      · rename_i hgod
        rw [if_pos hgod]
        exact learns_markPoint hk h (by simp)
      · rename_i hgod
        rw [if_neg hgod]
        cases h
        exact .nothing (by simp)
  | distance p q length =>
      rw [propagate] at h
      split at h
      · rename_i hready
        obtain ⟨_, -, h⟩ := bind_eq_ok_iff.1 h
        obtain ⟨_, -, h⟩ := bind_eq_ok_iff.1 h
        exact learns_mark h (by simp_all [isKnownPoint])
      · rename_i hready
        refine hidle ?_ h
        simp only [isKnownPoint, Bool.and_eq_true, Bool.not_eq_true'] at hready
        grind
  | angle p q bearing =>
      rw [propagate] at h
      split at h
      · rename_i hready
        obtain ⟨_, -, h⟩ := bind_eq_ok_iff.1 h
        obtain ⟨_, -, h⟩ := bind_eq_ok_iff.1 h
        obtain ⟨_, -, h⟩ := bind_eq_ok_iff.1 h
        exact learns_mark h (by simp_all [isKnownPoint])
      · rename_i hready
        refine hidle ?_ h
        simp only [isKnownPoint, Bool.and_eq_true, Bool.not_eq_true'] at hready
        grind
  | formula m z b result =>
      rw [propagate] at h
      split at h
      · rename_i hready
        obtain ⟨_, -, h⟩ := bind_eq_ok_iff.1 h
        exact learns_mark h (by simp_all)
      · rename_i hready
        refine hidle ?_ h
        simp only [List.all_cons, List.all_nil, Bool.and_eq_true, Bool.not_eq_true'] at hready
        grind

end SketchSolver
