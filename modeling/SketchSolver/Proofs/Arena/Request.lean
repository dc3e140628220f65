import Mathlib
import SketchSolver.Proofs.Arena.Alike

/-!
# Requests to unify

A `Tie` is what a unification is asked for, and a `Request` is a tie with the arena it was asked of.
`Arena.Requests a rs b` says that the requests `rs`, one after the other, lead from `a` to `b`.  A
request is *granted* unless it is refused because the map between the roots is degenerate.

* Two variables are unified in the end exactly when a chain of granted ties leads from one to the
  other (`canonical_eq_iff_chained`).
-/

namespace SketchSolver

/-- Two variables that are to be unified: `this` shall be `offset` of `that`. -/
structure Tie (α : Type) where
  this : VarId
  that : VarId
  offset : Affine α

/-- A tie that was asked for, in the arena that was found then. -/
structure Request (α : Type) extends Tie α where
  found : Arena α

variable {α : Type}

/-- A chain of such ties leads from one variable to the other. -/
def Chained (T : Tie α → Prop) : VarId → VarId → Prop :=
  Relation.EqvGen fun u v => ∃ e, T e ∧ e.this = u ∧ e.that = v

namespace Chained

variable {T U : Tie α → Prop} {u v w : VarId}

lemma refl (u : VarId) : Chained T u u := Relation.EqvGen.refl u

lemma symm (h : Chained T u v) : Chained T v u := Relation.EqvGen.symm _ _ h

lemma trans (h : Chained T u v) (h' : Chained T v w) : Chained T u w :=
  Relation.EqvGen.trans _ _ _ h h'

lemma of_tie {e : Tie α} (he : T e) : Chained T e.this e.that := .rel _ _ ⟨e, he, rfl, rfl⟩

/-- Where every tie is replaced by a chain, a chain stays one. -/
lemma bind (h : Chained T u v) (hTU : ∀ e, T e → Chained U e.this e.that) : Chained U u v := by
  induction h with
  | rel _ _ hstep =>
      obtain ⟨e, he, rfl, rfl⟩ := hstep
      exact hTU e he
  | refl _ => exact .refl _
  | symm _ _ _ ih => exact ih.symm
  | trans _ _ _ _ _ ih ih' => exact ih.trans ih'

lemma mono (h : Chained T u v) (hTU : ∀ e, T e → U e) : Chained U u v :=
  h.bind fun e he => .of_tie (hTU e he)

/-- What every tie keeps equal, a chain keeps equal. -/
lemma eq {β : Type} {f : VarId → β} (h : Chained T u v) (hf : ∀ e, T e → f e.this = f e.that) :
    f u = f v := by
  induction h with
  | rel _ _ hstep =>
      obtain ⟨e, he, rfl, rfl⟩ := hstep
      exact hf e he
  | refl _ => rfl
  | symm _ _ _ ih => exact ih.symm
  | trans _ _ _ _ _ ih ih' => exact ih.trans ih'

end Chained

/-- The ties are the edges of a forest: no tie joins what the others join already. -/
def Forest (ties : List (Tie α)) : Prop :=
  ∀ before e after, ties = before ++ e :: after →
    ¬ Chained (· ∈ before ++ after) e.this e.that

lemma forest_singleton {e : Tie α} (he : e.this ≠ e.that) : Forest [e] := by
  intro before d after hsplit hchained
  obtain ⟨rfl, rfl, rfl⟩ : before = [] ∧ e = d ∧ after = [] := by
    cases before <;> simp_all
  exact he (hchained.eq (f := id) (by simp))

variable [Scalar α]

/-- Nothing was left to unify, or the map between the roots was not degenerate. -/
def Request.Granted (r : Request α) : Prop :=
  r.found.canonical r.this = r.found.canonical r.that ∨
    (r.found.jointOffset r.this r.that r.offset).isDegenerate = false

/-- Two groups were merged. -/
def Request.Merges (r : Request α) : Prop :=
  r.found.canonical r.this ≠ r.found.canonical r.that ∧
    (r.found.jointOffset r.this r.that r.offset).isDegenerate = false

namespace Arena

variable {a b c : Arena α} {rs rs' : List (Request α)} {T : Tie α → Prop}

/-- The requests lead from one arena to another one, each in the arena that it finds. -/
inductive Requests : Arena α → List (Request α) → Arena α → Prop where
  | nil (a : Arena α) : Requests a [] a
  | cons {a b c : Arena α} {e : Tie α} {merged : Bool} {rs : List (Request α)} :
      a.unify e.this e.that e.offset = .ok (merged, b) → Requests b rs c →
      Requests a (⟨e, a⟩ :: rs) c

namespace Requests

lemma single {e : Tie α} {merged : Bool}
    (h : a.unify e.this e.that e.offset = .ok (merged, b)) : a.Requests [⟨e, a⟩] b :=
  .cons h (.nil b)

lemma append (h : a.Requests rs b) (h' : b.Requests rs' c) : a.Requests (rs ++ rs') c := by
  induction h with
  | nil => exact h'
  | cons hunify _ ih => exact .cons hunify (ih h')

lemma split (h : a.Requests (rs ++ rs') c) : ∃ b, a.Requests rs b ∧ b.Requests rs' c := by
  induction rs generalizing a with
  | nil => exact ⟨a, .nil a, h⟩
  | cons r rs ih =>
      cases h with
      | cons hunify hrest =>
          obtain ⟨b, hrs, hrs'⟩ := ih hrest
          exact ⟨b, .cons hunify hrs, hrs'⟩

/-- The ties that are asked for determine the run. -/
lemma unique (h : a.Requests rs b) (h' : a.Requests rs' c)
    (hties : rs.map Request.toTie = rs'.map Request.toTie) : rs = rs' ∧ b = c := by
  induction h generalizing rs' with
  | nil =>
      obtain rfl := List.map_eq_nil_iff.1 hties.symm
      cases h'
      exact ⟨rfl, rfl⟩
  | cons hunify _ ih =>
      cases h' with
      | nil => cases hties
      | cons hunify' hrest' =>
          obtain ⟨rfl, hrest⟩ := List.cons.inj hties
          rw [hunify] at hunify'
          cases hunify'
          obtain ⟨rfl, rfl⟩ := ih hrest' hrest
          exact ⟨rfl, rfl⟩

lemma unifies (h : a.Requests rs b) : a.Unifies b := by
  induction h with
  | nil => exact .refl
  | cons hunify _ ih => exact (unifies_of_unify hunify).trans ih

/-- What stands alone stays so while nobody asks to unify it. -/
lemma alone {v : VarId} (h : a.Requests rs b) (ha : a.WellFormed) (hv : a.link? v = some .alone)
    (hrs : ∀ r ∈ rs, r.this ≠ v ∧ r.that ≠ v) : b.link? v = some .alone := by
  induction h with
  | nil => exact hv
  | cons hunify _ ih =>
      obtain ⟨hthis, hthat⟩ := hrs _ List.mem_cons_self
      exact ih (ha.unifies (unifies_of_unify hunify)).1 (ha.alone_of_unify hunify hv hthis hthat)
        fun r hr => hrs r (List.mem_cons_of_mem _ hr)

end Requests

/-! ## What is unified -/

/-- One request unifies what it asks for, and nothing that no chain joins. -/
lemma WellFormed.chained_of_unify (ha : a.WellFormed) {e : Tie α} {merged : Bool}
    (h : a.unify e.this e.that e.offset = .ok (merged, b))
    (hsame : ∀ {u v}, a.canonical u = a.canonical v → Chained T u v)
    (htie : Request.Granted ⟨e, a⟩ → T e) {u v : VarId}
    (huv : b.canonical u = b.canonical v) : Chained T u v := by
  rcases ha.of_unify h with rfl | ⟨hregular, hm⟩
  · exact hsame huv
  · have hjoin := Chained.of_tie (htie (Or.inr hregular))
    rw [hm.canonical, hm.canonical] at huv
    split_ifs at huv with hu hv hv
    · exact hsame (hu.trans hv.symm)
    · exact (hsame hu).trans (hjoin.symm.trans (hsame huv))
    · exact (hsame huv).trans (hjoin.trans (hsame hv.symm))
    · exact hsame huv

/-- **Nothing is unified but what a chain joins**: of what was unified before, and of the ties that
were granted. -/
theorem WellFormed.chained_of_requests (ha : a.WellFormed) (h : a.Requests rs b)
    (hsame : ∀ {u v}, a.canonical u = a.canonical v → Chained T u v)
    (htie : ∀ r ∈ rs, r.Granted → T r.toTie) {u v : VarId}
    (huv : b.canonical u = b.canonical v) : Chained T u v := by
  induction h with
  | nil => exact hsame huv
  | cons hunify _ ih =>
      have hb := (ha.unifies (unifies_of_unify hunify)).1
      refine ih hb (ha.chained_of_unify hunify hsame (htie _ List.mem_cons_self))
        (fun r hr => htie r (List.mem_cons_of_mem _ hr)) huv

lemma WellFormed.unifies_coarsens (ha : a.WellFormed) (h : a.Unifies b) : a.Coarsens b := by
  induction h with
  | refl => exact .refl a
  | tail hbefore hstep ih =>
      obtain ⟨this, that, offset, merged, hunify⟩ := hstep
      obtain ⟨hthis, hthat⟩ := contains_of_unify hunify
      obtain ⟨_, _, hunify', -, hcoarse⟩ :=
        (ha.unifies hbefore).1.unify_coarsens hthis hthat offset
      rw [hunify] at hunify'
      cases hunify'
      exact ih.trans hcoarse

/-- What is granted is unified from then on. -/
theorem WellFormed.requests_granted (ha : a.WellFormed) (h : a.Requests rs b) :
    ∀ r ∈ rs, r.Granted → b.canonical r.this = b.canonical r.that := by
  induction h with
  | nil => simp
  | @cons a b c e merged rs hunify hrest ih =>
      have hb := (ha.unifies (unifies_of_unify hunify)).1
      intro r hr hgranted
      rcases List.mem_cons.1 hr with rfl | hr
      · refine (hb.unifies_coarsens hrest.unifies).canonical ?_
        obtain ⟨hthis, hthat⟩ := contains_of_unify hunify
        rcases ha.unify_cases hthis hthat e.offset with
          ⟨hsame | hdegenerate, hunify'⟩ | ⟨hdiff, b', hunify', hm⟩
        · rw [hunify] at hunify'
          cases hunify'
          exact hsame
        · rcases hgranted with hsame | hregular
          · exact (ha.unifies_coarsens (unifies_of_unify hunify)).canonical hsame
          · rw [hdegenerate] at hregular
            cases hregular
        · rw [hunify] at hunify'
          cases hunify'
          rw [hm.canonical, hm.canonical, if_neg hdiff.1, if_pos rfl]
      · exact ih hb r hr hgranted

/-- Without any unification every variable is alone. -/
lemma canonical_reset (a : Arena α) (v : VarId) : a.reset.canonical v = v := by
  cases hl : a.reset.link? v with
  | none => exact canonical_of_absent ((link?_eq_none_iff _ v).1 hl)
  | some l =>
      obtain rfl := link?_reset_eq_some hl
      exact canonical_of_root hl

/-- **What is unified from scratch** is what chains of granted ties join. -/
theorem canonical_eq_iff_chained (h : a.reset.Requests rs b) (u v : VarId) :
    b.canonical u = b.canonical v ↔
      Chained (fun e => ∃ r ∈ rs, r.Granted ∧ r.toTie = e) u v := by
  have ha := wellFormed_reset a
  constructor
  · refine ha.chained_of_requests h (fun {u v} huv => ?_) fun r hr hgranted =>
      ⟨r, hr, hgranted, rfl⟩
    rw [canonical_reset, canonical_reset] at huv
    exact huv ▸ .refl u
  · refine fun huv => huv.eq fun e ⟨r, hr, hgranted, he⟩ => ?_
    subst he
    exact ha.requests_granted h r hr hgranted

end Arena

end SketchSolver
