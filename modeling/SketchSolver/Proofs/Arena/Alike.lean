import Mathlib
import SketchSolver.Proofs.Arena.Label
import SketchSolver.Proofs.Arena.Unify
import SketchSolver.Proofs.Tolerance

/-!
# Arenas that are unified alike

Two arenas with the same variables, and a relation `r` between numbers that the solver tolerates.
`Arena.Alike r` says that the same variables are unified in both, by maps whose shifts are related
by `r`.  Nothing is said about the values.

Looking up, comparing and unifying variables gives the same answers in both
(`Alike.canonical`, `Alike.equals`, `Alike.unify`): what is unified never depends on a value.  This
is all that clustering needs to know, so it has a name of its own (`Simulates`).

The maps of a request are `Near`, which is less than being `Alike`: their scales may be different
zeros.  Such a request is degenerate and unifies nothing, so the maps that are stored are alike, and
so are their inverses.
-/

namespace SketchSolver

variable {α : Type} [Scalar α] {r : α → α → Prop}

open Scalar (Tolerates)

namespace Affine

/-- Scales and shifts are related. -/
structure Near (r : α → α → Prop) (f g : Affine α) : Prop where
  scale : r f.scale g.scale
  shift : r f.shift g.shift

/-- The scales are equal, and the shifts are related. -/
structure Alike (r : α → α → Prop) (f g : Affine α) : Prop where
  scale : f.scale = g.scale
  shift : r f.shift g.shift

variable {f f' g g' : Affine α}

lemma Alike.near (hr : Tolerates r) (h : f.Alike r f') : f.Near r f' :=
  ⟨h.scale ▸ hr.refl _, h.shift⟩

lemma Alike.refl (hr : Tolerates r) (f : Affine α) : f.Alike r f :=
  ⟨rfl, hr.refl _⟩

omit [Scalar α] in
lemma Near.refl (hr : ∀ x, r x x) (f : Affine α) : f.Near r f :=
  ⟨hr _, hr _⟩

lemma Alike.comp (hr : Tolerates r) (hf : f.Alike r f') (hg : g.Alike r g') :
    (f.comp g).Alike r (f'.comp g') :=
  ⟨congrArg₂ (· * ·) hf.scale hg.scale, hr.add (hr.mul (hf.near hr).scale hg.shift) hf.shift⟩

lemma Alike.inverse (hr : Tolerates r) (h : f.Alike r f') : f.inverse.Alike r f'.inverse := by
  refine ⟨congrArg (1 / ·) h.scale, ?_⟩
  rw [Affine.inverse, Affine.inverse, h.scale]
  exact hr.div (hr.neg h.shift) _

lemma Near.comp (hr : Tolerates r) (hf : f.Near r f') (hg : g.Near r g') :
    (f.comp g).Near r (f'.comp g') :=
  ⟨hr.mul hf.scale hg.scale, hr.add (hr.mul hf.scale hg.shift) hf.shift⟩

lemma Near.apply (hr : Tolerates r) (h : f.Near r f') {x x' : α} (hx : r x x') :
    r (f.apply x) (f'.apply x') :=
  hr.add (hr.mul h.scale hx) h.shift

lemma Near.isDegenerate (hr : Tolerates r) (h : f.Near r f') :
    f.isDegenerate = f'.isDegenerate := by
  rw [Affine.isDegenerate, Affine.isDegenerate, decide_eq_decide]
  exact hr.abs_lt h.scale _

lemma Near.nearlyEq (hr : Tolerates r) (hf : f.Near r f') (hg : g.Near r g') :
    f.nearlyEq g = f'.nearlyEq g' := by
  rw [Affine.nearlyEq, Affine.nearlyEq]
  congr 1
  · rw [decide_eq_decide]
    exact hr.abs_lt (hr.sub hf.scale hg.scale) _
  · rw [decide_eq_decide]
    exact hr.abs_lt (hr.sub hf.shift hg.shift) _

/-- Maps that are near and not degenerate are alike. -/
lemma Near.alike (hr : Tolerates r) (h : f.Near r f') (hf : f.isDegenerate = false) :
    f.Alike r f' :=
  ⟨hr.eq_of_large h.scale (by simpa [Affine.isDegenerate] using hf), h.shift⟩

end Affine

/-- The links unify the same variables, by maps that are alike. -/
inductive Link.Alike (r : α → α → Prop) : Link α → Link α → Prop where
  | canonical (members : OrderedSet VarId) : Alike r (.canonical members) (.canonical members)
  | absorbed (into : VarId) {f g : Affine α} :
      f.Alike r g → Alike r (.absorbed into f) (.absorbed into g)

namespace Arena

variable {a b : Arena α}

lemma contains_of_unify {this that : VarId} {offset : Affine α} {p : Bool × Arena α}
    (h : a.unify this that offset = .ok p) :
    a.contains this = true ∧ a.contains that = true := by
  have hfound : ∀ {v : VarId} {u : PUnit}, discard (a.find v) = Except.ok u →
      a.contains v = true := by
    intro v u hv
    cases hfind : a.find v with
    | error e =>
        rw [hfind] at hv
        cases hv
    | ok w => exact contains_of_find hfind
  obtain ⟨_, hthis, h⟩ := bind_eq_ok_iff.1 h
  obtain ⟨_, hthat, -⟩ := bind_eq_ok_iff.1 h
  exact ⟨hfound hthis, hfound hthat⟩

/-! ## Simulation -/

/-- Answers that are related by `Q`, each with an arena, where the arenas are related by `A`. -/
def Answered {β γ : Type} (Q : β → γ → Prop) (A : Arena α → Arena α → Prop) (p : β × Arena α)
    (q : γ × Arena α) : Prop :=
  Q p.1 q.1 ∧ A p.2 q.2

/-- In arenas that are related by `A`, looking up, comparing and unifying variables gives the same
answers, and unifying keeps them related.  The second arena has to be able to do what the first one
does, so it may have more variables. -/
structure Simulates (r : α → α → Prop) (A : Arena α → Arena α → Prop) : Prop where
  refl : ∀ x, r x x
  canonical : ∀ {a b : Arena α}, A a b → b.canonical = a.canonical
  equals : ∀ {a b : Arena α}, A a b → ∀ this that, a.equals this that = b.equals this that
  unify : ∀ {a b : Arena α} {f g : Affine α}, A a b → f.Near r g → ∀ this that,
    Echoes (Answered Eq A) (a.unify this that f) (b.unify this that g)

/-- A unification goes the same way in two arenas if the roots are the same and the maps between
them are both degenerate or both not.  Then the arenas stay related if merging the two groups keeps
them so. -/
lemma WellFormed.echoes_unify (ha : a.WellFormed) (hb : b.WellFormed)
    (hcontains : ∀ k, a.contains k = true → b.contains k = true)
    (hcanonical : b.canonical = a.canonical) {A : Arena α → Arena α → Prop} {this that : VarId}
    {f g : Affine α}
    (hagree :
      (a.jointOffset this that f).isDegenerate = (b.jointOffset this that g).isDegenerate)
    (hab : A a b)
    (hmerged : ∀ {a' b'}, (a.jointOffset this that f).isDegenerate = false →
      a.Merged a' (a.canonical this) (a.canonical that) (a.jointOffset this that f) →
      b.Merged b' (a.canonical this) (a.canonical that) (b.jointOffset this that g) → A a' b') :
    Echoes (Answered Eq A) (a.unify this that f) (b.unify this that g) := by
  rintro ⟨answer, a'⟩ hunify
  obtain ⟨hthis, hthat⟩ := contains_of_unify hunify
  have hleft := ha.unify_cases hthis hthat f
  have hright := hb.unify_cases (hcontains _ hthis) (hcontains _ hthat) g
  rw [hunify] at hleft
  rw [hcanonical, ← hagree] at hright
  rcases hleft with ⟨hnothing, hleft⟩ | ⟨⟨hdistinct, hregular⟩, a'', hleft, hm⟩
  · cases hleft
    rcases hright with ⟨-, hright⟩ | ⟨⟨hne, hregular⟩, -⟩
    · exact ⟨_, hright, rfl, hab⟩
    · rcases hnothing with hsame | hdegenerate
      · exact absurd hsame hne
      · rw [hregular] at hdegenerate
        cases hdegenerate
  · cases hleft
    rcases hright with ⟨hsame | hdegenerate, -⟩ | ⟨-, b', hright, hm'⟩
    · exact absurd hsame hdistinct
    · rw [hregular] at hdegenerate
      cases hdegenerate
    · exact ⟨_, hright, rfl, hmerged hregular hm hm'⟩

/-! ## Arenas that are alike -/

/-- The same variables are unified in both arenas, by maps that are alike. -/
structure Alike (r : α → α → Prop) (a b : Arena α) : Prop where
  left : a.WellFormed
  right : b.WellFormed
  ids : b.ids = a.ids
  link : ∀ k, Option.Rel (Link.Alike r) (a.link? k) (b.link? k)

namespace Alike

/-- Without unifications, arenas with the same variables are alike. -/
lemma reset (hids : b.ids = a.ids) : a.reset.Alike r b.reset := by
  refine ⟨wellFormed_reset a, wellFormed_reset b, by simp [hids], fun k => ?_⟩
  rw [link?_reset, link?_reset]
  cases ha : a.link? k with
  | none =>
      rw [link?_eq_none_iff, ← contains_of_ids hids, ← link?_eq_none_iff] at ha
      rw [ha]
      exact .none
  | some l =>
      have hlive := contains_of_link? ha
      rw [← contains_of_ids hids, contains_iff_link?] at hlive
      obtain ⟨l', hl'⟩ := hlive
      rw [hl']
      exact .some (.canonical _)

lemma canonical_link (h : a.Alike r b) {k : VarId} {members : OrderedSet VarId}
    (hk : a.link? k = some (.canonical members)) : b.link? k = some (.canonical members) := by
  have hlink := h.link k
  rw [hk] at hlink
  cases hb : b.link? k with
  | none => rw [hb] at hlink; cases hlink
  | some l =>
      rw [hb] at hlink
      cases hlink with
      | some halike => cases halike; rfl

lemma contains (h : a.Alike r b) (k : VarId) : b.contains k = a.contains k :=
  contains_of_ids h.ids k

/-- Looking up a variable gives the same canonical variable, and maps that are alike. -/
lemma resolve (hr : Tolerates r) (h : a.Alike r b) (k : VarId) :
    b.canonical k = a.canonical k ∧ (a.offset k).Alike r (b.offset k) := by
  have hlink := h.link k
  cases ha : a.link? k with
  | none =>
      rw [link?_eq_none_iff] at ha
      rw [Arena.canonical, Arena.canonical, Arena.offset, Arena.offset, resolve_of_absent ha,
        resolve_of_absent ((h.contains k).trans ha)]
      exact ⟨rfl, .refl hr _⟩
  | some l =>
      cases hb : b.link? k with
      | none => rw [ha, hb] at hlink; cases hlink
      | some l' =>
          rw [ha, hb] at hlink
          cases hlink with
          | some halike =>
              cases halike with
              | canonical members =>
                  rw [Arena.canonical, Arena.canonical, Arena.offset, Arena.offset,
                    resolve_of_root ha, resolve_of_root hb]
                  exact ⟨rfl, .refl hr _⟩
              | absorbed into hmaps =>
                  rw [h.left.canonical_absorbed ha, h.right.canonical_absorbed hb,
                    h.left.offset_absorbed ha, h.right.offset_absorbed hb]
                  exact ⟨rfl, hmaps⟩

lemma canonical (hr : Tolerates r) (h : a.Alike r b) : b.canonical = a.canonical :=
  funext fun k => (h.resolve hr k).1

lemma offset (hr : Tolerates r) (h : a.Alike r b) (k : VarId) :
    (a.offset k).Alike r (b.offset k) :=
  (h.resolve hr k).2

lemma equals (hr : Tolerates r) (h : a.Alike r b) (this that : VarId) :
    a.equals this that = b.equals this that := by
  have hcanonical := congrFun (h.canonical hr)
  have hnear := fun k => (h.offset hr k).near hr
  show (decide (a.canonical this = a.canonical that) && (a.offset this).nearlyEq (a.offset that)) =
    (decide (b.canonical this = b.canonical that) && (b.offset this).nearlyEq (b.offset that))
  rw [hcanonical, hcanonical, (hnear this).nearlyEq hr (hnear that)]

/-! ## Unifying -/

lemma jointOffset (hr : Tolerates r) (h : a.Alike r b) {f g : Affine α} (hfg : f.Near r g)
    (this that : VarId) : (a.jointOffset this that f).Near r (b.jointOffset this that g) := by
  have hcanonical := congrFun (h.canonical hr)
  rw [Arena.jointOffset, Arena.jointOffset, hcanonical, hcanonical]
  have hthis := (h.offset hr this).near hr
  have hthat := ((h.offset hr that).inverse hr).near hr
  split_ifs
  · exact hfg
  · exact hthis.comp hr hfg
  · exact hfg.comp hr hthat
  · exact (hthis.comp hr hfg).comp hr hthat

lemma merged {a' b' : Arena α} {winner loser : VarId} {f g : Affine α} (hr : Tolerates r)
    (h : a.Alike r b) (hfg : f.Alike r g) (ha : a.Merged a' winner loser f)
    (hb : b.Merged b' winner loser g) : a'.Alike r b' := by
  obtain ⟨mine, hmine⟩ := ha.winnerRoot
  obtain ⟨theirs, htheirs⟩ := ha.loserRoot
  refine ⟨ha.wellFormed, hb.wellFormed, by rw [hb.ids, ha.ids, h.ids], fun k => ?_⟩
  rw [ha.link, hb.link, h.left.link?_joined hmine htheirs ha.distinct,
    h.right.link?_joined (h.canonical_link hmine) (h.canonical_link htheirs) ha.distinct]
  split_ifs
  · exact .some (.absorbed _ hfg)
  · exact .some (.canonical _)
  · exact .some (.absorbed _ (hfg.comp hr (h.offset hr k)))
  · exact h.link k

/-- **Unifying** by maps that are near keeps arenas alike, and answers the same. -/
theorem unify (hr : Tolerates r) (h : a.Alike r b) {f g : Affine α} (hfg : f.Near r g)
    (this that : VarId) :
    Echoes (Answered Eq (Alike r)) (a.unify this that f) (b.unify this that g) := by
  have hjoint := h.jointOffset hr hfg this that
  refine h.left.echoes_unify h.right (fun k hk => (h.contains k).trans hk) (h.canonical hr)
    (hjoint.isDegenerate hr) h fun hregular ha hb => ?_
  exact h.merged hr (hjoint.alike hr hregular) ha hb

lemma simulates (hr : Tolerates r) : Simulates r (Alike r) where
  refl := hr.refl
  canonical h := canonical hr h
  equals h := equals hr h
  unify h hfg := unify hr h hfg

/-! ## Links and values -/

/-- If numbers are related only when they are equal, links that are alike are equal. -/
lemma link?_eq (h : a.Alike Eq b) : b.link? = a.link? := by
  funext k
  have hlink := h.link k
  generalize a.link? k = l at hlink
  generalize b.link? k = l' at hlink
  cases hlink with
  | none => rfl
  | some halike =>
      cases halike with
      | canonical members => rfl
      | absorbed into hmaps => rw [Affine.ext hmaps.scale hmaps.shift]

/-- Arenas that are alike have related values, if their roots have the same values. -/
lemma value (hr : Tolerates r) (h : a.Alike r b)
    (hroots : ∀ k, a.canonical k = k → b.value? k = a.value? k) (k : VarId) :
    Option.Rel r (a.value? k) (b.value? k) := by
  have hcanonical := congrFun (h.canonical hr) k
  rw [h.left.value?_eq_lower k, h.right.value?_eq_lower k, hcanonical,
    hroots _ (h.left.canonical_canonical k)]
  cases a.value? (a.canonical k) with
  | none => exact .none
  | some x =>
      refine .some ?_
      rw [lower, lower, hcanonical]
      split_ifs
      · exact hr.refl x
      · exact (((h.offset hr k).inverse hr).near hr).apply hr (hr.refl x)

end Alike

/-- What a unification has done, once it has succeeded. -/
lemma WellFormed.of_unify (h : a.WellFormed) {this that : VarId} {offset : Affine α} {merged : Bool}
    (hunify : a.unify this that offset = .ok (merged, b)) :
    b = a ∨ (a.jointOffset this that offset).isDegenerate = false ∧
      a.Merged b (a.canonical this) (a.canonical that) (a.jointOffset this that offset) := by
  obtain ⟨hthis, hthat⟩ := contains_of_unify hunify
  rcases h.unify_cases hthis hthat offset with ⟨-, hsame⟩ | ⟨⟨-, hregular⟩, c, hc, hm⟩
  · rw [hunify] at hsame
    cases hsame
    exact Or.inl rfl
  · rw [hunify] at hc
    cases hc
    exact Or.inr ⟨hregular, hm⟩

/-- What stands alone stays so when others are unified. -/
lemma WellFormed.alone_of_unify (ha : a.WellFormed) {this that v : VarId} {offset : Affine α}
    {merged : Bool} (h : a.unify this that offset = .ok (merged, b))
    (hv : a.link? v = some .alone) (hthis : this ≠ v) (hthat : that ≠ v) :
    b.link? v = some .alone := by
  have hroot : ∀ {u}, u ≠ v → a.canonical u ≠ v := by
    intro u hu hc
    have hmem := ha.mem_membersOf.2 ⟨hc, hu⟩
    rw [membersOf_root hv] at hmem
    exact OrderedSet.not_mem_empty u hmem
  rcases ha.of_unify h with rfl | ⟨-, hm⟩
  · exact hv
  · obtain ⟨mine, hmine⟩ := hm.winnerRoot
    obtain ⟨theirs, htheirs⟩ := hm.loserRoot
    rw [hm.link, ha.link?_joined hmine htheirs hm.distinct, if_neg (hroot hthat).symm,
      if_neg (hroot hthis).symm, if_neg, hv]
    intro hmem
    obtain ⟨o, ho⟩ := ha.absorbed htheirs hmem
    rw [hv] at ho
    cases ho

/-- What stands for its group after some unifications has done so before, and has kept its
value. -/
lemma WellFormed.unifies (ha : a.WellFormed) (h : a.Unifies b) :
    b.WellFormed ∧ ∀ k, b.canonical k = k → a.canonical k = k ∧ b.value? k = a.value? k := by
  induction h with
  | refl => exact ⟨ha, fun _ hk => ⟨hk, rfl⟩⟩
  | tail _ hstep ih =>
      obtain ⟨hwf, hroots⟩ := ih
      obtain ⟨this, that, offset, merged, hunify⟩ := hstep
      rcases hwf.of_unify hunify with rfl | ⟨-, hm⟩
      · exact ⟨hwf, hroots⟩
      · refine ⟨hm.wellFormed, fun k hk => ?_⟩
        have hroot := hm.canonical k
        rw [hk] at hroot
        split_ifs at hroot with hloser
        · -- the winner is not in the group of the loser
          rw [hroot, hwf.canonical_canonical] at hloser
          exact absurd hloser hm.distinct
        · obtain ⟨hroot', hvalue⟩ := hroots k hroot.symm
          exact ⟨hroot', (hm.value k hk).trans hvalue⟩

end Arena

end SketchSolver
