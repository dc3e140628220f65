import Mathlib
import SketchSolver.Failure

/-!
# Computations that may fail

Everything below a sketch runs in `Except SolverError`.  These are the few laws its proofs use:
what a sequence answers (`bind_eq_ok_iff`), and when a traversal of a list cannot fail.

* `foldlM_ok` — a fold whose every step succeeds and keeps an invariant succeeds and keeps it.
* `foldlM_keeps` — a fold that has succeeded has kept what every step keeps.
* `foldlM_builds` — the same as `foldlM_ok` for an invariant that tells what has been gone through.
* `foldlM_append_cons`, `foldlM_eq_error` — where a fold has been, and where it has failed.
* `mapM_ok`, `anyM_ok` — the same for mapping a list and for searching it.
* `mapM_eq_ok_iff`, `mapM_eq_error_iff` — when exactly mapping a list succeeds, and when it fails.
* `Accepts C P` — a computation that succeeds exactly if `C` holds, and then with an answer that
  satisfies `P`.  A fold asks of every element what its step asks for (`Accepts.foldlM`).
* `Both Q` — two computations side by side: both succeed, with answers related by `Q`.
* `Echoes Q` — whenever the first one succeeds then so does the second one, with a related answer.
-/

namespace SketchSolver

section

variable {ε α β γ : Type}

@[simp] lemma ok_bind (a : α) (f : α → Except ε β) : (Except.ok a >>= f) = f a := rfl

@[simp] lemma error_bind (e : ε) (f : α → Except ε β) :
    ((Except.error e : Except ε α) >>= f) = .error e := rfl

@[simp] lemma discard_ok (a : α) : (discard (Except.ok a) : Except ε PUnit) = .ok ⟨⟩ := rfl

@[simp] lemma pure_eq_ok (a : α) : (pure a : Except ε α) = .ok a := rfl

/-- A sequence succeeds exactly when both parts do. -/
lemma bind_eq_ok_iff {x : Except ε α} {f : α → Except ε β} {b : β} :
    (x >>= f) = .ok b ↔ ∃ a, x = .ok a ∧ f a = .ok b := by
  cases x with
  | error e => simp
  | ok a => simp

/-- A fold whose every step succeeds and keeps an invariant succeeds and keeps the invariant. -/
lemma foldlM_ok {f : β → α → Except ε β} {P : β → Prop} {xs : List α} {b : β}
    (hstep : ∀ b, ∀ x ∈ xs, P b → ∃ b', f b x = .ok b' ∧ P b') (hb : P b) :
    ∃ b', xs.foldlM f b = .ok b' ∧ P b' := by
  induction xs generalizing b with
  | nil => exact ⟨b, rfl, hb⟩
  | cons x xs ih =>
      obtain ⟨b₁, hf, hb₁⟩ := hstep b x (List.mem_cons_self) hb
      obtain ⟨b₂, hfold, hb₂⟩ := ih (fun b y hy => hstep b y (List.mem_cons_of_mem _ hy)) hb₁
      refine ⟨b₂, ?_, hb₂⟩
      rw [List.foldlM_cons, hf, ok_bind, hfold]

/-- A fold whose every step succeeds, wherever it stands, succeeds. -/
lemma foldlM_succeeds {f : β → α → Except ε β} {xs : List α} (b : β)
    (hstep : ∀ x ∈ xs, ∀ b, ∃ b', f b x = .ok b') : ∃ b', xs.foldlM f b = .ok b' := by
  obtain ⟨b', hfold, -⟩ := foldlM_ok (P := fun _ => True) (b := b)
    (fun b x hx _ => (hstep x hx b).imp fun _ h => ⟨h, trivial⟩) trivial
  exact ⟨b', hfold⟩

/-- A fold that has succeeded has kept what each of its steps keeps. -/
lemma foldlM_keeps {f : β → α → Except ε β} {P : β → Prop} {xs : List α} {b b' : β}
    (hstep : ∀ b, ∀ x ∈ xs, ∀ b', P b → f b x = .ok b' → P b') (hb : P b)
    (hfold : xs.foldlM f b = .ok b') : P b' := by
  induction xs generalizing b with
  | nil =>
      cases hfold
      exact hb
  | cons x xs ih =>
      rw [List.foldlM_cons] at hfold
      obtain ⟨b₁, hf, hrest⟩ := bind_eq_ok_iff.1 hfold
      exact ih (fun b y hy => hstep b y (List.mem_cons_of_mem _ hy))
        (hstep b x List.mem_cons_self b₁ hb hf) hrest

/-- A fold that has succeeded has come by each element of its list. -/
lemma foldlM_append_cons {f : β → α → Except ε β} {before after : List α} {x : α} {b c : β}
    (h : (before ++ x :: after).foldlM f b = .ok c) :
    ∃ b₁ b₂, before.foldlM f b = .ok b₁ ∧ f b₁ x = .ok b₂ ∧ after.foldlM f b₂ = .ok c := by
  rw [List.foldlM_append] at h
  obtain ⟨b₁, hbefore, h⟩ := bind_eq_ok_iff.1 h
  rw [List.foldlM_cons] at h
  obtain ⟨b₂, hx, hafter⟩ := bind_eq_ok_iff.1 h
  exact ⟨b₁, b₂, hbefore, hx, hafter⟩

/-- A fold that has failed has failed at one element, after it had come by what stands before. -/
lemma foldlM_eq_error {f : β → α → Except ε β} {xs : List α} {b : β} {e : ε}
    (h : xs.foldlM f b = .error e) :
    ∃ before x after b', xs = before ++ x :: after ∧ before.foldlM f b = .ok b' ∧
      f b' x = .error e := by
  induction xs generalizing b with
  | nil => cases h
  | cons x xs ih =>
      rw [List.foldlM_cons] at h
      cases hx : f b x with
      | error e' =>
          rw [hx] at h
          cases h
          exact ⟨[], x, xs, b, rfl, rfl, hx⟩
      | ok b₁ =>
          rw [hx, ok_bind] at h
          obtain ⟨before, y, after, b', rfl, hbefore, hy⟩ := ih h
          exact ⟨x :: before, y, after, b', rfl, by rw [List.foldlM_cons, hx, ok_bind, hbefore], hy⟩

/-- A fold succeeds and satisfies `P` of everything it has gone through, if every step does so after
what stands before it. -/
lemma foldlM_builds {f : β → α → Except ε β} {P : List α → β → Prop} {xs : List α}
    (hstep : ∀ before x after, xs = before ++ x :: after → ∀ b, P before b →
      ∃ b', f b x = .ok b' ∧ P (before ++ [x]) b') {b : β} (hb : P [] b) :
    ∃ b', xs.foldlM f b = .ok b' ∧ P xs b' := by
  induction xs using List.reverseRecOn with
  | nil => exact ⟨b, rfl, hb⟩
  | append_singleton xs x ih =>
      obtain ⟨b₁, hfold, hb₁⟩ := ih fun before y after hsplit b hb =>
        hstep before y (after ++ [x]) (by rw [hsplit, List.append_assoc, List.cons_append]) b hb
      obtain ⟨b₂, hf, hb₂⟩ := hstep xs x [] rfl b₁ hb₁
      refine ⟨b₂, ?_, hb₂⟩
      rw [List.foldlM_append, hfold, ok_bind, List.foldlM_cons, hf]
      rfl

/-- A map whose every step succeeds with a good answer succeeds with good answers. -/
lemma mapM_ok {f : α → Except ε β} {P : β → Prop} {xs : List α}
    (h : ∀ x ∈ xs, ∃ y, f x = .ok y ∧ P y) : ∃ ys, xs.mapM f = .ok ys ∧ ∀ y ∈ ys, P y := by
  induction xs with
  | nil => exact ⟨[], rfl, by simp⟩
  | cons x xs ih =>
      obtain ⟨y, hy, hPy⟩ := h x List.mem_cons_self
      obtain ⟨ys, hys, hPys⟩ := ih fun z hz => h z (List.mem_cons_of_mem _ hz)
      refine ⟨y :: ys, ?_, ?_⟩
      · rw [List.mapM_cons, hy, ok_bind, hys]
        rfl
      · intro z hz
        rcases List.mem_cons.1 hz with rfl | hz
        · exact hPy
        · exact hPys z hz

/-- A map whose every step succeeds succeeds. -/
lemma mapM_succeeds {f : α → Except ε β} {xs : List α} (h : ∀ x ∈ xs, ∃ y, f x = .ok y) :
    ∃ ys, xs.mapM f = .ok ys := by
  obtain ⟨ys, hys, -⟩ := mapM_ok (P := fun _ => True) fun x hx => by simpa using h x hx
  exact ⟨ys, hys⟩

lemma mapError_bind {ε' : Type} (x : Except ε α) (f : α → Except ε β) (g : ε → ε') :
    (x >>= f).mapError g = x.mapError g >>= fun a => (f a).mapError g := by
  cases x with
  | error e => rfl
  | ok a => rfl

/-- A map fails as its steps do. -/
lemma mapM_mapError {ε' : Type} (f : α → Except ε β) (g : ε → ε') (xs : List α) :
    xs.mapM (fun x => (f x).mapError g) = (xs.mapM f).mapError g := by
  induction xs with
  | nil => rfl
  | cons x xs ih =>
      rw [List.mapM_cons, List.mapM_cons, mapError_bind, ih]
      simp only [mapError_bind]
      rfl

/-- A map succeeds exactly if every step does, with the answers of the steps. -/
lemma mapM_eq_ok_iff {f : α → Except ε β} {xs : List α} {ys : List β} :
    xs.mapM f = .ok ys ↔ List.Forall₂ (fun x y => f x = .ok y) xs ys := by
  induction xs generalizing ys with
  | nil =>
      rw [List.forall₂_nil_left_iff, List.mapM_nil, pure_eq_ok, Except.ok.injEq]
      exact eq_comm
  | cons x xs ih =>
      rw [List.mapM_cons, bind_eq_ok_iff, List.forall₂_cons_left_iff]
      refine exists_congr fun y => ?_
      rw [bind_eq_ok_iff]
      simp only [ih, pure_eq_ok, Except.ok.injEq]
      constructor
      · rintro ⟨hy, ys', hys, rfl⟩
        exact ⟨ys', hy, hys, rfl⟩
      · rintro ⟨ys', hy, hys, rfl⟩
        exact ⟨hy, ys', hys, rfl⟩

/-- A map fails exactly if a step does and those before it succeed. -/
lemma mapM_eq_error_iff {f : α → Except ε β} {xs : List α} {e : ε} :
    xs.mapM f = .error e ↔ ∃ before x after, xs = before ++ x :: after ∧
      (∀ y ∈ before, ∃ z, f y = .ok z) ∧ f x = .error e := by
  induction xs with
  | nil => simp
  | cons x xs ih =>
      rw [List.mapM_cons]
      cases hx : f x with
      | error e' =>
          rw [error_bind, Except.error.injEq]
          constructor
          · rintro rfl
            exact ⟨[], x, xs, rfl, by simp, hx⟩
          · rintro ⟨before, y, after, hsplit, hbefore, hy⟩
            cases before with
            | nil =>
                cases hsplit
                rw [hx] at hy
                exact Except.error.inj hy
            | cons z before =>
                cases hsplit
                obtain ⟨a, ha⟩ := hbefore x List.mem_cons_self
                rw [hx] at ha
                cases ha
      | ok a =>
          have hrest : (xs.mapM f >>= fun b => pure (a :: b)) = .error e ↔
              xs.mapM f = .error e := by
            cases xs.mapM f with
            | error e' => exact Iff.rfl
            | ok ys => exact iff_of_false (by rintro ⟨⟩) (by rintro ⟨⟩)
          rw [ok_bind, hrest, ih]
          constructor
          · rintro ⟨before, y, after, rfl, hbefore, hy⟩
            refine ⟨x :: before, y, after, rfl, ?_, hy⟩
            exact List.forall_mem_cons.2 ⟨⟨a, hx⟩, hbefore⟩
          · rintro ⟨before, y, after, hsplit, hbefore, hy⟩
            cases before with
            | nil =>
                cases hsplit
                rw [hx] at hy
                cases hy
            | cons z before =>
                cases hsplit
                exact ⟨before, y, after, rfl, fun w hw => hbefore w (List.mem_cons_of_mem _ hw), hy⟩

lemma anyM_ok {p : α → Except ε Bool} (xs : List α) (h : ∀ x ∈ xs, ∃ b, p x = .ok b) :
    ∃ b, xs.anyM p = .ok b := by
  induction xs with
  | nil => exact ⟨false, rfl⟩
  | cons x xs ih =>
      obtain ⟨b, hb⟩ := h x List.mem_cons_self
      rw [List.anyM, hb, ok_bind]
      cases b with
      | true => exact ⟨true, rfl⟩
      | false => exact ih fun y hy => h y (List.mem_cons_of_mem _ hy)

/-! ## Splitting a list -/

/-- What stands somewhere in a list stands before its last element, or is that element. -/
lemma forall_split_append {xs : List α} {x : α} {A : List α → α → Prop} :
    (∀ before y after, xs ++ [x] = before ++ y :: after → A before y) ↔
      (∀ before y after, xs = before ++ y :: after → A before y) ∧ A xs x := by
  constructor
  · refine fun h => ⟨fun before y after hsplit => ?_, h xs x [] rfl⟩
    exact h before y (after ++ [x]) (by rw [hsplit, List.append_assoc, List.cons_append])
  · rintro ⟨hxs, hx⟩ before y after hsplit
    rcases List.eq_nil_or_concat' after with rfl | ⟨after, z, rfl⟩
    · obtain ⟨rfl, hy⟩ := List.append_inj' hsplit rfl
      cases hy
      exact hx
    · rw [← List.cons_append, ← List.append_assoc] at hsplit
      exact hxs before y after (List.append_inj' hsplit rfl).1

lemma exists_split_append {xs : List α} {x : α} {A : List α → α → Prop} :
    (∃ before y after, xs ++ [x] = before ++ y :: after ∧ A before y) ↔
      (∃ before y after, xs = before ++ y :: after ∧ A before y) ∨ A xs x := by
  have h : (∀ before y after, xs ++ [x] = before ++ y :: after → ¬ A before y) ↔ _ :=
    forall_split_append (A := fun before y => ¬ A before y)
  grind

/-- What each element asks for by itself, it asks for wherever it stands. -/
lemma forall_split_and_iff {xs : List α} {A : List α → α → Prop} {B : α → Prop} :
    (∀ before x after, xs = before ++ x :: after → A before x ∧ B x) ↔
      (∀ before x after, xs = before ++ x :: after → A before x) ∧ ∀ x ∈ xs, B x := by
  constructor
  · refine fun h => ⟨fun before x after hsplit => (h before x after hsplit).1, fun x hx => ?_⟩
    obtain ⟨before, after, hsplit⟩ := List.append_of_mem hx
    exact (h before x after hsplit).2
  · rintro ⟨hA, hB⟩ before x after hsplit
    exact ⟨hA before x after hsplit, hB x (by simp [hsplit])⟩

/-- No key stands twice if none stands earlier. -/
lemma nodup_iff_split {κ : Type} {f : α → κ} {xs : List α} :
    (∀ before x after, xs = before ++ x :: after → f x ∉ before.map f) ↔ (xs.map f).Nodup := by
  induction xs using List.reverseRecOn with
  | nil => simp
  | append_singleton xs x ih =>
      rw [forall_split_append, ih, List.map_append, List.map_singleton, List.nodup_append]
      simp

/-! ## When a computation succeeds -/

/-- The computation succeeds exactly if `C` holds, and then its answer satisfies `P`. -/
def Accepts (C : Prop) (P : α → Prop) : Except ε α → Prop
  | .ok a => C ∧ P a
  | .error _ => ¬ C

namespace Accepts

variable {C D : Prop} {P : α → Prop} {Q : β → Prop} {x : Except ε α} {a : α}

lemma of_ok (h : Accepts C P x) (hx : x = .ok a) : C ∧ P a := by
  subst hx
  exact h

lemma iff (h : Accepts C P x) : (∃ a, x = .ok a) ↔ C := by
  cases x with
  | ok a => exact iff_of_true ⟨a, rfl⟩ h.1
  | error e => exact iff_of_false (by rintro ⟨a, ⟨⟩⟩) h

lemma of_iff (h : Accepts C P x) (hCD : C ↔ D) : Accepts D P x := by
  cases x with
  | ok a => exact ⟨hCD.1 h.1, h.2⟩
  | error e => exact fun hD => h (hCD.2 hD)

lemma imp {P' : α → Prop} (h : Accepts C P x) (hP : ∀ a, P a → P' a) : Accepts C P' x := by
  cases x with
  | ok a => exact ⟨h.1, hP a h.2⟩
  | error e => exact h

lemma answer (h : P a) : Accepts True P (.ok a : Except ε α) := ⟨trivial, h⟩

/-- A sequence asks for what both of its parts ask for. -/
lemma bind {f : α → Except ε β} (h : Accepts C P x) (hf : ∀ a, C → P a → Accepts D Q (f a)) :
    Accepts (C ∧ D) Q (x >>= f) := by
  cases x with
  | ok a => exact (hf a h.1 h.2).of_iff ⟨fun hD => ⟨h.1, hD⟩, And.right⟩
  | error e => exact fun hCD => h hCD.1

/-- A test that stands before a computation. -/
lemma guard [Decidable D] {e : ε} (h : ¬ D → Accepts C P x) :
    Accepts (¬ D ∧ C) P (if D then .error e else x) := by
  by_cases hD : D
  · rw [if_pos hD]
    exact fun hC => hC.1 hD
  · rw [if_neg hD]
    exact (h hD).of_iff ⟨fun hC => ⟨hD, hC⟩, And.right⟩

/-- A fold asks of every element what the step asks for after what stands before it. -/
lemma foldlM (xs : List α) {f : β → α → Except ε β} {P : List α → β → Prop}
    {C : List α → α → Prop}
    (hstep : ∀ before, ∀ x ∈ xs, ∀ b, P before b →
      Accepts (C before x) (P (before ++ [x])) (f b x)) {b : β} (hb : P [] b) :
    Accepts (∀ before x after, xs = before ++ x :: after → C before x) (P xs)
      (xs.foldlM f b) := by
  induction xs using List.reverseRecOn with
  | nil => exact ⟨fun before x after h => by simp at h, hb⟩
  | append_singleton xs x ih =>
      have hlast : ∀ b, P xs b → Accepts (C xs x) (P (xs ++ [x])) ([x].foldlM f b) := by
        intro b hb
        show Accepts _ _ (f b x >>= pure)
        rw [bind_pure]
        exact hstep xs x (by simp) b hb
      have hbefore := ih fun before y hy => hstep before y (List.mem_append_left _ hy)
      rw [List.foldlM_append]
      exact (hbefore.bind fun b _ => hlast b).of_iff forall_split_append.symm

end Accepts

/-! ## Two computations side by side -/

/-- Both computations succeed, and their answers are related. -/
def Both (Q : α → α → Prop) (x y : Except ε α) : Prop :=
  ∃ a b, x = .ok a ∧ y = .ok b ∧ Q a b

variable {Q Q' : α → α → Prop} {x y : Except ε α}

@[simp] lemma both_ok {a b : α} : Both Q (Except.ok a : Except ε α) (.ok b) ↔ Q a b := by
  constructor
  · rintro ⟨a', b', ha, hb, h⟩
    cases ha
    cases hb
    exact h
  · intro h
    exact ⟨a, b, rfl, rfl, h⟩

lemma Both.imp (h : Both Q x y) (hQ : ∀ a b, Q a b → Q' a b) : Both Q' x y := by
  obtain ⟨a, b, hx, hy, hab⟩ := h
  exact ⟨a, b, hx, hy, hQ a b hab⟩

lemma Both.bind {R : β → β → Prop} {f g : α → Except ε β} (h : Both Q x y)
    (hfg : ∀ a b, Q a b → Both R (f a) (g b)) : Both R (x >>= f) (y >>= g) := by
  obtain ⟨a, b, rfl, rfl, hab⟩ := h
  rw [ok_bind, ok_bind]
  exact hfg a b hab

/-- If both answers are the same, one may go on with it. -/
lemma Both.bind_eq {R : β → β → Prop} {f g : α → Except ε β} (h : Both Eq x y)
    (hfg : ∀ a, Both R (f a) (g a)) : Both R (x >>= f) (y >>= g) :=
  h.bind fun a _ hab => hab ▸ hfg a

lemma both_foldlM {f g : β → α → Except ε β} {I : β → β → Prop} {xs : List α} {b c : β}
    (hstep : ∀ x ∈ xs, ∀ b c, I b c → Both I (f b x) (g c x)) (hbc : I b c) :
    Both I (xs.foldlM f b) (xs.foldlM g c) := by
  induction xs generalizing b c with
  | nil => exact both_ok.2 hbc
  | cons x xs ih =>
      rw [List.foldlM_cons, List.foldlM_cons]
      refine (hstep x List.mem_cons_self b c hbc).bind fun b' c' hbc' => ?_
      exact ih (fun y hy => hstep y (List.mem_cons_of_mem _ hy)) hbc'

lemma both_mapM {f g : α → Except ε β} (xs : List α) (h : ∀ x ∈ xs, Both Eq (f x) (g x)) :
    Both Eq (xs.mapM f) (xs.mapM g) := by
  induction xs with
  | nil => exact both_ok.2 rfl
  | cons x xs ih =>
      rw [List.mapM_cons, List.mapM_cons]
      refine (h x List.mem_cons_self).bind_eq fun y => ?_
      refine (ih fun z hz => h z (List.mem_cons_of_mem _ hz)).bind_eq fun ys => ?_
      exact both_ok.2 rfl

/-- If the first computation succeeds then so does the second one, and the answers are related. -/
def Echoes (Q : α → β → Prop) (x : Except ε α) (y : Except ε β) : Prop :=
  ∀ a, x = .ok a → ∃ b, y = .ok b ∧ Q a b

namespace Echoes

variable {P : α → β → Prop} {x : Except ε α} {y : Except ε β}

lemma ok {a : α} {b : β} (h : P a b) : Echoes P (.ok a : Except ε α) (.ok b) := by
  rintro _ ⟨⟩
  exact ⟨b, rfl, h⟩

/-- A computation echoes itself. -/
lemma self (x : Except ε α) : Echoes Eq x x :=
  fun a ha => ⟨a, ha, rfl⟩

lemma bind {δ : Type} {R : γ → δ → Prop} {f : α → Except ε γ} {g : β → Except ε δ}
    (h : Echoes P x y) (hfg : ∀ a b, P a b → Echoes R (f a) (g b)) :
    Echoes R (x >>= f) (y >>= g) := by
  intro c hc
  obtain ⟨a, ha, hfa⟩ := bind_eq_ok_iff.1 hc
  obtain ⟨b, rfl, hab⟩ := h a ha
  exact hfg a b hab c hfa

/-- Both may go on with the answer of one and the same computation. -/
lemma bind_self {δ : Type} {R : γ → δ → Prop} (x : Except ε α) {f : α → Except ε γ}
    {g : α → Except ε δ} (hfg : ∀ a, Echoes R (f a) (g a)) : Echoes R (x >>= f) (x >>= g) :=
  (self x).bind fun a _ hab => hab ▸ hfg a

lemma foldlM {α' β' : Type} {R : α' → β' → Prop} {f : α → α' → Except ε α}
    {g : β → β' → Except ε β} {xs : List α'} {ys : List β'} (hxs : List.Forall₂ R xs ys)
    (hstep : ∀ a b x y, P a b → R x y → Echoes P (f a x) (g b y)) {a : α} {b : β} (h : P a b) :
    Echoes P (xs.foldlM f a) (ys.foldlM g b) := by
  induction hxs generalizing a b with
  | nil => exact .ok h
  | cons hx _ ih =>
      rw [List.foldlM_cons, List.foldlM_cons]
      exact (hstep a b _ _ h hx).bind fun a' b' h' => ih h'

end Echoes

end

end SketchSolver
