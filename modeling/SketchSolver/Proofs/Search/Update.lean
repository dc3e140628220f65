import Mathlib
import SketchSolver.Proofs.Exact
import SketchSolver.Proofs.Search.Always

/-!
# The approximation of the inverse Hessian

`updateEntry` computes the improved approximation entry by entry.  With exact numbers these are the
entries of the update of Broyden, Fletcher, Goldfarb and Shanno, whatever the number of parameters:

* `improved_isSymm` — the improved matrix is symmetric.
* `improved_mulVec_change` — it satisfies the secant equation: what it makes of the change of the
  gradient is the step.
* `improved_pos` — it is positive definite, if the gradient has grown along the step.

A search keeps its matrix as a list of rows.  `update_rows` says that `update` replaces the rows of
a matrix by those of the improved one, or leaves them where the gradient has hardly changed; so the
matrix is symmetric in every state that a run goes through (`Passes.shaped`).
-/

namespace SketchSolver

namespace Bfgs

open scoped Matrix

variable {α : Type} [Exact α] {n : ℕ} {H : Matrix (Fin n) (Fin n) α} {s y v x : Fin n → α}

/-! ## Lists of rows -/

/-- A matrix, row by row. -/
def rows (H : Matrix (Fin n) (Fin n) α) : List (List α) :=
  List.ofFn fun i => List.ofFn (H i)

lemma dot_ofFn (v w : Fin n → α) : dot (List.ofFn v) (List.ofFn w) = v ⬝ᵥ w := by
  have hzip : List.zipWith (· * ·) (List.ofFn v) (List.ofFn w) = List.ofFn fun i => v i * w i :=
    List.ext_getElem (by simp) (by simp)
  rw [dot, hzip, ← List.sum_eq_foldl, List.sum_ofFn, dotProduct]

lemma mulVec_rows (H : Matrix (Fin n) (Fin n) α) (v : Fin n → α) :
    mulVec (rows H) (List.ofFn v) = List.ofFn (H *ᵥ v) := by
  rw [mulVec, rows, List.map_ofFn]
  exact congrArg List.ofFn (funext fun i => dot_ofFn (H i) v)

lemma unitMatrix_eq (n : ℕ) : unitMatrix n = rows (1 : Matrix (Fin n) (Fin n) α) := by
  refine List.ext_getElem (by simp [unitMatrix, rows]) fun i hi _ => ?_
  refine List.ext_getElem (by simp [unitMatrix, rows]) fun j hj _ => ?_
  simp [unitMatrix, rows, Matrix.one_apply]

/-! ## The improved matrix -/

/-- The improved approximation after a step `s` over which the gradient changed by `y`. -/
def improved (H : Matrix (Fin n) (Fin n) α) (s y : Fin n → α) : Matrix (Fin n) (Fin n) α :=
  Matrix.of fun i j =>
    updateEntry (y ⬝ᵥ s) (y ⬝ᵥ (H *ᵥ y)) (H i j) (s i) (s j) ((H *ᵥ y) i) ((H *ᵥ y) j)

lemma improved_apply (H : Matrix (Fin n) (Fin n) α) (s y : Fin n → α) (i j : Fin n) :
    improved H s y i j =
      H i j + (y ⬝ᵥ s + y ⬝ᵥ (H *ᵥ y)) / ((y ⬝ᵥ s) * (y ⬝ᵥ s)) * s i * s j -
        ((H *ᵥ y) i * s j + s i * (H *ᵥ y) j) / (y ⬝ᵥ s) :=
  rfl

/-- The improved matrix differs from the old one by matrices of rank one. -/
lemma improved_eq (H : Matrix (Fin n) (Fin n) α) (s y : Fin n → α) :
    improved H s y =
      H + ((y ⬝ᵥ s + y ⬝ᵥ (H *ᵥ y)) / ((y ⬝ᵥ s) * (y ⬝ᵥ s))) • Matrix.vecMulVec s s -
        (y ⬝ᵥ s)⁻¹ • (Matrix.vecMulVec (H *ᵥ y) s + Matrix.vecMulVec s (H *ᵥ y)) := by
  ext i j
  simp only [improved_apply, Matrix.sub_apply, Matrix.add_apply, Matrix.smul_apply,
    Matrix.vecMulVec_apply, smul_eq_mul]
  ring

lemma improved_isSymm (hH : H.IsSymm) (s y : Fin n → α) : (improved H s y).IsSymm := by
  refine Matrix.IsSymm.ext fun i j => ?_
  rw [improved_apply, improved_apply, hH.apply]
  ring

lemma improved_mulVec (H : Matrix (Fin n) (Fin n) α) (s y x : Fin n → α) :
    improved H s y *ᵥ x =
      H *ᵥ x + ((y ⬝ᵥ s + y ⬝ᵥ (H *ᵥ y)) / ((y ⬝ᵥ s) * (y ⬝ᵥ s)) * (s ⬝ᵥ x)) • s -
        ((y ⬝ᵥ s)⁻¹ * (s ⬝ᵥ x)) • (H *ᵥ y) - ((y ⬝ᵥ s)⁻¹ * ((H *ᵥ y) ⬝ᵥ x)) • s := by
  rw [improved_eq, Matrix.sub_mulVec, Matrix.add_mulVec, Matrix.smul_mulVec, Matrix.smul_mulVec,
    Matrix.add_mulVec, Matrix.vecMulVec_mulVec, Matrix.vecMulVec_mulVec, Matrix.vecMulVec_mulVec]
  ext i
  simp only [Pi.sub_apply, Pi.add_apply, Pi.smul_apply, MulOpposite.smul_eq_mul_unop,
    MulOpposite.unop_op, smul_eq_mul]
  ring

/-- **The secant equation.** -/
lemma improved_mulVec_change (H : Matrix (Fin n) (Fin n) α) (hys : y ⬝ᵥ s ≠ 0) :
    improved H s y *ᵥ y = s := by
  rw [improved_mulVec, dotProduct_comm s y, dotProduct_comm (H *ᵥ y) y]
  ext i
  simp only [Pi.sub_apply, Pi.add_apply, Pi.smul_apply, smul_eq_mul]
  field_simp
  ring

/-! ## Definiteness -/

lemma dotProduct_mulVec_comm (hH : H.IsSymm) (v x : Fin n → α) :
    v ⬝ᵥ (H *ᵥ x) = x ⬝ᵥ (H *ᵥ v) := by
  rw [Matrix.dotProduct_mulVec, ← Matrix.mulVec_transpose, hH.eq, dotProduct_comm]

/-- The quadratic form of the improved matrix: that of the old one, where the change of the gradient
has been taken out, and the square of the component along the step. -/
lemma dotProduct_improved (hH : H.IsSymm) (hys : y ⬝ᵥ s ≠ 0) (x : Fin n → α) :
    x ⬝ᵥ (improved H s y *ᵥ x) =
      (x - ((s ⬝ᵥ x) / (y ⬝ᵥ s)) • y) ⬝ᵥ (H *ᵥ (x - ((s ⬝ᵥ x) / (y ⬝ᵥ s)) • y)) +
        (s ⬝ᵥ x) * (s ⬝ᵥ x) / (y ⬝ᵥ s) := by
  rw [improved_mulVec]
  simp only [Matrix.mulVec_sub, Matrix.mulVec_smul, dotProduct_sub, dotProduct_add, sub_dotProduct,
    dotProduct_smul, smul_dotProduct, smul_eq_mul]
  rw [dotProduct_comm x s, dotProduct_comm (H *ᵥ y) x, dotProduct_mulVec_comm hH y x]
  field_simp
  ring

/-- **Definiteness is kept**, if the gradient has grown along the step. -/
lemma improved_pos (hH : H.IsSymm) (hpos : ∀ x ≠ 0, 0 < x ⬝ᵥ (H *ᵥ x)) (hys : 0 < y ⬝ᵥ s)
    (hx : x ≠ 0) : 0 < x ⬝ᵥ (improved H s y *ᵥ x) := by
  rw [dotProduct_improved hH hys.ne']
  by_cases hz : x - ((s ⬝ᵥ x) / (y ⬝ᵥ s)) • y = 0
  · -- all of `x` is along the change of the gradient, so it has a component along the step
    have hsx : s ⬝ᵥ x ≠ 0 := by
      intro hzero
      rw [hzero, zero_div, zero_smul, sub_zero] at hz
      exact hx hz
    rw [hz, Matrix.mulVec_zero, dotProduct_zero, zero_add]
    exact div_pos (mul_self_pos.2 hsx) hys
  · exact add_pos_of_pos_of_nonneg (hpos _ hz) (div_nonneg (mul_self_nonneg _) hys.le)

/-! ## Along a search -/

/-- `update` computes the rows of the improved matrix, or keeps those of the old one. -/
lemma update_rows (H : Matrix (Fin n) (Fin n) α) (s y : Fin n → α) :
    update (rows H) (List.ofFn s) (List.ofFn y) =
      if Scalar.unitGap < |y ⬝ᵥ s| then rows (improved H s y) else rows H := by
  rw [update, dot_ofFn]
  refine if_congr Iff.rfl ?_ rfl
  simp only [mulVec_rows, dot_ofFn]
  refine List.ext_getElem (by simp [rows]) fun i hi _ => ?_
  refine List.ext_getElem (by simp [rows]) fun j hj _ => ?_
  simp [rows, improved]

/-- The approximation of the inverse Hessian is a symmetric matrix. -/
def State.Symmetric (n : ℕ) (t : State α) : Prop :=
  ∃ H : Matrix (Fin n) (Fin n) α, H.IsSymm ∧ t.inverseHessian = rows H

variable {config : Config α} {t : State α} {trial : Trial α} {limit : ℕ}

omit [Exact α] in
lemma exists_ofFn {l : List α} (h : l.length = n) : ∃ v : Fin n → α, l = List.ofFn v := by
  subst h
  exact ⟨l.get, (List.ofFn_get l).symm⟩

/-- A state of a search in so many parameters. -/
structure State.Shaped (n : ℕ) (t : State α) : Prop where
  point : t.point.length = n
  gradient : t.gradient.length = n
  symmetric : t.Symmetric n

lemma State.Shaped.length_step (ht : t.Shaped n) : t.step.length = n := by
  obtain ⟨H, -, hrows⟩ := ht.symmetric
  rw [State.length_step, hrows, rows, List.length_ofFn]

lemma always_differences (h : α) (before after : List α) :
    (differences h before after).Always (·.length = after.length) := by
  induction after generalizing before with
  | nil => exact Search.always_pure rfl
  | cons x after ih =>
      refine Search.always_eval_bind fun forward => Search.always_eval_bind fun backward =>
        Search.always_bind (ih (before ++ [x])) fun rest hrest => Search.always_pure ?_
      rw [List.length_cons, List.length_cons, hrest]

/-- The trials of a line search stay in the space of the parameters. -/
lemma State.Shaped.always_lineSearch (ht : t.Shaped n) (hpoint : trial.point.length = n)
    (hstep : trial.step.length = n) : (t.lineSearch config limit trial).Always fun found =>
      ∀ r ∈ found, r.point.length = n ∧ r.step.length = n := by
  have hkeep : ∀ {trial : Trial α}, trial.point.length = n → trial.step.length = n →
      ∀ r ∈ some trial, r.point.length = n ∧ r.step.length = n := by
    rintro trial hpoint hstep r ⟨⟩
    exact ⟨hpoint, hstep⟩
  induction limit generalizing trial with
  | zero =>
      by_cases hlong : config.stepTolerance ≤ trial.factor * maxNorm t.step
      · rw [lineSearch_zero hlong]
        exact Search.always_pure (by simp)
      · rw [lineSearch_of_short hlong]
        exact Search.always_pure (hkeep hpoint hstep)
  | succ limit ih =>
      by_cases hlong : config.stepTolerance ≤ trial.factor * maxNorm t.step
      · rw [State.lineSearch, Bfgs.lineSearch, if_pos hlong]
        refine Search.always_eval_bind fun value => ?_
        have hshort : (t.step.map (· * trial.factor)).length = n := by
          rw [List.length_map, ht.length_step]
        have hreached :
            (List.zipWith (· + ·) t.point (t.step.map (· * trial.factor))).length = n := by
          rw [List.length_zipWith, ht.point, hshort, min_self]
        split_ifs
        · exact Search.always_pure (hkeep hreached hshort)
        · exact ih hreached hshort
      · rw [lineSearch_of_short hlong]
        exact Search.always_pure (hkeep hpoint hstep)

/-- **One iteration** keeps the approximation symmetric, whatever the objective answers. -/
lemma State.Shaped.always_iteration (ht : t.Shaped n) :
    (iteration config t).Always fun progress => ∀ u, progress = .moved u → u.Shaped n := by
  rw [iteration_eq]
  split_ifs
  iterate 4 exact Search.always_pure (by rintro u ⟨⟩)
  refine Search.always_bind (ht.always_lineSearch ht.point ht.length_step)
    fun found hfound => ?_
  cases found with
  | none => exact Search.always_pure (by rintro u ⟨⟩)
  | some trial =>
      obtain ⟨hpoint, hstep⟩ := hfound trial rfl
      rw [State.conclude]
      split_ifs
      · exact Search.always_pure (by rintro u ⟨⟩)
      · refine Search.always_bind (always_differences _ [] trial.point) fun gradient hgradient =>
          Search.always_pure ?_
        rintro _ ⟨⟩
        rw [hpoint] at hgradient
        have hchange : (List.zipWith (· - ·) gradient t.gradient).length = n := by
          rw [List.length_zipWith, hgradient, ht.gradient, min_self]
        obtain ⟨H, hH, hrows⟩ := ht.symmetric
        obtain ⟨s, hs⟩ := exists_ofFn hstep
        obtain ⟨y, hy⟩ := exists_ofFn hchange
        refine ⟨hpoint, hgradient, ?_⟩
        show ∃ K : Matrix (Fin n) (Fin n) α, K.IsSymm ∧ update _ _ _ = rows K
        rw [hrows, hs, hy, update_rows]
        split_ifs
        · exact ⟨_, improved_isSymm hH s y, rfl⟩
        · exact ⟨H, hH, rfl⟩

/-- **Along a run** the approximation stays symmetric. -/
lemma Passes.shaped {σ : Type} {objective : List α → σ → α × σ} {start : List α} {memory m : σ}
    {left : ℕ} (h : Passes config objective start memory left t m) : t.Shaped start.length := by
  induction h with
  | @first value gradient m m' _ _ hgradient =>
      refine ⟨rfl, ?_, 1, Matrix.isSymm_one, unitMatrix_eq _⟩
      have hlength := (always_differences config.finiteDifferenceStep [] start).run objective m
      rwa [show (differences config.finiteDifferenceStep [] start).run objective m = (gradient, m')
        from hgradient] at hlength
  | @move left s t m m' _ hmove ih =>
      have hkeeps : ∀ u, ((iteration config s).run objective m).1 = .moved u →
          u.Shaped start.length := ih.always_iteration.run objective m
      exact hkeeps t (congrArg Prod.fst hmove)

/-- **The update** of a symmetric matrix, after a step along which the gradient has changed, is
symmetric and satisfies the secant equation.  It is positive definite if the old matrix is and the
gradient has grown along the step.  The rows that `update` computes are those of this matrix, unless
the change was too small; and so the matrix is symmetric in every state that a run goes through,
whatever the objective answers and remembers. -/
theorem update_improves (hH : H.IsSymm) (hys : y ⬝ᵥ s ≠ 0) :
    (improved H s y).IsSymm ∧ improved H s y *ᵥ y = s ∧
    ((∀ x ≠ 0, 0 < x ⬝ᵥ (H *ᵥ x)) → 0 < y ⬝ᵥ s →
      ∀ x ≠ 0, 0 < x ⬝ᵥ (improved H s y *ᵥ x)) ∧
    update (rows H) (List.ofFn s) (List.ofFn y) =
      (if Scalar.unitGap < |y ⬝ᵥ s| then rows (improved H s y) else rows H) ∧
    ∀ {σ : Type} (config : Config α) (objective : List α → σ → α × σ) (start : List α)
      (memory : σ) (left : ℕ) (t : State α) (m : σ),
      Passes config objective start memory left t m → t.Symmetric start.length :=
  ⟨improved_isSymm hH s y, improved_mulVec_change H hys,
    fun hpos hgrown _ hx => improved_pos hH hpos hgrown hx, update_rows H s y,
    fun _ _ _ _ _ _ _ hpasses => hpasses.shaped.symmetric⟩

/-- From the unit matrix, after a step to the right and up over which the gradient has changed to
the right. -/
theorem update_unit :
    improved (1 : Matrix (Fin 2) (Fin 2) ℚ) ![1, 2] ![1, 0] *ᵥ ![1, 0] = ![1, 2] ∧
      ∀ x ≠ 0, 0 < x ⬝ᵥ (improved (1 : Matrix (Fin 2) (Fin 2) ℚ) ![1, 2] ![1, 0] *ᵥ x) := by
  have hys : (![1, 0] : Fin 2 → ℚ) ⬝ᵥ ![1, 2] = 1 := by decide +kernel
  have hpos : ∀ x ≠ 0, 0 < x ⬝ᵥ ((1 : Matrix (Fin 2) (Fin 2) ℚ) *ᵥ x) := by
    intro x hx
    rw [Matrix.one_mulVec]
    exact (Matrix.dotProduct_self_star_pos_iff ..).2 hx
  obtain ⟨-, hsecant, hdefinite, -, -⟩ :=
    update_improves (Matrix.isSymm_one (n := Fin 2) (α := ℚ)) (hys.trans_ne one_ne_zero)
  exact ⟨hsecant, hdefinite hpos (by rw [hys]; exact one_pos)⟩

end Bfgs

end SketchSolver
