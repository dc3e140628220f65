/-!
# Identifiers

Variables, handles and constraints are named by numbers that come out of one counter, so no two
of them ever share a number, and a number is never given out twice.  The three kinds of
identifier are types of their own, so that one cannot be used for another.
-/

namespace SketchSolver

/-- Names a scalar variable. -/
structure VarId where
  /-- The number that was given out. -/
  index : Nat
deriving DecidableEq, Repr, Inhabited

/-- Names a handle. -/
structure HandleId where
  /-- The number that was given out. -/
  index : Nat
deriving DecidableEq, Repr, Inhabited

/-- Names a constraint. -/
structure ConstraintId where
  /-- The number that was given out. -/
  index : Nat
deriving DecidableEq, Repr, Inhabited

/-- The counter identifiers come from.  It is counted without a bound here; a machine keeps the low
32 bits (`IdSupply.word`), which are all of it unless it has overflowed (`IdSupply.Fits`). -/
structure IdSupply where
  /-- The next number to give out. -/
  next : Nat := 0
deriving DecidableEq, Repr, Inhabited

namespace IdSupply

/-- Gives out a number. -/
def fresh (ids : IdSupply) : Nat × IdSupply :=
  (ids.next, ⟨ids.next + 1⟩)

/-- Gives out several numbers, in order. -/
def take : Nat → IdSupply → List Nat × IdSupply
  | 0, ids => ([], ids)
  | n + 1, ids =>
    let (first, ids) := ids.fresh
    let (rest, ids) := ids.take n
    (first :: rest, ids)

/-- Makes sure that `seen` is never given out again. -/
def observe (ids : IdSupply) (seen : Nat) : IdSupply :=
  ⟨max ids.next (seen + 1)⟩

/-- The numbers given out are the next ones, in order. -/
theorem take_eq (n : Nat) (ids : IdSupply) :
    ids.take n = (List.range' ids.next n, ⟨ids.next + n⟩) := by
  induction n generalizing ids with
  | zero => rfl
  | succ n ih =>
    simp only [take, fresh, ih, List.range'_succ, Prod.mk.injEq, IdSupply.mk.injEq, true_and]
    omega

/-! ## 32 bits -/

/-- The counter has not overflowed. -/
def Fits (ids : IdSupply) : Prop :=
  ids.next < UInt32.size

instance (ids : IdSupply) : Decidable ids.Fits :=
  inferInstanceAs (Decidable (_ < _))

/-- The counter as a machine keeps it. -/
def word (ids : IdSupply) : UInt32 :=
  .ofNat ids.next

/-- Gives out a number on a machine, which stops if the counter overflows. -/
def nextWord (counter : UInt32) : Option (UInt32 × UInt32) :=
  if counter.toNat + 1 < UInt32.size then some (counter, counter + 1) else none

/-- Gives out several numbers on a machine. -/
def takeWords : Nat → UInt32 → Option (List UInt32 × UInt32)
  | 0, counter => some ([], counter)
  | n + 1, counter => do
    let (first, counter) ← nextWord counter
    let (rest, counter) ← takeWords n counter
    return (first :: rest, counter)

variable {ids : IdSupply}

theorem Fits.toNat_word (hfits : ids.Fits) : ids.word.toNat = ids.next :=
  Nat.mod_eq_of_lt hfits

theorem nextWord_word (hfits : ids.Fits) :
    nextWord ids.word =
      if ids.fresh.2.Fits then some (.ofNat ids.fresh.1, ids.fresh.2.word) else none := by
  have hnext : ids.word + 1 = ids.fresh.2.word := (UInt32.ofNat_add ids.next 1).symm
  rw [nextWord, hfits.toNat_word, hnext]
  rfl

/-- As long as the counter fits, a machine gives out the same numbers. -/
theorem takeWords_word (n : Nat) (hfits : ids.Fits) :
    takeWords n ids.word =
      if (ids.take n).2.Fits then some ((ids.take n).1.map .ofNat, (ids.take n).2.word)
      else none := by
  induction n generalizing ids with
  | zero => exact (if_pos hfits).symm
  | succ n ih =>
      rw [takeWords, nextWord_word hfits]
      by_cases hfresh : ids.fresh.2.Fits
      · rw [if_pos hfresh]
        simp only [Option.bind_eq_bind, Option.bind_some, ih hfresh]
        by_cases hlater : (ids.fresh.2.take n).2.Fits
        · rw [if_pos hlater]
          exact (if_pos hlater).symm
        · rw [if_neg hlater]
          exact (if_neg hlater).symm
      · -- what does not fit now does not fit later either
        have hlater : ¬(ids.take (n + 1)).2.Fits := by
          simp only [take_eq, Fits, fresh] at hfresh ⊢
          omega
        rw [if_neg hfresh, if_neg hlater]
        rfl

end IdSupply

end SketchSolver
