import SketchSolver.Failure

/-!
# Searching for a minimum

A search may look at an objective, and at nothing else.  `Search` writes it down as a tree: either
it is done and has an answer, or it probes a point and goes on depending on the value there.
Every search ends, because the tree is inductive, and it is independent of what evaluating the
objective does behind the scenes: `run` threads a state of any kind through the probes.

A `Minimizer` answers each call with a search and may remember earlier calls.
-/

namespace SketchSolver

/-- A search over points with components in `α` that ends in a `β`. -/
inductive Search (α β : Type) where
  /-- The search is over. -/
  | done (answer : β)
  /-- Looks at the objective at a point and goes on with its value. -/
  | probe (point : List α) (next : α → Search α β)

namespace Search

variable {α β γ σ : Type}

/-- One search after the other. -/
def bind : Search α β → (β → Search α γ) → Search α γ
  | .done answer, f => f answer
  | .probe point next, f => .probe point fun value => (next value).bind f

instance : Monad (Search α) where
  pure := .done
  bind := .bind

/-- The value of the objective at a point. -/
def eval (point : List α) : Search α α :=
  .probe point .done

/-- Runs a search on an objective that may change a state whenever it is looked at. -/
def run (objective : List α → σ → α × σ) : Search α β → σ → β × σ
  | .done answer, s => (answer, s)
  | .probe point next, s =>
    let (value, s) := objective point s
    (next value).run objective s

/-- Runs a search on an objective that is a function. -/
def runPure (objective : List α → α) (search : Search α β) : β :=
  (search.run (σ := Unit) (fun point s => (objective point, s)) ()).1

@[simp] theorem run_done (objective : List α → σ → α × σ) (answer : β) (s : σ) :
    (Search.done answer).run objective s = (answer, s) := rfl

@[simp] theorem bind_done (answer : β) (f : β → Search α γ) :
    (Search.done answer).bind f = f answer := rfl

/-- Running one search after another is running the first and then the second. -/
theorem run_bind (objective : List α → σ → α × σ) (search : Search α β) (f : β → Search α γ)
    (s : σ) :
    (search.bind f).run objective s =
      (f (search.run objective s).1).run objective (search.run objective s).2 := by
  induction search generalizing s with
  | done answer => rfl
  | probe point next ih => exact ih _ _

end Search

/-- Why a minimizer stopped. -/
inductive StopReason where
  /-- It found a local minimum, up to its tolerances. -/
  | converged
  /-- It ran out of iterations, so its answer is not to be trusted. -/
  | iterationLimit
deriving DecidableEq, Repr

/-- A number of iterations.  It has 64 bits, and sums that do not fit wrap around. -/
abbrev Count := Fin UInt64.size

instance Count.neZero : @NeZero Nat Zero.ofOfNat0 UInt64.size :=
  ⟨Nat.succ_ne_zero 18446744073709551615⟩

/-- What a minimizer answers. -/
structure Minimum (α : Type) where
  /-- The best point it found. -/
  solution : List α
  /-- Why it stopped. -/
  stop : StopReason
  /-- How many iterations it took. -/
  iterations : Count
deriving Repr

/-- Anything that can search for a minimum from a starting point.  It remembers earlier calls in a
state `σ`. -/
structure Minimizer (σ α : Type) where
  /-- The search from a starting point, and what is remembered afterwards. -/
  minimize : σ → List α → Search α (Except MinimizerError (Minimum α) × σ)

end SketchSolver
