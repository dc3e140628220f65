import SketchSolver.Scalar

/-!
# Affine maps

Unified variables differ by an affine map: the value of a canonical variable is `m · v + b`,
where `v` is the value of a variable absorbed into it.  `Affine` is such a map, `comp` composes
two of them and `inverse` turns one around.

A map whose scale is (nearly) zero forgets its argument.  It `isDegenerate`, has no inverse and
cannot unify anything.
-/

namespace SketchSolver

/-- The map `x ↦ scale · x + shift`. -/
@[ext]
structure Affine (α : Type) where
  /-- Factor. -/
  scale : α
  /-- Summand. -/
  shift : α
deriving Repr, Inhabited

namespace Affine

variable {α : Type} [Scalar α]

/-- The map that changes nothing. -/
def identity : Affine α := ⟨1, 0⟩

/-- The value of the map at a point. -/
def apply (f : Affine α) (x : α) : α :=
  f.scale * x + f.shift

/-- First `inner`, then `outer`: the map `x ↦ outer (inner x)`. -/
def comp (outer inner : Affine α) : Affine α :=
  ⟨outer.scale * inner.scale, outer.scale * inner.shift + outer.shift⟩

/-- The map that takes a value back to its argument, unless the scale is zero. -/
def inverse (f : Affine α) : Affine α :=
  ⟨1 / f.scale, -f.shift / f.scale⟩

/-- Do scale and shift agree up to the tolerance? -/
def nearlyEq (f g : Affine α) : Bool :=
  decide (Scalar.abs (f.scale - g.scale) < Scalar.tolerance) &&
    decide (Scalar.abs (f.shift - g.shift) < Scalar.tolerance)

/-- Is this the identity, up to the tolerance? -/
def isIdentity (f : Affine α) : Bool :=
  f.nearlyEq identity

/-- Does the map forget its argument?  Every scale that keeps full precision is fine, however
small. -/
def isDegenerate (f : Affine α) : Bool :=
  decide (Scalar.abs f.scale < Scalar.leastNormal)

end Affine

end SketchSolver
