import Mathlib
import SketchSolver.Proofs.Script.Label
import SketchSolver.Proofs.Handle

/-!
# What the instructions of a sketch file declare

Six instructions declare a label, and all labels share one namespace.  A label stands for a handle,
or it is the first part of the names of one or two variables.

* `Instruction.declared` — the label an instruction declares; `declaredHandle` and `names` say what
  can be referred to from then on, `handleRefs` and `varRefs` what an instruction refers to itself.
* `Instruction.Labelled before i`, `Script.Labelled` — a label is declared at most once, and before
  it is referred to.  Both are decidable.
* `Instruction.Denotes s t i r v` — in the sketch `s` with the labels `t`, the variable `v` is what
  the instruction `i` has declared as `r`.
-/

namespace SketchSolver

namespace Instruction

variable {α : Type} {i : Instruction α} {before : List (Instruction α)} {l : Label} {r : VarRef}

/-- The labels an instruction mentions. -/
def labels : Instruction α → List Label
  | .handle l _ | .var l _ | .pin l _ | .finger l _ => [l]
  | .absorb parent child => [parent, child]
  | .polar l start finish | .distance l start finish | .angle l start finish => [l, start, finish]
  | .linear y _ x _ => [y.label, x.label]
  | .formula l m x b => [l, m.label, x.label, b.label]
  | .lock target _ => [target.label]

/-- All labels that the instruction mentions are plain. -/
def Plain (i : Instruction α) : Prop :=
  ∀ l ∈ i.labels, l.Plain

/-- All labels that the instruction mentions are proper. -/
def Proper (i : Instruction α) : Prop :=
  ∀ l ∈ i.labels, l.Proper

/-- The label that an instruction declares. -/
def declared : Instruction α → Option Label
  | .handle l _ | .var l _ | .polar l _ _ | .distance l _ _ | .angle l _ _ | .formula l _ _ _ =>
    some l
  | _ => none

/-- The label that an instruction declares for a handle. -/
def declaredHandle : Instruction α → Option Label
  | .handle l _ => some l
  | _ => none

/-- The references to the variables that an instruction declares. -/
def names : Instruction α → List VarRef
  | .handle l _ => [⟨l, some .x⟩, ⟨l, some .y⟩]
  | .polar l _ _ => [⟨l, some .distance⟩, ⟨l, some .angle⟩]
  | .var l _ | .distance l _ _ | .angle l _ _ | .formula l _ _ _ => [⟨l, none⟩]
  | _ => []

/-- The handles that an instruction refers to. -/
def handleRefs : Instruction α → List Label
  | .pin h _ | .finger h _ => [h]
  | .absorb parent child => [parent, child]
  | .polar _ start finish | .distance _ start finish | .angle _ start finish => [start, finish]
  | _ => []

/-- The variables that an instruction refers to. -/
def varRefs : Instruction α → List VarRef
  | .linear y _ x _ => [y, x]
  | .formula _ m x b => [m, x, b]
  | .lock target _ => [target]
  | _ => []

/-- A label is declared exactly if it is part of the name of a variable. -/
lemma declared_eq_some_iff : i.declared = some l ↔ ∃ r ∈ i.names, r.label = l := by
  cases i <;> simp [declared, names]

lemma nodup_names (i : Instruction α) : i.names.Nodup := by
  cases i <;> simp [names]

lemma declared_of_declaredHandle (h : i.declaredHandle = some l) : i.declared = some l := by
  cases i <;> simp_all [declaredHandle, declared]

/-- An instruction mentions the label that it declares. -/
lemma mem_labels_of_declared (hl : i.declared = some l) : l ∈ i.labels := by
  cases i <;> simp_all [declared, labels]

namespace Plain

lemma declared (h : i.Plain) (hl : i.declared = some l) : l.Plain :=
  h l (mem_labels_of_declared hl)

lemma names (h : i.Plain) (hr : r ∈ i.names) : r.label.Plain :=
  h.declared (declared_eq_some_iff.2 ⟨r, hr, rfl⟩)

lemma varRefs (h : i.Plain) (hr : r ∈ i.varRefs) : r.label.Plain := by
  cases i <;> simp_all [Plain, labels, Instruction.varRefs]
  all_goals rcases hr with rfl | rfl | rfl <;> simp_all

end Plain

/-- What the instruction declares is not declared before it, and what it refers to is. -/
structure Labelled (before : List (Instruction α)) (i : Instruction α) : Prop where
  fresh : ∀ l ∈ i.declared, ∀ j ∈ before, j.declared ≠ some l
  handles : ∀ l ∈ i.handleRefs, ∃ j ∈ before, j.declaredHandle = some l
  vars : ∀ r ∈ i.varRefs, ∃ j ∈ before, r ∈ j.names

lemma labelled_iff : i.Labelled before ↔ (∀ l ∈ i.declared, ∀ j ∈ before, j.declared ≠ some l) ∧
    (∀ l ∈ i.handleRefs, ∃ j ∈ before, j.declaredHandle = some l) ∧
      ∀ r ∈ i.varRefs, ∃ j ∈ before, r ∈ j.names :=
  ⟨fun h => ⟨h.fresh, h.handles, h.vars⟩, fun h => ⟨h.1, h.2.1, h.2.2⟩⟩

instance : Decidable (i.Labelled before) :=
  decidable_of_iff _ labelled_iff.symm

/-- In the sketch `s` with the labels `t`, the variable is what the instruction has declared under a
reference. -/
inductive Denotes (s : Sketch α) (t : Labels) : Instruction α → VarRef → VarId → Prop
  | x {l position h c} : t.handle? l = some h → s.handles.coords? h = some c →
      Denotes s t (.handle l position) ⟨l, some .x⟩ c.x
  | y {l position h c} : t.handle? l = some h → s.handles.coords? h = some c →
      Denotes s t (.handle l position) ⟨l, some .y⟩ c.y
  | var {l value v} : s.arena.contains v = true → Denotes s t (.var l value) ⟨l, none⟩ v
  | length {l start finish h k id length bearing} :
      t.handle? start = some h → t.handle? finish = some k →
      s.constraints.get? id = some (.polar h k length bearing) →
      Denotes s t (.polar l start finish) ⟨l, some .distance⟩ length
  | bearing {l start finish h k id length bearing} :
      t.handle? start = some h → t.handle? finish = some k →
      s.constraints.get? id = some (.polar h k length bearing) →
      Denotes s t (.polar l start finish) ⟨l, some .angle⟩ bearing
  | distance {l start finish h k id v} :
      t.handle? start = some h → t.handle? finish = some k →
      s.constraints.get? id = some (.distance h k v) →
      Denotes s t (.distance l start finish) ⟨l, none⟩ v
  | angle {l start finish h k id v} :
      t.handle? start = some h → t.handle? finish = some k →
      s.constraints.get? id = some (.angle h k v) →
      Denotes s t (.angle l start finish) ⟨l, none⟩ v
  | formula {l m x b u v w id result} :
      t.var? m.name = some u → t.var? x.name = some v → t.var? b.name = some w →
      s.constraints.get? id = some (.formula u v w result) →
      Denotes s t (.formula l m x b) ⟨l, none⟩ result

end Instruction

namespace Script

variable {α : Type}

/-- Every label is declared at most once, and before it is referred to. -/
def Labelled (s : Script α) : Prop :=
  ∀ before i after, s.instructions = before ++ i :: after → i.Labelled before

lemma labelled_iff_take (s : Script α) : s.Labelled ↔
    ∀ n, (h : n < s.instructions.length) →
      (s.instructions.get ⟨n, h⟩).Labelled (s.instructions.take n) := by
  constructor
  · intro h n hn
    refine h _ _ (s.instructions.drop (n + 1)) ?_
    rw [List.get_eq_getElem, List.getElem_cons_drop, List.take_append_drop]
  · intro h before i after hsplit
    have hlength : before.length < s.instructions.length := by simp [hsplit]
    simpa [hsplit] using h before.length hlength

instance (s : Script α) : Decidable s.Labelled :=
  decidable_of_iff _ s.labelled_iff_take.symm

end Script

end SketchSolver
