import Mathlib
import SketchSolver.Proofs.Script.Scope
import SketchSolver.Proofs.Sketch.Grown
import SketchSolver.Proofs.Traversal

/-!
# How far a sketch file has been run

The table of labels knows exactly what the instructions so far declare, and whatever has a label is
in the sketch.  So looking up a label fails exactly if no instruction so far has declared it.

* `Judges C P` — the computation succeeds exactly if `C` holds, then with an answer that satisfies
  `P`; it only ever fails because of a label.
* `Progress.Extends` — everything that was there or had a label is there and has it still.
* `Progress.Fits handles refs` — the table has these handles and references, and they are in the
  sketch; `Fits.enter` enters more.
* `Progress.Runs before` — the table fits what the instructions `before` declare.  The lemmas
  `Runs.judges_…` say what looking something up asks for.
-/

namespace SketchSolver

/-- The error is about a label. -/
def ScriptError.AtLabel : ScriptError → Prop
  | .undefinedLabel _ | .duplicateLabel _ => True
  | .syntaxError .. | .solver _ => False

/-- Enters variables, one after the other. -/
def Labels.enter (t : Labels) (entries : List (VarRef × VarId)) : Labels :=
  entries.foldl (fun t e => t.name e.1 e.2) t

lemma Labels.enter_cons (t : Labels) (r : VarRef) (v : VarId) (entries : List (VarRef × VarId)) :
    t.enter ((r, v) :: entries) = (t.name r v).enter entries := rfl

namespace Script

section

variable {β γ : Type} {C D : Prop} {P : β → Prop} {Q : γ → Prop} {x : Except ScriptError β}

/-- The computation succeeds exactly if `C` holds, and then its answer satisfies `P`; it only fails
because of a label. -/
structure Judges (C : Prop) (P : β → Prop) (x : Except ScriptError β) : Prop where
  accepts : Accepts C P x
  atLabel : ∀ {e}, x = .error e → e.AtLabel

namespace Judges

lemma answer {b : β} (h : P b) : Judges True P (.ok b) := ⟨.answer h, by rintro e ⟨⟩⟩

lemma of_iff (h : Judges C P x) (hCD : C ↔ D) : Judges D P x := ⟨h.accepts.of_iff hCD, h.atLabel⟩

lemma imp {P' : β → Prop} (h : Judges C P x) (hP : ∀ b, P b → P' b) : Judges C P' x :=
  ⟨h.accepts.imp hP, h.atLabel⟩

/-- A sequence asks for what both of its parts ask for. -/
lemma bind {f : β → Except ScriptError γ} (h : Judges C P x)
    (hf : ∀ b, C → P b → Judges D Q (f b)) : Judges (C ∧ D) Q (x >>= f) where
  accepts := h.accepts.bind fun b hC hb => (hf b hC hb).accepts
  atLabel {e} he := by
    cases x with
    | ok b =>
        have hb := h.accepts
        exact (hf b hb.1 hb.2).atLabel he
    | error e' =>
        cases he
        exact h.atLabel rfl

/-- A fold asks of every element what the step asks for after what stands before it. -/
lemma foldlM (xs : List γ) {f : β → γ → Except ScriptError β} {P : List γ → β → Prop}
    {C : List γ → γ → Prop}
    (hstep : ∀ before, ∀ x ∈ xs, ∀ b, P before b →
      Judges (C before x) (P (before ++ [x])) (f b x)) {b : β} (hb : P [] b) :
    Judges (∀ before x after, xs = before ++ x :: after → C before x) (P xs) (xs.foldlM f b) where
  accepts := .foldlM xs (fun before x hx b hb => (hstep before x hx b hb).accepts) hb
  atLabel {e} he := by
    obtain ⟨before, x, after, b', rfl, hbefore, hx⟩ := foldlM_eq_error he
    have hb' := (Accepts.foldlM before (fun bs y hy b hb =>
      (hstep bs y (List.mem_append_left _ hy) b hb).accepts) hb).of_ok hbefore
    exact (hstep before x (by simp) b' hb'.2).atLabel hx

end Judges

end

variable {α : Type} [Scalar α]

namespace Progress

/-- Everything that was there or had a label is there and has it still. -/
structure Extends (p q : Progress α) : Prop where
  grown : p.sketch.Grown q.sketch
  handles : ∀ {l h}, p.labels.handle? l = some h → q.labels.handle? l = some h
  vars : ∀ {n v}, p.labels.var? n = some v → q.labels.var? n = some v

/-- The table has these handles and these references in order, and what they stand for is in the
sketch. -/
structure Fits (handles : List Label) (refs : List VarRef) (p : Progress α) : Prop where
  intact : p.sketch.Intact
  handleKeys : p.labels.handles.keys = handles
  varKeys : p.labels.vars.keys = refs.map VarRef.name
  plain : ∀ r ∈ refs, r.label.Plain
  handles : ∀ {l h}, p.labels.handle? l = some h → p.sketch.handles.contains h = true
  vars : ∀ {n v}, p.labels.var? n = some v → p.sketch.arena.contains v = true

variable {p q q' : Progress α} {handles : List Label} {refs : List VarRef} {l : Label} {r : VarRef}
  {h : HandleId} {v : VarId} {s : Sketch α}

namespace Extends

lemma refl (hp : p.sketch.Intact) : p.Extends p := ⟨.refl hp, id, id⟩

lemma trans (h : p.Extends q) (h' : q.Extends q') : p.Extends q' :=
  ⟨h.grown.trans h'.grown, fun hl => h'.handles (h.handles hl), fun hn => h'.vars (h.vars hn)⟩

lemma owner (h : p.Extends q) {id : ConstraintId} {c : Constraint α} {v : VarId} {vs : List VarId}
    (hget : p.sketch.constraints.get? id = some c) (howned : c.owned = v :: vs) :
    q.sketch.constraints.get? id = some c :=
  h.grown.owners hget (howned ▸ List.cons_ne_nil v vs)

/-- What a reference denotes does not change. -/
lemma denotes (h : p.Extends q) {i : Instruction α} (hv : i.Denotes p.sketch p.labels r v) :
    i.Denotes q.sketch q.labels r v := by
  cases hv with
  | x hl hc => exact .x (h.handles hl) (h.grown.coords hc)
  | y hl hc => exact .y (h.handles hl) (h.grown.coords hc)
  | var hv => exact .var (h.grown.vars hv)
  | length ha hb hc => exact .length (h.handles ha) (h.handles hb) (h.owner hc rfl)
  | bearing ha hb hc => exact .bearing (h.handles ha) (h.handles hb) (h.owner hc rfl)
  | distance ha hb hc => exact .distance (h.handles ha) (h.handles hb) (h.owner hc rfl)
  | angle ha hb hc => exact .angle (h.handles ha) (h.handles hb) (h.owner hc rfl)
  | formula hm hx hb hc => exact .formula (h.vars hm) (h.vars hx) (h.vars hb) (h.owner hc rfl)

end Extends

namespace Fits

/-- The sketch grows under an unchanged table. -/
lemma grow (hp : p.Fits handles refs) (hs : p.sketch.Grown s) :
    Fits handles refs { p with sketch := s } where
  intact := hs.intact
  handleKeys := hp.handleKeys
  varKeys := hp.varKeys
  plain := hp.plain
  handles hl := hs.handles (hp.handles hl)
  vars hn := hs.vars (hp.vars hn)

lemma name_not_mem (hp : p.Fits handles refs) (hplain : r.label.Plain) (hr : r ∉ refs) :
    r.name ∉ p.labels.vars.keys := by
  rw [hp.varKeys]
  intro hmem
  obtain ⟨r', hr', hname⟩ := List.mem_map.1 hmem
  exact hr (VarRef.name_inj (hp.plain r' hr') hplain hname ▸ hr')

/-- Entering a variable under a new reference. -/
lemma name (hp : p.Fits handles refs) (hplain : r.label.Plain) (hr : r ∉ refs)
    (hv : p.sketch.arena.contains v = true) :
    Fits handles (refs ++ [r]) { p with labels := p.labels.name r v } where
  intact := hp.intact
  handleKeys := hp.handleKeys
  varKeys := by
    rw [List.map_append, ← hp.varKeys]
    exact OrderedMap.keys_insert_of_not_mem v (hp.name_not_mem hplain hr)
  plain := by simpa [or_imp, forall_and, hplain] using hp.plain
  handles := hp.handles
  vars {n w} hn := by
    rw [Labels.var?, Labels.name, OrderedMap.get?_insert] at hn
    split at hn
    · cases hn
      exact hv
    · exact hp.vars hn

lemma nameHandle (hp : p.Fits handles refs) (hl : l ∉ handles)
    (hh : p.sketch.handles.contains h = true) :
    Fits (handles ++ [l]) refs { p with labels := p.labels.nameHandle l h } where
  intact := hp.intact
  handleKeys := by
    rw [← hp.handleKeys]
    exact OrderedMap.keys_insert_of_not_mem h (hp.handleKeys ▸ hl)
  varKeys := hp.varKeys
  plain := hp.plain
  handles {k i} hk := by
    rw [Labels.handle?, Labels.nameHandle, OrderedMap.get?_insert] at hk
    split at hk
    · cases hk
      exact hh
    · exact hp.handles hk
  vars := hp.vars

end Fits

/-- Entering a variable under a new name. -/
lemma Extends.name (hp : p.sketch.Intact) (hr : r.name ∉ p.labels.vars.keys) (v : VarId) :
    p.Extends { p with labels := p.labels.name r v } where
  grown := .refl hp
  handles := id
  vars {n w} hn := by
    have hne : n ≠ r.name := by
      rintro rfl
      exact hr (OrderedMap.mem_keys_of_get? hn)
    exact (OrderedMap.get?_insert _ _ _ _).trans ((if_neg hne).trans hn)

/-- Entering a handle under a new label. -/
lemma Extends.nameHandle (hp : p.sketch.Intact) (hl : l ∉ p.labels.handles.keys) (h : HandleId) :
    p.Extends { p with labels := p.labels.nameHandle l h } where
  grown := .refl hp
  handles {k i} hk := by
    have hne : k ≠ l := by
      rintro rfl
      exact hl (OrderedMap.mem_keys_of_get? hk)
    exact (OrderedMap.get?_insert _ _ _ _).trans ((if_neg hne).trans hk)
  vars := id

/-- Entering variables under new references, one after the other. -/
lemma Fits.enter (hp : p.Fits handles refs) (entries : List (VarRef × VarId))
    (hplain : ∀ e ∈ entries, e.1.label.Plain) (hnodup : (refs ++ entries.map Prod.fst).Nodup)
    (hlive : ∀ e ∈ entries, p.sketch.arena.contains e.2 = true) :
    Fits handles (refs ++ entries.map Prod.fst) { p with labels := p.labels.enter entries } ∧
      p.Extends { p with labels := p.labels.enter entries } ∧
      ∀ e ∈ entries, (p.labels.enter entries).var? e.1.name = some e.2 := by
  induction entries generalizing p refs with
  | nil => exact ⟨by simpa [Labels.enter] using hp, .refl hp.intact, by simp⟩
  | cons e entries ih =>
      obtain ⟨r, v⟩ := e
      have hr : r ∉ refs := by
        rw [List.nodup_append] at hnodup
        exact fun hmem => hnodup.2.2 r hmem r (by simp) rfl
      have hrplain := hplain (r, v) List.mem_cons_self
      have hstep : p.Extends { p with labels := p.labels.name r v } :=
        .name hp.intact (hp.name_not_mem hrplain hr) v
      obtain ⟨hfits, hextends, hfound⟩ := ih
        (hp.name hrplain hr (hlive (r, v) List.mem_cons_self))
        (fun e he => hplain e (List.mem_cons_of_mem _ he)) (by simpa using hnodup)
        (fun e he => hlive e (List.mem_cons_of_mem _ he))
      rw [Labels.enter_cons]
      refine ⟨by simpa using hfits, hstep.trans hextends, ?_⟩
      rintro e (_ | ⟨_, he⟩)
      · exact hextends.vars ((OrderedMap.get?_insert _ _ _ _).trans (if_pos rfl))
      · exact hfound e he

/-! ## After some instructions -/

variable {before : List (Instruction α)} {i : Instruction α}

/-- What a reference denotes is in the sketch. -/
lemma contains_of_denotes (hp : p.sketch.Intact) (hv : i.Denotes p.sketch p.labels r v) :
    p.sketch.arena.contains v = true := by
  have howned : ∀ {id : ConstraintId} {c : Constraint α}, p.sketch.constraints.get? id = some c →
      ∀ w ∈ c.owned, p.sketch.arena.contains w = true := fun hget w hw =>
    (hp.live hget not_false).named w (List.mem_append_right _ hw)
  cases hv with
  | x _ hc => exact (hp.grounded _ _ hc).1
  | y _ hc => exact (hp.grounded _ _ hc).2
  | var hv => exact hv
  | length _ _ hc => exact howned hc _ List.mem_cons_self
  | bearing _ _ hc => exact howned hc _ (List.mem_cons_of_mem _ List.mem_cons_self)
  | distance _ _ hc => exact howned hc _ List.mem_cons_self
  | angle _ _ hc => exact howned hc _ List.mem_cons_self
  | formula _ _ _ hc => exact howned hc _ List.mem_cons_self

/-- The table has what these instructions declare. -/
abbrev Runs (before : List (Instruction α)) (p : Progress α) : Prop :=
  p.Fits (before.filterMap Instruction.declaredHandle) (before.flatMap Instruction.names)

/-- A label is taken if an instruction has declared it. -/
lemma Runs.judges_claim (hp : p.Runs before) (hl : l.Plain) :
    Judges (∀ j ∈ before, j.declared ≠ some l) (fun _ => True) (p.labels.claim l) := by
  have htaken : p.labels.isTaken l = true ↔ ∃ j ∈ before, j.declared = some l := by
    rw [Labels.isTaken_iff hp.varKeys hp.plain hl, hp.handleKeys]
    simp only [List.mem_filterMap, List.mem_flatMap, Instruction.declared_eq_some_iff]
    constructor
    · rintro (⟨j, hj, hl⟩ | ⟨r, ⟨j, hj, hr⟩, hl⟩)
      · exact ⟨j, hj, Instruction.declared_eq_some_iff.1
          (Instruction.declared_of_declaredHandle hl)⟩
      · exact ⟨j, hj, r, hr, hl⟩
    · rintro ⟨j, hj, r, hr, hl⟩
      exact Or.inr ⟨r, ⟨j, hj, hr⟩, hl⟩
  rw [Labels.claim]
  split
  · rename_i h
    refine ⟨fun hfree => ?_, by rintro e ⟨⟩; trivial⟩
    obtain ⟨j, hj, hdeclared⟩ := htaken.1 h
    exact hfree j hj hdeclared
  · rename_i h
    exact ⟨⟨fun j hj hdeclared => h (htaken.2 ⟨j, hj, hdeclared⟩), trivial⟩, by rintro e ⟨⟩⟩

/-- A handle is found if an instruction has declared it. -/
lemma Runs.judges_resolveHandle (hp : p.Runs before) (l : Label) :
    Judges (∃ j ∈ before, j.declaredHandle = some l)
      (fun h => p.labels.handle? l = some h ∧ p.sketch.handles.contains h = true)
      (p.labels.resolveHandle l) := by
  have hkeys : (∃ j ∈ before, j.declaredHandle = some l) ↔ l ∈ p.labels.handles.keys := by
    rw [hp.handleKeys, List.mem_filterMap]
  rw [hkeys, Labels.resolveHandle]
  cases hget : p.labels.handle? l with
  | some h =>
      exact ⟨⟨OrderedMap.mem_keys_of_get? hget, rfl, hp.handles hget⟩, by rintro e ⟨⟩⟩
  | none => exact ⟨(OrderedMap.get?_eq_none_iff _ _).1 hget, by rintro e ⟨⟩; trivial⟩

/-- A variable is found if an instruction has declared it. -/
lemma Runs.judges_resolve (hp : p.Runs before) (hr : r.label.Plain) :
    Judges (∃ j ∈ before, r ∈ j.names)
      (fun v => p.labels.var? r.name = some v ∧ p.sketch.arena.contains v = true)
      (p.labels.resolve r) := by
  have hkeys : (∃ j ∈ before, r ∈ j.names) ↔ r.name ∈ p.labels.vars.keys := by
    rw [hp.varKeys, ← List.mem_flatMap]
    constructor
    · exact List.mem_map_of_mem
    · intro hmem
      obtain ⟨r', hr', hname⟩ := List.mem_map.1 hmem
      exact VarRef.name_inj (hp.plain r' hr') hr hname ▸ hr'
  rw [hkeys, Labels.resolve]
  cases hget : p.labels.var? r.name with
  | some v => exact ⟨⟨OrderedMap.mem_keys_of_get? hget, rfl, hp.vars hget⟩, by rintro e ⟨⟩⟩
  | none => exact ⟨(OrderedMap.get?_eq_none_iff _ _).1 hget, by rintro e ⟨⟩; trivial⟩

end Progress

end Script

end SketchSolver
