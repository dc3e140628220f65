import Mathlib
import SketchSolver.Script.Run

/-!
# Labels and the names they are part of

A table of labels holds variables by the written form of their references.  So whether a label is
taken is found by taking the written forms apart again.

* `Label.Plain` — the label has no point in it.
* `Label.Proper` — the label is one that can be read: letters, digits and low lines, at least one.
* `VarRef.name_eq_or_owner?_iff` — a plain label is found in the written form of a plain reference
  exactly if it is the label of that reference.
* `VarRef.name_inj` — plain references with one written form are one reference.
* `Labels.isTaken_iff` — in a table of plain references, a plain label is taken exactly if it is the
  label of a handle or of one of the references.
-/

namespace SketchSolver

/-- There is no point in the label. -/
def Label.Plain (l : Label) : Prop :=
  '.' ∉ l.text.toList

/-- The label consists of letters, digits and low lines, at least one. -/
def Label.Proper (l : Label) : Prop :=
  l.text.toList ≠ [] ∧ ∀ c ∈ l.text.toList, Script.isLabelChar c = true

lemma Label.Proper.plain {l : Label} (h : l.Proper) : l.Plain :=
  fun hpoint => absurd (h.2 '.' hpoint) (by decide)

namespace VarRef

variable {r r' : VarRef} {l : Label} {p : Property}

lemma toList_name_some :
    (VarRef.mk l (some p)).name.toList = l.text.toList ++ '.' :: p.name.toList := by
  simp [name]

lemma toList_name_none : (VarRef.mk l none).name.toList = l.text.toList := rfl

/-- The owner of a property is the label in front of it. -/
lemma owner?_name_some (hl : l.Plain) :
    Labels.owner? (VarRef.mk l (some p)).name = some l.text := by
  have hne : ∀ c ∈ l.text.toList, (decide (c ≠ '.')) = true := by
    rintro c hc
    exact decide_eq_true (by rintro rfl; exact hl hc)
  rw [Labels.owner?, toList_name_some, if_pos (by simp), List.takeWhile_append_of_pos hne]
  simp

lemma owner?_name_none (hl : l.Plain) : Labels.owner? (VarRef.mk l none).name = none := by
  rw [Labels.owner?, if_neg]
  rw [toList_name_none, List.contains_iff_mem]
  exact hl

/-- The label is the name or its owner. -/
lemma name_eq_or_owner?_iff (hr : r.label.Plain) (hl : l.Plain) :
    r.name = l.text ∨ Labels.owner? r.name = some l.text ↔ r.label = l := by
  obtain ⟨k, _ | p⟩ := r
  · rw [owner?_name_none hr]
    exact ⟨fun h => h.elim (congrArg Label.mk) (by rintro ⟨⟩),
      fun h => Or.inl (congrArg Label.text h)⟩
  · rw [owner?_name_some hr]
    have hne : (VarRef.mk k (some p)).name ≠ l.text := fun h => hl <| by
      rw [← h, toList_name_some]
      simp
    constructor
    · intro h
      exact congrArg Label.mk (Option.some.inj (h.resolve_left hne))
    · rintro rfl
      exact Or.inr rfl

/-- References with one written form have one label. -/
lemma label_eq_of_name_eq (hr : r.label.Plain) (hr' : r'.label.Plain) (h : r.name = r'.name) :
    r.label = r'.label := by
  rw [← name_eq_or_owner?_iff hr hr', h, name_eq_or_owner?_iff hr' hr']

lemma name_inj (hr : r.label.Plain) (hr' : r'.label.Plain) (h : r.name = r'.name) : r = r' := by
  have hlabel := label_eq_of_name_eq hr hr' h
  obtain ⟨l, p⟩ := r
  obtain ⟨l', p'⟩ := r'
  obtain rfl : l = l' := hlabel
  have hlist := congrArg String.toList h
  -- what follows the label, if anything, names the property
  rcases p with _ | p <;> rcases p' with _ | p' <;>
    simp only [toList_name_none, toList_name_some, List.append_cancel_left_eq,
      List.self_eq_append_right, List.append_right_eq_self] at hlist
  · rfl
  · cases hlist
  · cases hlist
  · cases p <;> cases p' <;> first | rfl | cases hlist

end VarRef

namespace Labels

variable {t : Labels} {l : Label} {refs : List VarRef}

/-- A label is taken by a handle or by a reference to a variable. -/
lemma isTaken_iff (hvars : t.vars.keys = refs.map VarRef.name) (hrefs : ∀ r ∈ refs, r.label.Plain)
    (hl : l.Plain) : t.isTaken l = true ↔ l ∈ t.handles.keys ∨ ∃ r ∈ refs, r.label = l := by
  rw [isTaken, Bool.or_eq_true, OrderedMap.contains_iff_mem_keys, hvars, List.any_map,
    List.any_eq_true]
  refine or_congr Iff.rfl (exists_congr fun r => and_congr_right fun hr => ?_)
  simp only [Function.comp_apply, Bool.or_eq_true, decide_eq_true_eq]
  exact VarRef.name_eq_or_owner?_iff (hrefs r hr) hl

end Labels

end SketchSolver
