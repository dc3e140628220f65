import Mathlib
import SketchSolver.Proofs.Script.Scope
import SketchSolver.Proofs.Traversal

/-!
# What is read from a sketch file

A label is read as a run of letters, digits and low lines, so every label of a file is proper.  In
particular it is plain: the point in a reference always stands between a label and a property.

* `Parser.Yields Q` — whatever the parser reads satisfies `Q`, threaded through the ways of building
  a parser.
* `Script.proper_of_parse`, `Script.plain_of_parse` — the labels of a file are proper and plain.
-/

namespace SketchSolver

namespace Parser

variable {β γ : Type} {p q : Parser β} {P Q : β → Prop} {R : γ → Prop} {f : β → Parser γ}

/-- Whatever the parser reads satisfies `Q`. -/
def Yields (Q : β → Prop) (p : Parser β) : Prop :=
  ∀ text b rest, p text = some (b, rest) → Q b

namespace Yields

lemma any : p.Yields fun _ => True := fun _ _ _ _ => trivial

lemma pure {b : β} (h : Q b) : Yields Q (Pure.pure b : Parser β) := by
  rintro text _ _ ⟨⟩
  exact h

lemma bind (hp : p.Yields P) (hf : ∀ b, P b → (f b).Yields R) : (p >>= f).Yields R := by
  intro text c rest h
  obtain ⟨⟨b, rest'⟩, hb, hc⟩ := Option.bind_eq_some_iff.1 h
  exact hf b (hp text b rest' hb) rest' c rest hc

/-- A part whose result is not looked at. -/
lemma skip (hf : ∀ b, (f b).Yields R) : (p >>= f).Yields R :=
  any.bind fun b _ => hf b

lemma orElse (hp : p.Yields Q) (hq : q.Yields Q) : (p <|> q).Yields Q := by
  intro text b rest h
  obtain h | ⟨-, h⟩ := (Option.orElse_eq_some _ _ _).1 h
  · exact hp text b rest h
  · exact hq text b rest h

lemma readAll {text : List Char} {b : β} (hp : p.Yields Q) (h : p.readAll text = some b) : Q b := by
  rw [Parser.readAll] at h
  split at h
  · rename_i b' hrun
    cases h
    exact hp text b [] hrun
  · cases h

end Yields

/-- A run of characters of a class consists of such characters, at least one. -/
lemma many1_yields (inClass : Char → Bool) :
    (many1 inClass).Yields fun found => found ≠ [] ∧ ∀ c ∈ found, inClass c = true := by
  intro text found rest h
  rw [many1] at h
  split at h
  · cases h
  · rename_i hne
    cases h
    exact ⟨hne, fun c hc => List.mem_takeWhile_imp hc⟩

end Parser

namespace Script

open SketchSolver.Parser

lemma label_yields : label.Yields Label.Proper := by
  refine (many1_yields isLabelChar).bind fun found hfound => .pure ?_
  rwa [Label.Proper, String.toList_ofList]

lemma varRef_yields : varRef.Yields fun r => r.label.Proper :=
  label_yields.bind fun _ hl => .skip fun _ => .pure hl

lemma betweenHandles_yields :
    betweenHandles.Yields fun b => b.1.Proper ∧ b.2.1.Proper ∧ b.2.2.Proper :=
  label_yields.bind fun _ hl => .skip fun _ => label_yields.bind fun _ hstart => .skip fun _ =>
    label_yields.bind fun _ hfinish => .pure ⟨hl, hstart, hfinish⟩

lemma instruction_yields : instruction.Yields Instruction.Proper := by
  have hlabel {l : Label} (h : l.Proper) : ∀ k ∈ [l], k.Proper := by simpa using h
  have hbetween {b : Label × Label × Label} (h : b.1.Proper ∧ b.2.1.Proper ∧ b.2.2.Proper) :
      ∀ k ∈ [b.1, b.2.1, b.2.2], k.Proper := by simpa using h
  refine .orElse ?handle <| .orElse ?var <| .orElse ?pin <| .orElse ?finger <| .orElse ?absorb <|
    .orElse ?polar <| .orElse ?distance <| .orElse ?angle <| .orElse ?linear <|
    .orElse ?formula ?lock
  case handle =>
    exact .skip fun _ => label_yields.bind fun _ hl => .skip fun _ => .skip fun _ =>
      .pure (hlabel hl)
  case var =>
    exact .skip fun _ => label_yields.bind fun _ hl => .skip fun _ => .skip fun _ =>
      .pure (hlabel hl)
  case pin => exact .skip fun _ => label_yields.bind fun _ hl => .skip fun _ => .pure (hlabel hl)
  case finger =>
    exact .skip fun _ => label_yields.bind fun _ hl => .skip fun _ => .skip fun _ =>
      .pure (hlabel hl)
  case absorb =>
    exact .skip fun _ => label_yields.bind fun _ hparent => .skip fun _ =>
      label_yields.bind fun _ hchild => .pure (by simp [Instruction.Proper, Instruction.labels, *])
  case polar => exact .skip fun _ => betweenHandles_yields.bind fun _ h => .pure (hbetween h)
  case distance => exact .skip fun _ => betweenHandles_yields.bind fun _ h => .pure (hbetween h)
  case angle => exact .skip fun _ => betweenHandles_yields.bind fun _ h => .pure (hbetween h)
  case linear =>
    exact .skip fun _ => varRef_yields.bind fun _ hy => .skip fun _ => .skip fun _ =>
      .skip fun _ => varRef_yields.bind fun _ hx => .skip fun _ => .skip fun _ => .skip fun _ =>
      .skip fun _ => .pure (by simp [Instruction.Proper, Instruction.labels, *])
  case formula =>
    exact .skip fun _ => label_yields.bind fun _ hl => .skip fun _ =>
      varRef_yields.bind fun _ hm => .skip fun _ => varRef_yields.bind fun _ hx => .skip fun _ =>
      varRef_yields.bind fun _ hb => .pure (by simp [Instruction.Proper, Instruction.labels, *])
  case lock => exact .skip fun _ => varRef_yields.bind fun _ h => .skip fun _ => .pure (hlabel h)

lemma proper_of_parseLines {n : Nat} {lines : List (List Char)} {found : List (Instruction Float)}
    (h : parseLines n lines = .ok found) : ∀ i ∈ found, i.Proper := by
  induction lines generalizing n found with
  | nil =>
      cases h
      simp
  | cons line rest ih =>
      rw [parseLines] at h
      split at h
      · exact ih h
      · split at h
        · cases h
        · rename_i i hread
          obtain ⟨found', hrest, hfound⟩ := bind_eq_ok_iff.1 h
          cases hfound
          rintro j (_ | ⟨_, hj⟩)
          · exact instruction_yields.readAll hread
          · exact ih hrest j hj

/-- Every label of a sketch file is proper. -/
lemma proper_of_parse {text : String} {s : Script Float} (h : parse text = .ok s) :
    ∀ i ∈ s.instructions, i.Proper := by
  obtain ⟨found, hlines, hs⟩ := bind_eq_ok_iff.1 h
  cases hs
  exact proper_of_parseLines hlines

/-- Every label of a sketch file is plain. -/
theorem plain_of_parse {text : String} {s : Script Float} (h : parse text = .ok s) :
    ∀ i ∈ s.instructions, i.Plain :=
  fun i hi l hl => (proper_of_parse h i hi l hl).plain

end Script

end SketchSolver
