import Mathlib
import SketchSolver.Proofs.Script.Grammar
import SketchSolver.Proofs.Script.Parse

/-!
# The written form of a reference

References are written and read, and the table of labels holds variables by what is written, so
three things have to fit: `VarRef.name` writes, the parser `varRef` reads, and `Labels.owner?` takes
a written form apart again.  They do for labels that can be read at all (`Label.Proper`).

* `VarRef.readAll_eq_some_iff` — what is read is exactly what is written.
* `Labels.Filled t m` — the table `t` has been filled step by step, and `m` has been filled with the
  same variables under the references themselves.
* `Labels.Filled.resolve_eq`, `Labels.Filled.claim_eq` — the table answers as if it held the
  references.
* `Progress.fills_execute`, `Progress.fills_foldlM` — instructions fill the table.
* `name_faithful` — all of it, for texts, for tables and for the runs of sketch files.
-/

namespace SketchSolver

variable {r r' : VarRef} {l : Label} {t : Labels} {m : OrderedMap VarRef VarId}

namespace VarRef

/-- A reference is written as its name. -/
lemma mem_written_iff {w : List Char} :
    w ∈ r.written ↔ r.label.Proper ∧ w = r.name.toList := by
  obtain ⟨l, _ | p⟩ := r
  · rw [toList_name_none]
    constructor
    · rintro ⟨rfl, hw⟩
      exact ⟨hw, rfl⟩
    · rintro ⟨hl, rfl⟩
      exact ⟨rfl, hl⟩
  · rw [toList_name_some]
    constructor
    · rintro ⟨_, ⟨rfl, hl⟩, _, rfl, rfl⟩
      exact ⟨hl, rfl⟩
    · rintro ⟨hl, rfl⟩
      exact Language.append_mem_mul ⟨rfl, hl⟩ rfl

/-- A text is read as a reference exactly if it is its name. -/
lemma readAll_eq_some_iff {text : String} : Parser.readAll Script.varRef text.toList = some r ↔
    r.label.Proper ∧ text = r.name := by
  rw [Script.varRef_reads.readAll_eq_some_iff Parser.stops_nil, mem_written_iff, String.toList_inj]

/-- Only a name with a property has an owner, and that is its label. -/
lemma owner?_eq_some_iff (hr : r.label.Plain) {owner : String} :
    Labels.owner? r.name = some owner ↔ r.property.isSome = true ∧ owner = r.label.text := by
  obtain ⟨l, _ | p⟩ := r
  · rw [owner?_name_none hr]
    exact iff_of_false (by rintro ⟨⟩) (by rintro ⟨⟨⟩, -⟩)
  · rw [owner?_name_some hr, Option.some.injEq, eq_comm]
    exact (and_iff_right rfl).symm

end VarRef

/-! ## Tables -/

namespace Labels

/-- The table has been filled step by step, under proper references; these are the variables with
the references themselves. -/
inductive Filled : Labels → OrderedMap VarRef VarId → Prop
  | empty : Filled .empty .empty
  | handle {t : Labels} {m : OrderedMap VarRef VarId} (l : Label) (h : HandleId) :
    Filled t m → Filled (t.nameHandle l h) m
  | var {t : Labels} {m : OrderedMap VarRef VarId} {r : VarRef} (v : VarId) :
    r.label.Proper → Filled t m → Filled (t.name r v) (m.insert r v)

namespace Filled

lemma proper (h : t.Filled m) : ∀ r ∈ m.keys, r.label.Proper := by
  induction h with
  | empty => simp
  | handle l id _ ih => exact ih
  | @var t m r v hr _ ih =>
      intro r' hr'
      by_cases hmem : r ∈ m.keys
      · rw [OrderedMap.keys_insert_of_mem v hmem] at hr'
        exact ih r' hr'
      · rw [OrderedMap.keys_insert_of_not_mem v hmem, List.mem_append, List.mem_singleton] at hr'
        rcases hr' with hr' | rfl
        · exact ih r' hr'
        · exact hr

/-- The names are those of the references, in order. -/
lemma keys_eq (h : t.Filled m) : t.vars.keys = m.keys.map VarRef.name := by
  induction h with
  | empty => rfl
  | handle l id _ ih => exact ih
  | @var t m r v hr ht ih =>
      have hmem : r.name ∈ t.vars.keys ↔ r ∈ m.keys := by
        rw [ih, List.mem_map]
        constructor
        · rintro ⟨r', hr', hname⟩
          exact VarRef.name_inj (ht.proper r' hr').plain hr.plain hname ▸ hr'
        · exact fun hr' => ⟨r, hr', rfl⟩
      rw [name]
      by_cases hr' : r ∈ m.keys
      · rw [OrderedMap.keys_insert_of_mem v hr', OrderedMap.keys_insert_of_mem v (hmem.2 hr'), ih]
      · rw [OrderedMap.keys_insert_of_not_mem v hr',
          OrderedMap.keys_insert_of_not_mem v fun h => hr' (hmem.1 h), ih, List.map_append]
        rfl

/-- A name has the variable of its reference. -/
lemma get?_eq (h : t.Filled m) (hr : r.label.Proper) : t.vars.get? r.name = m.get? r := by
  induction h with
  | empty => rfl
  | handle l id _ ih => exact ih
  | @var t m r' v hr' _ ih =>
      rw [name, OrderedMap.get?_insert, OrderedMap.get?_insert, ih]
      exact if_congr ⟨VarRef.name_inj hr.plain hr'.plain, congrArg VarRef.name⟩ rfl rfl

/-- A reference is found exactly if it has been entered itself. -/
lemma resolve_eq (h : t.Filled m) (hr : r.label.Proper) : t.resolve r =
    match m.get? r with
    | some v => .ok v
    | none => .error (.undefinedLabel r.name) := by
  have hget : t.var? r.name = m.get? r := h.get?_eq hr
  cases hm : m.get? r with
  | none => simp only [resolve, hget, hm]
  | some v => simp only [resolve, hget, hm]

/-- A label is taken exactly if it has been entered itself. -/
lemma claim_eq (h : t.Filled m) (hl : l.Proper) : t.claim l =
    if l ∈ t.handles.keys ∨ ∃ r ∈ m.keys, r.label = l then .error (.duplicateLabel l.text)
    else .ok () :=
  if_congr (isTaken_iff h.keys_eq (fun r hr => (h.proper r hr).plain) hl.plain) rfl rfl

end Filled

end Labels

/-! ## Runs -/

namespace Script

variable {α β : Type}

namespace Progress

/-- If the computation succeeds, then the table has been filled step by step. -/
def Fills (x : Except ScriptError (Progress α)) : Prop :=
  ∀ q, x = .ok q → ∃ m, q.labels.Filled m

section

variable {p : Progress α}

namespace Fills

lemma answer (hp : p.labels.Filled m) : Fills (.ok p) := by
  rintro q ⟨⟩
  exact ⟨m, hp⟩

lemma fail (e : ScriptError) : Fills (.error e : Except ScriptError (Progress α)) := by
  rintro q ⟨⟩

/-- A part that only looks things up. -/
lemma skip {x : Except ScriptError β} {f : β → Except ScriptError (Progress α)}
    (hf : ∀ b, Fills (f b)) : Fills (x >>= f) := by
  intro q h
  obtain ⟨b, -, h⟩ := bind_eq_ok_iff.1 h
  exact hf b q h

/-- Editing the sketch leaves the table alone. -/
lemma edit {e : Edit α β} {f : β × Progress α → Except ScriptError (Progress α)}
    (hp : p.labels.Filled m) (hf : ∀ b q, q.labels.Filled m → Fills (f (b, q))) :
    Fills (p.edit e >>= f) := by
  intro q h
  obtain ⟨⟨b, p'⟩, hedit, h⟩ := bind_eq_ok_iff.1 h
  refine hf b p' ?_ q h
  rw [Progress.edit] at hedit
  split at hedit
  · cases hedit
    exact hp
  · cases hedit

lemma declare {e : Edit α ConstraintId} (hp : p.labels.Filled m) (hl : l.Proper) :
    Fills (p.declare l e) := by
  refine edit hp fun id q hq => skip fun owned => ?_
  split
  · exact answer (.var _ hl hq)
  · exact fail _

end Fills

end

variable [Scalar α] {p q : Progress α} {i : Instruction α}

/-- An instruction fills the table with what it declares. -/
lemma fills_execute (hp : p.labels.Filled m) (hi : i.Proper) : Fills (p.execute i) := by
  have hdeclared : ∀ l, i.declared = some l → l.Proper :=
    fun l hl => hi l (Instruction.mem_labels_of_declared hl)
  cases i with
  | handle l position =>
      have hl : l.Proper := hdeclared l rfl
      refine .skip fun _ => ?_
      dsimp only
      split
      · exact .answer (.var _ hl (.var _ hl (.handle l _ hp)))
      · exact .fail _
  | var l value => exact .skip fun _ => .answer (.var _ (hdeclared l rfl) hp)
  | pin l position => exact .skip fun _ => .edit hp fun _ _ hq => .answer hq
  | finger l position => exact .skip fun _ => .edit hp fun _ _ hq => .answer hq
  | absorb parent child =>
      exact .skip fun _ => .skip fun _ => .edit hp fun _ _ hq => .answer hq
  | polar l start finish =>
      have hl : l.Proper := hdeclared l rfl
      refine .skip fun _ => .skip fun _ => .skip fun _ => .edit hp fun _ q hq => .skip fun _ => ?_
      split
      · exact .answer (.var _ hl (.var _ hl hq))
      · exact .fail _
  | distance l start finish =>
      exact .skip fun _ => .skip fun _ => .skip fun _ => .declare hp (hdeclared l rfl)
  | angle l start finish =>
      exact .skip fun _ => .skip fun _ => .skip fun _ => .declare hp (hdeclared l rfl)
  | linear y m x b => exact .skip fun _ => .skip fun _ => .edit hp fun _ _ hq => .answer hq
  | formula l m x b =>
      exact .skip fun _ => .skip fun _ => .skip fun _ => .skip fun _ =>
        .declare hp (hdeclared l rfl)
  | lock target value => exact .skip fun _ => .edit hp fun _ _ hq => .answer hq

/-- Instructions fill the table, one after the other. -/
lemma fills_foldlM {is : List (Instruction α)} (hp : p.labels.Filled m)
    (his : ∀ i ∈ is, i.Proper) : Fills (is.foldlM execute p) :=
  fun _ => foldlM_keeps (P := fun p : Progress α => ∃ m, p.labels.Filled m)
    (fun _ i hi q ⟨_, hp⟩ h => fills_execute hp (his i hi) q h) ⟨m, hp⟩

end Progress

/-- **Names of variables.**  A text is read as a reference with a proper label exactly if it is the
name of this reference, so such references have different names, and what stands before the point of
a name is the label.  A table that has been filled under proper references therefore answers as if
it held the references themselves; and every table of a running sketch file has been filled so. -/
theorem name_faithful :
    (∀ (text : String) (r : VarRef), Parser.readAll varRef text.toList = some r ↔
      r.label.Proper ∧ text = r.name) ∧
    {r : VarRef | r.label.Proper}.InjOn VarRef.name ∧
    (∀ r : VarRef, r.label.Proper → ∀ owner, Labels.owner? r.name = some owner ↔
      r.property.isSome = true ∧ owner = r.label.text) ∧
    (∀ t m, Labels.Filled t m →
      (∀ r : VarRef, r.label.Proper → t.resolve r =
        match m.get? r with
        | some v => .ok v
        | none => .error (.undefinedLabel r.name)) ∧
      ∀ l : Label, l.Proper → t.claim l =
        if l ∈ t.handles.keys ∨ ∃ r ∈ m.keys, r.label = l then .error (.duplicateLabel l.text)
        else .ok ()) ∧
    ∀ text script, parse text = .ok script → (∀ i ∈ script.instructions, i.Proper) ∧
      ∀ before q, before <+: script.instructions →
        before.foldlM Progress.execute ⟨.empty, .empty⟩ = .ok q → ∃ m, q.labels.Filled m := by
  refine ⟨fun _ _ => VarRef.readAll_eq_some_iff,
    fun r hr r' hr' => VarRef.name_inj hr.plain hr'.plain,
    fun r hr _ => VarRef.owner?_eq_some_iff hr.plain,
    fun t m h => ⟨fun r hr => h.resolve_eq hr, fun l hl => h.claim_eq hl⟩,
    fun text script hparse => ⟨proper_of_parse hparse, fun before q hbefore hrun => ?_⟩⟩
  exact Progress.fills_foldlM .empty
    (fun i hi => proper_of_parse hparse i (hbefore.subset hi)) q hrun

/-- The length of a polar vector whose label is not plain ASCII. -/
def reach : VarRef :=
  ⟨⟨"größe_2"⟩, some .distance⟩

/-- A variable that has the name of a property, and a handle that has the name of another. -/
def called : String :=
  "var distance 2\nhandle x (0, 1)"

/-- The length and a variable of the name `distance` are kept apart. -/
theorem name_reach : Parser.readAll varRef reach.name.toList = some reach ∧
    reach.name ≠ VarRef.name ⟨⟨"distance"⟩, none⟩ ∧ Labels.owner? reach.name = some "größe_2" ∧
    (Labels.empty.name reach ⟨7⟩).resolve reach = .ok ⟨7⟩ ∧
    (Labels.empty.name reach ⟨7⟩).claim ⟨"größe_2"⟩ = .error (.duplicateLabel "größe_2") ∧
    (Labels.empty.name reach ⟨7⟩).claim ⟨"distance"⟩ = .ok () ∧
    ∃ script q, parse called = .ok script ∧
      script.instructions.foldlM Progress.execute ⟨.empty, .empty⟩ = .ok q ∧
        ∃ m, q.labels.Filled m := by
  obtain ⟨hread, hinj, howner, htable, hrun⟩ := name_faithful
  have hreach : reach.label.Proper := by
    rw [Label.Proper, reach, String.toList_ofList]
    exact ⟨by simp, List.all_eq_true.1 (by decide +kernel)⟩
  have hdistance : Label.Proper ⟨"distance"⟩ := by
    rw [Label.Proper, String.toList_ofList]
    exact ⟨by simp, List.all_eq_true.1 (by decide +kernel)⟩
  have hne : reach ≠ ⟨⟨"distance"⟩, none⟩ := by decide
  obtain ⟨hresolve, hclaim⟩ := htable _ _ (.var ⟨7⟩ hreach .empty)
  refine ⟨(hread _ reach).2 ⟨hreach, rfl⟩, fun h => hne (hinj hreach hdistance h),
    (howner reach hreach _).2 ⟨rfl, rfl⟩, (hresolve reach hreach).trans rfl,
    (hclaim _ hreach).trans (if_pos (by decide)), (hclaim _ hdistance).trans (if_neg (by decide)),
    ?_⟩
  have hruns : ((parse called).bind fun script =>
      script.instructions.foldlM Progress.execute ⟨.empty, .empty⟩).toOption.isSome = true := by
    decide +kernel
  cases hparse : parse called with
  | error e =>
      rw [hparse] at hruns
      cases hruns
  | ok script =>
      cases hfold : script.instructions.foldlM Progress.execute ⟨.empty, .empty⟩ with
      | error e =>
          rw [hparse, Except.bind, hfold] at hruns
          cases hruns
      | ok q =>
          obtain ⟨-, hfilled⟩ := hrun called script hparse
          exact ⟨script, q, rfl, hfold, hfilled _ q List.prefix_rfl hfold⟩

end Script

end SketchSolver
