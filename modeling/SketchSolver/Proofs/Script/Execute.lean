import Mathlib
import SketchSolver.Proofs.Handle.Flat
import SketchSolver.Proofs.Script.Progress

/-!
# What an instruction does

After the instructions `before`, an instruction succeeds exactly if it is `Labelled` there
(`Runs.judges_execute`).  None of the operations on the sketch can fail then, because whatever has a
label is in the sketch; so if an instruction fails, a label is at fault.

* `Progress.Ran before i p q` — the instruction `i` has led from `p` to `q`: the table fits one more
  instruction, nothing was taken away, and each declared variable is new, unless it belongs to a
  polar vector that was there already (`Introduces`).
* `Runs.judges_edit` — an instruction that declares nothing.
* `Runs.ran_enter` — whatever an instruction adds, its variables are entered at last.
* `Runs.judges_handle`, `Runs.judges_polar`, `Runs.judges_declare` — the ways of declaring more than
  a number.
-/

namespace SketchSolver

namespace Script

variable {α : Type} [Scalar α]

namespace Progress

open Sketch Instruction

variable {p q : Progress α} {before : List (Instruction α)} {i : Instruction α} {s : Sketch α}

/-- The variable is not there yet, unless the instruction repeats a polar vector that has it. -/
def Introduces (p : Progress α) (i : Instruction α) (r : VarRef) (v : VarId) : Prop :=
  p.sketch.arena.contains v = false ∨
    (∃ l start finish, i = .polar l start finish) ∧ i.Denotes p.sketch p.labels r v

/-- What an instruction does after others. -/
structure Ran (before : List (Instruction α)) (i : Instruction α) (p q : Progress α) : Prop where
  runs : q.Runs (before ++ [i])
  kept : p.Extends q
  spent : q.sketch.spent ≤ p.sketch.spent + 5
  handle : ∀ {l}, i.declaredHandle = some l →
    ∃ h, q.labels.handle? l = some h ∧ p.sketch.handles.contains h = false
  vars : ∀ r ∈ i.names, ∃ v, q.labels.var? r.name = some v ∧ i.Denotes q.sketch q.labels r v ∧
    p.Introduces i r v

/-! ## Editing the sketch -/

omit [Scalar α] in
/-- An edit that cannot fail. -/
lemma edit_ok {β : Type} {e : Edit α β} {Q : β → Sketch α → Prop}
    (he : Edit.Ensures (fun _ => False) e Q p.sketch) :
    ∃ b s, p.edit e = .ok (b, { p with sketch := s }) ∧ Q b s := by
  obtain ⟨b, s, hrun, hQ⟩ := he.exists_ok
  exact ⟨b, s, by rw [edit, EStateM.run, hrun], hQ⟩

omit [Scalar α] in
lemma ownedBy_ok {id : ConstraintId} {c : Constraint α}
    (hget : p.sketch.constraints.get? id = some c) : p.ownedBy id = .ok c.owned := by
  rw [ownedBy, ConstraintTable.find, hget]

/-- An instruction that declares nothing lets the sketch grow. -/
lemma Runs.judges_edit {β : Type} (hp : p.Runs before) (hhandle : i.declaredHandle = none)
    (hnames : i.names = []) {e : Edit α β}
    (he : Edit.Ensures (fun _ => False) e (fun _ => Grows 1 p.sketch) p.sketch) :
    Judges True (Ran before i p) (do let (_, q) ← p.edit e; return q) := by
  obtain ⟨b, s, hrun, hs⟩ := edit_ok he
  rw [hrun]
  exact .answer
    { runs := by simpa [Runs, hhandle, hnames] using hp.grow hs.toGrown
      kept := ⟨hs.toGrown, id, id⟩
      spent := (hs.mono (by decide)).spent
      handle := by simp [hhandle]
      vars := by simp [hnames] }

/-! ## Entering what was declared -/

section

variable (hp : p.Runs before) (hi : i.Plain)
  (hfree : ∀ l ∈ i.declared, ∀ j ∈ before, j.declared ≠ some l)

include hp hfree

/-- What an instruction declares for the first time is not in the table. -/
lemma Runs.nodup_names : (before.flatMap Instruction.names ++ i.names).Nodup := by
  have hbefore : ((before.flatMap Instruction.names).map VarRef.name).Nodup :=
    hp.varKeys ▸ p.labels.vars.nodupKeys
  refine List.nodup_append.2 ⟨.of_map _ hbefore, i.nodup_names, ?_⟩
  rintro r hr _ hr' rfl
  obtain ⟨j, hj, hr⟩ := List.mem_flatMap.1 hr
  exact hfree r.label (declared_eq_some_iff.2 ⟨r, hr', rfl⟩) j hj
    (declared_eq_some_iff.2 ⟨r, hr, rfl⟩)

include hi

/-- Whatever an instruction has put into the sketch, its variables are entered at last. -/
lemma Runs.ran_enter (entries : List (VarRef × VarId))
    (hq : q.Fits ((before ++ [i]).filterMap Instruction.declaredHandle)
      (before.flatMap Instruction.names)) (hkept : p.Extends q)
    (hspent : q.sketch.spent ≤ p.sketch.spent + 5) (hhandle : ∀ {l}, i.declaredHandle = some l →
      ∃ h, q.labels.handle? l = some h ∧ p.sketch.handles.contains h = false)
    (hnames : i.names = entries.map Prod.fst)
    (hentries : ∀ e ∈ entries, i.Denotes q.sketch q.labels e.1 e.2 ∧ p.Introduces i e.1 e.2) :
    Ran before i p { q with labels := q.labels.enter entries } := by
  obtain ⟨hfits, hextends, hfound⟩ := hq.enter entries
    (fun e he => hi.names (hnames ▸ List.mem_map_of_mem he)) (hnames ▸ hp.nodup_names hfree)
    fun e he => contains_of_denotes hq.intact (hentries e he).1
  refine
    { runs := by simpa [Runs, hnames] using hfits
      kept := hkept.trans hextends
      spent := hspent
      handle := fun hl => ?_
      vars := fun r hr => ?_ }
  · obtain ⟨h, hh, hnew⟩ := hhandle hl
    exact ⟨h, hextends.handles hh, hnew⟩
  · rw [hnames] at hr
    obtain ⟨e, he, rfl⟩ := List.mem_map.1 hr
    obtain ⟨hdenotes, hnew⟩ := hentries e he
    exact ⟨e.2, hfound e he, hextends.denotes hdenotes, hnew⟩

/-- The same for an instruction that declares no handle. -/
lemma Runs.ran_enter_grown (entries : List (VarRef × VarId)) (hs : Grows 5 p.sketch s)
    (hhandle : i.declaredHandle = none) (hnames : i.names = entries.map Prod.fst)
    (hentries : ∀ e ∈ entries, i.Denotes s p.labels e.1 e.2 ∧ p.Introduces i e.1 e.2) :
    Ran before i p ⟨s, p.labels.enter entries⟩ :=
  hp.ran_enter (q := ⟨s, p.labels⟩) hi hfree entries (by simpa [hhandle] using hp.grow hs.toGrown)
    ⟨hs.toGrown, id, id⟩ hs.spent (by simp [hhandle]) hnames hentries

/-- Declaring the variable of a constraint that owns one. -/
lemma Runs.judges_declare (hhandle : i.declaredHandle = none) {l : Label}
    (hnames : i.names = [⟨l, none⟩])
    {e : Edit α ConstraintId} {c : VarId → Constraint α} (howned : ∀ v, (c v).owned = [v])
    (he : Edit.Ensures (fun _ => False) e
      (fun k s => ∃ v, Introduced (c v) k p.sketch s) p.sketch)
    (hdenotes : ∀ {s : Sketch α} {k v}, s.constraints.get? k = some (c v) →
      i.Denotes s p.labels ⟨l, none⟩ v) :
    Judges True (Ran before i p) (p.declare l e) := by
  obtain ⟨k, s, hrun, v, hv⟩ := edit_ok he
  have hown : ownedBy { p with sketch := s } k = .ok [v] := howned v ▸ ownedBy_ok hv.constraint
  simp only [declare, hrun, ok_bind, hown]
  refine .answer (hp.ran_enter_grown hi hfree [(⟨l, none⟩, v)] hv.toGrows hhandle
    (by simp [hnames]) ?_)
  simp only [List.mem_singleton, forall_eq]
  exact ⟨hdenotes hv.constraint, Or.inl (hv.fresh v (by simp [howned]))⟩

end

/-- Declaring a handle with its coordinates. -/
lemma Runs.judges_handle (hp : p.Runs before) {l : Label} {position : Point α}
    (hi : (Instruction.handle l position).Plain) (hfree : ∀ j ∈ before, j.declared ≠ some l) :
    Judges True (Ran before (.handle l position) p)
      (do
        let (id, sketch) := p.sketch.addHandle position
        match sketch.handles.get? id with
        | some h =>
          let labels := p.labels.nameHandle l id
          let labels := labels.name ⟨l, some .x⟩ h.x
          return ⟨sketch, labels.name ⟨l, some .y⟩ h.y⟩
        | none => throw (.solver (.handleNotFound id))) := by
  have hl : l ∉ p.labels.handles.keys := by
    rw [hp.handleKeys, List.mem_filterMap]
    rintro ⟨j, hj, hl⟩
    exact hfree j hj (declared_of_declaredHandle hl)
  have hnew : ∀ v : VarId, p.sketch.ids.next < v.index → p.sketch.arena.contains v = false := by
    intro v hv
    rw [← Bool.not_eq_true]
    exact fun hcontains => absurd (hp.intact.variableIds hcontains) (Nat.lt_asymm hv)
  have hgrown := Grows.addHandle hp.intact position
  have hget : (p.sketch.addHandle position).2.handles.get? ⟨p.sketch.ids.next⟩ =
      some { x := ⟨p.sketch.ids.next + 1⟩, y := ⟨p.sketch.ids.next + 2⟩ } :=
    (HandleTable.get?_insert _ _ _ _ _).trans (if_pos rfl)
  have hcoords := HandleTable.coords?_of_get? hget
  obtain ⟨s, hs⟩ : ∃ s, p.sketch.addHandle position = (⟨p.sketch.ids.next⟩, s) := ⟨_, rfl⟩
  rw [hs] at hgrown hget hcoords
  have hfits := (hp.grow hgrown.toGrown).nameHandle (hp.handleKeys ▸ hl)
    ((HandleTable.contains_iff_coords? _).2 ⟨_, hcoords⟩)
  have hkept : p.Extends ⟨s, p.labels.nameHandle l ⟨p.sketch.ids.next⟩⟩ :=
    .trans (q := ⟨s, p.labels⟩) ⟨hgrown.toGrown, id, id⟩
      (.nameHandle (p := ⟨s, p.labels⟩) hgrown.intact hl _)
  have hfound : (p.labels.nameHandle l ⟨p.sketch.ids.next⟩).handle? l =
      some ⟨p.sketch.ids.next⟩ := (OrderedMap.get?_insert _ _ _ _).trans (if_pos rfl)
  simp only [hs, hget]
  refine .answer (hp.ran_enter hi (by simpa [declared] using hfree)
    [(⟨l, some .x⟩, ⟨p.sketch.ids.next + 1⟩), (⟨l, some .y⟩, ⟨p.sketch.ids.next + 2⟩)]
    (by simpa [declaredHandle] using hfits) hkept hgrown.spent ?_ rfl ?_)
  · rintro _ ⟨⟩
    exact ⟨_, hfound, hp.intact.fresh_handle⟩
  · simp only [List.mem_cons, List.not_mem_nil, or_false, forall_eq_or_imp, forall_eq]
    exact ⟨⟨.x hfound hcoords, Or.inl (hnew _ (by simp))⟩,
      ⟨.y hfound hcoords, Or.inl (hnew _ (by simp))⟩⟩

/-- Declaring a polar vector, which may be there already. -/
lemma Runs.judges_polar (hp : p.Runs before) {l start finish : Label}
    (hi : (Instruction.polar l start finish : Instruction α).Plain)
    (hfree : ∀ j ∈ before, j.declared ≠ some l) {h k : HandleId}
    (hstart : p.labels.handle? start = some h ∧ p.sketch.handles.contains h = true)
    (hfinish : p.labels.handle? finish = some k ∧ p.sketch.handles.contains k = true) :
    Judges True (Ran before (.polar l start finish) p)
      (do
        let (id, p) ← p.edit (Sketch.polar h k)
        match ← p.ownedBy id with
        | [length, bearing] =>
          let labels := p.labels.name ⟨l, some .distance⟩ length
          return { p with labels := labels.name ⟨l, some .angle⟩ bearing }
        | _ => throw (.solver (.constraintNotFound id))) := by
  obtain ⟨id, s, hrun, length, bearing, hs⟩ :=
    edit_ok (ensures_polar_introduced hp.intact hstart.2 hfinish.2)
  have hgrown : Grows 5 p.sketch s := by
    rcases hs with hs | ⟨rfl, -⟩
    · exact hs.toGrows
    · exact (Grows.refl hp.intact).mono (Nat.zero_le 5)
  have hget : s.constraints.get? id = some (.polar h k length bearing) := by
    rcases hs with hs | ⟨rfl, hget⟩
    · exact hs.constraint
    · exact hget
  have hown : ownedBy ⟨s, p.labels⟩ id = .ok [length, bearing] :=
    (ownedBy_ok (p := ⟨s, p.labels⟩) hget :)
  simp only [hrun, ok_bind, hown]
  refine .answer (hp.ran_enter_grown hi (by simpa [declared] using hfree)
    [(⟨l, some .distance⟩, length), (⟨l, some .angle⟩, bearing)] hgrown rfl rfl ?_)
  simp only [List.mem_cons, List.not_mem_nil, or_false, forall_eq_or_imp, forall_eq]
  refine ⟨⟨.length hstart.1 hfinish.1 hget, ?_⟩, ⟨.bearing hstart.1 hfinish.1 hget, ?_⟩⟩
  · rcases hs with hs | ⟨rfl, hget⟩
    · exact Or.inl (hs.fresh length List.mem_cons_self)
    · exact Or.inr ⟨⟨l, start, finish, rfl⟩, .length hstart.1 hfinish.1 hget⟩
  · rcases hs with hs | ⟨rfl, hget⟩
    · exact Or.inl (hs.fresh bearing (List.mem_cons_of_mem _ List.mem_cons_self))
    · exact Or.inr ⟨⟨l, start, finish, rfl⟩, .bearing hstart.1 hfinish.1 hget⟩

/-- **An instruction** succeeds exactly if its labels are in order, and else fails because of a
label. -/
theorem Runs.judges_execute (hp : p.Runs before) (hi : i.Plain) :
    Judges (i.Labelled before) (Ran before i p) (p.execute i) := by
  have hin : p.sketch.Intact := hp.intact
  have hclaim {l : Label} (hl : i.declared = some l) := hp.judges_claim (hi.declared hl)
  have hresolve {r : VarRef} (hr : r ∈ i.varRefs) := hp.judges_resolve (hi.varRefs hr)
  cases i with
  | handle l position =>
      refine ((hclaim rfl).bind fun _ hfree _ => hp.judges_handle hi hfree).of_iff ?_
      simp [labelled_iff, declared, handleRefs, varRefs]
  | var l value =>
      refine ((hclaim rfl).bind fun _ hfree _ => (?_ : Judges True _ _)).of_iff ?_
      · refine .answer (hp.ran_enter_grown hi (by simpa [declared] using hfree)
          [(⟨l, none⟩, ⟨p.sketch.ids.next⟩)] ((Grows.addVariable hin value _).mono (by decide)) rfl
          rfl ?_)
        simp only [List.mem_singleton, forall_eq]
        exact ⟨.var ((Arena.contains_insert _ _ _ _ _).2 (Or.inl rfl)),
          Or.inl hin.toSoundExcept.fresh_variable⟩
      · simp [labelled_iff, declared, handleRefs, varRefs]
  | pin l position =>
      refine ((hp.judges_resolveHandle l).bind fun h _ hh =>
        hp.judges_edit rfl rfl ?_).of_iff ?_
      · cases position with
        | some position => exact ensures_pin_grows hin hh.2 position
        | none =>
            obtain ⟨x, hx⟩ := position_ok hin hh.2
            simp only
            rw [Edit.ensures_get_bind, Edit.ensures_found hx]
            exact ensures_pin_grows hin hh.2 x
      · simp [labelled_iff, declared, handleRefs, varRefs]
  | finger l position =>
      refine ((hp.judges_resolveHandle l).bind fun h _ hh =>
        hp.judges_edit rfl rfl (ensures_finger_grows hin hh.2 position)).of_iff ?_
      simp [labelled_iff, declared, handleRefs, varRefs]
  | absorb parent child =>
      refine ((hp.judges_resolveHandle parent).bind fun h _ hh =>
        (hp.judges_resolveHandle child).bind fun k _ hk =>
          hp.judges_edit rfl rfl (ensures_absorb_grows hin hh.2 hk.2)).of_iff ?_
      simp [labelled_iff, declared, handleRefs, varRefs]
  | polar l start finish =>
      refine ((hclaim rfl).bind fun _ hfree _ => (hp.judges_resolveHandle start).bind fun h _ hh =>
        (hp.judges_resolveHandle finish).bind fun k _ hk =>
          hp.judges_polar hi hfree hh hk).of_iff ?_
      simp [labelled_iff, declared, handleRefs, varRefs]
  | distance l start finish =>
      refine ((hclaim rfl).bind fun _ hfree _ => (hp.judges_resolveHandle start).bind fun h _ hh =>
        (hp.judges_resolveHandle finish).bind fun k _ hk =>
          hp.judges_declare hi (by simpa [declared] using hfree) rfl rfl
            (fun _ => rfl) (ensures_distance_introduced hin hh.2 hk.2)
            fun hget => .distance hh.1 hk.1 hget).of_iff ?_
      simp [labelled_iff, declared, handleRefs, varRefs]
  | angle l start finish =>
      refine ((hclaim rfl).bind fun _ hfree _ => (hp.judges_resolveHandle start).bind fun h _ hh =>
        (hp.judges_resolveHandle finish).bind fun k _ hk =>
          hp.judges_declare hi (by simpa [declared] using hfree) rfl rfl
            (fun _ => rfl) (ensures_angle_introduced hin hh.2 hk.2)
            fun hget => .angle hh.1 hk.1 hget).of_iff ?_
      simp [labelled_iff, declared, handleRefs, varRefs]
  | linear y m x b =>
      refine ((hresolve (r := y) (by simp [varRefs])).bind fun v _ hv =>
        (hresolve (r := x) (by simp [varRefs])).bind fun w _ hw =>
          hp.judges_edit rfl rfl (ensures_makeEqual_grows hin hv.2 hw.2 ⟨m, b⟩)).of_iff ?_
      simp [labelled_iff, declared, handleRefs, varRefs]
  | formula l m x b =>
      refine ((hclaim rfl).bind fun _ hfree _ =>
        (hresolve (r := m) (by simp [varRefs])).bind fun u _ hu =>
        (hresolve (r := x) (by simp [varRefs])).bind fun v _ hv =>
          (hresolve (r := b) (by simp [varRefs])).bind fun w _ hw =>
            hp.judges_declare hi (by simpa [declared] using hfree) rfl rfl
              (fun _ => rfl) (ensures_formula_introduced hin hu.2 hv.2 hw.2)
              fun hget => .formula hu.1 hv.1 hw.1 hget).of_iff ?_
      simp [labelled_iff, declared, handleRefs, varRefs]
  | lock target value =>
      refine ((hresolve (r := target) (by simp [varRefs])).bind fun v _ hv =>
        hp.judges_edit rfl rfl ((ensures_lock_grows hin hv.2 value false).imp fun _ _ h =>
          h.mono (Nat.zero_le 1))).of_iff ?_
      simp [labelled_iff, declared, handleRefs, varRefs]

end Progress

end Script

end SketchSolver
