import Mathlib
import SketchSolver.Command
import SketchSolver.Proofs.Script.Execute
import SketchSolver.Proofs.Script.Parse

/-!
# What running a sketch file comes to

A sketch file runs exactly if its labels are in order; nothing that the instructions do to the
sketch can fail besides.  Afterwards every name in the table is that of a declaration, and stands
for what that declaration has put into the sketch.

* `Progress.Runs.judges_foldlM` — one instruction after the other.
* `Script.Bound s t` — in the sketch `s` with the labels `t`, every declared label is bound to what
  its instruction has created (`Creates`), or to a polar vector that was there already (`Repeats`).
* `Command.solutionLines_of_solveText` — what has a label can be printed after a solve.
* `run_of_parse` — all of it, for a text.

The counter of identifiers has no bound here, and that of a machine has 32 bits.  An instruction
takes five identifiers at most, so less than `2 ^ 29` instructions stay below `2 ^ 32`.
-/

namespace SketchSolver

namespace Script

section

variable {α : Type} [Scalar α]

namespace Progress

variable {p : Progress α} {done todo : List (Instruction α)}

lemma runs_empty : Runs [] (⟨.empty, .empty⟩ : Progress α) where
  intact := Sketch.intact_withConfig _
  handleKeys := rfl
  varKeys := rfl
  plain := by simp
  handles := by rintro l h ⟨⟩
  vars := by rintro n v ⟨⟩

/-- Where running some more instructions leads. -/
structure Onward (done todo : List (Instruction α)) (p q : Progress α) : Prop where
  runs : q.Runs (done ++ todo)
  kept : p.Extends q
  spent : q.sketch.spent ≤ p.sketch.spent + 5 * todo.length

/-- **A run** succeeds exactly if the labels of all instructions are in order. -/
lemma Runs.judges_foldlM (hp : p.Runs done) (htodo : ∀ i ∈ todo, i.Plain) :
    Judges (∀ before i after, todo = before ++ i :: after → i.Labelled (done ++ before))
      (Onward done todo p) (todo.foldlM execute p) := by
  refine .foldlM todo (P := fun before => Onward done before p)
    (C := fun before i => i.Labelled (done ++ before)) (fun before i hi q hq => ?_)
    ⟨by simpa using hp, .refl hp.intact, le_rfl⟩
  refine (hq.runs.judges_execute (htodo i hi)).imp fun q' h => ⟨?_, hq.kept.trans h.kept, ?_⟩
  · simpa only [List.append_assoc] using h.runs
  · have hbefore := hq.spent
    have hi := h.spent
    rw [List.length_append, List.length_singleton]
    omega

end Progress

/-- Running `before` leads to a sketch that does not have it, and running `i` as well to one that
does. -/
def Creates (before : List (Instruction α)) (i : Instruction α) (has : Sketch α → Bool) : Prop :=
  ∃ s₁ t₁ s₂ t₂, run ⟨before⟩ = .ok (s₁, t₁) ∧ run ⟨before ++ [i]⟩ = .ok (s₂, t₂) ∧
    has s₁ = false ∧ has s₂ = true

/-- Running `before` leads to a sketch in which the polar vector that `i` declares has the variable
already. -/
def Repeats (before : List (Instruction α)) (i : Instruction α) (r : VarRef) (v : VarId) : Prop :=
  (∃ l start finish, i = .polar l start finish) ∧
    ∃ s t, run ⟨before⟩ = .ok (s, t) ∧ i.Denotes s t r v

/-- The labels stand for what the instructions have declared. -/
structure Bound (script : Script α) (s : Sketch α) (t : Labels) : Prop where
  /-- The labels of the handles are those that are declared. -/
  handleKeys : t.handles.keys = script.handleLabels
  /-- The names of the variables are those that are declared. -/
  varKeys : t.vars.keys = (script.instructions.flatMap Instruction.names).map VarRef.name
  /-- No label is declared twice. -/
  distinct : (script.instructions.filterMap Instruction.declared).Nodup
  handles : ∀ before l position after,
    script.instructions = before ++ .handle l position :: after →
      ∃ h, t.handle? l = some h ∧ s.handles.contains h = true ∧
        Creates before (.handle l position) fun s => s.handles.contains h
  vars : ∀ before i after, script.instructions = before ++ i :: after → ∀ r ∈ i.names,
    ∃ v, t.var? r.name = some v ∧ s.arena.contains v = true ∧ i.Denotes s t r v ∧
      ((Creates before i fun s => s.arena.contains v) ∨ Repeats before i r v)

variable {script : Script α} {s : Sketch α} {t : Labels}

omit [Scalar α] in
lemma Labelled.distinct (h : script.Labelled) :
    (script.instructions.filterMap Instruction.declared).Nodup := by
  rw [List.Nodup, List.pairwise_filterMap, List.pairwise_iff_getElem]
  rintro m n hm hn hlt l hl _ hl' rfl
  refine (script.labelled_iff_take.1 h n hn).fresh l hl' _ ?_ hl
  exact List.mem_take_iff_getElem.2 ⟨m, by omega, rfl⟩

lemma run_eq_ok_iff {before : List (Instruction α)} {q : Progress α} :
    run ⟨before⟩ = .ok (q.sketch, q.labels) ↔
      before.foldlM Progress.execute ⟨.empty, .empty⟩ = .ok q := by
  rw [run, bind_eq_ok_iff]
  constructor
  · rintro ⟨⟨s, t⟩, hfold, hq⟩
    cases hq
    exact hfold
  · exact fun hfold => ⟨q, hfold, rfl⟩

/-- A sketch file runs exactly if its labels are in order. -/
lemma judges_run (hplain : ∀ i ∈ script.instructions, i.Plain) :
    Judges script.Labelled (fun r =>
      Progress.Onward [] script.instructions ⟨.empty, .empty⟩ ⟨r.1, r.2⟩) script.run := by
  have hfold := Progress.runs_empty.judges_foldlM hplain
  exact (hfold.bind fun q _ hq => .answer (P := fun r : Sketch α × Labels =>
    Progress.Onward [] script.instructions ⟨.empty, .empty⟩ ⟨r.1, r.2⟩) hq).of_iff
      (and_iff_left trivial)

/-- What is bound after a run. -/
lemma bound_of_run (hplain : ∀ i ∈ script.instructions, i.Plain)
    (hrun : script.run = .ok (s, t)) : script.Bound s t := by
  obtain ⟨hlabelled, hend⟩ := (judges_run hplain).accepts.of_ok hrun
  -- the states before and after an instruction
  have hsplit : ∀ {before i after}, script.instructions = before ++ i :: after →
      ∃ p q, run ⟨before⟩ = .ok (p.sketch, p.labels) ∧
        run ⟨before ++ [i]⟩ = .ok (q.sketch, q.labels) ∧
        Progress.Ran before i p q ∧ q.Extends ⟨s, t⟩ := by
    intro before i after hsplit
    rw [hsplit] at hplain
    have hfold : (before ++ i :: after).foldlM Progress.execute ⟨.empty, .empty⟩ =
        .ok (⟨s, t⟩ : Progress α) := hsplit ▸ run_eq_ok_iff.1 hrun
    obtain ⟨p, q, hbefore, hstep, hafter⟩ := foldlM_append_cons hfold
    have hp := ((Progress.runs_empty.judges_foldlM fun j hj =>
      hplain j (List.mem_append_left _ hj)).accepts.of_ok hbefore).2.runs
    have hran := ((hp.judges_execute (hplain i (by simp))).accepts.of_ok hstep).2
    have hkept := ((hran.runs.judges_foldlM fun j hj =>
      hplain j (List.mem_append_right _ (List.mem_cons_of_mem _ hj))).accepts.of_ok hafter).2.kept
    refine ⟨p, q, run_eq_ok_iff.2 hbefore, run_eq_ok_iff.2 ?_, hran, hkept⟩
    rw [List.foldlM_append, hbefore, ok_bind, List.foldlM_cons, hstep]
    rfl
  refine
    { handleKeys := hend.runs.handleKeys
      varKeys := hend.runs.varKeys
      distinct := hlabelled.distinct
      handles := fun before l position after h => ?_
      vars := fun before i after h r hr => ?_ }
  · obtain ⟨p, q, hp, hq, hran, hkept⟩ := hsplit h
    obtain ⟨id, hid, hnew⟩ := hran.handle rfl
    have hlive := hran.runs.handles hid
    exact ⟨id, hkept.handles hid, hkept.grown.handles hlive, _, _, _, _, hp, hq, hnew, hlive⟩
  · obtain ⟨p, q, hp, hq, hran, hkept⟩ := hsplit h
    obtain ⟨v, hv, hdenotes, hnew⟩ := hran.vars r hr
    have hlive := hran.runs.vars hv
    refine ⟨v, hkept.vars hv, hkept.grown.vars hlive, hkept.denotes hdenotes, ?_⟩
    rcases hnew with hnew | ⟨hpolar, hold⟩
    · exact Or.inl ⟨_, _, _, _, hp, hq, hnew, hlive⟩
    · exact Or.inr ⟨hpolar, _, _, hp, hold⟩

end

end Script

namespace Command

open Script

variable {handles : List Label} {refs : List VarRef} {solution : Solution}

/-- Every handle that has a label has a position. -/
lemma handleLines_ok (h : Progress.Fits handles refs ⟨solution.sketch, solution.labels⟩) :
    ∃ lines, handleLines solution = .ok lines := by
  refine mapM_succeeds fun ⟨l, id⟩ he => ?_
  have hid := h.handles ((OrderedMap.mem_entries_iff _ _ _).1 he)
  obtain ⟨x, hx⟩ : ∃ x, solution.sketch.position id = .ok x := Sketch.position_ok h.intact hid
  simp only [hx, ok_bind]
  exact ⟨_, rfl⟩

/-- Every variable that has a name has a value, and it is known whether it is locked. -/
lemma variableLines_ok (h : Progress.Fits handles refs ⟨solution.sketch, solution.labels⟩) :
    ∃ lines, variableLines solution = .ok lines := by
  refine mapM_succeeds fun ⟨n, v⟩ he => ?_
  have hv := h.vars ((OrderedMap.mem_entries_iff _ _ _).1 he)
  obtain ⟨x, hx⟩ : ∃ x, solution.sketch.arena.value v = .ok x := Arena.value_ok hv
  have hlocked : solution.sketch.isLocked v = .ok _ := Sketch.isLocked_eq hv
  simp only [hx, hlocked, ok_bind]
  exact ⟨_, rfl⟩

lemma solutionLines_ok (h : Progress.Fits handles refs ⟨solution.sketch, solution.labels⟩)
    (o : Options) (times : List String) : ∃ lines, solutionLines o times solution = .ok lines := by
  obtain ⟨handles, hhandles⟩ := handleLines_ok h
  obtain ⟨vars, hvars⟩ := variableLines_ok h
  rw [solutionLines, hhandles, ok_bind]
  split
  · exact ⟨_, by rw [hvars]; rfl⟩
  · exact ⟨_, rfl⟩

/-- A text is solved by reading it, running it and solving the sketch. -/
lemma exists_of_solveText {o : Options} {text : String} (h : solveText o text = .ok solution) :
    ∃ script s, Script.parse text = .ok script ∧ script.run = .ok (s, solution.labels) ∧
      Sketch.solve (configure o s) = .ok solution.report solution.sketch := by
  rw [solveText] at h
  cases hparse : Script.parse text with
  | error e =>
      rw [hparse] at h
      cases h
  | ok script =>
      cases hrun : script.run with
      | error e =>
          rw [hparse, Except.bind, hrun] at h
          cases h
      | ok r =>
          rw [hparse, Except.bind, hrun] at h
          obtain ⟨s, t⟩ := r
          cases hsolve : Sketch.solve (configure o s) with
          | error e s' =>
              simp only [EStateM.run, hsolve] at h
              cases h
          | ok report s' =>
              simp only [EStateM.run, hsolve] at h
              cases h
              exact ⟨script, s, rfl, hrun, hsolve⟩

/-- After a successful solve, everything that has a label is still there. -/
lemma solutionLines_of_solveText {o : Options} {text : String}
    (h : solveText o text = .ok solution) (times : List String) :
    ∃ lines, solutionLines o times solution = .ok lines := by
  obtain ⟨script, s, hparse, hrun, hsolve⟩ := exists_of_solveText h
  have hruns := ((judges_run (plain_of_parse hparse)).accepts.of_ok hrun).2.runs
  have hconfigured : s.Grown (configure o s) :=
    ⟨{ hruns.intact with }, id, id, fun hget _ => hget⟩
  have hsolved := Sketch.ensures_solve_grown hconfigured.intact
  rw [Edit.Ensures, hsolve] at hsolved
  exact solutionLines_ok (hruns.grow (hconfigured.trans hsolved)) o times

end Command

namespace Script

/-- **Sketch files.**  A file that was read runs exactly if every label is declared at most once and
before it is referred to, and otherwise the error names a label.  After a run the labels stand for
what the instructions have declared; an instruction takes five identifiers at most.  If the sketch
is solved then, everything that has a label can be printed. -/
theorem run_of_parse {text : String} {script : Script Float} (hparse : parse text = .ok script) :
    (∀ e, script.run = .error e →
      (∃ l, e = .undefinedLabel l) ∨ ∃ l, e = .duplicateLabel l) ∧
    ((∃ r, script.run = .ok r) ↔ script.Labelled) ∧
    (∀ s t, script.run = .ok (s, t) →
      script.Bound s t ∧ s.ids.next ≤ 5 * script.instructions.length) ∧
    ∀ o times solution, Command.solveText o text = .ok solution →
      ∃ lines, Command.solutionLines o times solution = .ok lines := by
  have hplain := plain_of_parse hparse
  have hjudges := judges_run hplain
  refine ⟨fun e he => ?_, hjudges.accepts.iff,
    fun s t hrun => ⟨bound_of_run hplain hrun, ?_⟩,
    fun o times solution hsolve => Command.solutionLines_of_solveText hsolve times⟩
  · have hlabel := hjudges.atLabel he
    cases e with
    | undefinedLabel l => exact Or.inl ⟨l, rfl⟩
    | duplicateLabel l => exact Or.inr ⟨l, rfl⟩
    | syntaxError _ _ => exact hlabel.elim
    | solver _ => exact hlabel.elim
  · have hspent := (hjudges.accepts.of_ok hrun).2.spent
    exact s.next_le_spent.trans (hspent.trans_eq (Nat.zero_add _))

/-- A polar vector that is declared twice, and a formula of its angle. -/
def braced : String :=
  "handle a (0, 0)\nhandle b (3, 4)\npolar rod = a b\npolar same = a b # once more\n" ++
    "formula r = rod.angle * a.x + b.y"

/-- A handle and a variable without any constraint. -/
def loose : String :=
  "handle a (0, 0)\nvar w 2"

/-- The file with the vector runs, and the other one can be solved and printed. -/
theorem run_braced :
    (∃ script s t, parse braced = .ok script ∧ script.run = .ok (s, t) ∧ script.Bound s t) ∧
      ∃ script solution lines, parse loose = .ok script ∧
        Command.solveText { path := "-", showVariables := true } loose = .ok solution ∧
        Command.solutionLines { path := "-", showVariables := true } [] solution = .ok lines := by
  have hbraced : braced.toList = _ :=
    String.toList_append.trans (congrArg₂ _ String.toList_ofList String.toList_ofList)
  have hlabelled : (parse braced).toOption.any (decide ·.Labelled) = true := by
    rw [parse, hbraced]
    decide +kernel
  have hread : (parse loose).toOption.isSome = true := by
    rw [parse, loose, String.toList_ofList]
    decide +kernel
  have hsolved : (Command.solveText { path := "-", showVariables := true } loose).toOption.isSome =
      true := by decide +kernel
  constructor
  · cases hparse : parse braced with
    | error e =>
        rw [hparse] at hlabelled
        cases hlabelled
    | ok script =>
        rw [hparse] at hlabelled
        obtain ⟨-, hruns, hbound, -⟩ := run_of_parse hparse
        obtain ⟨⟨s, t⟩, hrun⟩ := hruns.2 (of_decide_eq_true hlabelled)
        exact ⟨script, s, t, rfl, hrun, (hbound s t hrun).1⟩
  · cases hparse : parse loose with
    | error e =>
        rw [hparse] at hread
        cases hread
    | ok script =>
        cases hsolve : Command.solveText { path := "-", showVariables := true } loose with
        | error e =>
            rw [hsolve] at hsolved
            cases hsolved
        | ok solution =>
            obtain ⟨-, -, -, hprint⟩ := run_of_parse hparse
            obtain ⟨lines, hlines⟩ := hprint _ [] _ hsolve
            exact ⟨script, solution, lines, rfl, rfl, hlines⟩

end Script

end SketchSolver
