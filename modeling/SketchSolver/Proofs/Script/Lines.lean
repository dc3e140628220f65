import Mathlib
import SketchSolver.Proofs.Script.Grammar
import SketchSolver.Proofs.Text.Lines
import SketchSolver.Proofs.Traversal
import SketchSolver.Script

/-!
# Reading a sketch file line by line

A sketch file is read as the sequence of its `remainders`: what its lines say, each with the number
of its line, without those that say nothing (`parse_eq`).  Nothing else of the text matters, so
whatever moves lines about only moves the numbers in the errors (`mapM_renumber`).

* `Script.Says line said` — what is left of a line without its comment and the blanks around it.
* `Script.Idle line` — nothing is left of it.
* `Script.Pads f lines padded` — the lines have moved, the `n`-th to the place `f n`, and idle lines
  stand between them, as after `pads_insert`.
* `parse_lines` — what a text is read as, what two texts one after the other are read as, and what a
  text with more idle lines is read as.
-/

namespace SketchSolver

/-- The error with its line at another place. -/
def ScriptError.renumber (f : ℕ → ℕ) : ScriptError → ScriptError
  | .syntaxError line text => .syntaxError (f line) text
  | e => e

namespace Script

open SketchSolver.Parser

variable {line said front comment : List Char} {lines padded : List (List Char)} {n : ℕ}
variable {f : ℕ → ℕ} {r : List Char × ℕ} {i : Instruction Float} {e : ScriptError}

/-! ## What a line says -/

/-- A line says what stands before its first `#`, without the blanks around it. -/
def Says (line said : List Char) : Prop :=
  ∃ front comment, line = front ++ comment ∧ '#' ∉ front ∧ (∀ c ∈ comment.head?, c = '#') ∧
    Text.Trims front said

/-- The line is blank, or a comment with nothing but blanks before it. -/
def Idle (line : List Char) : Prop :=
  ∃ front comment, line = front ++ comment ∧ (∀ c ∈ front, Text.isBlank c = true) ∧
    ∀ c ∈ comment.head?, c = '#'

lemma content_append (hfront : '#' ∉ front) (hcomment : ∀ c ∈ comment.head?, c = '#') :
    content (front ++ comment) = Text.trim front := by
  have hwhile : ∀ c ∈ front, decide (c ≠ '#') = true := by
    intro c hc
    refine decide_eq_true ?_
    rintro rfl
    exact hfront hc
  rw [content, takeWhile_append hwhile fun c hc => by rw [hcomment c hc]; rfl]

/-- Where the comment of a line begins. -/
lemma exists_comment (line : List Char) : ∃ front comment, line = front ++ comment ∧
    '#' ∉ front ∧ ∀ c ∈ comment.head?, c = '#' := by
  refine ⟨line.takeWhile (· ≠ '#'), line.dropWhile (· ≠ '#'),
    List.takeWhile_append_dropWhile.symm, fun hmem => ?_, fun c hc => ?_⟩
  · have h := List.mem_takeWhile_imp hmem
    simp at h
  · have h := List.head?_dropWhile_not (fun c : Char => decide (c ≠ '#')) line
    rw [Option.mem_def.1 hc] at h
    simpa using h

/-- A line says one thing. -/
lemma says_iff : Says line said ↔ said = content line := by
  constructor
  · rintro ⟨front, comment, rfl, hfront, hcomment, htrims⟩
    rw [content_append hfront hcomment]
    exact Text.trims_iff.1 htrims
  · rintro rfl
    obtain ⟨front, comment, rfl, hfront, hcomment⟩ := exists_comment line
    rw [content_append hfront hcomment]
    exact ⟨front, comment, rfl, hfront, hcomment, Text.trims_trim front⟩

lemma idle_iff : Idle line ↔ content line = [] := by
  constructor
  · rintro ⟨front, comment, rfl, hblank, hcomment⟩
    have hfront : '#' ∉ front := fun hmem => absurd (hblank '#' hmem) (by decide)
    rw [content_append hfront hcomment]
    exact (Text.trims_iff.1 ⟨⟨front, [], by simp, by simpa using hblank⟩, by simp, by simp⟩).symm
  · intro hnil
    obtain ⟨front, comment, rfl, hfront, hcomment⟩ := exists_comment line
    rw [content_append hfront hcomment] at hnil
    obtain ⟨before, after, hsplit, hblank⟩ := (Text.trims_trim front).around
    rw [hnil, List.append_nil] at hsplit
    exact ⟨front, comment, rfl, hsplit ▸ hblank, hcomment⟩

/-! ## What a text says -/

/-- What the lines say, with their numbers.  All lines are counted, from one, but those that say
nothing are left out. -/
def remainders (lines : List (List Char)) : List (List Char × ℕ) :=
  ((lines.map content).zipIdx 1).filter (·.1 ≠ [])

/-- Reads what a line says. -/
def readRemainder (r : List Char × ℕ) : Except ScriptError (Instruction Float) :=
  match readAll instruction r.1 with
  | none => .error (.syntaxError r.2 (String.ofList r.1))
  | some i => .ok i

lemma readRemainder_eq_ok_iff : readRemainder r = .ok i ↔ r.1 ∈ i.written := by
  rw [← instruction_reads.readAll_eq_some_iff rfl, readRemainder]
  split
  · rename_i hread
    rw [hread]
    exact iff_of_false (by rintro ⟨⟩) (by rintro ⟨⟩)
  · rename_i j hread
    rw [hread, Except.ok.injEq, Option.some.injEq]

lemma exists_readRemainder_iff :
    (∃ i, readRemainder r = .ok i) ↔ ∃ i : Instruction Float, r.1 ∈ i.written :=
  exists_congr fun _ => readRemainder_eq_ok_iff

lemma readRemainder_eq_error_iff : readRemainder r = .error e ↔
    (∀ i : Instruction Float, r.1 ∉ i.written) ∧ e = .syntaxError r.2 (String.ofList r.1) := by
  simp only [← instruction_reads.readAll_eq_some_iff rfl]
  rw [readRemainder]
  split
  · rename_i hread
    rw [Except.error.injEq, hread]
    simp [eq_comm]
  · rename_i j hread
    refine iff_of_false (by rintro ⟨⟩) ?_
    rintro ⟨hnone, -⟩
    exact hnone j hread

/-- Reading goes from remainder to remainder. -/
lemma parseLines_eq (n : ℕ) (lines : List (List Char)) :
    parseLines n lines = (((lines.map content).zipIdx n).filter (·.1 ≠ [])).mapM readRemainder := by
  induction lines generalizing n with
  | nil => rfl
  | cons line lines ih =>
      rw [parseLines, List.map_cons, List.zipIdx_cons]
      split
      · rename_i hnil
        rw [hnil, List.filter_cons_of_neg (by simp), ih]
      · rename_i hne
        rw [List.filter_cons_of_pos (by simpa using hne), List.mapM_cons, ← ih, readRemainder]
        split
        · rename_i hread
          simp only [hread]
          rfl
        · rename_i i hread
          simp only [hread]
          rfl

lemma parse_eq (text : String) : parse text = do
    return ⟨← (remainders (Text.lines text.toList)).mapM readRemainder⟩ := by
  rw [parse, parseLines_eq]
  rfl

lemma parse_eq_ok_iff {text : String} {script : Script Float} : parse text = .ok script ↔
    List.Forall₂ (fun r i => r.1 ∈ i.written) (remainders (Text.lines text.toList))
      script.instructions := by
  simp only [← readRemainder_eq_ok_iff]
  rw [← mapM_eq_ok_iff, parse_eq, bind_eq_ok_iff]
  constructor
  · rintro ⟨found, hfound, ⟨⟩⟩
    exact hfound
  · exact fun hfound => ⟨_, hfound, rfl⟩

lemma parse_eq_error_iff {text : String} : parse text = .error e ↔
    ∃ before said n after, remainders (Text.lines text.toList) = before ++ (said, n) :: after ∧
      (∀ r ∈ before, ∃ i : Instruction Float, r.1 ∈ i.written) ∧
      (∀ i : Instruction Float, said ∉ i.written) ∧ e = .syntaxError n (String.ofList said) := by
  have hmap : parse text = .error e ↔
      (remainders (Text.lines text.toList)).mapM readRemainder = .error e := by
    rw [parse_eq]
    cases (remainders (Text.lines text.toList)).mapM readRemainder with
    | error e' => rw [error_bind, Except.error.injEq, Except.error.injEq]
    | ok found => exact iff_of_false (by rintro ⟨⟩) (by rintro ⟨⟩)
  rw [hmap, mapM_eq_error_iff]
  simp only [exists_readRemainder_iff, readRemainder_eq_error_iff, Prod.exists]

/-! ## Lines at other places -/

/-- Other numbers only change the numbers in the errors. -/
lemma mapM_renumber (f : ℕ → ℕ) (rs : List (List Char × ℕ)) :
    (rs.map (Prod.map id f)).mapM readRemainder =
      (rs.mapM readRemainder).mapError (.renumber f) := by
  rw [List.mapM_map, ← mapM_mapError]
  refine congrArg (List.mapM · rs) (funext fun r => ?_)
  show readRemainder (r.1, f r.2) = (readRemainder r).mapError _
  rw [readRemainder, readRemainder]
  cases readAll instruction r.1 with
  | none => rfl
  | some i => rfl

lemma remainders_append (lines more : List (List Char)) : remainders (lines ++ more) =
    remainders lines ++ (remainders more).map (Prod.map id (· + lines.length)) := by
  have hshift : ((more.map content).zipIdx (1 + lines.length)) =
      ((more.map content).zipIdx 1).map (Prod.map id (· + lines.length)) := by
    refine List.ext_getElem (by simp) fun k _ _ => ?_
    simp only [List.getElem_zipIdx, List.getElem_map, Prod.map_apply, id, Prod.mk.injEq, true_and]
    omega
  rw [remainders, List.map_append, List.zipIdx_append, List.filter_append, List.length_map, hshift,
    List.filter_map]
  rfl

lemma mem_remainders_iff : (said, n) ∈ remainders lines ↔
    said ≠ [] ∧ ∃ k, n = k + 1 ∧ ∃ line, lines[k]? = some line ∧ content line = said := by
  rw [remainders, List.mem_filter, List.mk_mem_zipIdx_iff_le_and_getElem?_sub, List.getElem?_map]
  simp only [Option.map_eq_some_iff, ne_eq, decide_not, Bool.not_eq_true', decide_eq_false_iff_not]
  constructor
  · rintro ⟨⟨hn, hline⟩, hne⟩
    exact ⟨hne, n - 1, by omega, hline⟩
  · rintro ⟨hne, k, rfl, hline⟩
    exact ⟨⟨by omega, hline⟩, hne⟩

/-- The numbers of the remainders are in order. -/
lemma pairwise_remainders (lines : List (List Char)) :
    (remainders lines).Pairwise (·.2 < ·.2) := by
  refine List.Pairwise.filter _ ?_
  rw [← List.pairwise_map (f := Prod.snd) (R := (· < ·)), List.zipIdx_map_snd]
  exact List.pairwise_lt_range' 1

/-- The `n`-th line has moved to the place `f n`, and what stands between the lines is idle. -/
structure Pads (f : ℕ → ℕ) (lines padded : List (List Char)) : Prop where
  mono : StrictMono f
  moved : ∀ n, padded[f n]? = lines[n]?
  idle : ∀ k ∉ Set.range f, ∀ line ∈ padded[k]?, Idle line

/-- One more idle line. -/
lemma pads_insert (front back : List (List Char)) (h : Idle line) :
    Pads (fun n => if n < front.length then n else n + 1) (front ++ back)
      (front ++ line :: back) where
  mono := by
    intro m n hlt
    grind
  moved n := by
    by_cases hn : n < front.length
    · rw [if_pos hn, List.getElem?_append_left hn, List.getElem?_append_left hn]
    · rw [if_neg hn, List.getElem?_append_right (by omega), List.getElem?_append_right (by omega),
        Nat.sub_add_comm (not_lt.1 hn), List.getElem?_cons_succ]
  idle k hk line' hline' := by
    obtain rfl : k = front.length := by
      by_contra hne
      rcases lt_or_gt_of_ne hne with hlt | hgt
      · exact hk ⟨k, if_pos hlt⟩
      · exact hk ⟨k - 1, (if_neg (by omega)).trans (by omega)⟩
    rw [List.getElem?_append_right le_rfl, Nat.sub_self] at hline'
    cases hline'
    exact h

/-- Idle lines only change the numbers.  Both sides are in order, so it is enough that they have the
same members. -/
lemma Pads.remainders_eq (h : Pads f lines padded) :
    remainders padded = (remainders lines).map (Prod.map id fun n => f (n - 1) + 1) := by
  have hirrefl : Std.Irrefl fun r r' : List Char × ℕ => r.2 < r'.2 := ⟨fun r => lt_irrefl r.2⟩
  have hantisymm : Std.Antisymm fun r r' : List Char × ℕ => r.2 < r'.2 :=
    ⟨fun r r' hlt hgt => absurd hlt (lt_asymm hgt)⟩
  refine List.Pairwise.eq_of_mem_iff (r := fun r r' => r.2 < r'.2)
    (pairwise_remainders padded) ?_ ?_
  · rw [List.pairwise_map]
    refine (pairwise_remainders lines).imp_of_mem fun {r r'} hr _ hlt => ?_
    obtain ⟨-, k, hk, -⟩ := mem_remainders_iff.1 (show (r.1, r.2) ∈ remainders lines from hr)
    exact Nat.succ_lt_succ (h.mono (by omega))
  · rintro ⟨said, n⟩
    rw [mem_remainders_iff, List.mem_map]
    constructor
    · rintro ⟨hne, k, rfl, line, hline, hsaid⟩
      by_cases hk : k ∈ Set.range f
      · obtain ⟨m, rfl⟩ := hk
        rw [h.moved] at hline
        exact ⟨(said, m + 1), mem_remainders_iff.2 ⟨hne, m, rfl, line, hline, hsaid⟩, rfl⟩
      · have hidle := idle_iff.1 (h.idle k hk line hline)
        exact absurd (hsaid.symm.trans hidle) hne
    · rintro ⟨⟨said', m⟩, hm, heq⟩
      obtain ⟨hne, k, rfl, line, hline, hsaid⟩ := mem_remainders_iff.1 hm
      cases heq
      exact ⟨hne, f k, rfl, line, (h.moved k).trans hline, hsaid⟩

/-! ## Sketch files -/

lemma parse_append {s : String} (hs : s.toList.getLast? = some '\n') (t : String) :
    parse (s ++ t) = do
      let first ← parse s
      let second ← (parse t).mapError (.renumber (· + (Text.lines s.toList).length))
      return ⟨first.instructions ++ second.instructions⟩ := by
  rw [parse_eq, parse_eq s, parse_eq t, String.toList_append, Text.lines_append hs,
    remainders_append, List.mapM_append, mapM_renumber]
  cases (remainders (Text.lines s.toList)).mapM readRemainder with
  | error e => rfl
  | ok first =>
      cases (remainders (Text.lines t.toList)).mapM readRemainder with
      | error e => rfl
      | ok second => rfl

lemma parse_pads {s t : String} (h : Pads f (Text.lines s.toList) (Text.lines t.toList)) :
    parse t = (parse s).mapError (.renumber fun n => f (n - 1) + 1) := by
  rw [parse_eq, parse_eq s, h.remainders_eq, mapM_renumber]
  cases (remainders (Text.lines s.toList)).mapM readRemainder with
  | error e => rfl
  | ok found => rfl

/-- **Line by line.**  A sketch file is read as the instructions that its lines say, in order, or
else the first line that says something else is reported with its number.  So a text behind a line
feed is read as if it stood alone, but for the numbers of its lines; and so is a text to which blank
lines and comments have been added. -/
theorem parse_lines (s t : String) :
    (∀ lines, Text.Cut s.toList lines ↔ lines = Text.lines s.toList) ∧
    (∀ line said, Says line said ↔ said = content line) ∧
    (∀ script, parse s = .ok script ↔ List.Forall₂ (fun r i => r.1 ∈ i.written)
      (remainders (Text.lines s.toList)) script.instructions) ∧
    (∀ e, parse s = .error e ↔ ∃ before said n after,
      remainders (Text.lines s.toList) = before ++ (said, n) :: after ∧
      (∀ r ∈ before, ∃ i : Instruction Float, r.1 ∈ i.written) ∧
      (∀ i : Instruction Float, said ∉ i.written) ∧ e = .syntaxError n (String.ofList said)) ∧
    (s.toList.getLast? = some '\n' → parse (s ++ t) = do
      let first ← parse s
      let second ← (parse t).mapError (.renumber (· + (Text.lines s.toList).length))
      return ⟨first.instructions ++ second.instructions⟩) ∧
    ∀ f, Pads f (Text.lines s.toList) (Text.lines t.toList) →
      parse t = (parse s).mapError (.renumber fun n => f (n - 1) + 1) :=
  ⟨fun _ => Text.cut_iff, fun _ _ => says_iff, fun _ => parse_eq_ok_iff,
    fun _ => parse_eq_error_iff, fun hs => parse_append hs t, fun _ h => parse_pads h⟩

/-- A pinned handle with a comment and a carriage return behind it, and an empty line. -/
def held : String :=
  "pin a # held\r\n\n"

/-- A comment, and a line that is no instruction. -/
def stray : String :=
  "# b\n\tpin a b\n"

/-- The same lines with a blank one between them, and without the last line feed. -/
def strayer : String :=
  "# b\n \t\r\n\tpin a b"

/-- The line is reported with its number, wherever it comes to stand. -/
theorem parse_stray : (∃ script, parse held = .ok script) ∧
    parse (held ++ stray) = .error (.syntaxError 4 "pin a b") ∧
    parse strayer = .error (.syntaxError 3 "pin a b") := by
  have hheld : remainders (Text.lines held.toList) = [("pin a".toList, 1)] := by
    rw [held, String.toList_ofList, String.toList_ofList]
    decide +kernel
  have hstray : remainders (Text.lines stray.toList) = [("pin a b".toList, 2)] := by
    rw [stray, String.toList_ofList, String.toList_ofList]
    decide +kernel
  have hpin : "pin a".toList ∈ (Instruction.pin ⟨"a"⟩ none : Instruction Float).written := by
    rw [← instruction_reads.readAll_eq_some_iff rfl]
    cbv
  have hnone (i : Instruction Float) : "pin a b".toList ∉ i.written := by
    have hread : (readAll instruction ['p', 'i', 'n', ' ', 'a', ' ', 'b']).isNone = true := by
      decide +kernel
    rw [← instruction_reads.readAll_eq_some_iff rfl, String.toList_ofList,
      Option.isNone_iff_eq_none.1 hread]
    rintro ⟨⟩
  have hok : parse held = .ok ⟨[.pin ⟨"a"⟩ none]⟩ :=
    ((parse_lines held stray).2.2.1 _).2 (hheld ▸ .cons hpin .nil)
  have herror : parse stray = .error (.syntaxError 2 "pin a b") :=
    ((parse_lines stray strayer).2.2.2.1 _).2 ⟨[], _, _, [], hstray, by simp, hnone, by simp⟩
  refine ⟨⟨_, hok⟩, ?_, ?_⟩
  · obtain ⟨-, -, -, -, happend, -⟩ := parse_lines held stray
    rw [happend (by rw [held, String.toList_ofList]; rfl), hok, herror, held, String.toList_ofList]
    rfl
  · obtain ⟨-, -, -, -, -, hpad⟩ := parse_lines stray strayer
    have hlines : Text.lines stray.toList = ["# b".toList] ++ ["\tpin a b".toList] := by
      rw [stray, String.toList_ofList, String.toList_ofList]
      decide +kernel
    have hpadded : Text.lines strayer.toList =
        ["# b".toList] ++ [' ', '\t'] :: ["\tpin a b".toList] := by
      rw [strayer, String.toList_ofList]
      decide +kernel
    have hidle : Idle [' ', '\t'] :=
      ⟨_, [], (List.append_nil _).symm, List.all_eq_true.1 rfl, by simp⟩
    have hpads := pads_insert ["# b".toList] ["\tpin a b".toList] hidle
    rw [hpad _ (hlines ▸ hpadded ▸ hpads), herror]
    rfl

end Script

end SketchSolver
