import Mathlib
import SketchSolver.Proofs.Text.Parser
import SketchSolver.Text.Blank

/-!
# Cutting a text into lines

What `Text.lines` and `Text.trim` do, said without the scans that do it.

* `Text.Cut text lines` — the rules of cutting; `cut_iff` says that `Text.lines` is the only way to
  follow them.
* `Text.lines_append` — behind a line feed begins a new line, whatever stands before it.
* `Text.Trims text rest` — the text is `rest` with blanks around it, and `rest` neither begins nor
  ends with one; `trims_iff` says that `Text.trim` finds it.
-/

namespace SketchSolver

namespace Text

open SketchSolver.Parser

/-- The lines of a text.  A line feed ends a line, and so does a carriage return with a line feed
behind it; the end of the text ends a line that has begun. -/
inductive Cut : List Char → List (List Char) → Prop
  | done : Cut [] []
  | last {line} : line ≠ [] → '\n' ∉ line → Cut line [line]
  | feed {line rest lines} : '\n' ∉ line → line.getLast? ≠ some '\r' → Cut rest lines →
      Cut (line ++ '\n' :: rest) (line :: lines)
  | returnFeed {line rest lines} : '\n' ∉ line → Cut rest lines →
      Cut (line ++ '\r' :: '\n' :: rest) (line :: lines)

variable {text rest line begun : List Char} {cuts : List (List Char)}

/-! ## Lines -/

lemma linesFrom_feed : linesFrom begun ('\n' :: rest) = dropReturn begun.reverse :: lines rest :=
  rfl

lemma linesFrom_cons {c : Char} (hc : c ≠ '\n') :
    linesFrom begun (c :: rest) = linesFrom (c :: begun) rest := by
  rw [linesFrom]
  exact hc

/-- What is no line feed goes to the line that has begun. -/
lemma linesFrom_append (hline : '\n' ∉ line) :
    linesFrom begun (line ++ rest) = linesFrom (line.reverse ++ begun) rest := by
  induction line generalizing begun with
  | nil => rfl
  | cons c line ih =>
      rw [List.mem_cons, not_or] at hline
      rw [List.cons_append, linesFrom_cons (Ne.symm hline.1), ih hline.2, List.reverse_cons,
        List.append_assoc, List.singleton_append]

lemma lines_of_not_mem (hne : line ≠ []) (hline : '\n' ∉ line) : lines line = [line] := by
  have h : linesFrom [] (line ++ []) = linesFrom (line.reverse ++ []) [] := linesFrom_append hline
  rw [List.append_nil, List.append_nil] at h
  rw [lines, h, linesFrom, if_neg (by simpa using hne), List.reverse_reverse]

lemma lines_feed (hline : '\n' ∉ line) :
    lines (line ++ '\n' :: rest) = dropReturn line :: lines rest := by
  rw [lines, linesFrom_append hline, linesFrom_feed, List.append_nil, List.reverse_reverse]

lemma dropReturn_of_getLast? (h : line.getLast? ≠ some '\r') : dropReturn line = line :=
  if_neg h

lemma dropReturn_append_return (line : List Char) : dropReturn (line ++ ['\r']) = line := by
  rw [dropReturn, if_pos (by simp), List.dropLast_concat]

/-- A line that a line feed ends, with or without a carriage return. -/
lemma Cut.feed_any (hline : '\n' ∉ line) (h : Cut rest cuts) :
    Cut (line ++ '\n' :: rest) (dropReturn line :: cuts) := by
  by_cases hreturn : line.getLast? = some '\r'
  · obtain ⟨line, rfl⟩ := List.getLast?_eq_some_iff.1 hreturn
    rw [dropReturn_append_return, List.append_assoc, List.singleton_append]
    exact .returnFeed (fun hmem => hline (List.mem_append_left _ hmem)) h
  · rw [dropReturn_of_getLast? hreturn]
    exact .feed hline hreturn h

/-- The invariant of the scan is that the line that has begun is not over. -/
lemma cut_linesFrom (hbegun : '\n' ∉ begun) :
    Cut (begun.reverse ++ text) (linesFrom begun text) := by
  induction text generalizing begun with
  | nil =>
      rw [linesFrom, List.append_nil]
      split
      · rename_i hempty
        rw [List.isEmpty_iff.1 hempty]
        exact .done
      · rename_i hne
        exact .last (by simpa using hne) (by simpa using hbegun)
  | cons c text ih =>
      by_cases hc : c = '\n'
      · subst hc
        rw [linesFrom_feed]
        exact .feed_any (by simpa using hbegun) (ih List.not_mem_nil)
      · rw [linesFrom_cons hc, ← List.singleton_append, ← List.append_assoc, ← List.reverse_cons]
        exact ih (by simpa [hbegun] using Ne.symm hc)

lemma Cut.lines_eq (h : Cut text cuts) : lines text = cuts := by
  induction h with
  | done => rfl
  | last hne hline => exact lines_of_not_mem hne hline
  | feed hline hreturn _ ih => rw [lines_feed hline, dropReturn_of_getLast? hreturn, ih]
  | @returnFeed line rest cuts hline _ ih =>
      have h : '\n' ∉ line ++ ['\r'] := by simpa using hline
      rw [← List.singleton_append, ← List.append_assoc, lines_feed h, dropReturn_append_return, ih]

/-- There is one way to cut a text. -/
lemma cut_iff : Cut text cuts ↔ cuts = lines text := by
  refine ⟨fun h => h.lines_eq.symm, ?_⟩
  rintro rfl
  exact cut_linesFrom List.not_mem_nil

lemma linesFrom_append_feed :
    linesFrom begun (text ++ '\n' :: rest) = linesFrom begun (text ++ ['\n']) ++ lines rest := by
  induction text generalizing begun with
  | nil => rfl
  | cons c text ih =>
      rw [List.cons_append, List.cons_append]
      by_cases hc : c = '\n'
      · subst hc
        rw [linesFrom_feed, linesFrom_feed, lines, lines, ih]
        rfl
      · rw [linesFrom_cons hc, linesFrom_cons hc, ih]

/-- Behind a line feed begins a new line. -/
lemma lines_append (h : text.getLast? = some '\n') (rest : List Char) :
    lines (text ++ rest) = lines text ++ lines rest := by
  obtain ⟨text, rfl⟩ := List.getLast?_eq_some_iff.1 h
  rw [List.append_assoc, List.singleton_append]
  exact linesFrom_append_feed

/-! ## Blanks -/

/-- The text is `rest` with blanks around it, and `rest` neither begins nor ends with a blank. -/
structure Trims (text rest : List Char) : Prop where
  around : ∃ front back, text = front ++ rest ++ back ∧ ∀ c ∈ front ++ back, isBlank c = true
  first : ∀ c ∈ rest.head?, isBlank c = false
  last : ∀ c ∈ rest.getLast?, isBlank c = false

/-- The end of a text is trimmed as its front is. -/
lemma trim_eq (text : List Char) : trim text = (text.dropWhile isBlank).rdropWhile isBlank := rfl

lemma stops_dropWhile (text : List Char) : Stops isBlank (text.dropWhile isBlank) := by
  intro c hc
  have h := List.head?_dropWhile_not isBlank text
  rwa [Option.mem_def.1 hc] at h

lemma trims_trim (text : List Char) : Trims text (trim text) where
  around := by
    refine ⟨text.takeWhile isBlank, (text.dropWhile isBlank).rtakeWhile isBlank, ?_, ?_⟩
    · rw [trim_eq, List.append_assoc, List.rdropWhile_append_rtakeWhile,
        List.takeWhile_append_dropWhile]
    · intro c hc
      rcases List.mem_append.1 hc with hc | hc
      · exact List.mem_takeWhile_imp hc
      · exact List.mem_rtakeWhile_imp hc
  first := by
    -- the end is trimmed last, and that takes nothing from the front
    intro c hc
    obtain ⟨back, hback⟩ := List.rdropWhile_prefix isBlank (l := text.dropWhile isBlank)
    refine stops_dropWhile text c ?_
    rw [← hback, ← trim_eq, List.head?_append, Option.mem_def.1 hc]
    rfl
  last := by
    intro c hc
    rw [trim_eq, List.rdropWhile, List.getLast?_reverse] at hc
    exact stops_dropWhile _ c hc

/-- There is one way to trim a text. -/
lemma trims_iff : Trims text rest ↔ rest = trim text := by
  constructor
  · rintro ⟨⟨front, back, rfl, hblank⟩, hfirst, hlast⟩
    rw [List.forall_mem_append] at hblank
    rw [trim_eq, List.append_assoc]
    by_cases hrest : rest = []
    · subst hrest
      have hnil : (front ++ ([] ++ back)).dropWhile isBlank = [] := by
        simpa [or_imp, forall_and] using hblank
      rw [hnil, List.rdropWhile_nil]
    · have hstops : Stops isBlank (rest ++ back) := by
        intro c hc
        obtain ⟨d, hd⟩ := Option.isSome_iff_exists.1 (List.isSome_head?.2 hrest)
        rw [List.head?_append, hd] at hc
        exact hfirst c (hd ▸ hc)
      rw [dropWhile_append hblank.1 hstops, List.rdropWhile, List.reverse_append,
        dropWhile_append (by simpa using hblank.2), List.reverse_reverse]
      intro c hc
      rw [List.head?_reverse] at hc
      exact hlast c hc
  · rintro rfl
    exact trims_trim text

end Text

end SketchSolver
