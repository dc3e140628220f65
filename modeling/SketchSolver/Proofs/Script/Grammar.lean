import Mathlib
import SketchSolver.Proofs.Decimal.Literal
import SketchSolver.Proofs.Double.Product
import SketchSolver.Script.Grammar

/-!
# How an instruction is written

`Instruction.written` is the table of instructions: for each instruction, the texts that say it.  A
keyword and spaces are followed by the operands; spaces have to stand between operands that stand
side by side, and may stand around signs and inside parentheses.

`readAll_instruction_iff` says that a text is read as an instruction exactly if it is one of those
that say it.  The parser commits to what it has read, and reads labels, numbers and spaces as far as
they go.  So each part has to be seen to stop where the next one begins: no label, reference or
number goes on behind its end, because what follows is not `tight`, and spaces end because nothing
that follows them begins with one.
-/

namespace SketchSolver

namespace Script

/-! ## Words -/

/-- Spaces and tabs, if any. -/
def blanks : Language Char :=
  {w | ∀ c ∈ w, isSpace c = true}

/-- Spaces and tabs, at least one. -/
def gaps : Language Char :=
  {w | w ≠ [] ∧ ∀ c ∈ w, isSpace c = true}

/-- A character with spaces and tabs around it. -/
def marks (c : Char) : Language Char :=
  blanks * ({[c]} * blanks)

/-- The words that write a number. -/
def numerals (b : Float) : Language Char :=
  {w | ∃ a : Literal, a.value = b ∧ w ∈ a.written}

/-- The words that write the opposite of a number. -/
def opposites (b : Float) : Language Char :=
  {w | ∃ c, -c = b ∧ w ∈ numerals c}

/-- A number that is added, or its opposite that is subtracted. -/
def shifts (b : Float) : Language Char :=
  marks '+' * numerals b + marks '-' * opposites b

/-- What may stand around a point: numbers with a comma, in parentheses. -/
def points (p : Point Float) : Language Char :=
  {['(']} * (blanks * (numerals p.x * (marks ',' * (numerals p.y * (blanks * {[')']})))))

end Script

/-- A label is written as it is: letters, digits and low lines, at least one. -/
def Label.written (l : Label) : Language Char :=
  {w | w = l.text.toList ∧ w ≠ [] ∧ ∀ c ∈ w, Script.isLabelChar c = true}

/-- A reference is a label, and perhaps a point and a property. -/
def VarRef.written (r : VarRef) : Language Char :=
  match r.property with
  | none => r.label.written
  | some p => r.label.written * {'.' :: p.name.toList}

namespace Instruction

open Script

/-- A label that is equated with two others. -/
def pairs (l a b : Label) : Language Char :=
  l.written * (marks '=' * (a.written * (gaps * b.written)))

/-- What follows the keyword of an instruction. -/
def operands : Instruction Float → Language Char
  | .handle l p | .pin l (some p) | .finger l p => l.written * (gaps * points p)
  | .var l b => l.written * (gaps * numerals b)
  | .pin l none => l.written
  | .absorb l k => l.written * (gaps * k.written)
  | .polar l a b | .distance l a b | .angle l a b => pairs l a b
  | .linear y m x b =>
    y.written * (marks '=' * (numerals m * (marks '*' * (x.written * shifts b))))
  | .formula l m x b =>
    l.written * (marks '=' * (m.written * (marks '*' * (x.written * (marks '+' * b.written)))))
  | .lock r none => r.written
  | .lock r (some b) => r.written * (gaps * numerals b)

/-- The texts that say an instruction: its keyword, spaces and its operands. -/
def written (i : Instruction Float) : Language Char :=
  {i.keyword.toList} * gaps * i.operands

end Instruction

namespace Script

open SketchSolver.Parser

/-- A character that may prolong a label, a reference or a number. -/
def tight (c : Char) : Bool :=
  isLabelChar c || c = '.'

variable {w v rest text : List Char} {c : Char} {l : Label} {r : VarRef} {b : Float}
variable {p : Point Float} {i : Instruction Float} {inClass : Char → Bool}

/-! ## Where words end -/

lemma tight_of_isSpace (hc : isSpace c = true) : tight c = false := by
  rw [isSpace, Bool.or_eq_true, decide_eq_true_eq, decide_eq_true_eq] at hc
  rcases hc with rfl | rfl <;> decide

lemma isSpace_of_tight (hc : tight c = true) : isSpace c = false := by
  rw [← Bool.not_eq_true]
  intro hspace
  rw [tight_of_isSpace hspace] at hc
  cases hc

lemma isLabelChar_of_tight (hc : tight c = false) : isLabelChar c = false :=
  (Bool.or_eq_false_iff.1 hc).1

lemma prolongs_of_tight (hc : tight c = false) : Literal.prolongs c = false := by
  obtain ⟨hlabel, hpoint⟩ := Bool.or_eq_false_iff.1 hc
  rw [Literal.prolongs, Bool.or_eq_false_iff]
  refine ⟨?_, hpoint⟩
  rw [← Bool.not_eq_true]
  intro halphanum
  rw [isLabelChar, Text.isAlphanumeric_of_isAlphanum halphanum] at hlabel
  cases hlabel

/-- A label ends where nothing can prolong a reference. -/
lemma label_of_tight (h : Stops tight rest) : Stops isLabelChar rest :=
  h.mono fun _ => isLabelChar_of_tight

lemma stops_blanks (hw : w ∈ blanks) (hclass : ∀ c, isSpace c = true → inClass c = false)
    (hv : Stops inClass v) : Stops inClass (w ++ v) := by
  cases w with
  | nil => exact hv
  | cons c w => exact stops_cons.2 (hclass c (hw c (by simp)))

lemma tight_gaps (hw : w ∈ gaps) : Stops tight (w ++ v) :=
  stops_append hw.1 fun c hc => tight_of_isSpace (hw.2 c hc)

lemma tight_marks (hw : w ∈ marks c) (hc : tight c = false) : Stops tight (w ++ v) := by
  obtain ⟨w, hw, _, ⟨_, rfl, u, -, rfl⟩, rfl⟩ := hw
  rw [List.append_assoc]
  exact stops_blanks hw (fun _ => tight_of_isSpace) (stops_cons.2 hc)

lemma space_label (hw : w ∈ l.written) : Stops isSpace (w ++ v) :=
  stops_append hw.2.1 fun c hc => isSpace_of_tight (by rw [tight, hw.2.2 c hc, Bool.true_or])

lemma space_varRef (hw : w ∈ r.written) : Stops isSpace (w ++ v) := by
  obtain ⟨l, _ | p⟩ := r
  · exact space_label hw
  · obtain ⟨w, hl, u, -, rfl⟩ := hw
    rw [List.append_assoc]
    exact space_label hl

lemma space_numeral (hw : w ∈ numerals b) : Stops isSpace (w ++ v) := by
  have hletter : ∀ {d e : Char}, tight e = true → d.toLower = e → isSpace d = false := by
    intro d e he hd
    rw [← Bool.not_eq_true]
    intro hspace
    rw [isSpace, Bool.or_eq_true, decide_eq_true_eq, decide_eq_true_eq] at hspace
    rcases hspace with rfl | rfl <;> subst hd <;> revert he <;> decide
  have hdigit : ∀ d : Char, d.isDigit = true → isSpace d = false := by
    intro d hd
    refine isSpace_of_tight ?_
    have halphanum : d.isAlphanum = true := by rw [Char.isAlphanum, hd, Bool.or_true]
    rw [tight, isLabelChar, Text.isAlphanumeric_of_isAlphanum halphanum]
    rfl
  obtain ⟨_ | negative | ⟨negative, n, e⟩, -, hw⟩ := hw
  · exact Literal.stops_anyCase rfl hw fun d => hletter (by decide)
  · obtain ⟨w, hw, _, ⟨i, hi, t, -, rfl⟩, rfl⟩ := hw
    rw [List.append_assoc, List.append_assoc]
    exact Literal.stops_signs hw
      (Literal.stops_anyCase rfl hi fun d => hletter (by decide)) rfl rfl
  · obtain ⟨whole, fraction, shift, ⟨w, hw, _, ⟨m, hm, x, -, rfl⟩, rfl⟩, -, -⟩ := hw
    rw [List.append_assoc, List.append_assoc]
    exact Literal.stops_signs hw (Literal.stops_mantissa hm hdigit rfl) rfl rfl

lemma space_point (hw : w ∈ points p) : Stops isSpace (w ++ v) := by
  obtain ⟨_, rfl, u, -, rfl⟩ := hw
  exact stops_cons.2 rfl

/-! ## Parts of an instruction -/

lemma gap_reads : gap.Reads (fun _ => gaps) (Stops isSpace) := by
  refine (many1_reads isSpace).discard fun w => ⟨fun hw => ⟨w, rfl, hw⟩, ?_⟩
  rintro ⟨_, rfl, hw⟩
  exact hw

lemma space_reads : space.Reads (fun _ => blanks) (Stops isSpace) := by
  refine (many_reads isSpace).discard fun w => ⟨fun hw => ⟨w, rfl, hw⟩, ?_⟩
  rintro ⟨_, rfl, hw⟩
  exact hw

lemma spaced_reads (hc : isSpace c = false) :
    (spaced c).Reads (fun _ => marks c) (Stops isSpace) := by
  constructor
  · exact space_reads.consumes.bind fun _ w hw => (char_reads c).consumes.bind fun _ u hu =>
      space_reads.consumes.mono fun _ v hv =>
        Language.append_mem_mul hw (Language.append_mem_mul hu hv)
  · rintro _ _ rest ⟨w, hw, _, ⟨u, hu, v, hv, rfl⟩, rfl⟩ hrest
    obtain rfl : u = [c] := hu
    have hstops : Stops isSpace ([c] ++ v ++ rest) := stops_cons.2 hc
    rw [List.append_assoc, spaced, run_bind (space_reads.accepts (b := ()) hw hstops)]
    exact (run_bind ((char_reads c).accepts (b := ()) rfl trivial)).trans
      (space_reads.accepts hv hrest)

lemma keyword_reads (s : String) :
    (keyword s).Reads (fun _ => {s.toList} * gaps) (Stops isSpace) := by
  constructor
  · exact (word_reads s).consumes.bind fun _ w hw => gap_reads.consumes.mono fun _ v hv =>
      Language.append_mem_mul hw hv
  · rintro _ _ rest ⟨w, hw, v, hv, rfl⟩ hrest
    rw [List.append_assoc, keyword, run_bind ((word_reads s).accepts (b := ()) hw trivial)]
    exact gap_reads.accepts hv hrest

lemma label_reads : label.Reads Label.written (Stops isLabelChar) := by
  constructor
  · refine (many1_reads isLabelChar).consumes.map fun cs w hw => ?_
    obtain ⟨rfl, hw⟩ := hw
    exact ⟨String.toList_ofList.symm, hw⟩
  · rintro ⟨name⟩ w rest ⟨rfl, hw⟩ hrest
    rw [label, run_bind ((many1_reads isLabelChar).accepts ⟨rfl, hw⟩ hrest)]
    show some (Label.mk (String.ofList name.toList), rest) = _
    rw [String.ofList_toList]

lemma property_reads : property.Reads (fun p => {p.name.toList}) fun _ => True := by
  constructor
  · refine .orElse ((word_reads _).consumes.map fun _ _ hw => hw) <|
      .orElse ((word_reads _).consumes.map fun _ _ hw => hw) <|
      .orElse ((char_reads _).consumes.map fun _ _ hw => hw)
        ((char_reads _).consumes.map fun _ _ hw => hw)
  · rintro p w rest rfl -
    have skip {s : String} {c d : Char} {cs ds : List Char} {f : Unit → Parser Property}
        {q : Parser Property} (hs : s.toList = c :: cs) (hd : d ≠ c) :
        ((word s >>= f) <|> q) (d :: ds) = q (d :: ds) :=
      orElse_of_none (bind_of_none (word_of_stops hs (stops_cons.2 (decide_eq_false hd))))
    cases p with
    | distance => exact orElse_of_some (run_bind ((word_reads _).accepts (b := ()) rfl trivial))
    | angle =>
        refine (skip (d := 'a') rfl (by decide)).trans ?_
        exact orElse_of_some (run_bind ((word_reads _).accepts (b := ()) rfl trivial))
    | x =>
        refine (skip (d := 'x') rfl (by decide)).trans ((skip rfl (by decide)).trans ?_)
        exact orElse_of_some (run_bind ((char_reads 'x').accepts (b := ()) rfl trivial))
    | y =>
        refine (skip (d := 'y') rfl (by decide)).trans ((skip rfl (by decide)).trans ?_)
        exact (orElse_of_none (bind_of_none (char_of_stops (stops_cons.2 rfl)))).trans
          (run_bind ((char_reads 'y').accepts (b := ()) rfl trivial))

lemma varRef_reads : varRef.Reads VarRef.written (Stops tight) := by
  have hproperty : Reads (fun p => {'.' :: p.name.toList}) (fun _ => True)
      (do char '.'; property : Parser Property) := by
    constructor
    · refine (char_reads '.').consumes.bind fun _ w hw =>
        property_reads.consumes.mono fun p v hv => ?_
      obtain rfl : w = ['.'] := hw
      obtain rfl : v = p.name.toList := hv
      rfl
    · rintro p w rest rfl -
      exact (run_bind ((char_reads '.').accepts (b := ()) rfl trivial)).trans
        (property_reads.accepts rfl trivial)
  constructor
  · refine label_reads.consumes.bind fun l w hw => (hproperty.consumes.maybe
      (N := fun found => {v | w ++ v ∈ VarRef.written ⟨l, found⟩}) ?_ ?_).map fun _ _ hv => hv
    · exact fun p v hv => Language.append_mem_mul hw hv
    · show w ++ [] ∈ l.written
      rwa [List.append_nil]
  · rintro ⟨l, _ | p⟩ w rest hw hrest
    · rw [varRef, run_bind (label_reads.accepts hw (hrest.mono fun _ => isLabelChar_of_tight))]
      exact run_bind (maybe_of_none (bind_of_none (char_of_stops
        (hrest.mono fun c hc => (Bool.or_eq_false_iff.1 hc).2))))
    · obtain ⟨w, hl, v, hv, rfl⟩ := hw
      have hstops : Stops isLabelChar (v ++ rest) := by
        obtain rfl : v = '.' :: p.name.toList := hv
        exact stops_cons.2 (by decide)
      rw [List.append_assoc, varRef, run_bind (label_reads.accepts hl hstops)]
      exact run_bind (maybe_of_some (hproperty.accepts hv trivial))

lemma number_reads : number.Reads numerals (Stops tight) := by
  constructor
  · refine .orElse (Literal.literal_reads.consumes.map fun a w hw => ⟨a, rfl, hw⟩)
      (Literal.digits_reads.consumes.map fun ds w hw => ⟨_, rfl, ds, [], 0, ?_, ?_, rfl⟩)
    · obtain ⟨rfl, hne, hdigits⟩ := hw
      refine ⟨[], Or.inl rfl, w, ⟨w, ⟨?_, ?_, Or.inr ⟨rfl, rfl⟩⟩, [], Or.inr ⟨rfl, rfl⟩, ?_⟩, rfl⟩
      · rwa [List.append_nil]
      · rwa [List.append_nil]
      · exact List.append_nil w
    · rw [List.append_nil]
  · rintro _ w rest ⟨a, rfl, hw⟩ hrest
    exact orElse_of_some (run_bind (Literal.literal_reads.accepts hw
      (hrest.mono fun _ => prolongs_of_tight)))

lemma point_reads : point.Reads points fun _ => True := by
  constructor
  · exact (char_reads '(').consumes.bind fun _ _ ho => space_reads.consumes.bind fun _ _ hs =>
      number_reads.consumes.bind fun x _ hx => (spaced_reads rfl).consumes.bind fun _ _ hc =>
      number_reads.consumes.bind fun y _ hy => space_reads.consumes.bind fun _ _ he =>
      (char_reads ')').consumes.map fun _ _ hp =>
        Language.append_mem_mul ho <| Language.append_mem_mul hs <| Language.append_mem_mul hx <|
        Language.append_mem_mul hc <| Language.append_mem_mul hy <| Language.append_mem_mul he hp
  · rintro ⟨x, y⟩ w rest hw -
    obtain ⟨o, ho, _, ⟨s, hs, _, ⟨u, hx, _, ⟨m, hm, _, ⟨v, hy, _, ⟨e, he, q, hq, rfl⟩, rfl⟩, rfl⟩,
      rfl⟩, rfl⟩, rfl⟩ := hw
    obtain rfl : q = [')'] := hq
    have hclose {inClass : Char → Bool} (h : inClass ')' = false) :
        Stops inClass ([')'] ++ rest) := stops_cons.2 h
    simp only [List.append_assoc]
    rw [point, run_bind ((char_reads '(').accepts (b := ()) ho trivial),
      run_bind (space_reads.accepts (b := ()) hs (space_numeral hx)),
      run_bind (number_reads.accepts hx (tight_marks hm (by decide))),
      run_bind ((spaced_reads rfl).accepts (b := ()) hm (space_numeral hy)),
      run_bind (number_reads.accepts hy
        (stops_blanks he (fun _ => tight_of_isSpace) (hclose (by decide)))),
      run_bind (space_reads.accepts (b := ()) he (hclose rfl))]
    exact run_bind ((char_reads ')').accepts (b := ()) rfl trivial)

/-- A sign, as the factor it stands for. -/
def factors (s : Float) : Language Char :=
  {w | w = ['+'] ∧ s = 1 ∨ w = ['-'] ∧ s = -1}

lemma factor_reads : factor.Reads factors fun _ => True := by
  constructor
  · refine (charOf_reads _).consumes.bind fun c w hw => ?_
    obtain ⟨rfl, hc⟩ := hw
    rw [Bool.or_eq_true, decide_eq_true_eq, decide_eq_true_eq] at hc
    rcases hc with rfl | rfl
    · exact .pure (Or.inl ⟨rfl, rfl⟩)
    · exact .pure (Or.inr ⟨rfl, rfl⟩)
  · rintro _ _ rest (⟨rfl, rfl⟩ | ⟨rfl, rfl⟩) -
    · rfl
    · rfl

lemma mem_shifts_iff : w ∈ shifts b ↔
    ∃ s ∈ blanks, ∃ t, ∃ f ∈ factors t, ∃ e ∈ blanks, ∃ c, ∃ n ∈ numerals c,
      s ++ (f ++ (e ++ n)) = w ∧ t * c = b := by
  constructor
  · rintro (⟨m, ⟨s, hs, _, ⟨f, hf, e, he, rfl⟩, rfl⟩, n, hn, rfl⟩ |
      ⟨m, ⟨s, hs, _, ⟨f, hf, e, he, rfl⟩, rfl⟩, n, ⟨c, rfl, hn⟩, rfl⟩)
    · exact ⟨s, hs, 1, f, Or.inl ⟨hf, rfl⟩, e, he, b, n, hn, by simp only [List.append_assoc],
        Double.one_mul_eq b⟩
    · exact ⟨s, hs, -1, f, Or.inr ⟨hf, rfl⟩, e, he, c, n, hn, by simp only [List.append_assoc],
        Double.neg_one_mul_eq c⟩
  · rintro ⟨s, hs, t, f, hf, e, he, c, n, hn, rfl, rfl⟩
    have hassoc : s ++ (f ++ (e ++ n)) = s ++ (f ++ e) ++ n := by simp only [List.append_assoc]
    rw [hassoc]
    rcases hf with ⟨rfl, rfl⟩ | ⟨rfl, rfl⟩
    · rw [Double.one_mul_eq]
      exact Or.inl (Language.append_mem_mul
        (Language.append_mem_mul hs (Language.append_mem_mul rfl he)) hn)
    · rw [Double.neg_one_mul_eq]
      exact Or.inr (Language.append_mem_mul
        (Language.append_mem_mul hs (Language.append_mem_mul rfl he)) ⟨c, rfl, hn⟩)

/-! ## Operands side by side -/

section

variable {β : Type} {q : Parser β} {L : β → Language Char} {F : List Char → Prop}

/-- What stands behind a gap. -/
lemma gapped_reads (hq : q.Reads L F)
    (hspace : ∀ {b w v}, w ∈ L b → Stops isSpace (w ++ v)) :
    Reads (fun b => gaps * L b) F (do gap; q) := by
  constructor
  · exact gap_reads.consumes.bind fun _ _ hg => hq.consumes.mono fun _ _ hb =>
      Language.append_mem_mul hg hb
  · rintro b _ rest ⟨g, hg, w, hw, rfl⟩ hrest
    rw [List.append_assoc]
    exact (run_bind (gap_reads.accepts (b := ()) hg (hspace hw))).trans (hq.accepts hw hrest)

/-- A label with something beside it. -/
lemma beside_reads (hq : q.Reads L F)
    (hspace : ∀ {b w v}, w ∈ L b → Stops isSpace (w ++ v))
    (make : Label → β → Instruction Float) :
    Reads (fun i => {w | ∃ l b, i = make l b ∧ w ∈ l.written * (gaps * L b)}) F
      (do let l ← label; gap; return make l (← q) : Parser (Instruction Float)) := by
  constructor
  · exact label_reads.consumes.bind fun l _ hl => gap_reads.consumes.bind fun _ _ hg =>
      hq.consumes.map fun b _ hb =>
        ⟨l, b, rfl, Language.append_mem_mul hl (Language.append_mem_mul hg hb)⟩
  · rintro _ _ rest ⟨l, b, rfl, u, hl, _, ⟨g, hg, v, hb, rfl⟩, rfl⟩ hrest
    rw [List.append_assoc, List.append_assoc,
      run_bind (label_reads.accepts hl (label_of_tight (tight_gaps hg))),
      run_bind (gap_reads.accepts (b := ()) hg (hspace hb))]
    exact run_bind (hq.accepts hb hrest)

end

/-- A label that is equated with two others. -/
lemma betweenHandles_reads :
    betweenHandles.Reads (fun b => Instruction.pairs b.1 b.2.1 b.2.2) (Stops isLabelChar) := by
  constructor
  · exact label_reads.consumes.bind fun l _ hl => (spaced_reads rfl).consumes.bind fun _ _ hm =>
      label_reads.consumes.bind fun a _ ha => gap_reads.consumes.bind fun _ _ hg =>
      label_reads.consumes.map fun b _ hb =>
        Language.append_mem_mul hl <| Language.append_mem_mul hm <| Language.append_mem_mul ha <|
        Language.append_mem_mul hg hb
  · rintro ⟨l, a, b⟩ _ rest ⟨w, hl, _, ⟨m, hm, _, ⟨u, ha, _, ⟨g, hg, v, hb, rfl⟩, rfl⟩, rfl⟩, rfl⟩
      hrest
    simp only [List.append_assoc]
    rw [betweenHandles,
      run_bind (label_reads.accepts hl (label_of_tight (tight_marks hm (by decide)))),
      run_bind ((spaced_reads rfl).accepts (b := ()) hm (space_label ha)),
      run_bind (label_reads.accepts ha (label_of_tight (tight_gaps hg))),
      run_bind (gap_reads.accepts (b := ()) hg (space_label hb))]
    exact run_bind (label_reads.accepts hb hrest)

/-! ## Instructions -/

lemma keyword_consumes {s : String} {f : Unit → Parser (Instruction Float)}
    (hf : (f ()).Consumes fun i => {v | i.keyword = s ∧ v ∈ i.operands}) :
    (keyword s >>= f).Consumes Instruction.written :=
  (keyword_reads s).consumes.bind fun _ w hw => hf.mono fun i v hv => by
    obtain ⟨rfl, hv⟩ := hv
    exact Language.append_mem_mul hw hv

/-- What is consumed for an instruction is a text that says it. -/
lemma instruction_consumes : instruction.Consumes Instruction.written := by
  have hbeside {β : Type} {q : Parser β} {L : β → Language Char} {F : List Char → Prop}
      (hq : q.Reads L F) (hspace : ∀ {b w v}, w ∈ L b → Stops isSpace (w ++ v)) {k : String}
      {make : Label → β → Instruction Float} (hkeyword : ∀ l b, (make l b).keyword = k)
      (hoperands : ∀ l b, (make l b).operands = l.written * (gaps * L b)) :
      Consumes (fun i => {v | i.keyword = k ∧ v ∈ i.operands})
        (do let l ← label; gap; return make l (← q)) := by
    refine (beside_reads hq hspace make).consumes.mono ?_
    rintro _ v ⟨l, b, rfl, hv⟩
    exact ⟨hkeyword l b, (hoperands l b).symm ▸ hv⟩
  refine .orElse (keyword_consumes ?handle) <| .orElse (keyword_consumes ?var) <|
    .orElse (keyword_consumes ?pin) <| .orElse (keyword_consumes ?finger) <|
    .orElse (keyword_consumes ?absorb) <| .orElse (keyword_consumes ?polar) <|
    .orElse (keyword_consumes ?distance) <| .orElse (keyword_consumes ?angle) <|
    .orElse (keyword_consumes ?linear) <| .orElse (keyword_consumes ?formula)
      (keyword_consumes ?lock)
  case handle => exact hbeside point_reads space_point (fun _ _ => rfl) fun _ _ => rfl
  case var => exact hbeside number_reads space_numeral (fun _ _ => rfl) fun _ _ => rfl
  case pin =>
    have hpoint := (gapped_reads point_reads space_point).consumes
    refine label_reads.consumes.bind fun l w hl => (hpoint.maybe
      (N := fun found => {v | w ++ v ∈ Instruction.operands (.pin l found)}) ?_ ?_).map
        fun _ _ hv => ⟨rfl, hv⟩
    · exact fun p v hp => Language.append_mem_mul hl hp
    · show w ++ [] ∈ l.written
      rwa [List.append_nil]
  case finger => exact hbeside point_reads space_point (fun _ _ => rfl) fun _ _ => rfl
  case absorb => exact hbeside label_reads space_label (fun _ _ => rfl) fun _ _ => rfl
  case polar => exact betweenHandles_reads.consumes.map fun _ _ hb => ⟨rfl, hb⟩
  case distance => exact betweenHandles_reads.consumes.map fun _ _ hb => ⟨rfl, hb⟩
  case angle => exact betweenHandles_reads.consumes.map fun _ _ hb => ⟨rfl, hb⟩
  case linear =>
    exact varRef_reads.consumes.bind fun y _ hy => (spaced_reads rfl).consumes.bind fun _ _ he =>
      number_reads.consumes.bind fun m _ hm => (spaced_reads rfl).consumes.bind fun _ _ ht =>
      varRef_reads.consumes.bind fun x _ hx => space_reads.consumes.bind fun _ _ hs =>
      factor_reads.consumes.bind fun t _ hf => space_reads.consumes.bind fun _ _ hs' =>
      number_reads.consumes.map fun c _ hc => ⟨rfl,
        Language.append_mem_mul hy <| Language.append_mem_mul he <| Language.append_mem_mul hm <|
        Language.append_mem_mul ht <| Language.append_mem_mul hx <|
        mem_shifts_iff.2 ⟨_, hs, t, _, hf, _, hs', c, _, hc, rfl, rfl⟩⟩
  case formula =>
    exact label_reads.consumes.bind fun l _ hl => (spaced_reads rfl).consumes.bind fun _ _ he =>
      varRef_reads.consumes.bind fun m _ hm => (spaced_reads rfl).consumes.bind fun _ _ ht =>
      varRef_reads.consumes.bind fun x _ hx => (spaced_reads rfl).consumes.bind fun _ _ hp =>
      varRef_reads.consumes.map fun b _ hb => ⟨rfl,
        Language.append_mem_mul hl <| Language.append_mem_mul he <| Language.append_mem_mul hm <|
        Language.append_mem_mul ht <| Language.append_mem_mul hx <| Language.append_mem_mul hp hb⟩
  case lock =>
    have hnumber := (gapped_reads number_reads space_numeral).consumes
    refine varRef_reads.consumes.bind fun r w hr => (hnumber.maybe
      (N := fun found => {v | w ++ v ∈ Instruction.operands (.lock r found)}) ?_ ?_).map
        fun _ _ hv => ⟨rfl, hv⟩
    · exact fun b v hb => Language.append_mem_mul hr hb
    · show w ++ [] ∈ r.written
      rwa [List.append_nil]

/-! ## Each text is read -/

lemma space_of_mul {L M : Language Char} (hL : ∀ u ∈ L, ∀ v, Stops isSpace (u ++ v))
    (hw : w ∈ L * M) : Stops isSpace (w ++ v) := by
  obtain ⟨u, hu, t, -, rfl⟩ := hw
  rw [List.append_assoc]
  exact hL u hu _

/-- The operands begin with a label or a reference. -/
lemma space_operands (hw : w ∈ i.operands) : Stops isSpace (w ++ v) := by
  have hlabel : ∀ {l : Label}, ∀ u ∈ l.written, ∀ v, Stops isSpace (u ++ v) :=
    fun _ hu _ => space_label hu
  have hvarRef : ∀ {r : VarRef}, ∀ u ∈ r.written, ∀ v, Stops isSpace (u ++ v) :=
    fun _ hu _ => space_varRef hu
  rcases i with ⟨l, p⟩ | ⟨l, b⟩ | ⟨l, _ | p⟩ | ⟨l, p⟩ | ⟨l, k⟩ | ⟨l, a, b⟩ | ⟨l, a, b⟩ | ⟨l, a, b⟩ |
    ⟨y, m, x, b⟩ | ⟨l, m, x, b⟩ | ⟨r, _ | b⟩
  case pin.none => exact space_label hw
  case lock.none => exact space_varRef hw
  case linear => exact space_of_mul hvarRef hw
  case lock.some => exact space_of_mul hvarRef hw
  all_goals exact space_of_mul hlabel hw

lemma keyword_accepts {s : String} {f : Unit → Parser (Instruction Float)} (hs : i.keyword = s)
    (hw : w ∈ i.written) (hf : ∀ v ∈ i.operands, f () v = some (i, [])) :
    (keyword s >>= f) w = some (i, []) := by
  obtain ⟨k, hk, v, hv, rfl⟩ := hw
  rw [hs] at hk
  rw [run_bind ((keyword_reads s).accepts (b := ()) hk (stops_of_append_nil (space_operands hv)))]
  exact hf v hv

lemma handle_accepts (hw : w ∈ (Instruction.handle l p).written) :
    handle w = some (.handle l p, []) :=
  keyword_accepts rfl hw fun _ hv =>
    (beside_reads point_reads space_point .handle).accepts_all ⟨l, p, rfl, hv⟩ trivial

lemma var_accepts (hw : w ∈ (Instruction.var l b).written) : var w = some (.var l b, []) :=
  keyword_accepts rfl hw fun _ hv =>
    (beside_reads number_reads space_numeral .var).accepts_all ⟨l, b, rfl, hv⟩ stops_nil

lemma pin_accepts {found : Option (Point Float)} (hw : w ∈ (Instruction.pin l found).written) :
    pin w = some (.pin l found, []) := by
  refine keyword_accepts rfl hw fun v hv => ?_
  cases found with
  | none =>
      rw [run_bind (label_reads.accepts_all hv stops_nil)]
      exact run_bind (maybe_of_none rfl)
  | some p =>
      obtain ⟨u, hl, _, ⟨g, hg, v, hp, rfl⟩, rfl⟩ := hv
      rw [run_bind (label_reads.accepts hl (label_of_tight (tight_gaps hg)))]
      exact run_bind (maybe_of_some ((gapped_reads point_reads space_point).accepts_all
        (Language.append_mem_mul hg hp) trivial))

lemma finger_accepts (hw : w ∈ (Instruction.finger l p).written) :
    finger w = some (.finger l p, []) :=
  keyword_accepts rfl hw fun _ hv =>
    (beside_reads point_reads space_point .finger).accepts_all ⟨l, p, rfl, hv⟩ trivial

lemma absorb_accepts {k : Label} (hw : w ∈ (Instruction.absorb l k).written) :
    absorb w = some (.absorb l k, []) :=
  keyword_accepts rfl hw fun _ hv =>
    (beside_reads label_reads space_label .absorb).accepts_all ⟨l, k, rfl, hv⟩ stops_nil

section

variable {start finish : Label}

lemma polar_accepts (hw : w ∈ (Instruction.polar l start finish).written) :
    polar w = some (.polar l start finish, []) :=
  keyword_accepts rfl hw fun _ hv =>
    run_bind (betweenHandles_reads.accepts_all (b := (l, start, finish)) hv stops_nil)

lemma distance_accepts (hw : w ∈ (Instruction.distance l start finish).written) :
    distance w = some (.distance l start finish, []) :=
  keyword_accepts rfl hw fun _ hv =>
    run_bind (betweenHandles_reads.accepts_all (b := (l, start, finish)) hv stops_nil)

lemma angle_accepts (hw : w ∈ (Instruction.angle l start finish).written) :
    angle w = some (.angle l start finish, []) :=
  keyword_accepts rfl hw fun _ hv =>
    run_bind (betweenHandles_reads.accepts_all (b := (l, start, finish)) hv stops_nil)

end

lemma linear_accepts {y x : VarRef} {m : Float} (hw : w ∈ (Instruction.linear y m x b).written) :
    linear w = some (.linear y m x b, []) := by
  refine keyword_accepts rfl hw ?_
  rintro _ ⟨u, hy, _, ⟨e, he, _, ⟨n, hm, _, ⟨t, ht, _, ⟨v, hx, z, hz, rfl⟩, rfl⟩, rfl⟩, rfl⟩, rfl⟩
  obtain ⟨s, hs, d, f, hf, s', hs', c, k, hc, rfl, rfl⟩ := mem_shifts_iff.1 hz
  have hfactor {inClass : Char → Bool} (hplus : inClass '+' = false)
      (hminus : inClass '-' = false) : Stops inClass (f ++ (s' ++ k)) := by
    rcases hf with ⟨rfl, -⟩ | ⟨rfl, -⟩
    · exact stops_cons.2 hplus
    · exact stops_cons.2 hminus
  rw [run_bind (varRef_reads.accepts hy (tight_marks he (by decide))),
    run_bind ((spaced_reads rfl).accepts (b := ()) he (space_numeral hm)),
    run_bind (number_reads.accepts hm (tight_marks ht (by decide))),
    run_bind ((spaced_reads rfl).accepts (b := ()) ht (space_varRef hx)),
    run_bind (varRef_reads.accepts hx
      (stops_blanks hs (fun _ => tight_of_isSpace) (hfactor (by decide) (by decide)))),
    run_bind (space_reads.accepts (b := ()) hs (hfactor rfl rfl)),
    run_bind (factor_reads.accepts hf trivial),
    run_bind (space_reads.accepts (b := ()) hs' (stops_of_append_nil (space_numeral hc)))]
  exact run_bind (number_reads.accepts_all hc stops_nil)

lemma formula_accepts {m x z : VarRef} (hw : w ∈ (Instruction.formula l m x z).written) :
    formula w = some (.formula l m x z, []) := by
  refine keyword_accepts rfl hw ?_
  rintro _ ⟨u, hl, _, ⟨e, he, _, ⟨n, hm, _, ⟨t, ht, _, ⟨v, hx, _, ⟨s, hs, k, hz, rfl⟩, rfl⟩, rfl⟩,
    rfl⟩, rfl⟩, rfl⟩
  rw [run_bind (label_reads.accepts hl (label_of_tight (tight_marks he (by decide)))),
    run_bind ((spaced_reads rfl).accepts (b := ()) he (space_varRef hm)),
    run_bind (varRef_reads.accepts hm (tight_marks ht (by decide))),
    run_bind ((spaced_reads rfl).accepts (b := ()) ht (space_varRef hx)),
    run_bind (varRef_reads.accepts hx (tight_marks hs (by decide))),
    run_bind ((spaced_reads rfl).accepts (b := ()) hs (stops_of_append_nil (space_varRef hz)))]
  exact run_bind (varRef_reads.accepts_all hz stops_nil)

lemma lock_accepts {found : Option Float} (hw : w ∈ (Instruction.lock r found).written) :
    lock w = some (.lock r found, []) := by
  refine keyword_accepts rfl hw fun v hv => ?_
  cases found with
  | none =>
      rw [run_bind (varRef_reads.accepts_all hv stops_nil)]
      exact run_bind (maybe_of_none rfl)
  | some b =>
      obtain ⟨u, hr, _, ⟨g, hg, v, hb, rfl⟩, rfl⟩ := hv
      rw [run_bind (varRef_reads.accepts hr (tight_gaps hg))]
      exact run_bind (maybe_of_some ((gapped_reads number_reads space_numeral).accepts_all
        (Language.append_mem_mul hg hb) stops_nil))

/-! ## One instruction for each text -/

/-- Up to the first space stands the keyword. -/
lemma takeWhile_keyword {s g : List Char} (hs : ∀ c ∈ s, isSpace c = false) (hg : g ∈ gaps) :
    (s ++ (g ++ v)).takeWhile (fun c => !isSpace c) = s := by
  refine takeWhile_append (fun c hc => by rw [hs c hc]; rfl) (stops_append hg.1 fun c hc => ?_)
  rw [hg.2 c hc]
  rfl

lemma isSpace_keyword (i : Instruction Float) : ∀ c ∈ i.keyword.toList, isSpace c = false := by
  cases i <;> simp [Instruction.keyword, isSpace]

/-- An instruction with another keyword is passed over. -/
lemma keyword_skips {s : String} {f : Unit → Parser (Instruction Float)}
    {q : Parser (Instruction Float)} (hw : w ∈ i.written) (hs : ∀ c ∈ s.toList, isSpace c = false)
    (hne : s ≠ i.keyword) : ((keyword s >>= f) <|> q) w = q w := by
  refine orElse_of_none (bind_of_none ?_)
  cases hread : keyword s w with
  | none => rfl
  | some r =>
      obtain ⟨x, ⟨u, hu, g, hg, hx⟩, htext⟩ := (keyword_reads s).consumes _ _ _ hread
      obtain ⟨y, ⟨k, hk, g', hg', hy⟩, v, -, rfl⟩ := hw
      obtain rfl : u = s.toList := hu
      obtain rfl : k = i.keyword.toList := hk
      obtain rfl : s.toList ++ g = x := hx
      obtain rfl : i.keyword.toList ++ g' = y := hy
      change s.toList ++ g ++ r.2 = i.keyword.toList ++ g' ++ v at htext
      rw [List.append_assoc, List.append_assoc] at htext
      have hfirst := congrArg (List.takeWhile fun c => !isSpace c) htext
      rw [takeWhile_keyword hs hg, takeWhile_keyword (isSpace_keyword i) hg'] at hfirst
      exact absurd (String.toList_injective hfirst) hne

/-- Each text that says an instruction is read as it. -/
lemma instruction_accepts (hw : w ∈ i.written) : instruction w = some (i, []) := by
  have skip {s : String} {f : Unit → Parser (Instruction Float)} {q : Parser (Instruction Float)}
      (hs : ∀ c ∈ s.toList, isSpace c = false) (hne : s ≠ i.keyword) (h : q w = some (i, [])) :
      ((keyword s >>= f) <|> q) w = some (i, []) := (keyword_skips hw hs hne).trans h
  cases i with
  | handle l p => exact orElse_of_some (handle_accepts hw)
  | var l b =>
      refine skip (by simp [isSpace]) (by simp [Instruction.keyword]) ?_
      exact orElse_of_some (var_accepts hw)
  | pin l p =>
      iterate 2 refine skip (by simp [isSpace]) (by simp [Instruction.keyword]) ?_
      exact orElse_of_some (pin_accepts hw)
  | finger l p =>
      iterate 3 refine skip (by simp [isSpace]) (by simp [Instruction.keyword]) ?_
      exact orElse_of_some (finger_accepts hw)
  | absorb l k =>
      iterate 4 refine skip (by simp [isSpace]) (by simp [Instruction.keyword]) ?_
      exact orElse_of_some (absorb_accepts hw)
  | polar l a b =>
      iterate 5 refine skip (by simp [isSpace]) (by simp [Instruction.keyword]) ?_
      exact orElse_of_some (polar_accepts hw)
  | distance l a b =>
      iterate 6 refine skip (by simp [isSpace]) (by simp [Instruction.keyword]) ?_
      exact orElse_of_some (distance_accepts hw)
  | angle l a b =>
      iterate 7 refine skip (by simp [isSpace]) (by simp [Instruction.keyword]) ?_
      exact orElse_of_some (angle_accepts hw)
  | linear y m x b =>
      iterate 8 refine skip (by simp [isSpace]) (by simp [Instruction.keyword]) ?_
      exact orElse_of_some (linear_accepts hw)
  | formula l m x b =>
      iterate 9 refine skip (by simp [isSpace]) (by simp [Instruction.keyword]) ?_
      exact orElse_of_some (formula_accepts hw)
  | lock r b =>
      iterate 10 refine skip (by simp [isSpace]) (by simp [Instruction.keyword]) ?_
      exact lock_accepts hw

lemma instruction_reads : instruction.Reads Instruction.written (· = []) where
  consumes := instruction_consumes
  accepts hw hrest := by
    obtain rfl := hrest
    rw [List.append_nil]
    exact instruction_accepts hw

/-- **The grammar.**  A text is read as an instruction exactly if it is one of the texts that say
this instruction, and no text says two instructions. -/
theorem readAll_instruction_iff (text : List Char) :
    (∀ i, readAll instruction text = some i ↔ text ∈ i.written) ∧
      {i : Instruction Float | text ∈ i.written}.Subsingleton := by
  have hiff : ∀ i, readAll instruction text = some i ↔ text ∈ i.written :=
    fun _ => instruction_reads.readAll_eq_some_iff rfl
  exact ⟨hiff, fun i hi j hj => Option.some.inj (((hiff i).2 hi).symm.trans ((hiff j).2 hj))⟩

end Script

end SketchSolver
