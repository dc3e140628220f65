import Mathlib
import SketchSolver.Decimal.Literal
import SketchSolver.Proofs.Text.Parser

/-!
# How a number is written

`Literal.written` says which words write a literal: `nan`, or `inf` or `infinity` after an optional
sign, in letters of either case; or after an optional sign digits, perhaps with a point before,
between or behind them and perhaps with an exponent.  `literal_reads` says that these are the words
that are read as it, unless a letter, a digit or a point follows.
-/

namespace SketchSolver

namespace Literal

open SketchSolver.Parser

/-! ## Words -/

/-- A word in letters of either case. -/
def anyCase (s : String) : Language Char :=
  {w | w.map Char.toLower = s.toList}

/-- A sign.  A plus may be left out. -/
def signs : Bool → Language Char
  | true => {['-']}
  | false => 1 + {['+']}

/-- Digits before and behind a point, which may be left out if there are none behind it. -/
def mantissas (whole fraction : List Char) : Language Char :=
  {w | (∀ c ∈ whole ++ fraction, c.isDigit = true) ∧ whole ++ fraction ≠ [] ∧
    (w = whole ++ '.' :: fraction ∨ fraction = [] ∧ w = whole)}

/-- Digits, at least one. -/
def digitRuns (ds : List Char) : Language Char :=
  {w | w = ds ∧ w ≠ [] ∧ ∀ c ∈ w, c.isDigit = true}

/-- A sign and digits. -/
def integers (n : Int) : Language Char :=
  {w | ∃ negative ds, w ∈ signs negative * digitRuns ds ∧
    n = if negative then -(natOfDigits ds : Int) else natOfDigits ds}

/-- The letter `e` with an integer, or nothing at all. -/
def exponents (e : Int) : Language Char :=
  {w | w ∈ ({['e'], ['E']} : Language Char) * integers e ∨ w = [] ∧ e = 0}

/-- The words that write a literal. -/
def written : Literal → Language Char
  | .undefined => anyCase "nan"
  | .infinite negative => signs negative * (anyCase "inf" * (1 + anyCase "inity"))
  | .number negative n e =>
    {w | ∃ whole fraction shift, w ∈ signs negative * (mantissas whole fraction * exponents shift) ∧
      n = natOfDigits (whole ++ fraction) ∧ e = shift - fraction.length}

/-- A character that may prolong a literal. -/
def prolongs (c : Char) : Bool :=
  c.isAlphanum || c = '.'

variable {w v rest text : List Char} {c : Char} {negative : Bool} {inClass : Char → Bool}

/-! ## Signs and words -/

lemma lettersAnyCase_reads (cs : List Char) :
    Reads (fun _ : Unit => {w | w.map Char.toLower = cs}) (fun _ => True)
      (cs.forM fun c => discard (charOf fun d => d.toLower = c)) := by
  have hletter (c : Char) : (discard (charOf fun d => d.toLower = c)).Reads
      (fun _ : Unit => {w | w.map Char.toLower = [c]}) fun _ => True := by
    refine (charOf_reads _).discard fun w => ⟨fun hw => ?_, ?_⟩
    · obtain ⟨d, rfl, hd⟩ := List.map_eq_singleton_iff.1 hw
      exact ⟨d, rfl, decide_eq_true hd⟩
    · rintro ⟨d, rfl, hd⟩
      exact congrArg ([·]) (of_decide_eq_true hd)
  induction cs with
  | nil =>
      refine ⟨.pure rfl, fun {b w rest} hw _ => ?_⟩
      rw [List.map_eq_nil_iff.1 hw]
      rfl
  | cons c cs ih =>
      refine ⟨(hletter c).consumes.bind fun _ w hw => ?_, fun {b w rest} hw _ => ?_⟩
      · intro text b rest h
        obtain ⟨v, hv, htext⟩ := ih.consumes text b rest h
        refine ⟨v, ?_, htext⟩
        show (w ++ v).map Char.toLower = c :: cs
        rw [List.map_append, hw, hv, List.singleton_append]
      · obtain ⟨d, v, rfl, hd, hv⟩ := List.map_eq_cons_iff.1 hw
        have hd : [d].map Char.toLower = [c] := congrArg ([·]) hd
        exact (run_bind ((hletter c).accepts (b := ()) hd trivial)).trans (ih.accepts hv trivial)

lemma wordAnyCase_reads (s : String) : (wordAnyCase s).Reads (fun _ => anyCase s) fun _ => True :=
  lettersAnyCase_reads _

lemma sign_reads : sign.Reads signs (Stops fun c => c = '+' || c = '-') := by
  have hchar := charOf_reads fun c => c = '+' || c = '-'
  refine ⟨(hchar.consumes.maybe (N := fun found => {w | w = found.toList ∧
    ∀ c ∈ found, (c = '+' || c = '-') = true}) ?_ ?_).map ?_, ?_⟩
  · rintro c w ⟨rfl, hc⟩
    exact ⟨rfl, by simpa using hc⟩
  · exact ⟨rfl, by simp⟩
  · rintro (_ | c) w ⟨rfl, hc⟩
    · exact Or.inl rfl
    · have hc := hc c rfl
      rw [Bool.or_eq_true, decide_eq_true_eq, decide_eq_true_eq] at hc
      rcases hc with rfl | rfl
      · exact Or.inr rfl
      · exact rfl
  · rintro (_ | _) w rest hw hrest
    · rcases hw with hw | hw
      · rw [show w = [] from hw]
        exact run_bind (maybe_of_none (charOf_of_stops hrest))
      · rw [show w = ['+'] from hw]
        rfl
    · rw [show w = ['-'] from hw]
      rfl

/-! ## Digits -/

lemma digits_reads : digits.Reads digitRuns (Stops Char.isDigit) :=
  many1_reads _

lemma isDigit_sign (hc : c.isDigit = true) : (c = '+' || c = '-') = false := by
  rw [Bool.or_eq_false_iff, decide_eq_false_iff_not, decide_eq_false_iff_not]
  refine ⟨?_, ?_⟩ <;> rintro rfl <;> revert hc <;> decide

lemma isDigit_point (hc : c.isDigit = true) : decide (c = '.') = false := by
  rw [decide_eq_false_iff_not]
  rintro rfl
  revert hc
  decide

lemma integer_reads : integer.Reads integers (Stops Char.isDigit) := by
  constructor
  · refine sign_reads.consumes.bind fun negative w hw => digits_reads.consumes.map fun ds v hv => ?_
    exact ⟨negative, ds, Language.append_mem_mul hw hv, rfl⟩
  · rintro n w rest ⟨negative, ds, ⟨w, hw, v, hv, rfl⟩, rfl⟩ hrest
    have hstops : Stops (fun c => c = '+' || c = '-') (v ++ rest) :=
      stops_append hv.2.1 fun c hc => isDigit_sign (hv.2.2 c hc)
    rw [List.append_assoc, integer, run_bind (sign_reads.accepts hw hstops)]
    exact run_bind (digits_reads.accepts hv hrest)

lemma exponent_cons (hc : c = 'e' ∨ c = 'E') : exponent (c :: text) = integer text := by
  rcases hc with rfl | rfl <;> rfl

lemma exponent_of_stops (h : Stops (fun c => c = 'e' || c = 'E') text) :
    exponent text = some (0, text) := by
  rw [exponent, run_bind (show peek text = some (text.head?, text) from rfl)]
  refine congrFun (g := (pure 0 : Parser Int)) ?_ text
  split
  · rename_i hhead
    simp [Stops, hhead] at h
  · rename_i hhead
    simp [Stops, hhead] at h
  · rfl

/-- Digits in front of which a point stands. -/
lemma mantissa_point (text : List Char) :
    mantissa ('.' :: text) = (do return ([], ← digits) : Parser _) text :=
  rfl

/-- Digits that come first. -/
lemma mantissa_of_stops (h : Stops (· = '.') text) : mantissa text = (do
    let whole ← digits
    let fraction ← maybe do
      char '.'
      many Char.isDigit
    return (whole, fraction.getD []) : Parser _) text := by
  rw [mantissa, run_bind (show peek text = some (text.head?, text) from rfl)]
  refine congrFun ?_ text
  split
  · rename_i hhead
    simp [Stops, hhead] at h
  · rfl

lemma isDigit_of_prolongs (hc : prolongs c = false) : c.isDigit = false := by
  rw [prolongs, Char.isAlphanum, Bool.or_eq_false_iff, Bool.or_eq_false_iff] at hc
  exact hc.1.2

lemma exponent_reads : exponent.Reads exponents (Stops prolongs) := by
  constructor
  · rintro (_ | ⟨c, text⟩) e rest h
    · cases h
      exact ⟨[], Or.inr ⟨rfl, rfl⟩, rfl⟩
    · by_cases hc : c = 'e' ∨ c = 'E'
      · rw [exponent_cons hc] at h
        obtain ⟨w, hw, rfl⟩ := integer_reads.consumes _ _ _ h
        have hletter : [c] ∈ ({['e'], ['E']} : Language Char) :=
          hc.imp (congrArg ([·])) (congrArg ([·]))
        exact ⟨c :: w, Or.inl (Language.append_mem_mul hletter hw), rfl⟩
      · rw [exponent_of_stops (stops_cons.2 (by simpa using hc))] at h
        cases h
        exact ⟨[], Or.inr ⟨rfl, rfl⟩, rfl⟩
  · rintro e w rest (⟨_, rfl | rfl, w, hw, rfl⟩ | ⟨rfl, rfl⟩) hrest
    · exact (exponent_cons (Or.inl rfl)).trans
        (integer_reads.accepts hw (hrest.mono fun _ => isDigit_of_prolongs))
    · exact (exponent_cons (Or.inr rfl)).trans
        (integer_reads.accepts hw (hrest.mono fun _ => isDigit_of_prolongs))
    · refine exponent_of_stops (hrest.mono fun c hc => ?_)
      by_contra hletter
      simp only [Bool.or_eq_false_iff, decide_eq_false_iff_not, not_and_or, not_not] at hletter
      rcases hletter with rfl | rfl <;> revert hc <;> decide

lemma stops_exponent {e : Int} (hw : w ∈ exponents e) (hrest : Stops prolongs rest) :
    Stops (fun c => c.isDigit || c = '.') (w ++ rest) := by
  rcases hw with ⟨_, rfl | rfl, v, -, rfl⟩ | ⟨rfl, -⟩
  · exact stops_cons.2 rfl
  · exact stops_cons.2 rfl
  · refine hrest.mono fun c hc => ?_
    rw [Bool.or_eq_false_iff]
    exact ⟨isDigit_of_prolongs hc, (Bool.or_eq_false_iff.1 hc).2⟩

/-- A point with the digits behind it. -/
lemma fraction_reads : Reads (fun ds => {w | w = '.' :: ds ∧ ∀ c ∈ ds, c.isDigit = true})
    (Stops Char.isDigit) (do char '.'; many Char.isDigit : Parser _) := by
  constructor
  · refine (char_reads '.').consumes.bind fun _ w hw => ?_
    obtain rfl : w = ['.'] := hw
    intro text ds rest h
    obtain ⟨v, ⟨rfl, hv⟩, htext⟩ := (many_reads _).consumes text ds rest h
    exact ⟨v, ⟨rfl, hv⟩, htext⟩
  · rintro ds _ rest ⟨rfl, hds⟩ hrest
    exact (run_bind ((char_reads '.').accepts (b := ()) rfl trivial)).trans
      ((many_reads _).accepts ⟨rfl, hds⟩ hrest)

lemma mantissa_consumes : mantissa.Consumes fun parts => mantissas parts.1 parts.2 := by
  intro text parts rest h
  by_cases hpoint : Stops (· = '.') text
  · rw [mantissa_of_stops hpoint] at h
    refine (digits_reads.consumes.bind (N := fun parts => mantissas parts.1 parts.2)
      fun whole w hw => (fraction_reads.consumes.maybe (N := fun found => {v | match found with
        | some fraction => v = '.' :: fraction ∧ ∀ c ∈ fraction, c.isDigit = true
        | none => v = []}) (fun _ _ hv => hv) rfl).map fun found v hv => ?_) text parts rest h
    obtain ⟨rfl, hne, hwhole⟩ := hw
    cases found with
    | none =>
        obtain rfl : v = [] := hv
        show w ++ [] ∈ mantissas w []
        rw [List.append_nil]
        exact ⟨by simpa using hwhole, by simpa using hne, Or.inr ⟨rfl, rfl⟩⟩
    | some fraction =>
        obtain ⟨rfl, hfraction⟩ := hv
        exact ⟨List.forall_mem_append.2 ⟨hwhole, hfraction⟩,
          List.append_ne_nil_of_left_ne_nil hne _, Or.inl rfl⟩
  · obtain ⟨text, rfl⟩ : ∃ rest, text = '.' :: rest := by
      cases text with
      | nil => exact absurd stops_nil hpoint
      | cons c text =>
          rw [stops_cons, decide_eq_false_iff_not, not_not] at hpoint
          exact ⟨text, by rw [hpoint]⟩
    have hfraction : Consumes (fun parts => {w | '.' :: w ∈ mantissas parts.1 parts.2})
        (do return ([], ← digits) : Parser (List Char × List Char)) := by
      refine digits_reads.consumes.map fun ds w hw => ?_
      obtain ⟨rfl, hne, hdigits⟩ := hw
      exact ⟨hdigits, hne, Or.inl rfl⟩
    rw [mantissa_point] at h
    obtain ⟨w, hw, rfl⟩ := hfraction _ _ _ h
    exact ⟨'.' :: w, hw, rfl⟩

lemma mantissa_reads : mantissa.Reads (fun parts => mantissas parts.1 parts.2)
    (Stops fun c => c.isDigit || c = '.') := by
  refine ⟨mantissa_consumes, ?_⟩
  rintro ⟨whole, fraction⟩ w rest ⟨hdigits, hne, hw⟩ hrest
  dsimp only at hdigits hne hw
  have hdigit : Stops Char.isDigit rest := hrest.mono fun c hc => (Bool.or_eq_false_iff.1 hc).1
  have hpoint : Stops (· = '.') rest := hrest.mono fun c hc => (Bool.or_eq_false_iff.1 hc).2
  rw [List.forall_mem_append] at hdigits
  by_cases hwhole : whole = []
  · subst hwhole
    rcases hw with rfl | ⟨rfl, -⟩
    · exact (mantissa_point _).trans (run_bind (digits_reads.accepts ⟨rfl, hne, hdigits.2⟩ hdigit))
    · exact absurd rfl hne
  · have hfirst : ∀ v, Stops (· = '.') (whole ++ v) := fun v =>
      stops_append hwhole fun c hc => isDigit_point (hdigits.1 c hc)
    rcases hw with rfl | ⟨rfl, rfl⟩
    · rw [List.append_assoc, List.cons_append, mantissa_of_stops (hfirst _),
        run_bind (digits_reads.accepts ⟨rfl, hwhole, hdigits.1⟩ (stops_cons.2 rfl))]
      exact run_bind (maybe_of_some (fraction_reads.accepts ⟨rfl, hdigits.2⟩ hdigit))
    · rw [mantissa_of_stops (hfirst _),
        run_bind (digits_reads.accepts ⟨rfl, hwhole, hdigits.1⟩ hdigit)]
      exact run_bind (maybe_of_none (bind_of_none (char_of_stops hpoint)))

lemma unsignedNumber_reads (negative : Bool) : (unsignedNumber negative).Reads
    (fun a => {w | ∃ whole fraction shift, w ∈ mantissas whole fraction * exponents shift ∧
      a = .number negative (natOfDigits (whole ++ fraction)) (shift - fraction.length)})
    (Stops prolongs) := by
  constructor
  · refine mantissa_reads.consumes.bind fun parts w hw =>
      exponent_reads.consumes.map fun e v hv => ?_
    exact ⟨parts.1, parts.2, e, Language.append_mem_mul hw hv, rfl⟩
  · rintro a w rest ⟨whole, fraction, shift, ⟨w, hw, v, hv, rfl⟩, rfl⟩ hrest
    rw [List.append_assoc, unsignedNumber,
      run_bind (mantissa_reads.accepts (b := (whole, fraction)) hw (stops_exponent hv hrest))]
    exact run_bind (exponent_reads.accepts hv hrest)

/-! ## Literals -/

lemma toLower_of_not_isUpper (hc : c.isUpper = false) : c.toLower = c := by
  rw [Char.toLower]
  exact dif_neg (by simpa [Char.isUpper] using hc)

lemma isUpper_of_prolongs (hc : prolongs c = false) : c.isUpper = false := by
  rw [prolongs, Char.isAlphanum, Char.isAlpha] at hc
  simp only [Bool.or_eq_false_iff] at hc
  exact hc.1.1.1

lemma isUpper_of_isDigit (hc : c.isDigit = true) : c.isUpper = false := by
  grind [Char.isDigit, Char.isUpper]

/-- A digit is no letter of either case. -/
lemma toLower_digit {d : Char} (hc : c.isDigit = true) (hd : d.isDigit = false) :
    decide (c.toLower = d) = false := by
  rw [toLower_of_not_isUpper (isUpper_of_isDigit hc), decide_eq_false_iff_not]
  rintro rfl
  rw [hd] at hc
  cases hc

lemma wordAnyCase_of_stops {s : String} {cs : List Char} (hs : s.toList = c :: cs)
    (h : Stops (fun d => d.toLower = c) text) : wordAnyCase s text = none := by
  rw [wordAnyCase, hs]
  exact bind_of_none (discard_of_none (charOf_of_stops h))

lemma infinity_of_stops (h : Stops (fun d => d.toLower = 'i') text) :
    infinity negative text = none :=
  bind_of_none (wordAnyCase_of_stops rfl h)

lemma infinity_reads (negative : Bool) : (infinity negative).Reads
    (fun a => {w | a = .infinite negative ∧ w ∈ anyCase "inf" * (1 + anyCase "inity")})
    (Stops prolongs) := by
  constructor
  · refine (wordAnyCase_reads "inf").consumes.bind fun _ w hw => ?_
    refine Consumes.map (L := fun _ => 1 + anyCase "inity") (Consumes.discard
      (L := fun _ => 1 + anyCase "inity") ?_ fun _ _ hv => hv) fun _ v hv => ?_
    · exact (wordAnyCase_reads "inity").consumes.maybe (fun _ _ hv => Or.inr hv) (Or.inl rfl)
    · exact ⟨rfl, Language.append_mem_mul hw hv⟩
  · rintro _ _ rest ⟨rfl, w, hw, v, hv, rfl⟩ hrest
    rw [List.append_assoc, infinity,
      run_bind ((wordAnyCase_reads "inf").accepts (b := ()) hw trivial)]
    rcases hv with hv | hv
    · rw [show v = [] from hv]
      have hnone : wordAnyCase "inity" rest = none :=
        wordAnyCase_of_stops rfl (hrest.mono fun c hc => by
          rw [toLower_of_not_isUpper (isUpper_of_prolongs hc), decide_eq_false_iff_not]
          rintro rfl
          revert hc
          decide)
      exact run_bind (discard_of_some (maybe_of_none hnone))
    · exact run_bind (discard_of_some (maybe_of_some
        ((wordAnyCase_reads "inity").accepts (b := ()) hv trivial)))

lemma stops_signs (hw : w ∈ signs negative) (hv : Stops inClass v) (hplus : inClass '+' = false)
    (hminus : inClass '-' = false) : Stops inClass (w ++ v) := by
  cases negative with
  | false =>
      rcases hw with hw | hw
      · rwa [show w = [] from hw]
      · rw [show w = ['+'] from hw]
        exact stops_cons.2 hplus
  | true =>
      rw [show w = ['-'] from hw]
      exact stops_cons.2 hminus

lemma stops_anyCase {s : String} {cs : List Char} (hs : s.toList = c :: cs) (hw : w ∈ anyCase s)
    (hclass : ∀ d, d.toLower = c → inClass d = false) : Stops inClass (w ++ v) := by
  have hw : w.map Char.toLower = s.toList := hw
  rw [hs, List.map_eq_cons_iff] at hw
  obtain ⟨d, w, rfl, hd, -⟩ := hw
  exact stops_cons.2 (hclass d hd)

lemma stops_mantissa {whole fraction : List Char} (hw : w ∈ mantissas whole fraction)
    (hdigit : ∀ d, d.isDigit = true → inClass d = false) (hpoint : inClass '.' = false) :
    Stops inClass (w ++ v) := by
  obtain ⟨hdigits, hne, hw⟩ := hw
  rw [List.forall_mem_append] at hdigits
  cases whole with
  | nil =>
      rcases hw with rfl | ⟨rfl, -⟩
      · exact stops_cons.2 hpoint
      · exact absurd rfl hne
  | cons c whole =>
      have hc := hdigit c (hdigits.1 c (by simp))
      rcases hw with rfl | ⟨-, rfl⟩
      · exact stops_cons.2 hc
      · exact stops_cons.2 hc

/-- **A literal is read** from the words that write it. -/
theorem literal_reads : literal.Reads written (Stops prolongs) := by
  constructor
  · refine .orElse ((wordAnyCase_reads "nan").consumes.map fun _ w hw => hw) ?_
    refine sign_reads.consumes.bind fun negative w hw => .orElse ?_ ?_
    · intro text a rest h
      obtain ⟨v, ⟨rfl, hv⟩, htext⟩ := (infinity_reads negative).consumes text a rest h
      exact ⟨v, Language.append_mem_mul hw hv, htext⟩
    · intro text a rest h
      obtain ⟨v, ⟨whole, fraction, shift, hv, rfl⟩, htext⟩ :=
        (unsignedNumber_reads negative).consumes text a rest h
      exact ⟨v, ⟨whole, fraction, shift, Language.append_mem_mul hw hv, rfl, rfl⟩, htext⟩
  · rintro (_ | negative | ⟨negative, n, e⟩) w rest hw hrest
    · exact orElse_of_some (run_bind ((wordAnyCase_reads "nan").accepts (b := ()) hw trivial))
    · obtain ⟨w, hw, _, ⟨i, hi, t, ht, rfl⟩, rfl⟩ := hw
      have hfirst : ∀ {inClass : Char → Bool}, (∀ d, d.toLower = 'i' → inClass d = false) →
          Stops inClass (i ++ t ++ rest) := fun hclass => by
        rw [List.append_assoc]
        exact stops_anyCase rfl hi hclass
      have hnan : Stops (fun d => d.toLower = 'n') (i ++ t ++ rest) :=
        hfirst fun d hd => by rw [hd]; rfl
      have hsign : Stops (fun c => c = '+' || c = '-') (i ++ t ++ rest) :=
        hfirst fun d hd => by
          rw [Bool.or_eq_false_iff, decide_eq_false_iff_not, decide_eq_false_iff_not]
          refine ⟨?_, ?_⟩ <;> rintro rfl <;> revert hd <;> decide
      rw [List.append_assoc w, literal, orElse_of_none (bind_of_none
        (wordAnyCase_of_stops rfl (stops_signs hw hnan rfl rfl))),
        run_bind (sign_reads.accepts hw hsign)]
      exact orElse_of_some
        ((infinity_reads negative).accepts ⟨rfl, Language.append_mem_mul hi ht⟩ hrest)
    · obtain ⟨whole, fraction, shift, ⟨w, hw, _, ⟨m, hm, x, hx, rfl⟩, rfl⟩, rfl, rfl⟩ := hw
      have hfirst : ∀ {inClass : Char → Bool}, (∀ d, d.isDigit = true → inClass d = false) →
          inClass '.' = false → Stops inClass (m ++ x ++ rest) := fun hdigit hpoint => by
        rw [List.append_assoc]
        exact stops_mantissa hm hdigit hpoint
      have hnan : Stops (fun d => d.toLower = 'n') (m ++ x ++ rest) :=
        hfirst (fun d hd => toLower_digit hd rfl) rfl
      have hinfinity : Stops (fun d => d.toLower = 'i') (m ++ x ++ rest) :=
        hfirst (fun d hd => toLower_digit hd rfl) rfl
      have hsign : Stops (fun c => c = '+' || c = '-') (m ++ x ++ rest) :=
        hfirst (fun d hd => isDigit_sign hd) rfl
      rw [List.append_assoc w, literal, orElse_of_none (bind_of_none
        (wordAnyCase_of_stops rfl (stops_signs hw hnan rfl rfl))),
        run_bind (sign_reads.accepts hw hsign), orElse_of_none (infinity_of_stops hinfinity)]
      exact (unsignedNumber_reads negative).accepts
        ⟨whole, fraction, shift, Language.append_mem_mul hm hx, rfl⟩ hrest

end Literal

end SketchSolver
