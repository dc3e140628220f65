import Mathlib
import SketchSolver.Text.Parser

/-!
# What a parser reads

A parser and a language for each value: the parser `Reads` these languages if what it consumes for a
value is a word of its language, and if it reads the value from each such word, where what follows
lets it stop.  A parser that reads as much as it can needs that: the next character must not prolong
the word (`Stops`).

The rules below follow the ways of building a parser.  `Consumes.bind` hands what was consumed on to
the parser that comes next, as a prefix of the words it has to complete; `run_bind` and
`orElse_of_none` compute.
-/

namespace SketchSolver

namespace Parser

variable {β γ : Type} {p q : Parser β} {f : β → Parser γ} {L M : β → Language Char}
variable {N : γ → Language Char} {F : List Char → Prop} {inClass : Char → Bool}
variable {text rest w : List Char} {b : β}

/-- What the parser consumes for a value is a word of its language. -/
def Consumes (L : β → Language Char) (p : Parser β) : Prop :=
  ∀ text b rest, p text = some (b, rest) → ∃ w ∈ L b, w ++ rest = text

/-- The parser reads a value from each word of its language, where it may stop behind it. -/
structure Reads (L : β → Language Char) (F : List Char → Prop) (p : Parser β) : Prop where
  consumes : p.Consumes L
  accepts : ∀ {b : β} {w rest : List Char}, w ∈ L b → F rest → p (w ++ rest) = some (b, rest)

/-- No character of the class comes next. -/
def Stops (inClass : Char → Bool) (rest : List Char) : Prop :=
  ∀ c ∈ rest.head?, inClass c = false

lemma stops_nil : Stops inClass [] := by simp [Stops]

lemma stops_cons {c : Char} : Stops inClass (c :: rest) ↔ inClass c = false := by simp [Stops]

lemma Stops.mono {other : Char → Bool} (h : Stops inClass rest)
    (hclass : ∀ c, inClass c = false → other c = false) : Stops other rest :=
  fun c hc => hclass c (h c hc)

/-- What begins with a character outside the class. -/
lemma stops_append {v : List Char} (hw : w ≠ []) (hclass : ∀ c ∈ w, inClass c = false) :
    Stops inClass (w ++ v) := by
  cases w with
  | nil => exact absurd rfl hw
  | cons c w => exact stops_cons.2 (hclass c (by simp))

lemma stops_of_append_nil (h : Stops inClass (w ++ [])) : Stops inClass w := by
  rwa [List.append_nil] at h

/-! ## Running a parser -/

lemma run_bind (h : p text = some (b, rest)) : (p >>= f) text = f b rest := by
  show (p text).bind _ = _
  rw [h]
  rfl

lemma bind_of_none (h : p text = none) : (p >>= f) text = none := by
  show (p text).bind _ = _
  rw [h]
  rfl

lemma orElse_of_some {r : β × List Char} (h : p text = some r) : (p <|> q) text = some r :=
  (Option.orElse_eq_some _ _ _).2 (Or.inl h)

lemma orElse_of_none (h : p text = none) : (p <|> q) text = q text := by
  show (p text).orElse _ = _
  rw [h]
  rfl

lemma maybe_of_some (h : p text = some (b, rest)) : maybe p text = some (some b, rest) := by
  rw [maybe, h]

lemma maybe_of_none (h : p text = none) : maybe p text = some (none, text) := by
  rw [maybe, h]

/-! ## Building a parser -/

namespace Consumes

lemma pure (h : [] ∈ L b) : Consumes L (Pure.pure b : Parser β) := by
  rintro text _ _ ⟨⟩
  exact ⟨[], h, rfl⟩

lemma mono (hp : p.Consumes L) (h : ∀ b, ∀ w ∈ L b, w ∈ M b) : p.Consumes M := by
  intro text b rest hb
  obtain ⟨w, hw, htext⟩ := hp text b rest hb
  exact ⟨w, h b w hw, htext⟩

/-- One after the other: what was consumed is a prefix of what has to be. -/
lemma bind (hp : p.Consumes L) (hf : ∀ b, ∀ w ∈ L b, (f b).Consumes fun c => {v | w ++ v ∈ N c}) :
    (p >>= f).Consumes N := by
  intro text c rest h
  obtain ⟨⟨b, rest'⟩, hb, hc⟩ := Option.bind_eq_some_iff.1 h
  obtain ⟨w, hw, rfl⟩ := hp text b rest' hb
  obtain ⟨v, hv, rfl⟩ := hf b w hw rest' c rest hc
  exact ⟨w ++ v, hv, List.append_assoc _ _ _⟩

/-- The last part of a parser. -/
lemma map {g : β → γ} (hp : p.Consumes L) (h : ∀ b, ∀ w ∈ L b, w ∈ N (g b)) :
    (p >>= fun b => Pure.pure (g b)).Consumes N :=
  hp.bind fun b w hw => .pure (show w ++ [] ∈ N (g b) by rw [List.append_nil]; exact h b w hw)

lemma orElse (hp : p.Consumes L) (hq : q.Consumes L) : (p <|> q).Consumes L := by
  intro text b rest h
  obtain h | ⟨-, h⟩ := (Option.orElse_eq_some _ _ _).1 h
  · exact hp text b rest h
  · exact hq text b rest h

lemma maybe {N : Option β → Language Char} (hp : p.Consumes L)
    (hsome : ∀ b, ∀ w ∈ L b, w ∈ N (some b)) (hnone : [] ∈ N none) : p.maybe.Consumes N := by
  intro text b rest h
  rw [Parser.maybe] at h
  split at h
  · rename_i b' rest' hrun
    cases h
    obtain ⟨w, hw, rfl⟩ := hp _ _ _ hrun
    exact ⟨w, hsome _ w hw, rfl⟩
  · cases h
    exact ⟨[], hnone, rfl⟩

end Consumes

/-- Nothing may follow. -/
lemma Reads.accepts_all (hp : p.Reads L F) (hw : w ∈ L b) (hF : F []) : p w = some (b, []) := by
  simpa using hp.accepts hw hF

/-- A whole text is read as a value exactly if it is a word of its language. -/
lemma Reads.readAll_eq_some_iff (hp : p.Reads L F) (hF : F []) :
    p.readAll text = some b ↔ text ∈ L b := by
  have hrun : p.readAll text = some b ↔ p text = some (b, []) := by
    rw [readAll]
    constructor
    · intro h
      split at h
      · rename_i b' hrun
        cases h
        exact hrun
      · cases h
    · intro h
      rw [show p.run text = some (b, []) from h]
  rw [hrun]
  constructor
  · intro h
    obtain ⟨w, hw, rfl⟩ := hp.consumes text b [] h
    rwa [List.append_nil]
  · intro h
    exact hp.accepts_all h hF

/-! ## Characters and words -/

lemma charOf_reads (inClass : Char → Bool) :
    (charOf inClass).Reads (fun c => {w | w = [c] ∧ inClass c = true}) fun _ => True where
  consumes text c rest h := by
    cases text with
    | nil => cases h
    | cons d text =>
        rw [charOf, Option.ite_none_right_eq_some] at h
        obtain ⟨hd, hsome⟩ := h
        cases hsome
        exact ⟨[_], ⟨rfl, hd⟩, rfl⟩
  accepts {c w rest} hw _ := by
    obtain ⟨rfl, hc⟩ := hw
    exact if_pos hc

lemma charOf_of_stops (h : Stops inClass text) : charOf inClass text = none := by
  cases text with
  | nil => rfl
  | cons c text => exact if_neg (by simp [stops_cons.1 h])

/-- Nothing is kept of what was read. -/
lemma Consumes.discard {K : Language Char} (hp : p.Consumes L) (hK : ∀ b, ∀ w ∈ L b, w ∈ K) :
    Consumes (fun _ => K) (discard p) :=
  hp.map hK

lemma discard_of_some (h : p text = some (b, rest)) : (discard p) text = some ((), rest) :=
  run_bind (f := fun _ => Pure.pure ()) h

lemma Reads.discard {K : Language Char} (hp : p.Reads L F) (hK : ∀ w, w ∈ K ↔ ∃ b, w ∈ L b) :
    Reads (fun _ => K) F (discard p) where
  consumes := hp.consumes.discard fun b w hw => (hK w).2 ⟨b, hw⟩
  accepts {_ w rest} hw hrest := by
    obtain ⟨b, hw⟩ := (hK w).1 hw
    exact discard_of_some (hp.accepts hw hrest)

lemma discard_of_none (h : p text = none) : (discard p) text = none :=
  bind_of_none (f := fun _ => Pure.pure ()) h

lemma char_reads (c : Char) : (char c).Reads (fun _ => {[c]}) fun _ => True := by
  refine (charOf_reads _).discard fun w => ⟨?_, ?_⟩
  · rintro rfl
    exact ⟨c, rfl, decide_eq_true rfl⟩
  · rintro ⟨d, rfl, hd⟩
    rw [of_decide_eq_true hd]
    rfl

lemma char_of_stops {c : Char} (h : Stops (· = c) text) : char c text = none :=
  discard_of_none (charOf_of_stops h)

lemma chars_reads (cs : List Char) : (chars cs).Reads (fun _ => {cs}) fun _ => True := by
  induction cs with
  | nil =>
      refine ⟨.pure rfl, fun {b w rest} hw _ => ?_⟩
      rw [show w = [] from hw]
      rfl
  | cons c cs ih =>
      refine ⟨(char_reads c).consumes.bind fun _ w hw => ?_, fun {b w rest} hw _ => ?_⟩
      · obtain rfl : w = [c] := hw
        intro text b rest h
        obtain ⟨v, hv, htext⟩ := ih.consumes text b rest h
        obtain rfl : v = cs := hv
        exact ⟨v, rfl, htext⟩
      · rw [show w = c :: cs from hw]
        exact (run_bind ((char_reads c).accepts (b := ()) rfl trivial)).trans
          (ih.accepts rfl trivial)

lemma word_reads (s : String) : (word s).Reads (fun _ => {s.toList}) fun _ => True :=
  chars_reads _

lemma word_of_stops {s : String} {c : Char} {cs : List Char} (hs : s.toList = c :: cs)
    (h : Stops (· = c) text) : word s text = none := by
  rw [word, hs]
  exact bind_of_none (char_of_stops h)

/-! ## Runs of characters -/

lemma takeWhile_of_stops (h : Stops inClass rest) : rest.takeWhile inClass = [] := by
  cases rest with
  | nil => rfl
  | cons c rest => simp [stops_cons.1 h]

lemma dropWhile_of_stops (h : Stops inClass rest) : rest.dropWhile inClass = rest := by
  cases rest with
  | nil => rfl
  | cons c rest => simp [stops_cons.1 h]

lemma takeWhile_append (hw : ∀ c ∈ w, inClass c = true) (hrest : Stops inClass rest) :
    (w ++ rest).takeWhile inClass = w := by
  rw [List.takeWhile_append_of_pos hw, takeWhile_of_stops hrest, List.append_nil]

lemma dropWhile_append (hw : ∀ c ∈ w, inClass c = true) (hrest : Stops inClass rest) :
    (w ++ rest).dropWhile inClass = rest := by
  rw [List.dropWhile_append_of_pos hw, dropWhile_of_stops hrest]

lemma many_reads (inClass : Char → Bool) :
    (many inClass).Reads (fun found => {w | w = found ∧ ∀ c ∈ w, inClass c = true})
      (Stops inClass) where
  consumes text found rest h := by
    cases h
    exact ⟨_, ⟨rfl, fun c hc => List.mem_takeWhile_imp hc⟩, List.takeWhile_append_dropWhile⟩
  accepts {found w rest} hw hrest := by
    obtain ⟨rfl, hclass⟩ := hw
    rw [many, takeWhile_append hclass hrest, dropWhile_append hclass hrest]

lemma many1_reads (inClass : Char → Bool) :
    (many1 inClass).Reads (fun found => {w | w = found ∧ w ≠ [] ∧ ∀ c ∈ w, inClass c = true})
      (Stops inClass) where
  consumes text found rest h := by
    rw [many1] at h
    split at h
    · cases h
    · rename_i hne
      cases h
      exact ⟨_, ⟨rfl, hne, fun c hc => List.mem_takeWhile_imp hc⟩, List.takeWhile_append_dropWhile⟩
  accepts {found w rest} hw hrest := by
    obtain ⟨rfl, hne, hclass⟩ := hw
    rw [many1, takeWhile_append hclass hrest, dropWhile_append hclass hrest]
    split
    · exact absurd rfl hne
    · rfl

end Parser

end SketchSolver
