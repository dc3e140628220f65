import Mathlib
import SketchSolver.Sketch.Edit
import SketchSolver.Proofs.Arena.Change
import SketchSolver.Proofs.Cluster.Build

/-!
# Intact sketches

The invariant of a sketch, and one lemma for each primitive change of one.

**The parts.**  `Sketch.SoundExcept P` says that arena and handle table are well-formed, that
everything the constraints name is there, that the memo is right, and that all identifiers came out
of the supply, in order.  The constraints in `P` are excused from naming what is there: a removal
takes away what they name first and takes them away afterwards.

**The whole.**  `Sketch.IntactExcept P` says in addition that a clustering that is kept is a
clustering of the present constraints.  Forgetting the clustering makes a sound sketch intact
(`SoundExcept.intact_of_forgotten`), so only the changes that keep it need an argument.

**Who needs which.**  Every public operation takes intact sketches to intact ones; between the two,
operations pass through sketches that are only sound.
-/

namespace SketchSolver

namespace Sketch

variable {α : Type} {s : Sketch α} {P : ConstraintId → Prop}

/-- The constraint refers to the variable. -/
def Refers (s : Sketch α) : ConstraintId → VarId → Prop :=
  s.constraints.Refers s.handles

section

variable [Scalar α]

/-- Everything is there and in order, but what the constraints in `P` name. -/
structure SoundExcept (P : ConstraintId → Prop) (s : Sketch α) : Prop where
  arena : s.arena.WellFormed
  rooted : s.handles.Rooted
  separate : s.handles.Separate
  grounded : s.handles.Grounded s.arena
  live : ∀ {id c}, s.constraints.get? id = some c → ¬ P id → c.Live s.handles s.arena
  memo : ∀ {key id}, s.memo.get? key = some id →
    ∃ c, s.constraints.get? id = some c ∧ c.key = some key
  variableIds : ∀ {v}, s.arena.contains v = true → v.index < s.ids.next
  handleIds : ∀ {h}, s.handles.contains h = true → h.index < s.ids.next
  constraintIds : ∀ {id}, id ∈ s.constraints.keys → id.index < s.ids.next
  ordered : s.constraints.keys.Pairwise (·.index < ·.index)

/-- Everything is there and in order, and the clustering, if there is one, is up to date. -/
structure IntactExcept (P : ConstraintId → Prop) (s : Sketch α) : Prop extends SoundExcept P s where
  current : ∀ {cs}, s.clusters = some cs →
    Cluster.Clustering s.Refers s.arena s.constraints.keys cs

/-- Sound without exception. -/
abbrev Sound (s : Sketch α) : Prop := SoundExcept (fun _ => False) s

/-- Intact without exception. -/
abbrev Intact (s : Sketch α) : Prop := IntactExcept (fun _ => False) s

lemma SoundExcept.intact_of_forgotten (h : SoundExcept P s) (hnone : s.clusters = none) :
    IntactExcept P s where
  toSoundExcept := h
  current hsome := by
    rw [hnone] at hsome
    cases hsome

lemma SoundExcept.invalidate (h : SoundExcept P s) : IntactExcept P s.invalidate :=
  SoundExcept.intact_of_forgotten { h with } rfl

lemma SoundExcept.weaken {Q : ConstraintId → Prop} (h : SoundExcept P s) (hPQ : ∀ i, P i → Q i) :
    SoundExcept Q s :=
  { h with live := fun hget hQ => h.live hget fun hP => hQ (hPQ _ hP) }

lemma Sound.live_entries (h : s.Sound) : ∀ e ∈ s.constraints.entries, e.2.Live s.handles s.arena :=
  fun e he => h.live ((s.constraints.mem_entries_iff e.1 e.2).1 he) not_false

omit [Scalar α] in
/-- Only constraints that are there refer to anything. -/
lemma Refers.mem_keys {id : ConstraintId} {v : VarId} (h : s.Refers id v) :
    id ∈ s.constraints.keys := by
  obtain ⟨k, hget, -⟩ := h
  exact OrderedMap.mem_keys_of_get? hget

/-! ## The empty sketch -/

theorem intact_withConfig (config : Config α) : (withConfig config).Intact where
  arena := Arena.wellFormed_empty
  rooted := HandleTable.rooted_empty
  separate := by
    constructor
    · intro id c hc
      cases hc
    · intro i j c d hc
      cases hc
  grounded := by
    intro id c hc
    cases hc
  live hget := by cases hget
  memo hget := by cases hget
  variableIds hcontains := by cases hcontains
  handleIds hcontains := by cases hcontains
  constraintIds hmem := by cases hmem
  ordered := .nil
  current hsome := by cases hsome

/-! ## Unifications and values -/

/-- Unifying, detaching and merging handles: variables and coordinates stay. -/
lemma SoundExcept.rearrange (h : SoundExcept P s) {b : Arena α} {u : HandleTable}
    (hb : b.WellFormed) (hids : b.ids = s.arena.ids) (hu : u.Rooted)
    (hpoints : u.points = s.handles.points) :
    SoundExcept P { s with arena := b, handles := u } := by
  have hcontains : ∀ v, b.contains v = true ↔ s.arena.contains v = true := by
    intro v
    rw [Arena.contains_of_ids hids]
  exact {
    arena := hb
    rooted := hu
    separate := h.separate.congr hpoints
    grounded := h.grounded.congr hpoints fun v => (hcontains v).2
    live := fun hget hP => (h.live hget hP).congr hpoints fun v => (hcontains v).2
    memo := h.memo
    variableIds := fun hv => h.variableIds ((hcontains _).1 hv)
    handleIds := fun hi => h.handleIds ((HandleTable.contains_congr hpoints _).1 hi)
    constraintIds := h.constraintIds
    ordered := h.ordered }

/-- Changing values only. -/
lemma IntactExcept.revalue (h : IntactExcept P s) {b : Arena α} (hb : b.WellFormed)
    (hshape : b.shape = s.arena.shape) : IntactExcept P { s with arena := b } where
  toSoundExcept := h.toSoundExcept.rearrange hb (Arena.ids_congr hshape) h.rooted rfl
  current hsome := (h.current hsome).congr (Arena.ids_congr hshape) (Arena.canonical_congr hshape)

/-- Drawing the consequences of a live constraint never fails. -/
lemma SoundExcept.relate (h : SoundExcept P s) {c : Constraint α}
    (hc : c.Live s.handles s.arena) :
    ∃ b u, c.relate s.arena s.handles = .ok (b, u) ∧
      SoundExcept P { s with arena := b, handles := u } := by
  obtain ⟨b, u, hrelate, hwf, hcoarse, hrooted, hpoints⟩ :=
    hc.relate_spec h.arena h.rooted h.grounded
  exact ⟨b, u, hrelate, h.rearrange hwf hcoarse.ids hrooted hpoints⟩

/-! ## Identifiers -/

lemma SoundExcept.withIds (h : SoundExcept P s) {ids : IdSupply} (hle : s.ids.next ≤ ids.next) :
    SoundExcept P { s with ids } :=
  { h with
    variableIds := fun hv => (h.variableIds hv).trans_le hle
    handleIds := fun hi => (h.handleIds hi).trans_le hle
    constraintIds := fun hi => (h.constraintIds hi).trans_le hle }

lemma IntactExcept.withIds (h : IntactExcept P s) {ids : IdSupply} (hle : s.ids.next ≤ ids.next) :
    IntactExcept P { s with ids } where
  toSoundExcept := h.toSoundExcept.withIds hle
  current := h.current

/-- The identifier that is given out next is not taken. -/
lemma SoundExcept.fresh_variable (h : SoundExcept P s) : s.arena.contains ⟨s.ids.next⟩ = false := by
  rw [← Bool.not_eq_true]
  intro hcontains
  exact absurd (h.variableIds hcontains) (Nat.lt_irrefl _)

/-! ## Adding variables and handles -/

lemma SoundExcept.addVariable (h : SoundExcept P s) (x : α) (r : Option Represents) :
    IntactExcept P (addVariable x r s).2 := by
  have hgrow : ∀ v, s.arena.contains v = true →
      (s.arena.insert ⟨s.ids.next⟩ x r).contains v = true :=
    fun v hv => (Arena.contains_insert _ _ _ _ _).2 (Or.inr hv)
  have hnext : s.ids.next < s.ids.next + 1 := Nat.lt_succ_self _
  refine SoundExcept.intact_of_forgotten ?_ rfl
  exact {
    arena := h.arena.insert h.fresh_variable x r
    rooted := h.rooted
    separate := h.separate
    grounded := h.grounded.congr rfl hgrow
    live := fun hget hP => (h.live hget hP).congr rfl hgrow
    memo := h.memo
    variableIds := fun hv => by
      rcases (Arena.contains_insert _ _ _ _ _).1 hv with rfl | hv
      · exact hnext
      · exact (h.variableIds hv).trans hnext
    handleIds := fun hi => (h.handleIds hi).trans hnext
    constraintIds := fun hi => (h.constraintIds hi).trans hnext
    ordered := h.ordered }

/-- A handle whose coordinates belong to no other handle yet. -/
lemma SoundExcept.insertHandle (h : SoundExcept P s) (id : HandleId) (x y : VarId)
    (hid : id.index < s.ids.next) (hnew : s.handles.contains id = false) (hne : x ≠ y)
    (hx : s.arena.contains x = true) (hy : s.arena.contains y = true)
    (hfree : ∀ i c, s.handles.coords? i = some c → c.x ≠ x ∧ c.x ≠ y ∧ c.y ≠ x ∧ c.y ≠ y) :
    SoundExcept P { s with handles := s.handles.insert id x y } := by
  have hother : ∀ i, s.handles.contains i = true → i ≠ id := by
    rintro i hi rfl
    rw [hnew] at hi
    cases hi
  have hgrow : ∀ i, s.handles.contains i = true → (s.handles.insert id x y).coords? i =
      s.handles.coords? i := fun i hi => by rw [HandleTable.coords?_insert, if_neg (hother i hi)]
  exact { h with
    rooted := h.rooted.insert id x y
    separate := by
      constructor
      · intro i c hc
        rw [HandleTable.coords?_insert] at hc
        split at hc
        · cases hc
          exact hne
        · exact h.separate.within hc
      · intro i j c d hc hd hij
        rw [HandleTable.coords?_insert] at hc hd
        split at hc
        · cases hc
          rw [if_neg (by rintro rfl; exact hij (by assumption))] at hd
          obtain ⟨h₁, h₂, h₃, h₄⟩ := hfree j d hd
          exact ⟨h₁.symm, h₃.symm, h₂.symm, h₄.symm⟩
        · split at hd
          · cases hd
            exact hfree i c hc
          · exact h.separate.between hc hd hij
    grounded := by
      intro i c hc
      rw [HandleTable.coords?_insert] at hc
      split at hc
      · cases hc
        exact ⟨hx, hy⟩
      · exact h.grounded i c hc
    live := fun hget hP => by
      refine ⟨fun i hi => ?_, (h.live hget hP).named⟩
      have hi' := (h.live hget hP).handles i hi
      rw [HandleTable.contains_iff_coords?, hgrow i hi', ← HandleTable.contains_iff_coords?]
      exact hi'
    handleIds := fun {i} hi => by
      rw [HandleTable.contains_iff_coords?, HandleTable.coords?_insert] at hi
      by_cases heq : i = id
      · exact heq ▸ hid
      · rw [if_neg heq, ← HandleTable.contains_iff_coords?] at hi
        exact h.handleIds hi }

lemma SoundExcept.addHandle (h : SoundExcept P s) (position : Point α) :
    IntactExcept P (addHandle position s).2 := by
  let n := s.ids.next
  let s₁ : Sketch α := { s with ids := ⟨n + 1⟩ }
  let s₂ := (s₁.addVariable position.x (some (.coordinate ⟨n⟩ .x))).2
  let s₃ := (s₂.addVariable position.y (some (.coordinate ⟨n⟩ .y))).2
  have h₁ : SoundExcept P s₁ := h.withIds (Nat.le_succ n)
  have h₂ : SoundExcept P s₂ := (h₁.addVariable _ _).toSoundExcept
  have h₃ : SoundExcept P s₃ := (h₂.addVariable _ _).toSoundExcept
  have hx : s₂.arena.contains ⟨n + 1⟩ = true :=
    (Arena.contains_insert _ _ _ _ _).2 (Or.inl rfl)
  have hx₃ : s₃.arena.contains ⟨n + 1⟩ = true :=
    (Arena.contains_insert _ _ _ _ _).2 (Or.inr hx)
  have hy₃ : s₃.arena.contains ⟨n + 2⟩ = true :=
    (Arena.contains_insert _ _ _ _ _).2 (Or.inl rfl)
  have hnew : s₃.handles.contains ⟨n⟩ = false := by
    rw [← Bool.not_eq_true]
    intro hcontains
    exact absurd (h.handleIds hcontains) (Nat.lt_irrefl n)
  -- the coordinates of older handles have smaller numbers
  have hold : ∀ i c, s₃.handles.coords? i = some c → c.x.index < n ∧ c.y.index < n := by
    intro i c hc
    exact ⟨h.variableIds (h.grounded i c hc).1, h.variableIds (h.grounded i c hc).2⟩
  have hne : ∀ {v : VarId} {k : Nat}, v.index < n → n ≤ k → v ≠ ⟨k⟩ := by
    rintro v k hv hk rfl
    exact absurd hv (Nat.not_lt.2 hk)
  refine SoundExcept.intact_of_forgotten (h₃.insertHandle ⟨n⟩ ⟨n + 1⟩ ⟨n + 2⟩ ?_ hnew ?_ hx₃ hy₃ ?_)
    rfl
  · show n < n + 3
    omega
  · intro heq
    cases heq
  · intro i c hc
    obtain ⟨hcx, hcy⟩ := hold i c hc
    exact ⟨hne hcx (by omega), hne hcx (by omega), hne hcy (by omega), hne hcy (by omega)⟩

/-! ## Changing and adding constraints -/

/-- Replacing a constraint by another live one with the same key. -/
lemma SoundExcept.replace (h : SoundExcept P s) {id : ConstraintId} {old c : Constraint α}
    (hold : s.constraints.get? id = some old) (hkey : c.key = old.key)
    (hc : c.Live s.handles s.arena) :
    SoundExcept P { s with constraints := s.constraints.insert id c } := by
  have hkeys : (s.constraints.insert id c).keys = s.constraints.keys :=
    OrderedMap.keys_insert_of_mem c (OrderedMap.mem_keys_of_get? hold)
  exact { h with
    live := fun {i d} hget hP => by
      rw [OrderedMap.get?_insert] at hget
      split at hget
      · cases hget
        exact hc
      · exact h.live hget hP
    memo := fun {key i} hmemo => by
      obtain ⟨d, hd, hdkey⟩ := h.memo hmemo
      by_cases hi : i = id
      · subst hi
        rw [hold] at hd
        cases hd
        exact ⟨c, by simp, hkey.trans hdkey⟩
      · exact ⟨d, by simp [hi, hd], hdkey⟩
    constraintIds := fun hi => h.constraintIds (hkeys ▸ hi)
    ordered := hkeys ▸ h.ordered }

omit [Scalar α] in
/-- Constraints that name the same things refer to the same variables. -/
lemma refers_replace {id : ConstraintId} {old c : Constraint α}
    (hold : s.constraints.get? id = some old) (hnames : old.SameNames c) :
    Refers { s with constraints := s.constraints.insert id c } = s.Refers := by
  funext i v
  apply propext
  simp only [Refers, ConstraintTable.Refers, OrderedMap.get?_insert]
  by_cases hi : i = id
  · subst hi
    simp [hold, Constraint.Uses, hnames.vars]
  · simp [hi]

/-- Replacing a constraint by one that names the same things. -/
lemma IntactExcept.replace (h : IntactExcept P s) {id : ConstraintId} {old c : Constraint α}
    (hold : s.constraints.get? id = some old) (hkey : c.key = old.key)
    (hc : c.Live s.handles s.arena) (hnames : old.SameNames c) :
    IntactExcept P { s with constraints := s.constraints.insert id c } where
  toSoundExcept := h.toSoundExcept.replace hold hkey hc
  current hsome := by
    rw [refers_replace hold hnames]
    show Cluster.Clustering s.Refers s.arena (s.constraints.insert id c).keys _
    rw [OrderedMap.keys_insert_of_mem c (OrderedMap.mem_keys_of_get? hold)]
    exact h.current hsome

/-- Moving the fingers on a point in the clustering. -/
lemma IntactExcept.moveFinger (h : IntactExcept P s) {cs : List (Cluster α)}
    (hcs : s.clusters = some cs) (point : Coords) (position : Point α) :
    IntactExcept P { s with clusters := some (cs.map (·.moveFinger point position)) } where
  toSoundExcept := { h.toSoundExcept with }
  current hsome := by
    cases hsome
    exact (h.current hcs).moveFinger point position

/-- Adding a live constraint under an identifier that is newer than those of all others. -/
lemma SoundExcept.insertConstraint (h : SoundExcept P s) {id : ConstraintId} {c : Constraint α}
    {ids : IdSupply} (hle : s.ids.next ≤ ids.next) (hid : id.index < ids.next)
    (hnewest : ∀ i ∈ s.constraints.keys, i.index < id.index) (hc : c.Live s.handles s.arena)
    {memo : OrderedMap ConstraintKey ConstraintId}
    (hmemo : ∀ {key i}, memo.get? key = some i →
      s.memo.get? key = some i ∨ c.key = some key ∧ i = id) :
    SoundExcept P { s with ids, memo, constraints := s.constraints.insert id c } := by
  have hnew : id ∉ s.constraints.keys := fun hmem => Nat.lt_irrefl _ (hnewest id hmem)
  have hkeys : (s.constraints.insert id c).keys = s.constraints.keys ++ [id] :=
    OrderedMap.keys_insert_of_not_mem c hnew
  exact { h with
    live := fun {i d} hget hP => by
      rw [OrderedMap.get?_insert] at hget
      split at hget
      · cases hget
        exact hc
      · exact h.live hget hP
    memo := fun {key i} hget => by
      rcases hmemo hget with hget | ⟨hkey, rfl⟩
      · obtain ⟨d, hd, hdkey⟩ := h.memo hget
        have hi : i ≠ id := by
          rintro rfl
          exact hnew (OrderedMap.mem_keys_of_get? hd)
        exact ⟨d, by simp [hi, hd], hdkey⟩
      · exact ⟨c, by simp, hkey⟩
    variableIds := fun hv => (h.variableIds hv).trans_le hle
    handleIds := fun hi => (h.handleIds hi).trans_le hle
    constraintIds := fun {i} hi => by
      rw [show (OrderedMap.insert s.constraints id c).keys = _ from hkeys] at hi
      rcases List.mem_append.1 hi with hi | hi
      · exact (h.constraintIds hi).trans_le hle
      · exact List.mem_singleton.1 hi ▸ hid
    ordered := by
      show (OrderedMap.insert s.constraints id c).keys.Pairwise _
      rw [hkeys]
      refine List.pairwise_append.2 ⟨h.ordered, List.pairwise_singleton _ _, fun i hi j hj => ?_⟩
      exact List.mem_singleton.1 hj ▸ hnewest i hi }

end

end Sketch

end SketchSolver
