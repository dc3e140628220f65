/-!
# Sets in insertion order

An `OrderedSet` is a list without repetitions.  A new member goes to the end, a member that is
already present stays where it is, and removing one keeps the order of the others.

`mem_insert`, `mem_insertMany` and `mem_erase` describe the operations through membership;
`toList` shows the order.
-/

namespace SketchSolver

/-- A finite set that remembers the order in which its members were first inserted. -/
@[ext]
structure OrderedSet (α : Type) where
  /-- The members, oldest first. -/
  toList : List α
  /-- No member is listed twice. -/
  nodup : toList.Nodup

namespace OrderedSet

variable {α : Type}

/-- The set without members. -/
def empty : OrderedSet α :=
  ⟨[], List.nodup_nil⟩

instance : Inhabited (OrderedSet α) := ⟨empty⟩

instance : Membership α (OrderedSet α) where
  mem s a := a ∈ s.toList

theorem mem_def {s : OrderedSet α} {a : α} : a ∈ s ↔ a ∈ s.toList := Iff.rfl

@[simp] theorem not_mem_empty (a : α) : ¬ a ∈ (empty : OrderedSet α) := by
  simp [mem_def, empty]

/-- How many members there are. -/
def size (s : OrderedSet α) : Nat :=
  s.toList.length

variable [DecidableEq α]

instance (a : α) (s : OrderedSet α) : Decidable (a ∈ s) :=
  inferInstanceAs (Decidable (a ∈ s.toList))

/-- Is `a` a member? -/
def contains (s : OrderedSet α) (a : α) : Bool :=
  decide (a ∈ s)

/-- Adds a member at the end, unless it is present. -/
def insert (s : OrderedSet α) (a : α) : OrderedSet α :=
  if h : a ∈ s then
    s
  else
    { toList := s.toList ++ [a]
      nodup := by
        rw [List.nodup_append]
        refine ⟨s.nodup, by simp, ?_⟩
        intro b hb c hc
        simp only [List.mem_singleton] at hc
        subst hc
        exact fun heq => h (heq ▸ hb) }

/-- Adds several members, one after the other. -/
def insertMany (s : OrderedSet α) (as : List α) : OrderedSet α :=
  as.foldl insert s

/-- The members of a list, each at its first place. -/
def ofList (as : List α) : OrderedSet α :=
  empty.insertMany as

/-- Removes a member; the others keep their order. -/
def erase (s : OrderedSet α) (a : α) : OrderedSet α where
  toList := s.toList.filter fun b => !decide (b = a)
  nodup := s.nodup.sublist List.filter_sublist

/-- Have the two sets no member in common? -/
def isDisjoint (s t : OrderedSet α) : Bool :=
  s.toList.all fun a => !t.contains a

/-! ## Membership -/

@[simp] theorem contains_eq_true_iff (s : OrderedSet α) (a : α) :
    s.contains a = true ↔ a ∈ s := by
  simp [contains]

@[simp] theorem mem_insert (s : OrderedSet α) (a b : α) : b ∈ s.insert a ↔ b ∈ s ∨ b = a := by
  rw [insert]
  split
  · rename_i h
    refine ⟨Or.inl, fun hb => hb.elim id ?_⟩
    rintro rfl
    exact h
  · simp [mem_def]

@[simp] theorem mem_insertMany (s : OrderedSet α) (as : List α) (b : α) :
    b ∈ s.insertMany as ↔ b ∈ s ∨ b ∈ as := by
  induction as generalizing s with
  | nil => simp [insertMany]
  | cons a as ih =>
    rw [insertMany, List.foldl_cons, ← insertMany, ih, mem_insert, List.mem_cons, or_assoc]

@[simp] theorem mem_ofList (as : List α) (b : α) : b ∈ ofList as ↔ b ∈ as := by
  simp [ofList]

@[simp] theorem mem_erase (s : OrderedSet α) (a b : α) : b ∈ s.erase a ↔ b ∈ s ∧ b ≠ a := by
  simp [mem_def, erase]

theorem isDisjoint_eq_true_iff (s t : OrderedSet α) :
    s.isDisjoint t = true ↔ ∀ a ∈ s, ¬ a ∈ t := by
  simp [isDisjoint, contains, mem_def]

/-- Inserting a member that is present changes nothing. -/
theorem insert_of_mem {s : OrderedSet α} {a : α} (h : a ∈ s) : s.insert a = s := by
  rw [insert, dif_pos h]

theorem toList_insert_of_not_mem {s : OrderedSet α} {a : α} (h : ¬ a ∈ s) :
    (s.insert a).toList = s.toList ++ [a] := by
  rw [insert, dif_neg h]

end OrderedSet

end SketchSolver
