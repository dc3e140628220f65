import Mathlib
import SketchSolver.Proofs.Sketch.Remove

/-!
# Changes of a sketch

Every operation comes down to a few changes, each of which begins and ends with an intact sketch.
What holds of every reachable sketch is proved once for each change, and no further proof goes
through the operations.

* `Sketch.Removal` — one removal by itself.  A cascade is a row of them (`removals_cascade`), and
  the sketches in between need not be intact.
* `Sketch.Change` — one change, with all that is known when it happens.
* `Sketch.Invariant` — what every change keeps.  The first one is being intact
  (`invariant_intact`); `Invariant.of_change` makes more of them.
-/

namespace SketchSolver

namespace Sketch

variable {α : Type}

/-! ## Removals -/

/-- One removal by itself: of a constraint, of a variable that is no coordinate, or of a handle
with its coordinates. -/
inductive Removal : Sketch α → Sketch α → Prop where
  | ofConstraint (s : Sketch α) (id : ConstraintId) : Removal s (dropConstraint id s)
  | ofVariable {s : Sketch α} {v : VarId} : s.handles.ownerOf v = none →
      Removal s { s with arena := s.arena.remove v, clusters := none }
  | ofHandle {s : Sketch α} {id : HandleId} {h : Handle} : s.handles.get? id = some h →
      Removal s { s with
        handles := s.handles.remove id
        arena := (s.arena.remove h.x).remove h.y
        clusters := none }

/-- Several removals, one after the other. -/
abbrev Removals : Sketch α → Sketch α → Prop :=
  Relation.ReflTransGen Removal

section

variable {cut : ConstraintId → Sketch α → Sketch α}

lemma removals_foldl {β : Type} {f : Sketch α → β → Sketch α} (xs : List β)
    (h : ∀ s, ∀ x ∈ xs, Removals s (f s x)) (s : Sketch α) : Removals s (xs.foldl f s) := by
  induction xs generalizing s with
  | nil => exact .refl
  | cons x xs ih =>
      exact (h s x List.mem_cons_self).trans
        (ih (fun s y hy => h s y (List.mem_cons_of_mem _ hy)) _)

lemma removals_dropHandle (hcut : ∀ id s, Removals s (cut id s)) (id : HandleId) (s : Sketch α) :
    Removals s (dropHandle cut id s) := by
  rw [dropHandle]
  cases hget : s.handles.get? id with
  | none => exact .refl
  | some h => exact .head (.ofHandle hget) (removals_foldl _ (fun s id _ => hcut id s) _)

lemma removals_dropVariable (hcut : ∀ id s, Removals s (cut id s)) (v : VarId) (s : Sketch α) :
    Removals s (dropVariable cut v s) := by
  rw [dropVariable]
  cases howner : s.handles.ownerOf v with
  | some id => exact removals_dropHandle hcut id s
  | none => exact .head (.ofVariable howner) (removals_foldl _ (fun s id _ => hcut id s) _)

/-- A cascade is a row of removals, however many steps it may take. -/
lemma removals_cascade (limit : Nat) (id : ConstraintId) (s : Sketch α) :
    Removals s (cascade limit id s) := by
  induction limit generalizing id s with
  | zero => exact .refl
  | succ limit ih =>
      rw [cascade]
      cases s.constraints.get? id with
      | none => exact .refl
      | some c =>
          refine .head (.ofConstraint s id) (removals_foldl _ (fun s v _ => ?_) _)
          split
          · exact removals_dropVariable ih v s
          · exact .refl

end

/-- Removals absorb nothing. -/
lemma Removals.sheds {s s' : Sketch α} (h : Removals s s') : s.arena.Sheds s'.arena := by
  induction h with
  | refl => exact .refl _
  | tail _ hstep ih =>
      cases hstep with
      | ofConstraint id => exact ih
      | ofVariable _ => exact ih.trans (Arena.sheds_remove _ _)
      | ofHandle _ =>
          exact (ih.trans (Arena.sheds_remove _ _)).trans (Arena.sheds_remove _ _)

/-- The removals that an operation asks for, each with all that follows. -/
inductive Removed : Sketch α → Sketch α → Prop where
  | ofConstraint {s : Sketch α} {id : ConstraintId} {c : Constraint α} :
      s.constraints.get? id = some c → Removed s (s.cut id)
  | ofVariable (s : Sketch α) (v : VarId) :
      Removed s (s.dropVariable (cascade s.constraints.size) v)
  | ofHandle (s : Sketch α) (id : HandleId) :
      Removed s (s.dropHandle (cascade s.constraints.size) id)

lemma Removed.removals {s s' : Sketch α} (h : Removed s s') : Removals s s' := by
  cases h with
  | ofConstraint _ => exact removals_cascade _ _ s
  | ofVariable v => exact removals_dropVariable (removals_cascade _) v s
  | ofHandle id => exact removals_dropHandle (removals_cascade _) id s

/-- Cutting a constraint forgets the clustering first. -/
lemma cut_invalidate {s : Sketch α} {id : ConstraintId} {c : Constraint α}
    (hget : s.constraints.get? id = some c) : s.invalidate.cut id = s.cut id := by
  rw [cut_eq hget, cut_eq (s := s.invalidate) hget]
  rfl

variable [Scalar α]

/-! ## Names after an update -/

/-- Equal constraints name the same things, whatever equality of numbers means. -/
lemma sameNames_of_beq {c d : Constraint α} (h : (c == d) = true) : c.SameNames d := by
  cases c <;> cases d <;>
    simp_all [BEq.beq, instBEqConstraint.beq, Constraint.sameNames_iff, Constraint.handles,
      Constraint.inputs, Constraint.owned, Constraint.ownedQuantities]

/-- An update that is quiet names the same things. -/
lemma sameNames_of_isQuietUpdate {old new : Constraint α} (hkey : new.key = old.key)
    (hquiet : isQuietUpdate old new = true) : old.SameNames new := by
  unfold isQuietUpdate at hquiet
  rw [Bool.or_eq_true] at hquiet
  rcases hquiet with heq | hkind
  · exact sameNames_of_beq heq
  · split at hkind
    · obtain rfl : _ = _ := by simpa [Constraint.key] using hkey
      exact ⟨rfl, rfl, rfl⟩
    · obtain rfl : _ = _ := by simpa [Constraint.key] using hkey
      exact ⟨rfl, rfl, rfl⟩
    · cases hkind

/-! ## Changes -/

/-- An identifier was taken for a constraint, and then the variables that it will own were added,
one for each of these quantities. -/
inductive Prepared (s : Sketch α) (id : ConstraintId) :
    List (VarId × Quantity) → Sketch α → Prop where
  | reserve : id = ⟨s.ids.next⟩ → Prepared s id [] { s with ids := s.ids.fresh.2 }
  | own {owned : List (VarId × Quantity)} {s' : Sketch α} (q : Quantity) (x : α) :
      Prepared s id owned s' →
      Prepared s id (owned ++ [(⟨s'.ids.next⟩, q)])
        (addVariable x (some (.quantity id q)) s').2

/-- All that a constraint refers to is there, and its key is new. -/
structure Addable (s : Sketch α) (c : Constraint α) : Prop where
  handles : ∀ h ∈ c.handles, s.handles.contains h = true
  inputs : ∀ v ∈ c.inputs, s.arena.contains v = true
  unknown : ∀ {key}, c.key = some key → s.memo.get? key = none

/-- The memo after a constraint was added. -/
def remember (s : Sketch α) (id : ConstraintId) (c : Constraint α) :
    OrderedMap ConstraintKey ConstraintId :=
  match c.key with
  | some key => s.memo.insert key id
  | none => s.memo

/-- One change of an intact sketch. -/
inductive Change : Sketch α → Sketch α → Prop where
  | revalue {s : Sketch α} {b : Arena α} : b.WellFormed → b.shape = s.arena.shape →
      Change s { s with arena := b }
  | addVariable (s : Sketch α) (x : α) (label : Option String) :
      Change s (addVariable x (label.map .label) s).2
  | addHandle (s : Sketch α) (position : Point α) : Change s (addHandle position s).2
  | addConstraint {s₀ s : Sketch α} {id : ConstraintId} {c : Constraint α} {b : Arena α}
      {u : HandleTable} : s₀.Addable c → Prepared s₀ id c.ownedQuantities s →
      c.relate s.arena s.handles = .ok (b, u) →
      Change s₀ { s with
        memo := s.remember id c
        constraints := s.constraints.insert id c
        arena := b
        handles := u
        clusters := none }
  | replace {s : Sketch α} {id : ConstraintId} {old c : Constraint α} {key : ConstraintKey}
      {b : Arena α} {u : HandleTable} : s.constraints.get? id = some old → old.key = some key →
      c.key = some key → c.owned = [] → c.Live s.handles s.arena →
      c.relate s.arena s.handles = .ok (b, u) →
      Change s { s with
        constraints := s.constraints.insert id c
        arena := b
        handles := u
        clusters := none }
  | replaceQuietly {s : Sketch α} {id : ConstraintId} {old c : Constraint α}
      {key : ConstraintKey} : s.constraints.get? id = some old → old.key = some key →
      c.key = some key → c.Live s.handles s.arena → isQuietUpdate old c = true →
      Change s { s with constraints := s.constraints.insert id c }
  | moveFinger {s : Sketch α} {id : ConstraintId} {h : HandleId} {p : Point α} {point : Coords}
      (q : Point α) : s.constraints.get? id = some (.finger h p) →
      s.handles.coords? h = some point →
      Change s { s with
        constraints := s.constraints.insert id (.finger h q)
        clusters := s.clusters.map fun cs => cs.map (·.moveFinger point q) }
  | remove {s s' : Sketch α} : Removed s s' → Change s s'
  | detach (s : Sketch α) (v : VarId) :
      Change s { s with arena := s.arena.detach v, clusters := none }
  | invalidate (s : Sketch α) : Change s s.invalidate
  | cluster {s : Sketch α} {cs : List (Cluster α)} {b : Arena α} {u : HandleTable} :
      Cluster.build s.constraints s.arena s.handles = .ok (cs, b, u) →
      Change s { s with arena := b, handles := u, clusters := some cs }
  | configure (s : Sketch α) (config : Config α) (stabilizeGizmos fingerOfGod : Bool) :
      Change s { s with config, stabilizeGizmos, fingerOfGod }

/-! ## Every change keeps a sketch intact -/

variable {s s' : Sketch α}

omit [Scalar α] in
/-- What a memo holds after a constraint is remembered. -/
lemma get?_remember {c : Constraint α} {id i : ConstraintId} {key : ConstraintKey} :
    (s.remember id c).get? key = some i ↔
      c.key = some key ∧ i = id ∨ c.key ≠ some key ∧ s.memo.get? key = some i := by
  rw [remember]
  cases hkey : c.key with
  | none => simp
  | some k =>
      rw [OrderedMap.get?_insert]
      by_cases hk : key = k
      · simp [hk, eq_comm]
      · simp [hk, Ne.symm hk]

lemma Removed.intact (h : Removed s s') (hs : s.Intact) : s'.Intact := by
  cases h with
  | ofConstraint hget => exact Sound.intact_cut hs.toSoundExcept hget
  | ofVariable v => exact ((cuts_cascade _).dropVariable v hs le_rfl).1
  | ofHandle id => exact ((cuts_cascade _).dropHandle id hs le_rfl).1

namespace Prepared

variable {id : ConstraintId} {owned : List (VarId × Quantity)}

omit [Scalar α]

lemma same (h : Prepared s id owned s') :
    s'.constraints = s.constraints ∧ s'.handles = s.handles ∧ s'.memo = s.memo := by
  induction h with
  | reserve _ => exact ⟨rfl, rfl, rfl⟩
  | own q x _ ih => exact ih

lemma index (h : Prepared s id owned s') : id = ⟨s.ids.next⟩ := by
  induction h with
  | reserve hid => exact hid
  | own q x _ ih => exact ih

lemma taken (h : Prepared s id owned s') : id.index < s'.ids.next := by
  induction h with
  | reserve hid => exact hid ▸ Nat.lt_succ_self _
  | own q x _ ih => exact ih.trans (Nat.lt_succ_self _)

lemma grows (h : Prepared s id owned s') {v : VarId} (hv : s.arena.contains v = true) :
    s'.arena.contains v = true := by
  induction h with
  | reserve _ => exact hv
  | own q x _ ih => exact (Arena.contains_insert _ _ _ _ _).2 (Or.inr ih)

lemma sheds (h : Prepared s id owned s') : s.arena.Sheds s'.arena := by
  induction h with
  | reserve _ => exact .refl _
  | own q x _ ih => exact ih.trans (Arena.sheds_insert _ _ _ _)

lemma contains_owned (h : Prepared s id owned s') : ∀ e ∈ owned, s'.arena.contains e.1 = true := by
  induction h with
  | reserve _ => simp
  | own q x _ ih =>
      intro e he
      refine (Arena.contains_insert _ _ _ _ _).2 ?_
      rcases List.mem_append.1 he with he | he
      · exact Or.inr (ih e he)
      · exact Or.inl (congrArg Prod.fst (List.mem_singleton.1 he))

lemma live {c : Constraint α} (h : Prepared s id c.ownedQuantities s') (hadd : s.Addable c) :
    c.Live s'.handles s'.arena := by
  refine ⟨h.same.2.1 ▸ hadd.handles, fun v hv => ?_⟩
  rcases List.mem_append.1 hv with hv | hv
  · exact h.grows (hadd.inputs v hv)
  · obtain ⟨e, he, rfl⟩ := List.mem_map.1 hv
    exact h.contains_owned e he

end Prepared

lemma Prepared.intact {id : ConstraintId} {owned : List (VarId × Quantity)}
    (h : Prepared s id owned s') (hs : s.Intact) : s'.Intact := by
  induction h with
  | reserve _ => exact hs.withIds (Nat.le_succ _)
  | own q x _ ih => exact ih.toSoundExcept.addVariable x _

/-- Clustering an intact sketch succeeds, and the clustering is one of the present constraints. -/
lemma Intact.build_spec (h : s.Intact) :
    ∃ cs b u, Cluster.build s.constraints s.arena s.handles = .ok (cs, b, u) ∧
      Intact { s with arena := b, handles := u, clusters := some cs } ∧
      Refers { s with arena := b, handles := u, clusters := some cs } = s.Refers ∧
      u.points = s.handles.points ∧ b.ids = s.arena.ids := by
  obtain ⟨cs, b, u, hbuild, hwf, hids, hrooted, hpoints, hclustering⟩ :=
    Cluster.build_spec h.grounded (Sound.live_entries h.toSoundExcept) h.ordered
  have hsound : Sound { s with arena := b, handles := u } :=
    h.toSoundExcept.rearrange hwf hids hrooted hpoints
  have hrefers : Refers { s with arena := b, handles := u, clusters := some cs } = s.Refers := by
    funext id v
    simp only [Refers, ConstraintTable.Refers, Constraint.Uses.congr hpoints]
  refine ⟨cs, b, u, hbuild, ⟨{ hsound with }, fun hsome => ?_⟩, hrefers, hpoints, hids⟩
  cases hsome
  rw [hrefers]
  exact hclustering

/-- The consequences of a live constraint, once they are drawn. -/
lemma Sound.related (h : s.Sound) {c : Constraint α} (hc : c.Live s.handles s.arena) {b : Arena α}
    {u : HandleTable} (hrelate : c.relate s.arena s.handles = .ok (b, u)) :
    Sound { s with arena := b, handles := u } := by
  obtain ⟨b', u', hrelate', hsound⟩ := SoundExcept.relate h hc
  rw [hrelate] at hrelate'
  cases hrelate'
  exact hsound

/-- **Every change keeps a sketch intact.** -/
theorem Change.intact (hchange : Change s s') (h : s.Intact) : s'.Intact := by
  cases hchange with
  | revalue hwf hshape => exact h.revalue hwf hshape
  | addVariable x label => exact h.toSoundExcept.addVariable x _
  | addHandle position => exact h.toSoundExcept.addHandle position
  | @addConstraint t id c b u hadd hprepared hrelate =>
      have ht := (hprepared.intact h).toSoundExcept
      have hlive := hprepared.live hadd
      have hnewest : ∀ i ∈ t.constraints.keys, i.index < id.index := by
        rw [hprepared.same.1, hprepared.index]
        exact fun i hi => h.constraintIds hi
      have hsound : Sound { t with
          memo := t.remember id c, constraints := t.constraints.insert id c } :=
        ht.insertConstraint le_rfl hprepared.taken hnewest hlive fun hget => by
          rcases get?_remember.1 hget with hnew | ⟨-, hold⟩
          · exact Or.inr hnew
          · exact Or.inl hold
      exact SoundExcept.invalidate (hsound.related hlive hrelate)
  | replace hold hkey hkey' _ hlive hrelate =>
      have hsound := h.toSoundExcept.replace hold (hkey'.trans hkey.symm) hlive
      exact SoundExcept.invalidate (Sound.related hsound hlive hrelate)
  | replaceQuietly hold hkey hkey' hlive hquiet =>
      have hsame := hkey'.trans hkey.symm
      exact h.replace hold hsame hlive (sameNames_of_isQuietUpdate hsame hquiet)
  | @moveFinger id i p point q hold hpoint =>
      have hlive : (Constraint.finger i p).Live s.handles s.arena := h.live hold not_false
      have hsame : (Constraint.finger i p).SameNames (.finger i q) := ⟨rfl, rfl, rfl⟩
      have hnew := h.replace (c := .finger i q) hold rfl (hsame.live hlive) hsame
      cases hcs : s.clusters with
      | none => exact SoundExcept.invalidate hnew.toSoundExcept
      | some cs => exact hnew.moveFinger hcs point q
  | remove hremoved => exact hremoved.intact h
  | detach v =>
      exact SoundExcept.invalidate
        (h.toSoundExcept.rearrange (h.arena.detach v) (Arena.ids_detach _ _) h.rooted rfl)
  | invalidate => exact h.toSoundExcept.invalidate
  | cluster hbuild =>
      obtain ⟨cs, b, u, hbuild', hintact, -⟩ := h.build_spec
      rw [hbuild] at hbuild'
      cases hbuild'
      exact hintact
  | configure config stabilizeGizmos fingerOfGod => exact { h with }

/-! ## Invariants -/

/-- What every change keeps, and what includes that the sketch is intact. -/
structure Invariant (I : Sketch α → Prop) : Prop where
  intact : ∀ {s}, I s → s.Intact
  step : ∀ {s s'}, I s → Change s s' → I s'

theorem invariant_intact : Invariant (Intact (α := α)) :=
  ⟨id, fun h hchange => hchange.intact h⟩

/-- What every change of an intact sketch keeps is an invariant of intact sketches. -/
theorem Invariant.of_change {I J : Sketch α → Prop} (hI : Invariant I)
    (h : ∀ {s s'}, I s → J s → Change s s' → J s') : Invariant fun s => I s ∧ J s :=
  ⟨fun hs => hI.intact hs.1, fun hs hchange => ⟨hI.step hs.1 hchange, h hs.1 hs.2 hchange⟩⟩

end Sketch

end SketchSolver
