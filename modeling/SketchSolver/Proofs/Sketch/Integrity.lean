import Mathlib
import SketchSolver.Proofs.Sketch.Clustering
import SketchSolver.Proofs.Sketch.Registered

/-!
# Referential integrity

A sketch keeps five tables that refer to each other.  After any history of operations and solves
everything that is referred to is there, whatever is written down twice is written down the same
way, and numbers are not used again.

* `Sketch.Run` — the histories on a machine, whose counter has 32 bits.  An operation that makes it
  overflow stops the machine, so these are the histories after which the counter fits (`run_iff`).
* `Registered.nodup_append_takeWords` — the numbers of a machine are new.
* `run_integrity` — all of it.

So clustering never fails, and a solve fails only if the minimizer does.
-/

namespace SketchSolver

namespace Sketch

variable {α σ : Type} [Scalar α] {s s' : Sketch α}

/-! ## The counter -/

omit [Scalar α] in
lemma Removals.ids (h : Removals s s') : s'.ids = s.ids := by
  induction h with
  | refl => rfl
  | tail _ hstep ih => cases hstep <;> exact ih

/-- The counter does not fall. -/
lemma Change.next_le (hchange : Change s s') : s.ids.next ≤ s'.ids.next := by
  cases hchange with
  | addVariable x label => exact Nat.le_succ _
  | addHandle position => exact Nat.le_add_right _ 3
  | addConstraint hadd hprepared hrelate =>
      have htaken := hprepared.taken
      rw [hprepared.index] at htaken
      exact htaken.le
  | remove hremoved => rw [hremoved.removals.ids]
  | _ => exact le_rfl

lemma invariant_counter (n : Nat) : Invariant fun s : Sketch α => s.Intact ∧ n ≤ s.ids.next :=
  invariant_intact.of_change fun _ hn hchange => hn.trans hchange.next_le

lemma Intact.next_le_perform (h : s.Intact) (op : Operation α) :
    s.ids.next ≤ (op.perform.after s).ids.next :=
  (op.ensures_perform (invariant_counter s.ids.next) ⟨h, le_rfl⟩).after.2

/-! ## Thirty-two bits -/

/-- The sketches that a machine arrives at.  Its counter has 32 bits, and an operation that makes it
overflow stops the machine. -/
inductive Run : Sketch α → Prop where
  | withConfig (config : Config α) : Run (withConfig config)
  | perform {s : Sketch α} (op : Operation α) : Run s → (op.perform.after s).ids.Fits →
      Run (op.perform.after s)
  | solveWith {s : Sketch α} {σ : Type} (m : Minimizer σ α) (memory : σ) :
      Run s → Run (s.solveWith m memory).2.2

lemma ids_clustered {cs : List (Cluster α)} (hclustered : s.clustered = .ok (cs, s')) :
    s'.ids = s.ids := by
  rw [clustered] at hclustered
  split at hclustered
  · cases hclustered
    rfl
  · cases hbuild : Cluster.build s.constraints s.arena s.handles with
    | error e =>
        rw [hbuild] at hclustered
        cases hclustered
    | ok built =>
        rw [hbuild] at hclustered
        cases hclustered
        rfl

/-- A solve takes no number. -/
lemma Intact.ids_solveWith (h : s.Intact) (m : Minimizer σ α) (memory : σ) :
    (s.solveWith m memory).2.2.ids = s.ids := by
  obtain ⟨cs, s', outcomes, after, b, hclustered, -, -, -, -, hsolve⟩ := h.solveWith_spec m memory
  rw [hsolve]
  show s'.ids = s.ids
  exact ids_clustered hclustered

/-- The counter of a machine has not overflowed on the way if it has not in the end. -/
lemma run_iff : Run s ↔ Reachable s ∧ s.ids.Fits := by
  constructor
  · intro h
    induction h with
    | withConfig config => exact ⟨.withConfig config, (by decide : 0 < UInt32.size)⟩
    | perform op _ hfits ih => exact ⟨.perform op ih.1, hfits⟩
    | solveWith m memory _ ih =>
        refine ⟨.solveWith m memory ih.1, ?_⟩
        rw [ih.1.intact.ids_solveWith m memory]
        exact ih.2
  · rintro ⟨h, hfits⟩
    induction h with
    | withConfig config => exact .withConfig config
    | perform op hs ih =>
        exact .perform op (ih ((hs.intact.next_le_perform op).trans_lt hfits)) hfits
    | solveWith m memory hs ih =>
        rw [hs.intact.ids_solveWith m memory] at hfits
        exact .solveWith m memory (ih hfits)

/-! ## Who owns what -/

lemma Reachable.registered (h : Reachable s) : s.Registered :=
  (h.invariant invariant_registered fun config =>
    ⟨intact_withConfig config, registered_withConfig config⟩).2

omit [Scalar α] in
/-- The label of a variable says who owns it. -/
lemma Registered.owner_unique (h : s.Registered) {i j : ConstraintId} {c d : Constraint α}
    {v : VarId} (hc : s.constraints.get? i = some c) (hd : s.constraints.get? j = some d)
    (hv : v ∈ c.owned) (hv' : v ∈ d.owned) : j = i := by
  obtain ⟨⟨v, q⟩, hq, rfl⟩ := List.mem_map.1 hv
  obtain ⟨⟨v, q'⟩, hq', rfl⟩ := List.mem_map.1 hv'
  have hlabel := h.labelled hc hq
  rw [h.labelled hd hq'] at hlabel
  cases hlabel
  rfl

omit [Scalar α] in
/-- No coordinate is owned by a constraint. -/
lemma Registered.component_not_mem_owned (h : s.Registered) {id : ConstraintId} {c : Constraint α}
    {i : HandleId} {p : Coords} (hc : s.constraints.get? id = some c)
    (hp : s.handles.coords? i = some p) (k : Component) : p.component k ∉ c.owned := by
  intro hv
  obtain ⟨⟨v, q⟩, hq, hveq⟩ := List.mem_map.1 hv
  have hlabel := h.label_component hp k
  rw [← hveq, h.labelled hc hq] at hlabel
  cases hlabel

/-- The owner of a variable is older than everything else that refers to it. -/
lemma Registered.owner_older (h : s.Registered) (hs : s.Intact) {i j : ConstraintId}
    {c : Constraint α} {v : VarId} (hc : s.constraints.get? i = some c) (hv : v ∈ c.owned)
    (hrefers : s.Refers j v) (hne : j ≠ i) : s.Older i j := by
  obtain ⟨d, hd, huses⟩ := hrefers
  refine hs.older_of_lt (OrderedMap.mem_keys_of_get? hc) (OrderedMap.mem_keys_of_get? hd) ?_
  rcases ((hs.live hd not_false).uses_iff v).1 huses with ⟨k, -, p, hp, hcoord⟩ | hnamed
  · rcases hcoord with rfl | rfl
    · exact absurd hv (h.component_not_mem_owned hc hp .x)
    · exact absurd hv (h.component_not_mem_owned hc hp .y)
  · rcases List.mem_append.1 hnamed with hinput | howned
    · exact (h.ownedYounger hc v hv).trans (h.inputsOlder hd v hinput)
    · exact absurd (h.owner_unique hc hd hv howned) hne

/-! ## Numbers -/

/-- What is given out next is not in use. -/
lemma Registered.nodup_append_take (h : s.Registered) (hs : s.Intact) (n : Nat) :
    (s.indices ++ (s.ids.take n).1).Nodup := by
  rw [IdSupply.take_eq, List.nodup_append']
  refine ⟨h.apart, List.nodup_range', fun k hk hnext => ?_⟩
  exact (hs.indices_lt k hk).not_ge (List.mem_range'_1.1 hnext).1

/-- Numbers that differ are different words if they fit. -/
lemma nodup_words {ns : List Nat} (hns : ns.Nodup) (hfit : ∀ n ∈ ns, n < UInt32.size) :
    (ns.map UInt32.ofNat).Nodup := by
  refine hns.map_on fun n hn k hk heq => ?_
  rw [← UInt32.toNat_ofNat_of_lt' (hfit n hn), heq, UInt32.toNat_ofNat_of_lt' (hfit k hk)]

/-- Whatever a machine gives out next is not in use. -/
lemma Registered.nodup_append_takeWords (h : s.Registered) (hs : s.Intact) (hfits : s.ids.Fits)
    {n : Nat} {words : List UInt32} {counter : UInt32}
    (htake : IdSupply.takeWords n s.ids.word = some (words, counter)) :
    (s.indices.map UInt32.ofNat ++ words).Nodup := by
  rw [IdSupply.takeWords_word n hfits] at htake
  split at htake
  · rename_i hlater
    cases htake
    rw [← List.map_append]
    refine nodup_words (h.nodup_append_take hs n) fun k hk => ?_
    rcases List.mem_append.1 hk with hk | hk
    · exact (hs.indices_lt k hk).trans hfits
    · rw [IdSupply.take_eq] at hk hlater
      exact (List.mem_range'_1.1 hk).2.trans hlater
  · cases htake

/-! ## What can fail -/

/-- A report is refused only because of a minimizer. -/
lemma conclude_eq_error {outcomes : List Outcome} {e : SolverError}
    (h : Report.conclude outcomes = .error e) :
    ∃ cluster source, e = .minimizer cluster source := by
  rw [Report.conclude] at h
  split at h
  · cases h
    exact ⟨_, _, rfl⟩
  · cases h

/-- **Referential integrity** of whatever a machine arrives at. -/
theorem run_integrity (h : Run s) :
    -- coordinates are there, and belong to their handle only
    (∀ i p k, s.handles.coords? i = some p →
      s.arena.contains (p.component k) = true ∧
      (∀ j q l, s.handles.coords? j = some q → q.component l = p.component k → j = i ∧ l = k) ∧
      ∀ id c, s.constraints.get? id = some c → p.component k ∉ c.owned) ∧
    -- whatever a constraint refers to is there
    (∀ id c, s.constraints.get? id = some c → c.Live s.handles s.arena) ∧
    -- every owned variable has an owner, no other one, and it is older than all else
    (∀ v id q, s.arena.label? v = some (.quantity id q) ↔
      ∃ c, s.constraints.get? id = some c ∧ (v, q) ∈ c.ownedQuantities) ∧
    (∀ i c v, s.constraints.get? i = some c → v ∈ c.owned →
      (∀ j d, s.constraints.get? j = some d → v ∈ d.owned → j = i) ∧
      ∀ j, s.Refers j v → j ≠ i → s.Older i j) ∧
    -- the memo lists the keys, and keys are not shared
    (∀ key id, s.memo.get? key = some id ↔
      ∃ c, s.constraints.get? id = some c ∧ c.key = some key) ∧
    (∀ i j c d key, s.constraints.get? i = some c → s.constraints.get? j = some d →
      c.key = some key → d.key = some key → i = j) ∧
    -- numbers are words, and none is in use twice or will be given out again
    (∀ n ∈ s.indices, n < UInt32.size) ∧ (s.indices.map UInt32.ofNat).Nodup ∧
    (∀ n words counter, IdSupply.takeWords n s.ids.word = some (words, counter) →
      (s.indices.map UInt32.ofNat ++ words).Nodup) ∧
    -- the counter is above all of them and does not fall
    (∀ n ∈ s.indices, UInt32.ofNat n < s.ids.word) ∧
    (∀ op : Operation α, Run (op.perform.after s) → s.ids.word ≤ (op.perform.after s).ids.word) ∧
    (∀ (σ : Type) (m : Minimizer σ α) (memory : σ),
      (s.solveWith m memory).2.2.ids.word = s.ids.word) ∧
    -- clustering does not fail, and solving fails only if a minimizer does
    (∃ cs s', currentClusters s = .ok cs s') ∧
    (∀ (σ : Type) (m : Minimizer σ α) (memory : σ) (e : SolverError),
      (s.solveWith m memory).1 = .error e → ∃ cluster source, e = .minimizer cluster source) ∧
    ∀ e s', solve s = .error e s' → ∃ cluster source, e = .minimizer cluster source := by
  obtain ⟨h, hfits⟩ := run_iff.1 h
  have hs := h.intact
  have hr := h.registered
  have hsizes : ∀ n ∈ s.indices, n < UInt32.size := fun n hn => (hs.indices_lt n hn).trans hfits
  have herror : ∀ (σ : Type) (m : Minimizer σ α) (memory : σ) (e : SolverError),
      (s.solveWith m memory).1 = .error e → ∃ cluster source, e = .minimizer cluster source := by
    intro σ m memory e he
    obtain ⟨cs, s', outcomes, after, b, -, -, -, -, -, hsolve⟩ := hs.solveWith_spec m memory
    rw [hsolve] at he
    exact conclude_eq_error he
  refine ⟨fun i p k hp => ⟨?_, fun j q l hq heq => ?_, fun id c hc => ?_⟩,
    fun id c hc => hs.live hc not_false,
    fun v id q => ⟨fun hv => hr.tidy v id q hv not_false, fun ⟨c, hc, hq⟩ => hr.labelled hc hq⟩,
    fun i c v hc hv => ⟨fun j d hd hv' => hr.owner_unique hc hd hv hv',
      fun j hj hne => hr.owner_older hs hc hv hj hne⟩,
    fun key id => ⟨hs.memo, fun ⟨c, hc, hkey⟩ => hr.remembered hc hkey⟩,
    fun i j c d key hc hd hkey hkey' => ?_, hsizes, nodup_words hr.apart hsizes,
    fun n words counter htake => hr.nodup_append_takeWords hs hfits htake,
    fun n hn => (UInt32.ofNat_lt_iff_lt (hsizes n hn) hfits).2 (hs.indices_lt n hn),
    fun op hrun => (UInt32.ofNat_le_iff_le hfits (run_iff.1 hrun).2).2 (hs.next_le_perform op),
    fun σ m memory => congrArg IdSupply.word (hs.ids_solveWith m memory), ?_, herror,
    fun e s' he => ?_⟩
  · obtain ⟨hx, hy⟩ := hs.grounded i p hp
    cases k with
    | x => exact hx
    | y => exact hy
  · have hlabel := hr.label_component hq l
    rw [heq, hr.label_component hp k] at hlabel
    cases hlabel
    exact ⟨rfl, rfl⟩
  · exact hr.component_not_mem_owned hc hp k
  · have hsame := hr.remembered hc hkey
    rw [hr.remembered hd hkey'] at hsame
    cases hsame
    rfl
  · obtain ⟨cs, s', hclustered, -⟩ := hs.clustered_spec
    have hrun : currentClusters s =
        (Edit.ofExcept s.clustered >>= fun r => set r.2 >>= fun _ => pure r.1 : Edit α _) s := rfl
    rw [hrun, hclustered]
    exact ⟨cs, s', rfl⟩
  · refine herror _ (Bfgs.minimizer s.config) () e ?_
    have hrun : solve s = (set (s.solveWith (Bfgs.minimizer s.config) ()).2.2 >>= fun _ =>
        Edit.ofExcept (s.solveWith (Bfgs.minimizer s.config) ()).1 : Edit α _) s := rfl
    rw [hrun] at he
    cases hanswer : (s.solveWith (Bfgs.minimizer s.config) ()).1 with
    | error e' =>
        rw [hanswer] at he
        cases he
        rfl
    | ok r =>
        rw [hanswer] at he
        cases he

/-- The vector between the two dragged handles, with its length locked. -/
def measured : Sketch Float :=
  (Operation.constant ⟨9⟩ 5).perform.after <| (Operation.polar ⟨0⟩ ⟨3⟩).perform.after dragged

lemma reachable_measured : Reachable measured :=
  .perform _ (.perform _ reachable_dragged)

lemma run_measured : Run measured :=
  run_iff.2 ⟨reachable_measured, by decide +kernel⟩

/-- The vector owns its length, and is older than the lock on it. -/
theorem integrity_measured :
    (∃ c, measured.constraints.get? ⟨8⟩ = some c ∧ (⟨9⟩, .distance) ∈ c.ownedQuantities) ∧
      measured.Older ⟨8⟩ ⟨11⟩ ∧ ∃ cs s', currentClusters measured = .ok cs s' := by
  obtain ⟨-, -, howned, holder, -, -, -, -, -, -, -, -, hclusters, -⟩ :=
    run_integrity run_measured
  refine ⟨(howned _ _ _).1 rfl, ?_, hclusters⟩
  exact (holder ⟨8⟩ _ ⟨9⟩ rfl (by decide)).2 ⟨11⟩ ⟨_, rfl, _, rfl, by decide⟩ (by decide)

end Sketch

end SketchSolver
