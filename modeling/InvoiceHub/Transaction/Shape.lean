import InvoiceHub.Transaction.Lawful

/-!
# The shape of a started transaction

The steps below `currentStep` are done or undone, those above it untouched, and what
`startTransaction` was given never changes.  Every transition keeps this shape from whatever
record it was made of, so stale writes keep it too.
-/

namespace InvoiceHub.Transaction

open Effects

/-! ## Shape -/

/-- The record of a transaction that was started with `options`. -/
structure Shape (options : TransactionOptions) (r : DistributedTransaction) : Prop where
  bounded : r.currentStep ≤ r.steps.length
  done : ∀ i step, r.steps[i]? = some step → i < r.currentStep →
    step.status = .COMPLETED ∨ step.status = .COMPENSATED
  current : ∀ step, r.steps[r.currentStep]? = some step →
    step.status = .PENDING ∨ step.status = .FAILED
  pending : ∀ i step, r.steps[i]? = some step → r.currentStep < i → step.status = .PENDING
  processType : r.processType = options.processType
  initiatedBy : r.initiatedBy = options.initiatedBy
  payload : r.payload = options.payload
  declared : r.steps.map TransactionStep.declared = options.steps

namespace Shape

variable {options : TransactionOptions} {r r' : DistributedTransaction}

theorem newTransaction (options : TransactionOptions) (t : String) (date : Date) :
    Shape options (newTransaction options t date) where
  bounded := Nat.zero_le _
  done := fun _ _ _ hi => absurd hi (Nat.not_lt_zero _)
  current := by
    intro step h
    obtain ⟨p, -, rfl⟩ := Option.map_eq_some_iff.mp (List.getElem?_map.symm.trans h)
    exact .inl rfl
  pending := by
    intro i step h _
    obtain ⟨p, -, rfl⟩ := Option.map_eq_some_iff.mp (List.getElem?_map.symm.trans h)
    rfl
  processType := rfl
  initiatedBy := rfl
  payload := rfl
  declared := by
    simp [Transaction.newTransaction, Function.comp_def, TransactionStep.declared]

/-- A transition that leaves the steps alone. -/
theorem of_steps (h : Shape options r) (hc : r'.currentStep = r.currentStep)
    (hs : r'.steps = r.steps) (hp : r'.processType = r.processType)
    (hi : r'.initiatedBy = r.initiatedBy) (hl : r'.payload = r.payload) : Shape options r' where
  bounded := by rw [hc, hs]; exact h.bounded
  done := by rw [hc, hs]; exact h.done
  current := by rw [hc, hs]; exact h.current
  pending := by rw [hc, hs]; exact h.pending
  processType := hp.trans h.processType
  initiatedBy := hi.trans h.initiatedBy
  payload := hl.trans h.payload
  declared := by rw [hs]; exact h.declared

/-- The current step changes and stays the current one. -/
theorem set_current (h : Shape options r) {step : TransactionStep} (step' : TransactionStep)
    (hstep : r.steps[r.currentStep]? = some step) (hd : step'.declared = step.declared)
    (hst : step'.status = .PENDING ∨ step'.status = .FAILED)
    (hc : r'.currentStep = r.currentStep) (hs : r'.steps = r.steps.set r.currentStep step')
    (hp : r'.processType = r.processType) (hi : r'.initiatedBy = r.initiatedBy)
    (hl : r'.payload = r.payload) : Shape options r' where
  bounded := by
    rw [hc, hs, List.length_set]
    exact h.bounded
  done := by
    intro i s hget hlt
    rw [hs, List.getElem?_set_ne (by omega)] at hget
    exact h.done i s hget (hc ▸ hlt)
  current := by
    intro s hget
    obtain ⟨hlt, _⟩ := List.getElem?_eq_some_iff.mp hstep
    rw [hs, hc, List.getElem?_set_self hlt] at hget
    cases hget
    exact hst
  pending := by
    intro i s hget hlt
    rw [hs, List.getElem?_set_ne (by omega)] at hget
    exact h.pending i s hget (hc ▸ hlt)
  processType := hp.trans h.processType
  initiatedBy := hi.trans h.initiatedBy
  payload := hl.trans h.payload
  declared := by
    rw [hs, map_declared_set hstep hd]
    exact h.declared

theorem completeStep (h : Shape options r) {step : TransactionStep}
    (hstep : r.steps[r.currentStep]? = some step) (date : Date) :
    Shape options (completeStep r step date) where
  bounded := by
    obtain ⟨hlt, _⟩ := List.getElem?_eq_some_iff.mp hstep
    simpa [Transaction.completeStep, Nat.succ_le_iff] using hlt
  done := by
    intro i s hget hlt
    simp only [Transaction.completeStep, List.getElem?_set] at hget hlt
    by_cases hi : r.currentStep = i
    · subst hi
      obtain ⟨hlt', _⟩ := List.getElem?_eq_some_iff.mp hstep
      simp only [hlt', if_true] at hget
      cases hget
      exact .inl rfl
    · rw [if_neg hi] at hget
      exact h.done i s hget (by omega)
  current := by
    intro s hget
    simp only [Transaction.completeStep] at hget
    rw [List.getElem?_set_ne (by omega)] at hget
    exact .inl (h.pending _ s hget (by omega))
  pending := by
    intro i s hget hlt
    simp only [Transaction.completeStep] at hget hlt
    rw [List.getElem?_set_ne (by omega)] at hget
    exact h.pending i s hget (by omega)
  processType := h.processType
  initiatedBy := h.initiatedBy
  payload := h.payload
  declared := by
    refine (map_declared_set hstep ?_).trans h.declared
    rfl

theorem compensate (h : Shape options r) (date : Date) : Shape options (compensate r date) where
  bounded := by
    change r.currentStep ≤ (compensatedSteps r).length
    rw [length_compensatedSteps]
    exact h.bounded
  done := by
    intro i s hget hlt
    obtain ⟨step, hs, rfl⟩ :=
      Option.map_eq_some_iff.mp ((getElem?_compensatedSteps r i).symm.trans hget)
    split
    · exact .inr rfl
    · exact h.done i step hs hlt
  current := by
    intro s hget
    obtain ⟨step, hs, rfl⟩ :=
      Option.map_eq_some_iff.mp ((getElem?_compensatedSteps r r.currentStep).symm.trans hget)
    rw [if_neg fun hc => Nat.lt_irrefl _ hc.1]
    exact h.current step hs
  pending := by
    intro i s hget hlt
    obtain ⟨step, hs, rfl⟩ :=
      Option.map_eq_some_iff.mp ((getElem?_compensatedSteps r i).symm.trans hget)
    rw [if_neg fun hc => Nat.lt_asymm hc.1 hlt]
    exact h.pending i step hs hlt
  processType := h.processType
  initiatedBy := h.initiatedBy
  payload := h.payload
  declared := (map_declared_compensatedSteps r).trans h.declared

/-- Every transition keeps the shape. -/
theorem transition (h : Shape options r) (ht : Transition r r') : Shape options r' := by
  cases ht with
  | completeStep step date hstep => exact h.completeStep hstep date
  | failStep step error hstep =>
    exact h.set_current { step with status := .FAILED, error := error } hstep rfl
      (.inr rfl) rfl rfl rfl rfl rfl
  | beginStep step date _ hstep =>
    exact h.set_current { step with startedAt := some date } hstep rfl
      (h.current step hstep) rfl rfl rfl rfl rfl
  | compensate date => exact h.compensate date
  | _ => exact h.of_steps rfl rfl rfl rfl rfl

end Shape

/-! ## Runs -/

/-- The law that the record of `t`, once started with `options`, keeps its shape. -/
def Law.shaped (t : String) (options : TransactionOptions) : Law where
  holds key content := Law.keyedOnly.holds key content ∧
    (key = transactionKey (some t) →
      ∃ r, content = some (DistributedTransaction.serialize r) ∧ Shape options r)
  keyed h := Law.keyedOnly.keyed h.1
  enacted := by
    rintro key r r' ⟨hk, h⟩ he
    refine ⟨Law.keyedOnly.enacted hk he, fun hkey => ?_⟩
    obtain ⟨q, hq, hs⟩ := h hkey
    obtain rfl : r = q := by
      have := congrArg SerializedTransaction.read (Option.some_inj.mp hq)
      simpa using this
    exact ⟨r', rfl, hs.transition he.transition⟩
  invented := by
    rintro key content value ⟨hk, h⟩ hn hi
    refine ⟨Law.keyedOnly.invented hk hn hi, ?_⟩
    intro hkey
    obtain ⟨q, rfl, hs⟩ := h hkey
    simp at hn
  mention _ := True
  mentioned _ := trivial

section Runs

variable {t : String} {options : TransactionOptions} {policy : Cluster.Policy} {s s' : Cluster}

/-- Before `t` is started its law asks nothing more of the tasks that are running. -/
theorem keeps_shaped {task : Task Activity Call Call.Res} (h : Law.keyedOnly.guard.Keeps task)
    (hkey : task.tag.key ≠ some (transactionKey (some t))) :
    (Law.shaped t options).guard.Keeps task := by
  have hissues : ∀ key, key ≠ transactionKey (some t) → ∀ op, Law.keyedOnly.Issues key op →
      (Law.shaped t options).Issues key op := by
    intro key hne op hop
    cases op with
    | set k value => exact ⟨hop.1, hop.2, fun h => absurd h hne⟩
    | publish p =>
      obtain ⟨r, id, hr, hid, ha, hg⟩ := hop
      exact ⟨r, id, ⟨hr, fun h => absurd h hne⟩, hid, ha, hg⟩
    | _ => trivial
  refine Prog.Guarded.mono h ?_ ?_ ?_
  · intro op r hr
    cases op with
    | get key => exact ⟨hr.1.1, hr.2⟩
    | _ => trivial
  · intro op hop
    cases htag : task.tag with
    | startTransaction u =>
      rw [htag] at hop hkey
      exact hissues _ (fun h => hkey (congrArg some h)) op hop
    | handler c subject event =>
      rw [htag] at hop hkey
      exact hissues _ (fun h => hkey (congrArg some h)) op hop
    | _ =>
      rw [htag] at hop
      exact hop
  · exact fun op hop => hop

/-- From its start on the record of `t` has its shape. -/
theorem lawful_shaped_start {date : Date} (h : Lawful Law.keyedOnly s)
    (hf : s.fire (.start options t date) = some s') : Lawful (Law.shaped t options) s' := by
  have hk : Lawful Law.keyedOnly s' := h.fire hf Facts.cover_any fun _ _ _ _ _ hv => by
    cases hv
    exact wellKeyed_serialize _
  unfold Cluster.fire at hf
  dsimp only at hf
  split at hf
  · rename_i hfresh
    cases hf
    simp only [Cluster.fresh, Cluster.idle, Pool.Idle, Bool.and_eq_true, List.all_eq_true,
      Bool.not_eq_true', beq_eq_false_iff_ne] at hfresh
    refine ⟨?_, ?_⟩
    · intro key
      refine ⟨hk.stored key, ?_⟩
      rintro rfl
      exact ⟨newTransaction options t date, AList.lookup_insert _, .newTransaction options t date⟩
    · intro task htask
      rcases List.mem_append.mp htask with htask | htask
      · exact keeps_shaped (h.tasks task htask) (hfresh.2 task htask)
      · exact Guard.keeps_launch (admits_startTransaction t) task htask
  · cases hf

/-- A run keeps the shape of a transaction that has been started. -/
theorem lawful_shaped_fire {label : Cluster.Label} (h : Lawful (Law.shaped t options) s)
    (hf : s.fire label = some s') : Lawful (Law.shaped t options) s' := by
  refine h.fire hf Facts.cover_any ?_
  rintro o u date rfl
  refine ⟨fun _ hv => by cases hv; exact wellKeyed_serialize _, fun hkey => ?_⟩
  -- `t` has a record, so it is not started again
  obtain ⟨r, hr, -⟩ := (h.stored (transactionKey (some t))).2 rfl
  unfold Cluster.fire at hf
  dsimp only at hf
  split at hf
  · rename_i hfresh
    simp only [Cluster.fresh, Bool.and_eq_true] at hfresh
    rw [hkey, hr] at hfresh
    cases hfresh.1
  · cases hf

/-- Started transactions keep their shape: under full concurrency, whatever events arrive and
whichever calls fail or handlers stop. -/
theorem lawful_shaped_reachable (h : Cluster.Reachable policy s)
    (hc : .created t options ∈ s.world.history) : Lawful (Law.shaped t options) s := by
  induction h with
  | refl => cases hc
  | tail hr hst ih =>
    obtain ⟨label, -, hf⟩ := hst
    obtain ⟨added, hh, ha⟩ := Cluster.history_fire hf
    rw [hh] at hc
    rcases List.mem_append.mp hc with hc | hc
    · exact lawful_shaped_fire (ih hc) hf
    · obtain ⟨date, rfl⟩ := (ha _ hc).of_created
      exact lawful_shaped_start (keyed_reachable hr) hf

/-- The shape of every stored saga record. -/
theorem shape_of_stored_record (h : Cluster.Reachable policy s)
    (hc : .created t options ∈ s.world.history) :
    ∃ r, s.world.redis.lookup (transactionKey (some t)) =
        some (DistributedTransaction.serialize r) ∧ r.transactionId = t ∧ Shape options r := by
  have hl := lawful_shaped_reachable h hc
  obtain ⟨hkey, hshape⟩ := hl.stored (transactionKey (some t))
  obtain ⟨r, hr, hs⟩ := hshape rfl
  refine ⟨r, hr, ?_, hs⟩
  exact transactionKey_some_inj.mp (hkey _ hr r r.read_serialize)

/-- A transaction is started with one payload. -/
theorem payload_eq_of_created (h : Cluster.Reachable policy s) {options' : TransactionOptions}
    (hc : .created t options ∈ s.world.history) (hc' : .created t options' ∈ s.world.history) :
    options.payload = options'.payload := by
  obtain ⟨-, hshape⟩ := (lawful_shaped_reachable h hc).stored (transactionKey (some t))
  obtain ⟨-, hshape'⟩ := (lawful_shaped_reachable h hc').stored (transactionKey (some t))
  obtain ⟨r, hr, hs⟩ := hshape rfl
  obtain ⟨r', hr', hs'⟩ := hshape' rfl
  obtain rfl : r = r' := serialize_inj (Option.some_inj.mp (hr.symm.trans hr'))
  exact hs.payload.symm.trans hs'.payload

theorem isSome_overlappingTwoSteps :
    (Cluster.run (fun _ _ => true) overlappingTwoSteps).isSome = true := by
  decide +kernel

theorem shape_of_stored_record_overlappingTwoSteps :
    ∃ r, ((Cluster.run (fun _ _ => true) overlappingTwoSteps).get
        isSome_overlappingTwoSteps).world.redis.lookup (transactionKey (some "t")) =
          some (DistributedTransaction.serialize r) ∧ r.transactionId = "t" ∧ Shape twoSteps r := by
  have hcreated : ((Cluster.run (fun _ _ => true) overlappingTwoSteps).get
      isSome_overlappingTwoSteps).world.history.head? = some (.created "t" twoSteps) := rfl
  exact shape_of_stored_record (Machine.reachable_run overlappingTwoSteps _)
    (List.mem_of_mem_head? hcreated)

end Runs

end InvoiceHub.Transaction
