import InvoiceHub.Transaction.Independence

/-!
# The stage of a transaction

What the handlers decide by: the status of a record and the names of the steps that are left.
Handled one at a time, with no call failing, they refine a machine on stages (`leaves_handle`,
put together from a lemma for each handler).
-/

namespace InvoiceHub.Transaction

open Effects

/-! ## The machine on stages -/

/-- The status of a record, the names of its steps from the current one on, and whether it has no
steps at all. -/
structure Stage where
  status : DistributedTransactionStatus
  left : List String
  bare : Bool

/-- The stage of a record. -/
def stageOf (r : DistributedTransaction) : Stage where
  status := r.status
  left := (r.steps.map (·.name)).drop r.currentStep
  bare := (r.steps.map (·.name)).isEmpty

namespace Stage

/-- `handleProgressTransaction`: command the current step, or complete. -/
def progress (stage : Stage) : Stage :=
  if stage.status = .STARTED ∨ stage.status = .IN_PROGRESS then
    { stage with status := if stage.left = [] then .COMPLETED else .IN_PROGRESS }
  else stage

/-- The stage of a new transaction whose steps have these names. -/
def started (names : List String) : Stage :=
  progress ⟨.STARTED, names, names.isEmpty⟩

/-- The current step has been completed. -/
def completeStep (stage : Stage) (stepName : Option String) : Stage :=
  match stage.left with
  | [] => stage
  | name :: rest => if some name = stepName then progress { stage with left := rest } else stage

/-- The stage of a minimal record, where it can be read back. -/
def minimal (event : TransactionEvent) (status : DistributedTransactionStatus) : Option Stage :=
  if event.transactionId.isSome ∧ (event.processType.bind toProcessType).isSome then
    some ⟨status, [], true⟩
  else none

/-- `handleExecuteCompensation` goes no further. -/
def skipped (stage : Stage) : Prop :=
  stage.status = .COMPENSATING ∨ stage.status = .COMPENSATED

instance (stage : Stage) : Decidable stage.skipped := inferInstanceAs (Decidable (_ ∨ _))

/-- What the handler of a topic makes of the stage of the transaction that the event names. -/
def handle : Subjects → TransactionEvent → Option Stage → Option Stage
  | .TRANSACTION_STEP_COMPLETED, event, some stage => some (stage.completeStep event.stepName)
  | .TRANSACTION_STEP_FAILED, _, some stage =>
    some (if stage.left = [] then stage else { stage with status := .FAILED })
  | .TRANSACTION_TIMEOUT, _, some stage =>
    some (if stage.status = .IN_PROGRESS then { stage with status := .TIMED_OUT } else stage)
  | .TRANSACTION_COMPENSATION_START, _, some stage =>
    some (if stage.skipped then stage
      else { stage with status := if stage.bare then .COMPENSATING else .COMPENSATED })
  | .TRANSACTION_COMPENSATION_COMPLETED, _, some stage =>
    some { stage with status := .COMPENSATED }
  | .TRANSACTION_COMPLETED, _, some stage =>
    some (if stage.status = .COMPLETED then stage else { stage with status := .COMPENSATED })
  | .TRANSACTION_COMPENSATION_START, event, none => minimal event .COMPENSATING
  | .TRANSACTION_COMPENSATION_COMPLETED, event, none => minimal event .COMPENSATED
  | .TRANSACTION_COMPLETED, event, none => minimal event .COMPLETED
  | _, _, stage => stage

end Stage

/-- The stage of the transaction under `key`; what cannot be read has none. -/
def Store.stage (s : Store) (key : String) : Option Stage :=
  ((s.redis.lookup key).bind SerializedTransaction.read).map stageOf

theorem Store.stage_of_lookup {s : Store} {key : String} {r : DistributedTransaction}
    (h : s.redis.lookup key = some r.serialize) : s.stage key = some (stageOf r) := by
  rw [stage, h, Option.bind_some, DistributedTransaction.read_serialize, Option.map_some]

/-! ## The stage of a changed record -/

section StageOf

variable {r : DistributedTransaction} {step : TransactionStep}

/-- Handlers change the names of no steps. -/
theorem Transition.names {r' : DistributedTransaction} (h : Transition r r') :
    r'.steps.map (·.name) = r.steps.map (·.name) := by
  have hdeclared := congrArg (List.map Prod.fst) h.declared
  simpa only [List.map_map, Function.comp_def, TransactionStep.declared] using hdeclared

theorem stageOf_transition {r' : DistributedTransaction} (h : Transition r r') :
    stageOf r' = ⟨r'.status, (r.steps.map (·.name)).drop r'.currentStep, (stageOf r).bare⟩ := by
  simp only [stageOf, h.names]

theorem left_eq_nil_iff : (stageOf r).left = [] ↔ r.steps[r.currentStep]? = none := by
  simp [stageOf]

theorem left_eq_cons (h : r.steps[r.currentStep]? = some step) :
    (stageOf r).left = step.name :: (r.steps.map (·.name)).drop (r.currentStep + 1) := by
  obtain ⟨hlt, hget⟩ := List.getElem?_eq_some_iff.mp h
  have hlt' : r.currentStep < (r.steps.map (·.name)).length := by simpa using hlt
  simp only [stageOf]
  rw [List.drop_eq_getElem_cons hlt', List.getElem_map, hget]

theorem stageOf_completeStep (h : r.steps[r.currentStep]? = some step) (date : Date) :
    stageOf (completeStep r step date) =
      { stageOf r with left := (r.steps.map (·.name)).drop (r.currentStep + 1) } :=
  stageOf_transition (.completeStep step date h)

theorem stageOf_failStep (h : r.steps[r.currentStep]? = some step) (error : Option String) :
    stageOf (failStep r step error) = { stageOf r with status := .FAILED } :=
  stageOf_transition (.failStep step error h)

theorem stageOf_beginStep (ha : Active r) (h : r.steps[r.currentStep]? = some step) (date : Date) :
    stageOf (beginStep r step date) = { stageOf r with status := .IN_PROGRESS } :=
  stageOf_transition (.beginStep step date ha h)

theorem stageOf_close (status : DistributedTransactionStatus) (date : Date) :
    stageOf (close r status date) = { stageOf r with status := status } := rfl

theorem stageOf_timeOut : stageOf (timeOut r) = { stageOf r with status := .TIMED_OUT } := rfl

theorem stageOf_beginCompensation :
    stageOf (beginCompensation r) = { stageOf r with status := .COMPENSATING } := rfl

theorem stageOf_compensate (date : Date) :
    stageOf (compensate r date) = { stageOf r with status := .COMPENSATED } :=
  stageOf_transition (.compensate date)

theorem stageOf_newTransaction (options : TransactionOptions) (t : String) (date : Date) :
    stageOf (newTransaction options t date) =
      ⟨.STARTED, options.steps.map Prod.fst, (options.steps.map Prod.fst).isEmpty⟩ := by
  simp [stageOf, newTransaction, Function.comp_def]

end StageOf

/-! ## The handlers refine the machine on stages -/

/-- Run alone in `s`, the program leaves the transaction under `key` at `stage`. -/
def Leaves (key : String) (p : Async Unit) (s : Store) (stage : Option Stage) : Prop :=
  ∀ activity clock, (p.alone Activity.background perform activity clock s).stage key = stage

section Leaves

variable {key : String} {id : Option String} {s : Store} {stage : Option Stage}
  {r : DistributedTransaction}

theorem leaves_getTransactionState (hid : transactionKey id = key)
    {f : Option DistributedTransaction → Async Unit}
    (h : Leaves key (f ((s.redis.lookup key).bind SerializedTransaction.read)) s stage) :
    Leaves key (getTransactionState id >>= f) s stage := by
  subst hid
  exact fun activity clock => h activity fun n => clock (n + 1)

theorem leaves_newDate {f : Date → Async Unit} (h : ∀ date, Leaves key (f date) s stage) :
    Leaves key (newDate >>= f) s stage :=
  fun activity clock => h (clock 0) activity fun n => clock (n + 1)

theorem leaves_storeTransactionState (r : DistributedTransaction)
    (hkey : transactionKey (some r.transactionId) = key) {f : Unit → Async Unit}
    (h : ∀ s' : Store, s'.redis.lookup key = some r.serialize → Leaves key (f ()) s' stage) :
    Leaves key (storeTransactionState r >>= f) s stage := by
  subst hkey
  intro activity clock
  refine h (perform activity (clock 0) (.set _ r.serialize) s).2 ?_ activity fun n => clock (n + 1)
  exact AList.lookup_insert _

theorem leaves_pure : Leaves key (pure ()) s (s.stage key) := fun _ _ => rfl

theorem stage_congr {s' : Store} (h : s'.redis = s.redis) : s'.stage key = s.stage key := by
  rw [Store.stage, Store.stage, h]

/-- What writes nothing leaves Redis as it is. -/
theorem redis_writeless {p : Async Unit} (hp : Writeless p) (activity : Activity) :
    ∀ (clock : Nat → Date) (s : Store),
      (p.alone Activity.background perform activity clock s).redis = s.redis := by
  have hperform : ∀ (activity : Activity) (date : Date) (op : Call) (s : Store),
      (∀ key value, op ≠ .set key value) → (perform activity date op s).2.redis = s.redis := by
    intro activity date op s hop
    cases op with
    | set key value => exact absurd rfl (hop key value)
    | _ => rfl
  induction p with
  | pure a => exact fun _ _ => rfl
  | throw => exact fun _ _ => rfl
  | call op ok err ih _ =>
    intro clock s
    obtain ⟨hop, hok, -⟩ := (Prog.guarded_call _ _ _).mp hp
    exact (ih _ (hok _ trivial) _ _).trans (hperform _ _ op s hop)
  | spawn op next ih =>
    intro clock s
    exact (ih hp.2 _ _).trans (hperform _ _ op s hp.1)

theorem leaves_writeless {p : Async Unit} (hp : Writeless p) : Leaves key p s (s.stage key) :=
  fun activity clock => stage_congr (redis_writeless hp activity clock s)

theorem leaves_handleCompensationSteps {k : Unit → Async Unit} (steps : List TransactionStep)
    (h : ∀ s' : Store, s'.redis = s.redis → Leaves key (k ()) s' stage) :
    Leaves key (handleCompensationSteps r steps >>= k) s stage := by
  induction steps generalizing s with
  | nil => exact h s rfl
  | cons step rest ih =>
    intro activity clock
    exact ih (s := (perform _ (clock 0) (.publish _) s).2) (fun s' hs' => h s' hs') activity
      fun n => clock (n + 1)

theorem leaves_handleCompleteTransaction (hid : transactionKey id = key)
    (hkey : transactionKey (some r.transactionId) = key)
    (hr : s.redis.lookup key = some r.serialize) :
    Leaves key (handleCompleteTransaction id) s (some { stageOf r with status := .COMPLETED }) := by
  unfold handleCompleteTransaction eventPublisher
  rw [bind_assoc]
  refine leaves_getTransactionState hid ?_
  rw [hr, Option.bind_some, DistributedTransaction.read_serialize]
  refine leaves_newDate fun date => ?_
  refine leaves_storeTransactionState (close r .COMPLETED date) hkey fun s' hs' => ?_
  rw [← stageOf_close (r := r) .COMPLETED date, ← Store.stage_of_lookup hs']
  exact leaves_writeless (writeless_publish _)

theorem leaves_handleProgressTransaction (hid : transactionKey id = key)
    (hkey : transactionKey (some r.transactionId) = key)
    (hr : s.redis.lookup key = some r.serialize) :
    Leaves key (handleProgressTransaction id) s (some (stageOf r).progress) := by
  unfold handleProgressTransaction eventPublisher
  rw [bind_assoc]
  refine leaves_getTransactionState hid ?_
  rw [hr, Option.bind_some, DistributedTransaction.read_serialize]
  dsimp only
  split
  · rename_i hs
    have hnot : ¬((stageOf r).status = .STARTED ∨ (stageOf r).status = .IN_PROGRESS) :=
      fun h => h.elim hs.1 hs.2
    rw [Stage.progress, if_neg hnot, ← Store.stage_of_lookup hr]
    exact leaves_pure
  · rename_i hs
    have hact : (stageOf r).status = .STARTED ∨ (stageOf r).status = .IN_PROGRESS := by
      change r.status = _ ∨ r.status = _
      tauto
    rw [Stage.progress, if_pos hact]
    cases hstep : r.steps[r.currentStep]? with
    | none =>
      rw [if_pos (left_eq_nil_iff.mpr hstep)]
      have hcomplete := leaves_handleCompleteTransaction hid hkey hr
      rw [← bind_pure (handleCompleteTransaction id)] at hcomplete
      dsimp only
      rw [bind_assoc]
      exact hcomplete
    | some step =>
      have hne : (stageOf r).left ≠ [] := by
        rw [left_eq_cons hstep]
        exact List.cons_ne_nil _ _
      rw [if_neg hne]
      dsimp only
      rw [bind_assoc]
      refine leaves_newDate fun date => ?_
      rw [bind_assoc]
      refine leaves_storeTransactionState (beginStep r step date) hkey fun s' hs' => ?_
      rw [← stageOf_beginStep hact hstep date, ← Store.stage_of_lookup hs']
      exact leaves_writeless (writeless_publish _)

section Handlers

variable {clientId : ClientIds} {event : TransactionEvent}

theorem leaves_handleTransactionStepCompleted (hid : transactionKey event.transactionId = key)
    (hkey : transactionKey (some r.transactionId) = key)
    (hr : s.redis.lookup key = some r.serialize) :
    Leaves key (handleTransactionStepCompleted event) s
      (some ((stageOf r).completeStep event.stepName)) := by
  refine leaves_getTransactionState hid ?_
  rw [hr, Option.bind_some, DistributedTransaction.read_serialize]
  unfold Stage.completeStep
  dsimp only
  cases hstep : r.steps[r.currentStep]? with
  | none =>
    rw [left_eq_nil_iff.mpr hstep, ← Store.stage_of_lookup hr]
    exact leaves_writeless trivial
  | some step =>
    rw [left_eq_cons hstep]
    dsimp only
    by_cases hname : some step.name = event.stepName
    · rw [if_neg (not_not.mpr hname), if_pos hname]
      refine leaves_newDate fun date => ?_
      refine leaves_storeTransactionState (completeStep r step date) hkey fun s' hs' => ?_
      rw [← stageOf_completeStep hstep date]
      exact leaves_handleProgressTransaction hid hkey hs'
    · rw [if_pos hname, if_neg hname, ← Store.stage_of_lookup hr]
      exact leaves_pure

theorem leaves_handleTransactionStepFailed (hid : transactionKey event.transactionId = key)
    (hkey : transactionKey (some r.transactionId) = key)
    (hr : s.redis.lookup key = some r.serialize) :
    Leaves key (handleTransactionStepFailed event) s
      (some (if (stageOf r).left = [] then stageOf r
        else { stageOf r with status := .FAILED })) := by
  refine leaves_getTransactionState hid ?_
  rw [hr, Option.bind_some, DistributedTransaction.read_serialize]
  cases hstep : r.steps[r.currentStep]? with
  | none =>
    rw [if_pos (left_eq_nil_iff.mpr hstep), ← Store.stage_of_lookup hr]
    simp only [hstep]
    exact leaves_writeless trivial
  | some step =>
    have hne : (stageOf r).left ≠ [] := by
      rw [left_eq_cons hstep]
      exact List.cons_ne_nil _ _
    rw [if_neg hne]
    simp only [hstep]
    refine leaves_storeTransactionState (failStep r step event.error) hkey fun s' hs' => ?_
    rw [← stageOf_failStep hstep event.error, ← Store.stage_of_lookup hs']
    exact leaves_writeless (Prog.guarded_bind (writeless_handleSendUserNotification _ _ _)
      fun _ => writeless_handleStartCompensation _)

theorem leaves_handleTransactionTimeout (hid : transactionKey event.transactionId = key)
    (hkey : transactionKey (some r.transactionId) = key)
    (hr : s.redis.lookup key = some r.serialize) :
    Leaves key (handleTransactionTimeout event) s
      (some (if (stageOf r).status = .IN_PROGRESS then { stageOf r with status := .TIMED_OUT }
        else stageOf r)) := by
  refine leaves_getTransactionState hid ?_
  rw [hr, Option.bind_some, DistributedTransaction.read_serialize]
  dsimp only
  by_cases hs : r.status = .IN_PROGRESS
  · rw [if_neg (not_not.mpr hs), if_pos (show (stageOf r).status = .IN_PROGRESS from hs)]
    refine leaves_storeTransactionState (timeOut r) hkey fun s' hs' => ?_
    rw [← stageOf_timeOut, ← Store.stage_of_lookup hs']
    exact leaves_writeless (Prog.guarded_bind (writeless_handleSendUserNotification _ _ _)
      fun _ => writeless_handleStartCompensation _)
  · rw [if_pos hs, if_neg (show ¬(stageOf r).status = .IN_PROGRESS from hs),
      ← Store.stage_of_lookup hr]
    exact leaves_pure

theorem leaves_handleExecuteCompensation (hid : transactionKey id = key)
    (hkey : transactionKey (some r.transactionId) = key)
    (hr : s.redis.lookup key = some r.serialize) (processType : Option String) :
    Leaves key (handleExecuteCompensation clientId id processType) s
      (some (if (stageOf r).skipped then stageOf r
        else { stageOf r with
          status := if (stageOf r).bare then .COMPENSATING else .COMPENSATED })) := by
  unfold handleExecuteCompensation eventPublisher
  rw [bind_assoc]
  refine leaves_getTransactionState hid ?_
  rw [hr, Option.bind_some, DistributedTransaction.read_serialize]
  dsimp only
  by_cases hs : r.status = .COMPENSATING ∨ r.status = .COMPENSATED
  · rw [if_pos hs, if_pos (show (stageOf r).skipped from hs), ← Store.stage_of_lookup hr]
    exact leaves_pure
  · rw [if_neg hs, if_neg (show ¬(stageOf r).skipped from hs), bind_assoc]
    refine leaves_storeTransactionState (beginCompensation r) hkey fun s' hs' => ?_
    by_cases hsteps : r.steps = []
    · have hbare : (stageOf r).bare = true := by simp [stageOf, hsteps]
      rw [if_neg (not_not.mpr hsteps), if_pos hbare, ← stageOf_beginCompensation,
        ← Store.stage_of_lookup hs']
      exact leaves_writeless (writeless_publish _)
    · have hbare : (stageOf r).bare ≠ true := by simp [stageOf, hsteps]
      rw [if_pos hsteps, if_neg hbare, bind_assoc]
      refine leaves_handleCompensationSteps _ fun s'' hs'' => ?_
      rw [bind_assoc]
      refine leaves_newDate fun date => ?_
      rw [bind_assoc]
      refine leaves_storeTransactionState (compensate r date) hkey fun s₃ hs₃ => ?_
      rw [← stageOf_compensate date, ← Store.stage_of_lookup hs₃]
      exact leaves_writeless (writeless_publish _)

theorem leaves_handleTransactionCompensationCompleted
    (hid : transactionKey event.transactionId = key)
    (hkey : transactionKey (some r.transactionId) = key)
    (hr : s.redis.lookup key = some r.serialize) :
    Leaves key (handleTransactionCompensationCompleted clientId event) s
      (some { stageOf r with status := .COMPENSATED }) := by
  refine leaves_getTransactionState hid ?_
  rw [hr, Option.bind_some, DistributedTransaction.read_serialize]
  dsimp only
  by_cases hs : r.status = .COMPENSATED
  · have hsame : ({ stageOf r with status := .COMPENSATED } : Stage) = stageOf r := by
      rw [← hs]
      rfl
    rw [if_pos hs, hsame, ← Store.stage_of_lookup hr]
    exact leaves_pure
  · rw [if_neg hs]
    refine leaves_newDate fun date => ?_
    rw [← bind_pure (storeTransactionState _)]
    refine leaves_storeTransactionState (close r .COMPENSATED date) hkey fun s' hs' => ?_
    rw [← stageOf_close (r := r) .COMPENSATED date, ← Store.stage_of_lookup hs']
    exact leaves_pure

theorem leaves_handleTransactionCompleted (hid : transactionKey event.transactionId = key)
    (hkey : transactionKey (some r.transactionId) = key)
    (hr : s.redis.lookup key = some r.serialize) :
    Leaves key (handleTransactionCompleted clientId event) s
      (some (if (stageOf r).status = .COMPLETED then stageOf r
        else { stageOf r with status := .COMPENSATED })) := by
  refine leaves_getTransactionState hid ?_
  rw [hr, Option.bind_some, DistributedTransaction.read_serialize]
  dsimp only
  by_cases hs : r.status = .COMPLETED
  · rw [if_neg (not_not.mpr hs), if_pos (show (stageOf r).status = .COMPLETED from hs),
      ← Store.stage_of_lookup hr]
    exact leaves_pure
  · rw [if_pos hs, if_neg (show ¬(stageOf r).status = .COMPLETED from hs)]
    refine leaves_newDate fun date => ?_
    rw [← bind_pure (storeTransactionState _)]
    refine leaves_storeTransactionState (close r .COMPENSATED date) hkey fun s' hs' => ?_
    rw [← stageOf_close (r := r) .COMPENSATED date, ← Store.stage_of_lookup hs']
    exact leaves_pure

/-- A minimal record is read back if it has an id and a known process type. -/
theorem stage_minimalTransaction (clientId : ClientIds) (processType : String)
    (hp : event.processType = some processType)
    (status : DistributedTransactionStatus) (startedAt : Date) (completedAt : Option Date) :
    (minimalTransaction clientId event.transactionId processType status startedAt
      completedAt).read.map stageOf = Stage.minimal event status := by
  unfold SerializedTransaction.read isSerializedTransaction deserializeTransaction Stage.minimal
    minimalTransaction
  rw [hp, Option.bind_some]
  cases event.transactionId with
  | none => rfl
  | some id =>
    cases toProcessType processType with
    | none => rfl
    | some type => rfl

/-- The record made up for an unknown transaction. -/
theorem leaves_storeMinimalTransaction (clientId : ClientIds)
    (hid : transactionKey event.transactionId = key) (hn : s.stage key = none)
    (status : DistributedTransactionStatus) (startedAt : Date) (completedAt : Option Date) :
    Leaves key (storeMinimalTransaction clientId event.transactionId event.processType status
      startedAt completedAt) s (Stage.minimal event status) := by
  unfold storeMinimalTransaction
  cases hp : event.processType with
  | none =>
    rw [Stage.minimal, if_neg (by simp [hp]), ← hn]
    exact leaves_writeless trivial
  | some processType =>
    intro activity clock
    subst hid
    rw [← stage_minimalTransaction clientId processType hp status startedAt completedAt]
    change (Option.bind (AList.lookup _ (AList.insert _ _ _)) _).map stageOf = _
    rw [AList.lookup_insert, Option.bind_some]

/-- Handled alone, an event takes its transaction to the stage the machine says. -/
theorem leaves_handle (hkeyed : s.Keyed) (subject : Subjects)
    (hid : transactionKey event.transactionId = key) :
    Leaves key (handle clientId subject event) s (Stage.handle subject event (s.stage key)) := by
  rcases read_cases (s.redis.lookup key) with hn | ⟨r, -, hr⟩
  · have hstage : s.stage key = none := by rw [Store.stage, hn, Option.map_none]
    cases subject with
    | TRANSACTION_STEP_COMPLETED | TRANSACTION_STEP_FAILED | TRANSACTION_TIMEOUT =>
      rw [hstage]
      change Leaves key _ s none
      rw [← hstage]
      refine leaves_getTransactionState hid ?_
      rw [hn]
      exact leaves_pure
    | TRANSACTION_COMPENSATION_START =>
      rw [hstage]
      change Leaves key (handleExecuteCompensation clientId event.transactionId event.processType) s
        (Stage.minimal event .COMPENSATING)
      unfold handleExecuteCompensation eventPublisher
      rw [bind_assoc]
      refine leaves_getTransactionState hid ?_
      rw [hn]
      dsimp only
      rw [bind_assoc]
      refine leaves_newDate fun date => ?_
      rw [bind_assoc]
      have hlast := leaves_storeMinimalTransaction clientId hid hstage .COMPENSATING date none
      rw [← bind_pure (storeMinimalTransaction ..)] at hlast
      exact hlast
    | TRANSACTION_COMPENSATION_COMPLETED | TRANSACTION_COMPLETED =>
      rw [hstage]
      refine leaves_getTransactionState hid ?_
      rw [hn]
      refine leaves_newDate fun startedAt => leaves_newDate fun completedAt => ?_
      exact leaves_storeMinimalTransaction clientId hid hstage _ _ _
    | _ => exact leaves_pure
  · have hkey := hkeyed key _ hr r r.read_serialize
    rw [Store.stage_of_lookup hr]
    cases subject with
    | TRANSACTION_STEP_COMPLETED => exact leaves_handleTransactionStepCompleted hid hkey hr
    | TRANSACTION_STEP_FAILED => exact leaves_handleTransactionStepFailed hid hkey hr
    | TRANSACTION_COMPENSATION_START => exact leaves_handleExecuteCompensation hid hkey hr _
    | TRANSACTION_COMPENSATION_COMPLETED =>
      exact leaves_handleTransactionCompensationCompleted hid hkey hr
    | TRANSACTION_COMPLETED => exact leaves_handleTransactionCompleted hid hkey hr
    | TRANSACTION_TIMEOUT => exact leaves_handleTransactionTimeout hid hkey hr
    | _ =>
      change Leaves key _ s (some (stageOf r))
      rw [← Store.stage_of_lookup hr]
      exact leaves_pure

end Handlers

end Leaves

end InvoiceHub.Transaction
