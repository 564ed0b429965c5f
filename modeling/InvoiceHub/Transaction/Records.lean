import InvoiceHub.Transaction.Coordinator

/-!
# The records of the coordinator

How a handler changes a record that it has read (`Transition`), and what it announces about
it (`Announces`).  The handlers read, change and write back in separate calls: nothing here
says that a record is still the stored one when its change is written.
-/

namespace InvoiceHub.Transaction

/-! ## Transitions of a record -/

/-- The transactions that are progressed: started or in progress. -/
def Active (r : DistributedTransaction) : Prop := r.status = .STARTED ∨ r.status = .IN_PROGRESS

instance (r : DistributedTransaction) : Decidable (Active r) :=
  inferInstanceAs (Decidable (_ ∨ _))

/-- The record `startTransaction` writes first. -/
def newTransaction (options : TransactionOptions) (transactionId : String) (startedAt : Date) :
    DistributedTransaction where
  transactionId := transactionId
  processType := options.processType
  initiatedBy := options.initiatedBy
  payload := options.payload
  startedAt := startedAt
  currentStep := 0
  steps := options.steps.map fun (name, service) => { name, service, status := .PENDING }
  status := .STARTED

/-- `startTransaction` reads the clock, writes the new record, and goes on with
`progressTransaction`. -/
theorem startTransaction_eq (options : TransactionOptions) (transactionId : String) :
    startTransaction options transactionId = do
      let startedAt ← newDate
      storeTransactionState (newTransaction options transactionId startedAt)
      handleProgressTransaction (some transactionId)
      return transactionId := rfl

/-- The current step has been completed. -/
def completeStep (r : DistributedTransaction) (step : TransactionStep) (date : Date) :
    DistributedTransaction :=
  { r with
    steps := r.steps.set r.currentStep
      { step with status := .COMPLETED, completedAt := some date }
    currentStep := r.currentStep + 1 }

/-- The current step has failed. -/
def failStep (r : DistributedTransaction) (step : TransactionStep) (error : Option String) :
    DistributedTransaction :=
  { r with
    steps := r.steps.set r.currentStep { step with status := .FAILED, error := error }
    status := .FAILED
    error := error }

/-- The current step has been commanded. -/
def beginStep (r : DistributedTransaction) (step : TransactionStep) (date : Date) :
    DistributedTransaction :=
  { r with
    status := .IN_PROGRESS
    steps := r.steps.set r.currentStep { step with startedAt := some date } }

/-- The transaction has reached a status that closes it. -/
def close (r : DistributedTransaction) (status : DistributedTransactionStatus) (date : Date) :
    DistributedTransaction :=
  { r with status := status, completedAt := some date }

/-- The transaction has timed out. -/
def timeOut (r : DistributedTransaction) : DistributedTransaction :=
  { r with status := .TIMED_OUT, error := some "Transaction timed out" }

/-- Compensation has begun. -/
def beginCompensation (r : DistributedTransaction) : DistributedTransaction :=
  { r with status := .COMPENSATING }

/-- The completed steps have been compensated. -/
def compensate (r : DistributedTransaction) (date : Date) : DistributedTransaction :=
  { r with
    status := .COMPENSATED
    completedAt := some date
    steps := compensatedSteps r }

/-- What a handler that has read `r` may write back. -/
inductive Transition (r : DistributedTransaction) : DistributedTransaction → Prop where
  | completeStep (step : TransactionStep) (date : Date) :
      r.steps[r.currentStep]? = some step → Transition r (completeStep r step date)
  | failStep (step : TransactionStep) (error : Option String) :
      r.steps[r.currentStep]? = some step → Transition r (failStep r step error)
  | beginStep (step : TransactionStep) (date : Date) :
      Active r → r.steps[r.currentStep]? = some step → Transition r (beginStep r step date)
  | complete (date : Date) : Transition r (close r .COMPLETED date)
  | compensated (date : Date) : Transition r (close r .COMPENSATED date)
  | timeOut : r.status = .IN_PROGRESS → Transition r (timeOut r)
  | beginCompensation : Transition r (beginCompensation r)
  | compensate (date : Date) : Transition r (compensate r date)

theorem Transition.transactionId {r r' : DistributedTransaction} (h : Transition r r') :
    r'.transactionId = r.transactionId := by
  cases h <;> rfl

/-! ## What was declared stays -/

theorem map_declared_set {steps : List TransactionStep} {i : Nat} {step step' : TransactionStep}
    (hi : steps[i]? = some step) (h : step'.declared = step.declared) :
    (steps.set i step').map TransactionStep.declared = steps.map TransactionStep.declared := by
  rw [List.map_set, h]
  refine List.ext_getElem? fun j => ?_
  rw [List.getElem?_set, List.length_map, List.getElem?_map]
  split
  · rename_i hij
    subst hij
    obtain ⟨hlt, rfl⟩ := List.getElem?_eq_some_iff.mp hi
    simp [hlt]
  · rfl

/-- Compensation marks the completed steps below `currentStep` and no other. -/
theorem getElem?_compensatedSteps (r : DistributedTransaction) (i : Nat) :
    (compensatedSteps r)[i]? = r.steps[i]?.map fun step =>
      if i < r.currentStep ∧ step.status = .COMPLETED then { step with status := .COMPENSATED }
      else step := by
  unfold compensatedSteps
  by_cases hi : i < (r.steps.take r.currentStep).length
  · rw [List.getElem?_append_left (by rwa [List.length_map]), List.getElem?_map,
      List.getElem?_take]
    have hlt : i < r.currentStep := by
      rw [List.length_take] at hi
      omega
    simp [hlt]
  · rw [List.getElem?_append_right (by rw [List.length_map]; exact Nat.le_of_not_lt hi),
      List.length_map, List.getElem?_drop]
    rw [List.length_take] at hi ⊢
    by_cases hlen : i < r.steps.length
    · have hle : ¬i < r.currentStep := by omega
      have hsub : r.currentStep + (i - min r.currentStep r.steps.length) = i := by omega
      rw [hsub]
      simp [hle]
    · rw [List.getElem?_eq_none (by omega), List.getElem?_eq_none (by omega)]
      rfl

theorem length_compensatedSteps (r : DistributedTransaction) :
    (compensatedSteps r).length = r.steps.length := by
  simp only [compensatedSteps, List.length_append, List.length_map, List.length_take,
    List.length_drop]
  omega

theorem map_declared_compensatedSteps (r : DistributedTransaction) :
    (compensatedSteps r).map TransactionStep.declared =
      r.steps.map TransactionStep.declared := by
  refine List.ext_getElem? fun i => ?_
  rw [List.getElem?_map, List.getElem?_map, getElem?_compensatedSteps, Option.map_map]
  congr 1
  funext step
  simp only [Function.comp]
  split <;> rfl

/-- Handlers change what was declared of no step. -/
theorem Transition.declared {r r' : DistributedTransaction} (h : Transition r r') :
    r'.steps.map TransactionStep.declared = r.steps.map TransactionStep.declared := by
  cases h with
  | completeStep step date hstep => exact map_declared_set hstep rfl
  | failStep step error hstep => exact map_declared_set hstep rfl
  | beginStep step date _ hstep => exact map_declared_set hstep rfl
  | compensate date => exact map_declared_compensatedSteps r
  | _ => rfl

/-! ## Announcements -/

/-- What a handler of the event `id` that has read `r` may publish and await. -/
inductive Announces (r : DistributedTransaction) (id : Option String) : Publication → Prop where
  | command (step : TransactionStep) : Active r → r.steps[r.currentStep]? = some step →
      Announces r id ⟨.handleProgressTransaction, id, forwardCommand r step⟩
  | completed : Announces r id ⟨.handleCompleteTransaction, id,
      outcomeMessage .TRANSACTION_COMPLETED (some r.transactionId) (some r.processType.value)⟩
  | compensationStart (step : TransactionStep) : r.steps[r.currentStep]? = some step →
      Announces r id ⟨.handleStartCompensation, id, compensationStart r step.name⟩
  | compensated (processType : Option String) :
      Announces r id ⟨.handleExecuteCompensation, id,
        outcomeMessage .TRANSACTION_COMPENSATION_COMPLETED id processType⟩
  | notification (errorMessage : String) (type : ProcessType) (date : Date) :
      Announces r id ⟨.handleSendUserNotification, id,
        userNotification id errorMessage type r date⟩

theorem Announces.transactionId {r : DistributedTransaction} {id : Option String} {p : Publication}
    (h : Announces r id p) : p.transactionId = id := by
  cases h <;> rfl

theorem Announces.awaited {r : DistributedTransaction} {id : Option String} {p : Publication}
    (h : Announces r id p) : p.publisher.awaited = true := by
  cases h <;> rfl

/-- What is published about `r` without being awaited. -/
inductive Mentions (r : DistributedTransaction) : Publication → Prop where
  | compensation (step : TransactionStep) : step ∈ completedSteps r →
      Mentions r ⟨.handleCompensationStep, some r.transactionId, compensationCommand r step⟩
  | timeout : Mentions r ⟨.handleStartTimeoutChecker, some r.transactionId,
      { topicName := Subjects.TRANSACTION_TIMEOUT.value
        message := JsonObject.put ∅ "transactionId" (some (.str r.transactionId)) }⟩

theorem Mentions.awaited {r : DistributedTransaction} {p : Publication} (h : Mentions r p) :
    p.publisher.awaited = false := by
  cases h <;> rfl

end InvoiceHub.Transaction
