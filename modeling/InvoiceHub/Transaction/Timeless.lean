import InvoiceHub.Transaction.Records

/-!
# Records and messages up to the clock

`timeless` blanks the readings of the clock in a record and in a publication.  What a handler
makes of a record commutes with it (`timeless_completeStep` and its siblings), and records that
agree up to the clock publish the same (`forwardCommand_congr`, `timeless_userNotification`).
-/

namespace InvoiceHub

/-- The step with its dates blanked. -/
def TransactionStep.timeless (step : TransactionStep) : TransactionStep :=
  { step with
    startedAt := step.startedAt.map fun _ => 0
    completedAt := step.completedAt.map fun _ => 0 }

/-- The record with its dates blanked. -/
def DistributedTransaction.timeless (r : DistributedTransaction) : DistributedTransaction :=
  { r with
    startedAt := 0
    completedAt := r.completedAt.map fun _ => 0
    steps := r.steps.map TransactionStep.timeless }

/-- The stored text with its dates blanked. -/
def SerializedTransaction.timeless (value : SerializedTransaction) : SerializedTransaction :=
  { value with
    startedAt := 0
    completedAt := value.completedAt.map fun _ => 0
    steps := value.steps.map TransactionStep.timeless }

/-- The publication without the `timestamp` of a user notification, the only reading of the clock
that is published. -/
def Publication.timeless (p : Publication) : Publication :=
  if p.publisher = .handleSendUserNotification then
    { p with event := { p.event with message := p.event.message.erase "timestamp" } }
  else p

/-- Reading back ignores the dates. -/
theorem SerializedTransaction.read_timeless (value : SerializedTransaction) :
    value.timeless.read = value.read.map DistributedTransaction.timeless := by
  unfold read isSerializedTransaction deserializeTransaction
  change (if value.transactionId.isSome = true then _ else _) = _
  split
  · simp only [show value.timeless.transactionId = value.transactionId from rfl,
      show value.timeless.processType = value.processType from rfl]
    cases value.transactionId with
    | none => rfl
    | some id =>
      cases toProcessType value.processType with
      | none => rfl
      | some type => rfl
  · rfl

/-- What is found under a key is read alike if it is alike up to the clock. -/
theorem read_congr {content content' : Option SerializedTransaction}
    (h : content.map SerializedTransaction.timeless = content'.map SerializedTransaction.timeless) :
    (content.bind SerializedTransaction.read).map DistributedTransaction.timeless =
      (content'.bind SerializedTransaction.read).map DistributedTransaction.timeless := by
  have hread : ∀ c : Option SerializedTransaction,
      (c.bind SerializedTransaction.read).map DistributedTransaction.timeless =
        (c.map SerializedTransaction.timeless).bind SerializedTransaction.read := by
    intro c
    cases c with
    | none => rfl
    | some value => exact value.read_timeless.symm
  rw [hread, hread, h]

namespace Transaction

variable {r r' : DistributedTransaction} {step step' : TransactionStep} {id : Option String}

/-! ## What handlers make of a record -/

theorem timeless_completeStep (r : DistributedTransaction) (step : TransactionStep) (date : Date) :
    (completeStep r step date).timeless = completeStep r.timeless step.timeless 0 := by
  simp [completeStep, DistributedTransaction.timeless, List.map_set, TransactionStep.timeless]

theorem timeless_failStep (r : DistributedTransaction) (step : TransactionStep)
    (error : Option String) :
    (failStep r step error).timeless = failStep r.timeless step.timeless error := by
  simp [failStep, DistributedTransaction.timeless, List.map_set, TransactionStep.timeless]

theorem timeless_beginStep (r : DistributedTransaction) (step : TransactionStep) (date : Date) :
    (beginStep r step date).timeless = beginStep r.timeless step.timeless 0 := by
  simp [beginStep, DistributedTransaction.timeless, List.map_set, TransactionStep.timeless]

theorem timeless_close (r : DistributedTransaction) (status : DistributedTransactionStatus)
    (date : Date) : (close r status date).timeless = close r.timeless status 0 := rfl

theorem timeless_timeOut (r : DistributedTransaction) :
    (timeOut r).timeless = timeOut r.timeless := rfl

theorem timeless_beginCompensation (r : DistributedTransaction) :
    (beginCompensation r).timeless = beginCompensation r.timeless := rfl

theorem compensatedSteps_timeless (r : DistributedTransaction) :
    compensatedSteps r.timeless = (compensatedSteps r).map TransactionStep.timeless := by
  unfold compensatedSteps
  simp only [DistributedTransaction.timeless, List.map_append, List.map_take, List.map_drop,
    List.map_map]
  congr 3
  funext step
  simp only [Function.comp]
  split <;> rename_i h
  · rw [if_pos (show step.status = .COMPLETED from h)]
    rfl
  · rw [if_neg (show ¬step.status = .COMPLETED from h)]

theorem timeless_compensate (r : DistributedTransaction) (date : Date) :
    (compensate r date).timeless = compensate r.timeless 0 := by
  unfold compensate
  rw [compensatedSteps_timeless]
  rfl

theorem completedSteps_timeless (r : DistributedTransaction) :
    completedSteps r.timeless = (completedSteps r).map TransactionStep.timeless := by
  unfold completedSteps
  rw [List.map_reverse]
  simp only [DistributedTransaction.timeless, ← List.map_take, List.filter_map]
  rfl

/-- The current steps are alike up to the clock. -/
theorem current_congr (h : r.timeless = r'.timeless) :
    r.steps[r.currentStep]?.map TransactionStep.timeless =
      r'.steps[r'.currentStep]?.map TransactionStep.timeless := by
  have hcurrent (r : DistributedTransaction) :
      r.steps[r.currentStep]?.map TransactionStep.timeless =
        r.timeless.steps[r.timeless.currentStep]? := (List.getElem?_map ..).symm
  rw [hcurrent, hcurrent, h]

/-! ## Messages -/

/-- Messages about records that are alike are the same. -/
theorem forwardCommand_congr (h : r.timeless = r'.timeless) (hs : step.timeless = step'.timeless) :
    forwardCommand r step = forwardCommand r' step' := by
  change forwardCommand r.timeless step.timeless = forwardCommand r'.timeless step'.timeless
  rw [h, hs]

theorem compensationCommand_congr (h : r.timeless = r'.timeless)
    (hs : step.timeless = step'.timeless) :
    compensationCommand r step = compensationCommand r' step' := by
  change compensationCommand r.timeless step.timeless =
    compensationCommand r'.timeless step'.timeless
  rw [h, hs]

theorem compensationStart_congr (h : r.timeless = r'.timeless)
    (hs : step.timeless = step'.timeless) :
    compensationStart r step.name = compensationStart r' step'.name := by
  change compensationStart r.timeless step.timeless.name =
    compensationStart r'.timeless step'.timeless.name
  rw [h, hs]

/-- A notification says the same of records that are alike, but for its timestamp. -/
theorem timeless_userNotification (h : r.timeless = r'.timeless) (errorMessage : String)
    (type : ProcessType) (date date' : Date) :
    Publication.timeless ⟨.handleSendUserNotification, id,
        userNotification id errorMessage type r date⟩ =
      Publication.timeless ⟨.handleSendUserNotification, id,
        userNotification id errorMessage type r' date'⟩ := by
  have hby : r.initiatedBy = r'.initiatedBy := congrArg (·.initiatedBy) h
  have hstatus : r.status = r'.status := congrArg (·.status) h
  have hpayload : r.payload = r'.payload := congrArg (·.payload) h
  unfold Publication.timeless userNotification
  simp only [if_pos, hby, hstatus, hpayload]
  have hne : "details" ≠ "timestamp" := by decide
  simp only [JsonObject.erase_put_of_ne _ _ hne, JsonObject.erase_put_self]

end Transaction

end InvoiceHub
