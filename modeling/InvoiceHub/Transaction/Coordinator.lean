import InvoiceHub.Transaction.Calls

/-!
# The transaction coordinator

`TransactionCoordinatorInfrastructure`, method by method.  Each handler is a program over
Redis, Kafka and the clock; `transaction.steps[i]` with `i` out of range is `undefined`, and
reading a property of it throws.
-/

namespace InvoiceHub.Transaction

open Effects

/-! ## The store -/

/-- `getTransactionByKey`. -/
def getTransactionByKey (key : String) : Async (Option DistributedTransaction) := do
  let data ← redisGet key
  return data.bind SerializedTransaction.read

/-- `getTransactionState`. -/
def getTransactionState (transactionId : Option String) :
    Async (Option DistributedTransaction) :=
  getTransactionByKey (transactionKey transactionId)

/-- Reading a record is one call; what is refused reads as missing. -/
theorem getTransactionByKey_bind {α : Type} (key : String)
    (f : Option DistributedTransaction → Async α) :
    (getTransactionByKey key >>= f) =
      .call (.get key) (fun r => f (r.bind SerializedTransaction.read)) .throw := rfl

theorem getTransactionState_bind {α : Type} (transactionId : Option String)
    (f : Option DistributedTransaction → Async α) :
    (getTransactionState transactionId >>= f) =
      .call (.get (transactionKey transactionId))
        (fun r => f (r.bind SerializedTransaction.read)) .throw := rfl

/-- `storeTransactionState`. -/
def storeTransactionState (transaction : DistributedTransaction) : Async Unit :=
  redisSet (transactionKey (some transaction.transactionId)) transaction.serialize

/-- `minimalTransaction`: the record made up for an unknown transaction, from the ids of the
event as they are. -/
def minimalTransaction (clientId : ClientIds) (transactionId : Option String)
    (processType : String) (status : DistributedTransactionStatus) (startedAt : Date)
    (completedAt : Option Date) : SerializedTransaction :=
  { transactionId, processType, status, startedAt, completedAt
    currentStep := 0, steps := [], initiatedBy := clientId.value, payload := ∅ }

/-- `storeTransactionState(minimalTransaction)`: `processType.toString()` throws when the
event has no process type. -/
def storeMinimalTransaction (clientId : ClientIds) (transactionId processType : Option String)
    (status : DistributedTransactionStatus) (startedAt : Date) (completedAt : Option Date) :
    Async Unit :=
  match processType with
  | none => Prog.throw
  | some processType =>
    redisSet (transactionKey transactionId)
      (minimalTransaction clientId transactionId processType status startedAt completedAt)

/-! ## Messages -/

/-- `{ transactionId, ...payload, stepName }`. -/
def stepMessage (transaction : DistributedTransaction) (step : TransactionStep) : JsonObject :=
  ((JsonObject.put ∅ "transactionId" (some (.str transaction.transactionId))).spread
    transaction.payload).put "stepName" (some (.str step.name))

/-- What `handleProgressTransaction` returns for a step. -/
def forwardCommand (transaction : DistributedTransaction) (step : TransactionStep) :
    EventMessage where
  topicName := step.name
  message := stepMessage transaction step

/-- What `handleCompensationStep` returns. -/
def compensationCommand (transaction : DistributedTransaction) (step : TransactionStep) :
    EventMessage where
  topicName := step.name
  message := (JsonObject.put ∅ "topicName" (some (.str step.name))).put "message"
    (some (stepMessage transaction step).toJson)

/-- `{ transactionId, processType }`. -/
def outcomeMessage (subject : Subjects) (transactionId processType : Option String) :
    EventMessage where
  topicName := subject.value
  message := (JsonObject.put ∅ "transactionId" (transactionId.map .str)).put "processType"
    (processType.map .str)

/-- What `handleStartCompensation` returns. -/
def compensationStart (transaction : DistributedTransaction) (failedStep : String) :
    EventMessage :=
  let event := outcomeMessage .TRANSACTION_COMPENSATION_START (some transaction.transactionId)
    (some transaction.processType.value)
  { event with message := event.message.put "failedStep" (some (.str failedStep)) }

/-! ## Decorated methods -/

/-- `handleCompleteTransaction`. -/
def handleCompleteTransaction (transactionId : Option String) : Async Unit :=
  eventPublisher .handleCompleteTransaction transactionId do
    let some transaction ← getTransactionState transactionId | return none
    let completedAt ← newDate
    storeTransactionState { transaction with status := .COMPLETED, completedAt := some completedAt }
    return some (outcomeMessage .TRANSACTION_COMPLETED (some transaction.transactionId)
      (some transaction.processType.value))

/-- `handleProgressTransaction`. -/
def handleProgressTransaction (transactionId : Option String) : Async Unit :=
  eventPublisher .handleProgressTransaction transactionId do
    let some transaction ← getTransactionState transactionId | return none
    if transaction.status ≠ .STARTED ∧ transaction.status ≠ .IN_PROGRESS then
      return none
    else
      match transaction.steps[transaction.currentStep]? with
      | none =>
        handleCompleteTransaction transactionId
        return none
      | some currentStep =>
        let startedAt ← newDate
        storeTransactionState
          { transaction with
            status := .IN_PROGRESS
            steps := transaction.steps.set transaction.currentStep
              { currentStep with startedAt := some startedAt } }
        return some (forwardCommand transaction currentStep)

/-- `handleStartCompensation`. -/
def handleStartCompensation (transactionId : Option String) : Async Unit :=
  eventPublisher .handleStartCompensation transactionId do
    let some transaction ← getTransactionState transactionId | return none
    match transaction.steps[transaction.currentStep]? with
    | none => Prog.throw
    | some currentStep =>
      return some (compensationStart transaction currentStep.name)

/-- The loop of `handleExecuteCompensation`: each `handleCompensationStep` is started and not
awaited. -/
def handleCompensationSteps (transaction : DistributedTransaction) :
    List TransactionStep → Async Unit
  | [] => return ()
  | step :: rest => do
    publishUnawaited ⟨.handleCompensationStep, some transaction.transactionId,
      compensationCommand transaction step⟩
    handleCompensationSteps transaction rest

/-- `completedSteps`: the completed steps below `currentStep`, last first. -/
def completedSteps (transaction : DistributedTransaction) : List TransactionStep :=
  ((transaction.steps.take transaction.currentStep).filter (·.status = .COMPLETED)).reverse

/-- The steps once the loop has set `step.status` of each completed step, in place. -/
def compensatedSteps (transaction : DistributedTransaction) : List TransactionStep :=
  (transaction.steps.take transaction.currentStep).map (fun step =>
    if step.status = .COMPLETED then { step with status := .COMPENSATED } else step) ++
    transaction.steps.drop transaction.currentStep

/-- `handleExecuteCompensation`. -/
def handleExecuteCompensation (clientId : ClientIds) (transactionId processType : Option String) :
    Async Unit :=
  eventPublisher .handleExecuteCompensation transactionId do
    match ← getTransactionState transactionId with
    | none =>
      let startedAt ← newDate
      storeMinimalTransaction clientId transactionId processType .COMPENSATING startedAt none
      return none
    | some transaction =>
      if transaction.status = .COMPENSATING ∨ transaction.status = .COMPENSATED then
        return none
      else
        storeTransactionState { transaction with status := .COMPENSATING }
        if transaction.steps ≠ [] then
          handleCompensationSteps transaction (completedSteps transaction)
          let completedAt ← newDate
          storeTransactionState
            { transaction with
              status := .COMPENSATED
              completedAt := some completedAt
              steps := compensatedSteps transaction }
        return some (outcomeMessage .TRANSACTION_COMPENSATION_COMPLETED transactionId processType)

/-- `a || b` on strings. -/
def orElse (text : Option String) (default : String) : String :=
  match text with
  | some s => if s = "" then default else s
  | none => default

/-- `details` of the notification of a failed order approval. -/
def orderApprovalDetails (payload : JsonObject) (errorMessage : String) : JsonObject :=
  ((JsonObject.put ∅ "orderId" (payload.lookup "orderId")).put "totalAmount"
    (payload.lookup "totalAmount")).put "failureReason"
      (if Json.truthy (payload.lookup "failureReason") then payload.lookup "failureReason"
       else some (.str errorMessage))

/-- The notification of a failed transaction. -/
def userNotification (transactionId : Option String) (errorMessage : String)
    (processType : ProcessType) (transaction : DistributedTransaction) (timestamp : Date) :
    EventMessage where
  topicName := Subjects.TRANSACTION_USER_NOTIFICATION.value
  message := ((((((JsonObject.put ∅ "transactionId" (transactionId.map .str)).put
    "userId" (some (.str transaction.initiatedBy))).put
    "processType" (some (.str processType.value))).put
    "status" (some (.str transaction.status.value))).put
    "error" (some (.str errorMessage))).put
    "timestamp" (some (.str (Date.toISOString timestamp)))).put
    "details" (some (JsonObject.toJson
      (if processType = .ORDER_APPROVAL then orderApprovalDetails transaction.payload errorMessage
       else ∅)))

/-- `handleSendUserNotification`; an error inside the method is logged and swallowed. -/
def handleSendUserNotification (transactionId : Option String) (errorMessage : String)
    (processType : ProcessType) : Async Unit :=
  eventPublisher .handleSendUserNotification transactionId <| Prog.tryCatch (do
    let some transaction ← getTransactionState transactionId | return none
    let timestamp ← newDate
    return some (userNotification transactionId errorMessage processType transaction timestamp))
    (return none)

/-! ## Handlers -/

/-- `startTransaction`; `transactionId` is what `uuidv4` returned. -/
def startTransaction (options : TransactionOptions) (transactionId : String) : Async String := do
  let startedAt ← newDate
  storeTransactionState
    { transactionId
      processType := options.processType
      initiatedBy := options.initiatedBy
      payload := options.payload
      startedAt
      currentStep := 0
      steps := options.steps.map fun (name, service) => { name, service, status := .PENDING }
      status := .STARTED }
  handleProgressTransaction (some transactionId)
  return transactionId

/-- `handleTransactionStepCompleted`. -/
def handleTransactionStepCompleted (event : TransactionEvent) : Async Unit := do
  let some transaction ← getTransactionState event.transactionId | return ()
  match transaction.steps[transaction.currentStep]? with
  | none => Prog.throw
  | some currentStep =>
    if some currentStep.name ≠ event.stepName then
      return ()
    else
      let completedAt ← newDate
      storeTransactionState
        { transaction with
          steps := transaction.steps.set transaction.currentStep
            { currentStep with status := .COMPLETED, completedAt := some completedAt }
          currentStep := transaction.currentStep + 1 }
      handleProgressTransaction event.transactionId

/-- `handleTransactionStepFailed`. -/
def handleTransactionStepFailed (event : TransactionEvent) : Async Unit := do
  let some transaction ← getTransactionState event.transactionId | return ()
  match transaction.steps[transaction.currentStep]? with
  | none => Prog.throw
  | some currentStep =>
    storeTransactionState
      { transaction with
        steps := transaction.steps.set transaction.currentStep
          { currentStep with status := .FAILED, error := event.error }
        status := .FAILED
        error := event.error }
    handleSendUserNotification (some transaction.transactionId)
      (orElse event.error "Transaction step failed") transaction.processType
    handleStartCompensation event.transactionId

/-- `handleTransactionCompensationStart`. -/
def handleTransactionCompensationStart (clientId : ClientIds) (event : TransactionEvent) :
    Async Unit :=
  handleExecuteCompensation clientId event.transactionId event.processType

/-- `handleTransactionCompensationCompleted`. -/
def handleTransactionCompensationCompleted (clientId : ClientIds) (event : TransactionEvent) :
    Async Unit := do
  match ← getTransactionState event.transactionId with
  | none =>
    let startedAt ← newDate
    let completedAt ← newDate
    storeMinimalTransaction clientId event.transactionId event.processType .COMPENSATED startedAt
      (some completedAt)
  | some transaction =>
    if transaction.status = .COMPENSATED then
      return ()
    else
      let completedAt ← newDate
      storeTransactionState
        { transaction with status := .COMPENSATED, completedAt := some completedAt }

/-- `handleTransactionCompleted`. -/
def handleTransactionCompleted (clientId : ClientIds) (event : TransactionEvent) :
    Async Unit := do
  match ← getTransactionState event.transactionId with
  | none =>
    let startedAt ← newDate
    let completedAt ← newDate
    storeMinimalTransaction clientId event.transactionId event.processType .COMPLETED startedAt
      (some completedAt)
  | some transaction =>
    if transaction.status ≠ .COMPLETED then
      let completedAt ← newDate
      storeTransactionState
        { transaction with status := .COMPENSATED, completedAt := some completedAt }

/-- `handleTransactionTimeout`. -/
def handleTransactionTimeout (event : TransactionEvent) : Async Unit := do
  let some transaction ← getTransactionState event.transactionId | return ()
  if transaction.status ≠ .IN_PROGRESS then
    return ()
  else
    storeTransactionState
      { transaction with status := .TIMED_OUT, error := some "Transaction timed out" }
    handleSendUserNotification event.transactionId "Transaction timed out" transaction.processType
    handleStartCompensation event.transactionId

/-- The subscriptions of `initialize`: the handler of each coordinator topic. -/
def handle (clientId : ClientIds) : Subjects → TransactionEvent → Async Unit
  | .TRANSACTION_STEP_COMPLETED, event => handleTransactionStepCompleted event
  | .TRANSACTION_STEP_FAILED, event => handleTransactionStepFailed event
  | .TRANSACTION_COMPENSATION_START, event => handleTransactionCompensationStart clientId event
  | .TRANSACTION_COMPENSATION_COMPLETED, event =>
    handleTransactionCompensationCompleted clientId event
  | .TRANSACTION_COMPLETED, event => handleTransactionCompleted clientId event
  | .TRANSACTION_TIMEOUT, event => handleTransactionTimeout event
  | _, _ => return ()

/-! ## The timeout checker -/

/-- `timeoutThreshold`, in milliseconds. -/
def timeoutThreshold : Nat := 5 * 60 * 1000

/-- The loop of `checkTimeouts`; `handleStartTimeoutChecker` is not awaited. -/
def checkTimeoutsOf (now : Date) : List String → Async Unit
  | [] => return ()
  | key :: keys => do
    match ← getTransactionByKey key with
    | none => checkTimeoutsOf now keys
    | some transaction =>
      if transaction.status = .IN_PROGRESS then
        match transaction.steps[transaction.currentStep]? with
        | none => Prog.throw
        | some currentStep =>
          if currentStep.startedAt.any (· + timeoutThreshold < now) then
            publishUnawaited ⟨.handleStartTimeoutChecker, some transaction.transactionId,
              { topicName := Subjects.TRANSACTION_TIMEOUT.value
                message := JsonObject.put ∅ "transactionId"
                  (some (.str transaction.transactionId)) }⟩
          checkTimeoutsOf now keys
      else
        checkTimeoutsOf now keys

/-- `checkTimeouts`. -/
def checkTimeouts : Async Unit := do
  let keys ← Prog.await Call.getKeysByPattern
  let now ← newDate
  checkTimeoutsOf now keys

end InvoiceHub.Transaction
