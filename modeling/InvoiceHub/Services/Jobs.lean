import InvoiceHub.Services.OrderService
import InvoiceHub.Services.InvoiceService

/-!
# The services as a machine of jobs

What a running method of a service still has to do is one of nine jobs.  `Job.answer` says
what the answer to its call does to the tables and which jobs it leaves; the programs of the
services refine this machine step by step.
-/

namespace InvoiceHub.Services

open Effects

/-! ## Jobs -/

/-- What a running method still has to do, from its next call on. -/
inductive Job where
  /-- `createOrder` inserts the order. -/
  | insert (userId : String) (totalAmount : Rat)
  /-- It starts the saga of the order. -/
  | start (order : Order)
  | awaitStarted (order : Order) (transactionId : String)
  /-- `startFailedOrderTransaction` cancels the order. -/
  | cancel (order : Order) (transactionId : String)
  | stamp (order : Order) (transactionId : String)
  /-- `updateOrderStatus` looks for the order of the message. -/
  | find (message : JsonObject) (target : OrderStatus)
  /-- It saves the order with its new status. -/
  | save (message : JsonObject) (order : Order)
  /-- `handleTransactionInvoiceGeneration` saves the invoice. -/
  | invoice (message : JsonObject) (data : InvoiceData)
  /-- A publication that nobody awaits. -/
  | publish (event : EventMessage)

/-- The options `createOrder` starts the saga of an order with. -/
def sagaOptions (order : Order) : TransactionOptions :=
  if order.totalAmount ≤ 0 then failedOrderOptions order "Invalid total amount" .CANCELLED
  else orderOptions order

theorem steps_sagaOptions (order : Order) : (sagaOptions order).steps = orderSteps := by
  unfold sagaOptions
  split <;> rfl

/-- The status an update message asks for, if any. -/
def updateTarget (message : JsonObject) : Option OrderStatus :=
  if Json.truthy (message.lookup "failureReason") then
    (Json.str? (message.lookup "finalStatus")).bind OrderStatus.ofValue
  else some .COMPLETED

/-- The invoice an invoice message asks for, if any. -/
def invoiceOf (message : JsonObject) : Option InvoiceData :=
  match nonEmpty (Json.str? (message.lookup "userId")),
    nonEmpty (Json.str? (message.lookup "orderId")),
    Json.num? (message.lookup "totalAmount") with
  | some userId, some orderId, some totalAmount => some (invoiceData orderId userId totalAmount)
  | _, _, _ => none

/-- What the update of a message announces. -/
def orderUpdated (message : JsonObject) : EventMessage :=
  handleUpdateOrderStatusPublisher (Json.str? (message.lookup "transactionId"))
    (Json.str? (message.lookup "orderId"))

/-- What the invoice of a message announces. -/
def invoiceGenerated (message : JsonObject) (invoice : Invoice) : EventMessage :=
  handleTransactionInvoiceGenerationPublisher (Json.str? (message.lookup "transactionId")) invoice

namespace Job

/-- The service a job belongs to. -/
def service : Job → Service
  | find _ _ => .handleUpdateOrderStatus
  | save _ _ => .handleUpdateOrderStatus
  | invoice _ _ => .handleTransactionInvoiceGeneration
  | publish _ => .publisher
  | _ => .createOrder

/-- The call a job awaits. -/
def call : Job → Call
  | insert userId totalAmount => .insertOrder { userId, totalAmount, status := .PENDING }
  | start order => .startTransaction (sagaOptions order)
  | awaitStarted _ transactionId => .started transactionId
  | cancel order _ => .saveOrder { order with status := .CANCELLED }
  | stamp _ _ => .now
  | find message _ => .findOneOrFail (Json.str? (message.lookup "orderId"))
  | save _ order => .saveOrder order
  | invoice _ data => .saveInvoice data
  | publish event => .publish event

/-- What the answer to the call of a job leaves to do, and the tables it leaves. -/
def answer (choice : Choice) (db : Database) : Job → List Job × Database
  | insert userId totalAmount =>
    let order : Order := { userId, totalAmount, status := .PENDING, id := choice.uuid }
    ([start order], db.saveOrder order)
  | start order => ([awaitStarted order choice.uuid], db)
  | awaitStarted order transactionId =>
    (if order.totalAmount ≤ 0 then [cancel order transactionId] else [], db)
  | cancel order transactionId =>
    ([stamp order transactionId], db.saveOrder { order with status := .CANCELLED })
  | stamp order transactionId =>
    ([publish (handleTransactionUserNotification transactionId order "Invalid total amount"
      choice.date)], db)
  | find message target =>
    (((db.findOne choice (Json.str? (message.lookup "orderId"))).map fun order =>
      save message { order with status := target }).toList, db)
  | save message order =>
    (if Json.truthy (message.lookup "failureReason") then [] else [publish (orderUpdated message)],
      db.saveOrder order)
  | invoice message data =>
    ([publish (invoiceGenerated message { data with id := choice.uuid })],
      db.saveInvoice { data with id := choice.uuid })
  | publish event => ([], { db with published := db.published ++ [event] })

/-- The job that is left when the call of another one has been answered. -/
inductive Leaves (choice : Choice) (db : Database) : Job → Job → Prop where
  | start (userId : String) (totalAmount : Rat) : Leaves choice db (insert userId totalAmount)
      (start { userId, totalAmount, status := .PENDING, id := choice.uuid })
  | awaitStarted (order : Order) : Leaves choice db (start order) (awaitStarted order choice.uuid)
  | cancel {order : Order} (transactionId : String) : order.totalAmount ≤ 0 →
      Leaves choice db (awaitStarted order transactionId) (cancel order transactionId)
  | stamp (order : Order) (transactionId : String) :
      Leaves choice db (cancel order transactionId) (stamp order transactionId)
  | notify (order : Order) (transactionId : String) : Leaves choice db (stamp order transactionId)
      (publish (handleTransactionUserNotification transactionId order "Invalid total amount"
        choice.date))
  | save {message : JsonObject} {found : Order} (target : OrderStatus) :
      db.findOne choice (Json.str? (message.lookup "orderId")) = some found →
      Leaves choice db (find message target) (save message { found with status := target })
  | updated {message : JsonObject} (order : Order) :
      Json.truthy (message.lookup "failureReason") = false →
      Leaves choice db (save message order) (publish (orderUpdated message))
  | generated (message : JsonObject) (data : InvoiceData) : Leaves choice db (invoice message data)
      (publish (invoiceGenerated message { data with id := choice.uuid }))

theorem leaves_of_mem {choice : Choice} {db : Database} {job left : Job}
    (h : left ∈ (job.answer choice db).1) : Leaves choice db job left := by
  cases job with
  | insert userId totalAmount =>
    cases List.mem_singleton.mp h
    exact .start userId totalAmount
  | start order =>
    cases List.mem_singleton.mp h
    exact .awaitStarted order
  | awaitStarted order t =>
    simp only [answer] at h
    split at h
    · rename_i hle
      cases List.mem_singleton.mp h
      exact .cancel t hle
    · cases h
  | cancel order t =>
    cases List.mem_singleton.mp h
    exact .stamp order t
  | stamp order t =>
    cases List.mem_singleton.mp h
    exact .notify order t
  | find message target =>
    obtain ⟨found, hfound, rfl⟩ := Option.map_eq_some_iff.mp (Option.mem_toList.mp h)
    exact .save target hfound
  | save message order =>
    simp only [answer] at h
    split at h
    · cases h
    · rename_i hf
      cases List.mem_singleton.mp h
      exact .updated order (Bool.eq_false_iff.mpr hf)
  | invoice message data =>
    cases List.mem_singleton.mp h
    exact .generated message data
  | publish event => cases h

/-- The job that an update message starts. -/
def ofUpdate (message : JsonObject) : List Job :=
  ((updateTarget message).map (find message)).toList

/-- The job that an invoice message starts. -/
def ofInvoice (message : JsonObject) : List Job :=
  ((invoiceOf message).map (invoice message)).toList

/-! ## The programs of the jobs -/

/-- The rest of `createOrder` once the order is cancelled. -/
def stampProg (order : Order) (transactionId : String) : Async Unit :=
  .call .now (fun date => .spawn (.publish (handleTransactionUserNotification transactionId order
    "Invalid total amount" date)) (.pure ())) .throw

def cancelProg (order : Order) (transactionId : String) : Async Unit :=
  .call (.saveOrder { order with status := .CANCELLED }) (fun _ => stampProg order transactionId)
    .throw

def startedProg (order : Order) (transactionId : String) : Async Unit :=
  .call (.started transactionId)
    (fun _ => if order.totalAmount ≤ 0 then cancelProg order transactionId else .pure ()) .throw

def startProg (order : Order) : Async Unit :=
  .call (.startTransaction (sagaOptions order)) (fun transactionId => startedProg order transactionId)
    .throw

/-- The rest of `handleUpdateOrderStatus` once the order is found. -/
def saveProg (message : JsonObject) (order : Order) : Async Unit :=
  .call (.saveOrder order) (fun _ => if Json.truthy (message.lookup "failureReason") then .throw
    else .spawn (.publish (orderUpdated message)) (.pure ())) .throw

/-- The program of a job. -/
def prog : Job → Async Unit
  | insert userId totalAmount => createOrder userId totalAmount
  | start order => startProg order
  | awaitStarted order transactionId => startedProg order transactionId
  | cancel order transactionId => cancelProg order transactionId
  | stamp order transactionId => stampProg order transactionId
  | find message target =>
    .call (.findOneOrFail (Json.str? (message.lookup "orderId")))
      (fun found => match found with
        | some order => saveProg message { order with status := target }
        | none => .throw) .throw
  | save message order => saveProg message order
  | invoice message data =>
    .call (.saveInvoice data)
      (fun invoice => .spawn (.publish (invoiceGenerated message invoice)) (.pure ())) .throw
  | publish event => .call (.publish event) (fun _ => .pure ()) .throw

/-- A job as a running task. -/
def task (job : Job) : Task Service Call Call.Res := ⟨job.service, job.prog⟩

end Job

/-! ## Refinement -/

namespace Job

variable {order : Order}

theorem startProg_of_nonpos (h : order.totalAmount ≤ 0) :
    startProg order =
      (startFailedOrderTransaction order "Invalid total amount" .CANCELLED >>= fun _ => pure ()) := by
  have hoptions : sagaOptions order = failedOrderOptions order "Invalid total amount" .CANCELLED :=
    if_pos h
  simp only [startProg, startedProg, if_pos h]
  rw [hoptions]
  rfl

theorem startProg_of_pos (h : ¬order.totalAmount ≤ 0) :
    startProg order = (startOrderTransaction order >>= fun _ => pure ()) := by
  have hoptions : sagaOptions order = orderOptions order := if_neg h
  simp only [startProg, startedProg, if_neg h]
  rw [hoptions]
  rfl

/-- The answer to the call of a job, and what its program does with it. -/
theorem prog_spec (job : Job) :
    ∃ ok, job.prog = .call job.call ok .throw ∧ ∀ choice db,
      Task.launch background job.service (ok (perform job.service choice job.call db).1) =
        (job.answer choice db).1.map Job.task ∧
      (perform job.service choice job.call db).2 = (job.answer choice db).2 := by
  cases job with
  | insert userId totalAmount =>
    refine ⟨_, rfl, fun choice db => ⟨?_, rfl⟩⟩
    by_cases h : totalAmount ≤ 0
    · simp only [if_pos h, answer, List.map_cons, List.map_nil, task, prog]
      rw [startProg_of_nonpos h]
      rfl
    · simp only [if_neg h, answer, List.map_cons, List.map_nil, task, prog]
      rw [startProg_of_pos h]
      rfl
  | start order => exact ⟨_, rfl, fun choice db => ⟨rfl, rfl⟩⟩
  | awaitStarted order transactionId =>
    refine ⟨_, rfl, fun choice db => ⟨?_, rfl⟩⟩
    by_cases h : order.totalAmount ≤ 0
    · simp only [answer, if_pos h]
      rfl
    · simp only [answer, if_neg h]
      rfl
  | cancel order transactionId => exact ⟨_, rfl, fun choice db => ⟨rfl, rfl⟩⟩
  | stamp order transactionId => exact ⟨_, rfl, fun choice db => ⟨rfl, rfl⟩⟩
  | find message target =>
    refine ⟨_, rfl, fun choice db => ⟨?_, rfl⟩⟩
    simp only [answer, call, perform]
    cases db.findOne choice (Json.str? (message.lookup "orderId")) with
    | none => rfl
    | some order => rfl
  | save message order =>
    refine ⟨_, rfl, fun choice db => ⟨?_, rfl⟩⟩
    cases h : Json.truthy (message.lookup "failureReason") with
    | true => simp only [answer, h]; rfl
    | false => simp only [answer, h]; rfl
  | invoice message data => exact ⟨_, rfl, fun choice db => ⟨rfl, rfl⟩⟩
  | publish event => exact ⟨_, rfl, fun choice db => ⟨rfl, rfl⟩⟩

end Job

/-- `handleUpdateOrderStatus` does the job of its message. -/
theorem handleUpdateOrderStatus_eq (message : JsonObject) :
    handleUpdateOrderStatus message =
      match updateTarget message with
      | none => .throw
      | some target => (Job.find message target).prog := by
  have hfound : ∀ (target : OrderStatus) (rest : Async Unit),
      (updateOrderStatus (Json.str? (message.lookup "orderId")) target >>= fun _ => rest) =
        .call (.findOneOrFail (Json.str? (message.lookup "orderId")))
          (fun found => match found with
            | some order => .call (.saveOrder { order with status := target }) (fun _ => rest) .throw
            | none => .throw) .throw := by
    intro target rest
    refine congrArg (Prog.call _ · _) (funext fun found => ?_)
    cases found with
    | none => rfl
    | some order => rfl
  unfold handleUpdateOrderStatus updateTarget
  dsimp only
  cases h : Json.truthy (message.lookup "failureReason") with
  | true =>
    simp only [if_true]
    cases (Json.str? (message.lookup "finalStatus")).bind OrderStatus.ofValue with
    | none => rfl
    | some target =>
      simp only [hfound, Job.prog, Job.saveProg, h, if_true]
  | false =>
    simp only [Bool.false_eq_true, if_false]
    rw [hfound]
    simp only [Job.prog, Job.saveProg, h]
    rfl

theorem launch_handleUpdateOrderStatus (message : JsonObject) :
    Task.launch background .handleUpdateOrderStatus (handleUpdateOrderStatus message) =
      (Job.ofUpdate message).map Job.task := by
  rw [handleUpdateOrderStatus_eq]
  unfold Job.ofUpdate
  cases updateTarget message with
  | none => rfl
  | some target => rfl

/-- `handleTransactionInvoiceGeneration` does the job of its message. -/
theorem handleTransactionInvoiceGeneration_eq (message : JsonObject) :
    handleTransactionInvoiceGeneration message =
      match invoiceOf message with
      | none => .pure ()
      | some data => (Job.invoice message data).prog := by
  unfold handleTransactionInvoiceGeneration invoiceOf
  cases nonEmpty (Json.str? (message.lookup "userId")) with
  | none => rfl
  | some userId =>
    cases nonEmpty (Json.str? (message.lookup "orderId")) with
    | none => rfl
    | some orderId => cases Json.num? (message.lookup "totalAmount") <;> rfl

theorem launch_handleTransactionInvoiceGeneration (message : JsonObject) :
    Task.launch background .handleTransactionInvoiceGeneration
        (handleTransactionInvoiceGeneration message) =
      (Job.ofInvoice message).map Job.task := by
  rw [handleTransactionInvoiceGeneration_eq]
  unfold Job.ofInvoice
  cases invoiceOf message with
  | none => rfl
  | some data => rfl

end InvoiceHub.Services
