import InvoiceHub.Cache.Redis
import InvoiceHub.Effects.Eval
import InvoiceHub.Services.InvoiceService
import InvoiceHub.Services.OrderService
import InvoiceHub.Transaction.Records

/-!
# The answer to a step command

The handlers of the two step commands, on any message: its fields are cast unchecked, and go into
the calls as they are.  `eachMessage` swallows what a handler throws, and no handler publishes
`TRANSACTION_STEP_FAILED`.
-/

namespace InvoiceHub.Services.Unchecked

open Effects

/-! ## Calls -/

/-- What is read of an invoice that has been saved. -/
structure SavedInvoice where
  id : String
  status : InvoiceStatus

/-- What the handlers await; `none` is `undefined`. -/
inductive Call where
  | findOneOrFail (id : Option Json)
  /-- `save({ ...order, status })`. -/
  | saveOrder (order : Order) (status : Json)
  /-- `save` of what `generateInvoiceInTransaction` creates. -/
  | saveInvoice (orderId userId totalAmount : Json)
  | publish (event : EventMessage)

/-- Their answers. -/
abbrev Call.Res : Call → Type
  | findOneOrFail _ => Order
  | saveOrder _ _ => Unit
  | saveInvoice _ _ _ => SavedInvoice
  | publish _ => Unit

/-- A handler, with the calls of the decorator that drops the cached invoices. -/
abbrev Async := Cache.Async Empty Call.Res

/-- Await a call of a handler. -/
abbrev await (op : Call) : Async (Call.Res op) := Prog.await (Cache.Call.own op)

/-- `EventPublisherDecorator` on a method that is called without `await`. -/
abbrev publishUnawaited (event : EventMessage) : Async Unit :=
  Prog.start (Cache.Call.own (Call.publish event))

/-- A field that is truthy. -/
def truthy? (value : Option Json) : Option Json := if Json.truthy value then value else none

/-! ## Handlers -/

/-- `updateOrderStatus`. -/
def updateOrderStatus (orderId : Option Json) (targetStatus : Json) : Async Unit := do
  let order ← await (.findOneOrFail orderId)
  await (.saveOrder order targetStatus)

/-- `handleUpdateOrderStatusPublisher`. -/
def handleUpdateOrderStatusPublisher (transactionId orderId : Option Json) : EventMessage where
  topicName := Subjects.TRANSACTION_STEP_COMPLETED.value
  message := ((((JsonObject.put ∅ "transactionId" transactionId).put
    "processType" (some (.str ProcessType.ORDER_APPROVAL.value))).put
    "stepName" (some (.str Subjects.ORDER_APPROVAL_STEP_UPDATE_ORDER_STATUS.value))).put
    "status" (some (.str ProcessStepStatus.COMPLETED.value))).put
    "payload" (some (JsonObject.toJson ((JsonObject.put ∅ "orderId" orderId).put
      "orderStatus" (some (.str OrderStatus.COMPLETED.value)))))

/-- `handleUpdateOrderStatus`. -/
def handleUpdateOrderStatus (message : JsonObject) : Async Unit := do
  let transactionId := message.lookup "transactionId"
  let orderId := message.lookup "orderId"
  if Json.truthy (message.lookup "failureReason") then
    match truthy? (message.lookup "finalStatus") with
    | some finalStatus =>
      updateOrderStatus orderId finalStatus
      Prog.throw
    | none => Prog.throw
  else
    updateOrderStatus orderId (.str OrderStatus.COMPLETED.value)
    publishUnawaited (handleUpdateOrderStatusPublisher transactionId orderId)

/-- `generateInvoiceInTransaction`. -/
def generateInvoiceInTransaction (orderId userId totalAmount : Json) : Async SavedInvoice :=
  Cache.redisCacheInvalidateDecorator "invoice:get:list"
    (await (.saveInvoice orderId userId totalAmount))

/-- `handleTransactionInvoiceGenerationPublisher`. -/
def handleTransactionInvoiceGenerationPublisher (transactionId : Option Json)
    (invoice : SavedInvoice) : EventMessage where
  topicName := Subjects.TRANSACTION_STEP_COMPLETED.value
  message := ((((JsonObject.put ∅ "transactionId" transactionId).put
    "processType" (some (.str ProcessType.ORDER_APPROVAL.value))).put
    "stepName" (some (.str Subjects.ORDER_APPROVAL_STEP_INVOICE_GENERATE.value))).put
    "status" (some (.str ProcessStepStatus.COMPLETED.value))).put
    "payload" (some (JsonObject.toJson ((JsonObject.put ∅ "invoiceId" (some (.str invoice.id))).put
      "invoiceStatus" (some (.str invoice.status.value)))))

/-- `handleTransactionInvoiceGeneration`. -/
def handleTransactionInvoiceGeneration (message : JsonObject) : Async Unit :=
  match truthy? (message.lookup "userId"), truthy? (message.lookup "orderId"),
    message.lookup "totalAmount" with
  | some userId, some orderId, some totalAmount => do
    let invoice ← generateInvoiceInTransaction orderId userId totalAmount
    publishUnawaited (handleTransactionInvoiceGenerationPublisher
      (message.lookup "transactionId") invoice)
  | _, _, _ => return ()

/-! ## Delivery -/

/-- The steps of the order approval saga. -/
inductive ApprovalStep where
  | updateOrderStatus
  | invoiceGenerate
  deriving DecidableEq

/-- Their subjects. -/
def ApprovalStep.subject : ApprovalStep → Subjects
  | updateOrderStatus => .ORDER_APPROVAL_STEP_UPDATE_ORDER_STATUS
  | invoiceGenerate => .ORDER_APPROVAL_STEP_INVOICE_GENERATE

/-- The handler that the service of a topic has subscribed. -/
def topicHandler (topic : String) : Option (JsonObject → Async Unit) :=
  if topic = ApprovalStep.updateOrderStatus.subject.value then some handleUpdateOrderStatus
  else if topic = ApprovalStep.invoiceGenerate.subject.value then
    some handleTransactionInvoiceGeneration
  else none

/-- `eachMessage` of `startConsumer`. -/
def eachMessage (event : EventMessage) : Async Unit :=
  Prog.tryCatch
    (match topicHandler event.topicName with
      | some handler => handler event.message
      | none => return ())
    (return ())

/-- How the calls of a delivery end; `none` and `false` are rejections. -/
structure Results where
  /-- `getHashKeys`. -/
  keys : Option (List String) := some []
  /-- `deleteKeys`. -/
  deleted : Bool := true
  /-- `findOneOrFail`: the row, unless none is found or the query fails. -/
  row : Option Order := none
  /-- `save` of the order. -/
  orderSaved : Bool := true
  /-- `save` of the invoice. -/
  invoice : Option SavedInvoice := none

/-- The cached lists of invoices have been dropped. -/
def Results.dropped (results : Results) : Bool :=
  match results.keys with
  | some [] => true
  | some _ => results.deleted
  | none => false

/-- A save that has succeeded, with what the step is about. -/
inductive Saved where
  | order (id : String) (status : Json)
  | invoice (orderId userId totalAmount : Json)

/-- What a delivery has done so far. -/
structure Delivery where
  saved : List Saved := []
  published : List EventMessage := []

/-- The calls of a delivery. -/
def answers (results : Results) :
    Answers Delivery (Cache.Call Empty Call) (Cache.Call.Answer Call.Res)
  | .getHashKeys _, s => (results.keys, s)
  | .deleteKeys _, s => (if results.deleted then some () else none, s)
  | .own (.findOneOrFail _), s => (results.row, s)
  | .own (.saveOrder order status), s =>
    if results.orderSaved then (some (), { s with saved := s.saved ++ [.order order.id status] })
    else (none, s)
  | .own (.saveInvoice orderId userId totalAmount), s =>
    if results.invoice.isSome then
      (results.invoice, { s with saved := s.saved ++ [.invoice orderId userId totalAmount] })
    else (none, s)
  | .own (.publish event), s => (some (), { s with published := s.published ++ [event] })
  | .query query, _ => nomatch query
  | .get _, s => (some none, s)
  | .set _ _ _, s => (some (), s)
  | .setHashKeys _ _, s => (some (), s)

/-- One delivery. -/
def deliver (results : Results) (event : EventMessage) : Delivery :=
  ((eachMessage event).eval (answers results) {}).2

/-- A message that reports how a step has ended. -/
def isOutcome (event : EventMessage) : Bool :=
  event.topicName == Subjects.TRANSACTION_STEP_COMPLETED.value ||
    event.topicName == Subjects.TRANSACTION_STEP_FAILED.value

/-- The status that the order of a payload is to get, if any. -/
def targetStatus (payload : JsonObject) : Option Json :=
  if Json.truthy (payload.lookup "failureReason") then truthy? (payload.lookup "finalStatus")
  else some (.str OrderStatus.COMPLETED.value)

/-- The effect of a step is saved: the order of the payload with its status, or the invoice of the
order. -/
def ApprovalStep.Persisted (payload : JsonObject) (saved : List Saved) : ApprovalStep → Prop
  | updateOrderStatus => ∃ id status, payload.lookup "orderId" = some (.str id) ∧
      targetStatus payload = some status ∧ .order id status ∈ saved
  | invoiceGenerate => ∃ orderId userId totalAmount,
      payload.lookup "orderId" = some orderId ∧ payload.lookup "userId" = some userId ∧
      payload.lookup "totalAmount" = some totalAmount ∧ .invoice orderId userId totalAmount ∈ saved

/-- The delivery has published one outcome of the step: that it is completed if its effect has been
saved, and that it has failed otherwise. -/
def Answered (transaction : DistributedTransaction) (approval : ApprovalStep)
    (delivery : Delivery) : Prop :=
  ∃ event, delivery.published.filter isOutcome = [event] ∧
    event.message.lookup "transactionId" = some (.str transaction.transactionId) ∧
    event.message.lookup "stepName" = some (.str approval.subject.value) ∧
    (approval.Persisted transaction.payload delivery.saved →
      event.topicName = Subjects.TRANSACTION_STEP_COMPLETED.value) ∧
    (¬approval.Persisted transaction.payload delivery.saved →
      event.topicName = Subjects.TRANSACTION_STEP_FAILED.value)

/-! ## What a delivery does -/

section Deliver

variable {results : Results} {message : JsonObject}

/-- What a handler throws changes nothing more. -/
theorem deliver_eq {event : EventMessage} {handler : JsonObject → Async Unit}
    (h : topicHandler event.topicName = some handler) :
    deliver results event = ((handler event.message).eval (answers results) {}).2 := by
  unfold deliver eachMessage
  rw [h, Prog.eval_tryCatch]
  cases ((handler event.message).eval (answers results) {}).1 <;> rfl

theorem truthy_of_eq_some {value : Option Json} {v : Json} (h : truthy? value = some v) :
    Json.truthy value = true := by
  unfold truthy? at h
  split at h
  · assumption
  · cases h

theorem eq_some_of_truthy? {value : Option Json} {v : Json} (h : truthy? value = some v) :
    value = some v := by
  unfold truthy? at h
  split at h
  · exact h
  · cases h

theorem truthy_of_eq_none {value : Option Json} (h : truthy? value = none) :
    Json.truthy value = false := by
  unfold truthy? at h
  split at h
  · rename_i hv
    rw [h] at hv
    cases hv
  · rename_i hv
    exact eq_false_of_ne_true hv

theorem truthy?_map_str (text : Option String) :
    truthy? (text.map .str) = (nonEmpty text).map .str := by
  cases text with
  | none => rfl
  | some s =>
    rw [nonEmpty_some]
    by_cases hs : s = "" <;> simp [truthy?, Json.truthy, hs]

/-- The row that `updateOrderStatus` finds and saves. -/
def Results.savedRow (results : Results) : Option Order :=
  if results.orderSaved then results.row else none

/-- What is saved of the order that is to get this status. -/
def Results.savedOrder (results : Results) (status : Option Json) : List Saved :=
  match results.savedRow, status with
  | some row, some status => [.order row.id status]
  | _, _ => []

theorem eval_updateOrderStatus (results : Results) (orderId : Option Json) (status : Json)
    (s : Delivery) :
    (updateOrderStatus orderId status).eval (answers results) s =
      (results.savedRow.map fun _ => (),
        { s with saved := s.saved ++ results.savedOrder (some status) }) := by
  obtain ⟨keys, deleted, row, saved, invoice⟩ := results
  cases row <;> cases saved <;> simp [Results.savedRow, Results.savedOrder] <;> rfl

/-- A command with a failure reason is never reported; another one is once the order is saved. -/
theorem eval_handleUpdateOrderStatus :
    ((handleUpdateOrderStatus message).eval (answers results) {}).2 =
      { saved := results.savedOrder (targetStatus message)
        published := if Json.truthy (message.lookup "failureReason") = true then []
          else (results.savedRow.map fun _ => handleUpdateOrderStatusPublisher
            (message.lookup "transactionId") (message.lookup "orderId")).toList } := by
  unfold handleUpdateOrderStatus targetStatus
  dsimp only
  split
  · cases hfinal : truthy? (message.lookup "finalStatus") with
    | some finalStatus =>
      dsimp only
      rw [Prog.eval_bind, eval_updateOrderStatus]
      cases results.savedRow <;> rfl
    | none =>
      unfold Results.savedOrder
      cases results.savedRow <;> rfl
  · rw [Prog.eval_bind, eval_updateOrderStatus]
    cases results.savedRow <;> rfl

theorem eval_generateInvoiceInTransaction {orderId userId totalAmount : Json} {s : Delivery} :
    (generateInvoiceInTransaction orderId userId totalAmount).eval (answers results) s =
      if results.dropped = true ∧ results.invoice.isSome = true then
        (results.invoice, { s with saved := s.saved ++ [.invoice orderId userId totalAmount] })
      else (none, s) := by
  obtain ⟨keys, deleted, row, saved, invoice⟩ := results
  cases keys with
  | none => rfl
  | some keys =>
    cases keys <;> cases deleted <;> cases invoice <;> rfl

/-- The fields that an invoice is generated from. -/
def Complete (message : JsonObject) : Prop :=
  Json.truthy (message.lookup "userId") = true ∧ Json.truthy (message.lookup "orderId") = true ∧
    message.lookup "totalAmount" ≠ none

/-- From these fields an invoice is generated. -/
structure Generates (message : JsonObject) (orderId userId totalAmount : Json) : Prop where
  lookup_orderId : message.lookup "orderId" = some orderId
  lookup_userId : message.lookup "userId" = some userId
  lookup_totalAmount : message.lookup "totalAmount" = some totalAmount
  handler : handleTransactionInvoiceGeneration message = (do
    let invoice ← generateInvoiceInTransaction orderId userId totalAmount
    publishUnawaited (handleTransactionInvoiceGenerationPublisher
      (message.lookup "transactionId") invoice))

theorem complete_cases (message : JsonObject) :
    Complete message ∧ (∃ orderId userId totalAmount,
        Generates message orderId userId totalAmount) ∨
      ¬Complete message ∧ handleTransactionInvoiceGeneration message = pure () := by
  cases hu : truthy? (message.lookup "userId") with
  | none =>
    refine .inr ⟨fun h => ?_, ?_⟩
    · unfold Complete at h
      rw [truthy_of_eq_none hu] at h
      cases h.1
    · unfold handleTransactionInvoiceGeneration
      rw [hu]
  | some userId =>
    cases ho : truthy? (message.lookup "orderId") with
    | none =>
      refine .inr ⟨fun h => ?_, ?_⟩
      · unfold Complete at h
        rw [truthy_of_eq_none ho] at h
        cases h.2.1
      · unfold handleTransactionInvoiceGeneration
        rw [hu, ho]
    | some orderId =>
      cases ha : message.lookup "totalAmount" with
      | none =>
        refine .inr ⟨fun h => h.2.2 ha, ?_⟩
        unfold handleTransactionInvoiceGeneration
        rw [hu, ho, ha]
      | some totalAmount =>
        have hne : message.lookup "totalAmount" ≠ none := by
          rw [ha]
          exact Option.some_ne_none _
        refine .inl ⟨⟨truthy_of_eq_some hu, truthy_of_eq_some ho, hne⟩, orderId, userId,
          totalAmount, eq_some_of_truthy? ho, eq_some_of_truthy? hu, ha, ?_⟩
        unfold handleTransactionInvoiceGeneration
        rw [hu, ho, ha]

/-- A command that lacks a field is not reported; another one is once the invoice is saved. -/
theorem eval_handleTransactionInvoiceGeneration (results : Results) (message : JsonObject) :
    (Complete message ∧ results.dropped = true ∧ ∃ invoice, results.invoice = some invoice ∧
      ∃ orderId userId totalAmount, Generates message orderId userId totalAmount ∧
        ((handleTransactionInvoiceGeneration message).eval (answers results) {}).2 =
          { saved := [.invoice orderId userId totalAmount]
            published := [handleTransactionInvoiceGenerationPublisher
              (message.lookup "transactionId") invoice] }) ∨
    ¬(Complete message ∧ results.dropped = true ∧ results.invoice ≠ none) ∧
      ((handleTransactionInvoiceGeneration message).eval (answers results) {}).2 = {} := by
  rcases complete_cases message with ⟨hc, orderId, userId, totalAmount, hg⟩ | ⟨hc, hp⟩
  · rw [hg.handler, Prog.eval_bind, eval_generateInvoiceInTransaction]
    cases hd : results.dropped with
    | true =>
      cases hi : results.invoice with
      | some invoice =>
        exact .inl ⟨hc, rfl, invoice, rfl, orderId, userId, totalAmount, hg, rfl⟩
      | none => exact .inr ⟨fun h => h.2.2 rfl, rfl⟩
    | false => exact .inr ⟨fun h => (by cases h.2.1), rfl⟩
  · rw [hp]
    exact .inr ⟨fun h => hc h.1, rfl⟩

/-! ### Fields that have their types -/

/-- The calls of the handlers that know the types of their fields, with the same results. -/
def typedAnswers (results : Results) : Answers Delivery Services.Call Services.Call.Res
  | .findOneOrFail _, s => (some results.row, s)
  | .saveOrder order, s =>
    if results.orderSaved then
      (some (), { s with saved := s.saved ++ [.order order.id (.str order.status.value)] })
    else (none, s)
  | .saveInvoice data, s =>
    (results.invoice.map fun invoice => { data with id := invoice.id, status := invoice.status },
      if results.invoice.isSome then
        { s with saved := s.saved ++ [.invoice (.str data.orderId) (.str data.userId)
          (.num data.amount)] }
      else s)
  | .publish event, s => (some (), { s with published := s.published ++ [event] })
  | .insertOrder _, s => (none, s)
  | .startTransaction _, s => (none, s)
  | .started _, s => (none, s)
  | .now, s => (none, s)

/-- On fields that have their types, the handler is the one of the order service. -/
theorem handleUpdateOrderStatus_typed {transactionId orderId : Option String}
    {finalStatus : Option OrderStatus}
    (ht : message.lookup "transactionId" = transactionId.map .str)
    (ho : message.lookup "orderId" = orderId.map .str)
    (hf : message.lookup "finalStatus" = finalStatus.map fun status => .str status.value) :
    ((Services.handleUpdateOrderStatus message).eval (typedAnswers results) {}).2 =
      ((handleUpdateOrderStatus message).eval (answers results) {}).2 := by
  have hupdate : ∀ status : OrderStatus,
      (Services.updateOrderStatus orderId status).eval (typedAnswers results) {} =
        (results.savedRow.map fun _ => (),
          { saved := results.savedOrder (some (.str status.value)) }) := by
    intro status
    obtain ⟨keys, deleted, row, saved, invoice⟩ := results
    cases row <;> cases saved <;> rfl
  rw [eval_handleUpdateOrderStatus]
  unfold Services.handleUpdateOrderStatus targetStatus
  dsimp only
  rw [ht, ho, hf, Json.str?_map_str, Json.str?_map_str]
  by_cases hreason : Json.truthy (message.lookup "failureReason") = true
  · simp only [if_pos hreason]
    cases finalStatus with
    | none =>
      unfold Results.savedOrder
      cases results.savedRow <;> rfl
    | some status =>
      have htruthy : truthy? (some (.str status.value)) = some (.str status.value) := by
        cases status <;> rfl
      rw [Option.map_some, htruthy, Json.str?_str, Option.bind_some, OrderStatus.ofValue_value]
      dsimp only
      rw [Prog.eval_bind, hupdate]
      cases results.savedRow <;> rfl
  · simp only [if_neg hreason]
    rw [Prog.eval_bind, hupdate]
    cases results.savedRow <;> rfl

/-- On fields that have their types, once the cached lists are dropped, the handler is the one of
the invoice service. -/
theorem handleTransactionInvoiceGeneration_typed {transactionId orderId userId : Option String}
    {totalAmount : Option Rat} (hd : results.dropped = true)
    (ht : message.lookup "transactionId" = transactionId.map .str)
    (ho : message.lookup "orderId" = orderId.map .str)
    (hu : message.lookup "userId" = userId.map .str)
    (ha : message.lookup "totalAmount" = totalAmount.map .num) :
    ((Services.handleTransactionInvoiceGeneration message).eval (typedAnswers results) {}).2 =
      ((handleTransactionInvoiceGeneration message).eval (answers results) {}).2 := by
  unfold Services.handleTransactionInvoiceGeneration handleTransactionInvoiceGeneration
  rw [ht, ho, hu, ha, Json.str?_map_str, Json.str?_map_str, Json.str?_map_str, truthy?_map_str,
    truthy?_map_str]
  cases nonEmpty userId with
  | none => rfl
  | some userId =>
    cases nonEmpty orderId with
    | none => rfl
    | some orderId =>
      cases totalAmount with
      | none => rfl
      | some totalAmount =>
        dsimp only [Option.map_some, Json.num?]
        rw [Prog.eval_bind, Prog.eval_bind, eval_generateInvoiceInTransaction, hd]
        obtain ⟨keys, deleted, row, saved, invoice⟩ := results
        cases invoice <;> rfl

end Deliver

/-! ## Answered commands -/

section Answered

open Transaction

variable {transaction : DistributedTransaction} {step : TransactionStep} {results : Results}

theorem lookup_stepMessage {k : String} (hid : k ≠ "transactionId") (hname : k ≠ "stepName") :
    (stepMessage transaction step).lookup k = transaction.payload.lookup k := by
  unfold stepMessage
  rw [JsonObject.lookup_put_of_ne _ _ hname]
  by_cases hk : k ∈ transaction.payload
  · exact JsonObject.lookup_spread_of_mem _ hk
  · rw [JsonObject.lookup_spread_of_not_mem _ hk, JsonObject.lookup_put_of_ne _ _ hid,
      AList.lookup_eq_none.mpr hk]
    rfl

/-- The payload does not replace the id of the transaction in its commands. -/
def NamesTransaction (transaction : DistributedTransaction) : Prop :=
  ∀ value, transaction.payload.lookup "transactionId" = some value →
    value = .str transaction.transactionId

theorem lookup_transactionId_iff (transaction : DistributedTransaction) (step : TransactionStep) :
    (stepMessage transaction step).lookup "transactionId" = some (.str transaction.transactionId) ↔
      NamesTransaction transaction := by
  unfold stepMessage NamesTransaction
  rw [JsonObject.lookup_put_of_ne _ _ (by decide)]
  by_cases hk : "transactionId" ∈ transaction.payload
  · rw [JsonObject.lookup_spread_of_mem _ hk]
    obtain ⟨value, hv⟩ := Option.isSome_iff_exists.mp (AList.lookup_isSome.mpr hk)
    rw [hv]
    refine ⟨fun h value' hv' => ?_, fun h => congrArg some (h value rfl)⟩
    exact (Option.some_inj.mp hv').symm.trans (Option.some_inj.mp h)
  · rw [JsonObject.lookup_spread_of_not_mem _ hk, JsonObject.lookup_put_self,
      AList.lookup_eq_none.mpr hk]
    exact iff_of_true rfl fun value hv => by cases hv

/-- What it takes that a command is answered. -/
def Reported (transaction : DistributedTransaction) (results : Results) : ApprovalStep → Prop
  | .updateOrderStatus =>
    Json.truthy (transaction.payload.lookup "failureReason") = false ∧
      (∃ row, results.row = some row ∧
        transaction.payload.lookup "orderId" = some (.str row.id)) ∧
      results.orderSaved = true
  | .invoiceGenerate =>
    Complete transaction.payload ∧ results.dropped = true ∧ results.invoice ≠ none

theorem complete_stepMessage :
    Complete (stepMessage transaction step) ↔ Complete transaction.payload := by
  unfold Complete
  rw [lookup_stepMessage (by decide) (by decide), lookup_stepMessage (by decide) (by decide),
    lookup_stepMessage (by decide) (by decide)]

theorem lookup_updatePublisher (transactionId orderId : Option Json) :
    (handleUpdateOrderStatusPublisher transactionId orderId).message.lookup "transactionId" =
      transactionId := by
  simp [handleUpdateOrderStatusPublisher, JsonObject.lookup_put]

theorem lookup_invoicePublisher (transactionId : Option Json) (invoice : SavedInvoice) :
    (handleTransactionInvoiceGenerationPublisher transactionId invoice).message.lookup
      "transactionId" = transactionId := by
  simp [handleTransactionInvoiceGenerationPublisher, JsonObject.lookup_put]

theorem not_answered {approval : ApprovalStep} {saved : List Saved} :
    ¬Answered transaction approval { saved } := by
  rintro ⟨event, hfilter, -⟩
  cases hfilter

/-- A completion is an answer where the effect is saved and the transaction is named. -/
theorem answered_completed_iff {approval : ApprovalStep} {saved : List Saved}
    {event : EventMessage}
    (htopic : event.topicName = Subjects.TRANSACTION_STEP_COMPLETED.value)
    (hname : event.message.lookup "stepName" = some (.str approval.subject.value)) :
    Answered transaction approval { saved, published := [event] } ↔
      approval.Persisted transaction.payload saved ∧
        event.message.lookup "transactionId" = some (.str transaction.transactionId) := by
  have hfilter : [event].filter isOutcome = [event] := by simp [isOutcome, htopic]
  constructor
  · rintro ⟨event', he, hid, -, -, hfailed⟩
    rw [hfilter] at he
    cases he
    refine ⟨?_, hid⟩
    by_contra hnot
    have htopics := htopic.symm.trans (hfailed hnot)
    exact absurd htopics (by decide)
  · rintro ⟨hpersisted, hid⟩
    exact ⟨event, hfilter, hid, hname, fun _ => htopic, fun hnot => absurd hpersisted hnot⟩

/-- The update is saved where the row of the payload's order is. -/
theorem persisted_savedOrder_iff {payload : JsonObject}
    (hreason : Json.truthy (payload.lookup "failureReason") = false) :
    ApprovalStep.updateOrderStatus.Persisted payload
        (results.savedOrder (targetStatus payload)) ↔
      ∃ row, results.savedRow = some row ∧ payload.lookup "orderId" = some (.str row.id) := by
  have htarget : targetStatus payload = some (.str OrderStatus.COMPLETED.value) := by
    rw [targetStatus, hreason]
    rfl
  unfold ApprovalStep.Persisted Results.savedOrder
  rw [htarget]
  constructor
  · rintro ⟨id, status, hid, -, hmem⟩
    cases hrow : results.savedRow with
    | none =>
      rw [hrow] at hmem
      cases hmem
    | some row =>
      rw [hrow] at hmem
      cases List.mem_singleton.mp hmem
      exact ⟨row, rfl, hid⟩
  · rintro ⟨row, hrow, hid⟩
    refine ⟨row.id, _, hid, rfl, ?_⟩
    rw [hrow]
    exact List.mem_singleton_self _

theorem savedRow_eq_some {row : Order} :
    results.savedRow = some row ↔ results.row = some row ∧ results.orderSaved = true := by
  unfold Results.savedRow
  cases results.orderSaved <;> simp

theorem targetStatus_stepMessage :
    targetStatus (stepMessage transaction step) = targetStatus transaction.payload := by
  unfold targetStatus
  rw [lookup_stepMessage (by decide) (by decide), lookup_stepMessage (by decide) (by decide)]

/-- The command of a step, and what its delivery does. -/
theorem deliver_forwardCommand {handler : JsonObject → Async Unit}
    (h : topicHandler step.name = some handler) :
    deliver results (forwardCommand transaction step) =
      ((handler (stepMessage transaction step)).eval (answers results) {}).2 :=
  deliver_eq h

/-- Whatever the payload of the transaction and the results of the calls, a command is answered
exactly if it is reported and names its transaction. -/
theorem answered_iff (transaction : DistributedTransaction) (step : TransactionStep)
    (approval : ApprovalStep) (results : Results) :
    Answered transaction approval
        (deliver results (forwardCommand transaction { step with name := approval.subject.value })) ↔
      Reported transaction results approval ∧ NamesTransaction transaction := by
  rw [← lookup_transactionId_iff transaction { step with name := approval.subject.value }]
  cases approval with
  | updateOrderStatus =>
    rw [deliver_forwardCommand rfl, eval_handleUpdateOrderStatus, targetStatus_stepMessage,
      lookup_stepMessage (k := "failureReason") (by decide) (by decide), Reported]
    cases hreason : Json.truthy (transaction.payload.lookup "failureReason") with
    | true =>
      rw [if_pos rfl]
      exact iff_of_false not_answered fun h => by cases h.1.1
    | false =>
      rw [if_neg Bool.false_ne_true]
      cases hrow : results.savedRow with
      | some row =>
        obtain ⟨hfound, hsaved⟩ := savedRow_eq_some.mp hrow
        rw [Option.map_some, Option.toList_some, answered_completed_iff rfl rfl,
          lookup_updatePublisher, persisted_savedOrder_iff hreason, hrow, hfound, hsaved]
        simp
      | none =>
        refine iff_of_false not_answered ?_
        rintro ⟨⟨-, ⟨row, hfound, -⟩, hsaved⟩, -⟩
        rw [savedRow_eq_some.mpr ⟨hfound, hsaved⟩] at hrow
        cases hrow
  | invoiceGenerate =>
    rw [deliver_forwardCommand rfl, Reported]
    rcases eval_handleTransactionInvoiceGeneration results (stepMessage transaction { step with
      name := ApprovalStep.invoiceGenerate.subject.value }) with
      ⟨hc, hd, invoice, hi, orderId, userId, totalAmount, hg, heval⟩ | ⟨hnot, heval⟩
    · have hpersisted : ApprovalStep.invoiceGenerate.Persisted transaction.payload
          [.invoice orderId userId totalAmount] := by
        refine ⟨orderId, userId, totalAmount, ?_, ?_, ?_, List.mem_singleton_self _⟩
        · rw [← hg.lookup_orderId, lookup_stepMessage (by decide) (by decide)]
        · rw [← hg.lookup_userId, lookup_stepMessage (by decide) (by decide)]
        · rw [← hg.lookup_totalAmount, lookup_stepMessage (by decide) (by decide)]
      rw [heval, answered_completed_iff rfl rfl, lookup_invoicePublisher]
      refine and_congr_left fun _ => iff_of_true hpersisted ⟨complete_stepMessage.mp hc, hd, ?_⟩
      rw [hi]
      exact Option.some_ne_none _
    · rw [heval]
      exact iff_of_false not_answered fun h =>
        hnot ⟨complete_stepMessage.mpr h.1.1, h.1.2⟩

end Answered

/-! ### A command that is not answered -/

/-- The transaction of a failed order. -/
def failedOrderTransaction : DistributedTransaction :=
  Transaction.newTransaction (failedOrderOptions
    { id := "order", userId := "user", totalAmount := 0, status := .PENDING }
    "Invalid total amount" .CANCELLED) "transaction" 0

/-- Its first command: the status of the order is updated. -/
def failedOrderCommand : EventMessage :=
  Transaction.forwardCommand failedOrderTransaction
    { name := ApprovalStep.updateOrderStatus.subject.value, service := .ORDER_SERVICE
      status := .PENDING }

/-- The row is found and saved, and nothing is published. -/
theorem failedOrderCommand_unanswered :
    ¬Answered failedOrderTransaction .updateOrderStatus
      (deliver { row := some { id := "order", userId := "user", totalAmount := 0
                               status := .CANCELLED } } failedOrderCommand) := by
  rintro ⟨event, hpublished, -⟩
  have hlength := congrArg List.length hpublished
  rw [List.length_singleton] at hlength
  exact absurd hlength (by decide +kernel)

end InvoiceHub.Services.Unchecked
