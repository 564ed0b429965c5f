import InvoiceHub.Services.Database

/-!
# The order service

`createOrder` of `OrderService`, `OrderTransactionManager`, and the handler that
`OrderKafkaSubscriber` runs for the update step.  The DTO that `createOrder` returns is left
to `Reports`.
-/

namespace InvoiceHub.Services

open Effects

/-! ## OrderTransactionManager -/

/-- The steps of the order approval saga. -/
def orderSteps : List (String × ClientIds) :=
  [(Subjects.ORDER_APPROVAL_STEP_UPDATE_ORDER_STATUS.value, .ORDER_SERVICE),
    (Subjects.ORDER_APPROVAL_STEP_INVOICE_GENERATE.value, .INVOICE_SERVICE)]

/-- `{ orderId, userId, totalAmount }`. -/
def orderPayload (order : Order) : JsonObject :=
  ((JsonObject.put ∅ "orderId" (some (.str order.id))).put
    "userId" (some (.str order.userId))).put "totalAmount" (some (.num order.totalAmount))

/-- `{ orderId, userId, totalAmount, failureReason, finalStatus }`. -/
def failedOrderPayload (order : Order) (reason : String) (finalStatus : OrderStatus) :
    JsonObject :=
  ((orderPayload order).put "failureReason" (some (.str reason))).put
    "finalStatus" (some (.str finalStatus.value))

/-- The options of `startOrderTransaction`. -/
def orderOptions (order : Order) : TransactionOptions where
  processType := .ORDER_APPROVAL
  payload := orderPayload order
  initiatedBy := order.userId
  steps := orderSteps

/-- The options of `startFailedOrderTransaction`. -/
def failedOrderOptions (order : Order) (reason : String) (finalStatus : OrderStatus) :
    TransactionOptions where
  processType := .ORDER_APPROVAL
  initiatedBy := order.userId
  payload := failedOrderPayload order reason finalStatus
  steps := orderSteps

/-- `startOrderTransaction`. -/
def startOrderTransaction (order : Order) : Async String :=
  startTransaction (orderOptions order)

/-- `handleTransactionUserNotification`. -/
def handleTransactionUserNotification (transactionId : String) (order : Order)
    (failureReason : String) (timestamp : Date) : EventMessage where
  topicName := Subjects.TRANSACTION_USER_NOTIFICATION.value
  message := ((((((JsonObject.put ∅ "transactionId" (some (.str transactionId))).put
    "userId" (some (.str order.userId))).put
    "processType" (some (.str ProcessType.ORDER_APPROVAL.value))).put
    "status" (some (.str DistributedTransactionStatus.FAILED.value))).put
    "error" (some (.str failureReason))).put
    "timestamp" (some (.str (Date.toISOString timestamp)))).put
    "details" (some (JsonObject.toJson ((((JsonObject.put ∅ "orderId" (some (.str order.id))).put
      "totalAmount" (some (.num order.totalAmount))).put
      "failureReason" (some (.str failureReason))).put
      "finalStatus" (some (.str order.status.value)))))

/-- `startFailedOrderTransaction`. -/
def startFailedOrderTransaction (order : Order) (reason : String) (finalStatus : OrderStatus) :
    Async String := do
  let transactionId ← startTransaction (failedOrderOptions order reason finalStatus)
  Prog.await (Call.saveOrder { order with status := finalStatus })
  let timestamp ← newDate
  publishUnawaited (handleTransactionUserNotification transactionId order reason timestamp)
  return transactionId

/-- `updateOrderStatus`. -/
def updateOrderStatus (orderId : Option String) (targetStatus : OrderStatus) : Async Unit := do
  let order ← findOneOrFail orderId
  Prog.await (Call.saveOrder { order with status := targetStatus })

/-! ## OrderService -/

/-- `createOrder`; of `...args` only what `CreateOrderArgs` declares, the amount. -/
def createOrder (userId : String) (totalAmount : Rat) : Async Unit := do
  let newOrder ← Prog.await (Call.insertOrder { userId, totalAmount, status := .PENDING })
  if totalAmount ≤ 0 then
    let _ ← startFailedOrderTransaction newOrder "Invalid total amount" .CANCELLED
    return ()
  else
    let _ ← startOrderTransaction newOrder
    return ()

/-! ## OrderKafkaSubscriber -/

/-- `handleUpdateOrderStatusPublisher`. -/
def handleUpdateOrderStatusPublisher (transactionId orderId : Option String) : EventMessage where
  topicName := Subjects.TRANSACTION_STEP_COMPLETED.value
  message := ((((JsonObject.put ∅ "transactionId" (transactionId.map .str)).put
    "processType" (some (.str ProcessType.ORDER_APPROVAL.value))).put
    "stepName" (some (.str Subjects.ORDER_APPROVAL_STEP_UPDATE_ORDER_STATUS.value))).put
    "status" (some (.str ProcessStepStatus.COMPLETED.value))).put
    "payload" (some (JsonObject.toJson ((JsonObject.put ∅ "orderId" (orderId.map .str)).put
      "orderStatus" (some (.str OrderStatus.COMPLETED.value)))))

/-- `handleUpdateOrderStatus`.  The fields of the message are cast unchecked: a `finalStatus`
that is no `OrderStatus` is not told from a missing one. -/
def handleUpdateOrderStatus (message : JsonObject) : Async Unit := do
  let transactionId := Json.str? (message.lookup "transactionId")
  let orderId := Json.str? (message.lookup "orderId")
  let finalStatus := (Json.str? (message.lookup "finalStatus")).bind OrderStatus.ofValue
  if Json.truthy (message.lookup "failureReason") then
    match finalStatus with
    | some finalStatus =>
      updateOrderStatus orderId finalStatus
      Prog.throw
    | none => Prog.throw
  else
    updateOrderStatus orderId .COMPLETED
    publishUnawaited (handleUpdateOrderStatusPublisher transactionId orderId)

end InvoiceHub.Services
