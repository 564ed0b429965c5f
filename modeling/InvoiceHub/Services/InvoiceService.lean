import InvoiceHub.Services.Database

/-!
# The invoice service

`InvoiceTransactionManager` and the handler that `InvoiceKafkaSubscriber` runs for the invoice
step.  `handleUserNotification` writes a log only.
-/

namespace InvoiceHub.Services

open Effects

/-- What `generateInvoiceInTransaction` creates. -/
def invoiceData (orderId userId : String) (totalAmount : Rat) : InvoiceData where
  orderId := orderId
  userId := userId
  status := .PAID
  title := "Invoice for Order #" ++ orderId
  description := "Invoice generated for completed order."
  pdfUrl := "some pdf file could be generated for that in the future..."
  amount := totalAmount

/-- `generateInvoiceInTransaction`. -/
def generateInvoiceInTransaction (orderId userId : String) (totalAmount : Rat) : Async Invoice :=
  Prog.await (Call.saveInvoice (invoiceData orderId userId totalAmount))

/-- `handleTransactionInvoiceGenerationPublisher`. -/
def handleTransactionInvoiceGenerationPublisher (transactionId : Option String)
    (invoice : Invoice) : EventMessage where
  topicName := Subjects.TRANSACTION_STEP_COMPLETED.value
  message := ((((JsonObject.put ∅ "transactionId" (transactionId.map .str)).put
    "processType" (some (.str ProcessType.ORDER_APPROVAL.value))).put
    "stepName" (some (.str Subjects.ORDER_APPROVAL_STEP_INVOICE_GENERATE.value))).put
    "status" (some (.str ProcessStepStatus.COMPLETED.value))).put
    "payload" (some (JsonObject.toJson ((JsonObject.put ∅ "invoiceId" (some (.str invoice.id))).put
      "invoiceStatus" (some (.str invoice.status.value)))))

/-- A text that is truthy. -/
def nonEmpty (text : Option String) : Option String := text.filter (· ≠ "")

@[simp] theorem nonEmpty_none : nonEmpty none = none := rfl

@[simp] theorem nonEmpty_some (s : String) :
    nonEmpty (some s) = if s = "" then none else some s := by
  by_cases h : s = "" <;> simp [nonEmpty, Option.filter, h]

/-- `handleTransactionInvoiceGeneration`. -/
def handleTransactionInvoiceGeneration (message : JsonObject) : Async Unit :=
  match nonEmpty (Json.str? (message.lookup "userId")),
    nonEmpty (Json.str? (message.lookup "orderId")),
    Json.num? (message.lookup "totalAmount") with
  | some userId, some orderId, some totalAmount => do
    let invoice ← generateInvoiceInTransaction orderId userId totalAmount
    publishUnawaited (handleTransactionInvoiceGenerationPublisher
      (Json.str? (message.lookup "transactionId")) invoice)
  | _, _, _ => return ()

/-- `handleUserNotification`: it logs the notification and awaits nothing. -/
def handleUserNotification (_ : JsonObject) : Async Unit := return ()

end InvoiceHub.Services
