import InvoiceHub.Services.Jobs
import InvoiceHub.Transaction.Origin

/-!
# What the commands of a saga ask of the services

A forward command carries the payload of its saga at its top, where the handlers look for it
(`commandOf_stepCommand`).  A compensation command carries it one level deeper: the handlers find
nothing in it (`updateTarget_wrappedCommand`, `invoiceOf_wrappedCommand`).
-/

namespace InvoiceHub

open Effects Transaction Services

/-- A command of the saga of `order`, as the handlers read it. -/
structure CommandOf (order : Order) (t : String) (message : JsonObject) : Prop where
  transactionId : message.lookup "transactionId" = some (.str t)
  orderId : message.lookup "orderId" = some (.str order.id)
  userId : message.lookup "userId" = some (.str order.userId)
  totalAmount : message.lookup "totalAmount" = some (.num order.totalAmount)
  failureReason : Json.truthy (message.lookup "failureReason") = decide (order.totalAmount ≤ 0)
  finalStatus : order.totalAmount ≤ 0 →
    message.lookup "finalStatus" = some (.str OrderStatus.CANCELLED.value)

/-- A property of a command besides its step. -/
theorem lookup_stepCommand (t name : String) (payload : JsonObject) {key : String}
    (hkey : key ≠ "stepName") :
    (stepCommand t payload name).message.lookup key =
      (payload.lookup key <|> (JsonObject.put ∅ "transactionId" (some (.str t))).lookup key) := by
  have hput : (stepCommand t payload name).message.lookup key =
      ((JsonObject.put ∅ "transactionId" (some (.str t))).spread payload).lookup key :=
    JsonObject.lookup_put_of_ne _ _ hkey
  rw [hput]
  by_cases hmem : key ∈ payload
  · rw [JsonObject.lookup_spread_of_mem _ hmem]
    obtain ⟨value, hvalue⟩ := Option.isSome_iff_exists.mp (AList.lookup_isSome.mpr hmem)
    rw [hvalue]
    rfl
  · rw [JsonObject.lookup_spread_of_not_mem _ hmem, AList.lookup_eq_none.mpr hmem]
    rfl

theorem lookup_orderPayload (order : Order) (key : String) :
    (orderPayload order).lookup key =
      if key = "totalAmount" then some (.num order.totalAmount)
      else if key = "userId" then some (.str order.userId)
      else if key = "orderId" then some (.str order.id)
      else none := by
  simp [orderPayload, JsonObject.lookup_put]

theorem lookup_sagaPayload (order : Order) (key : String) :
    (sagaOptions order).payload.lookup key =
      if order.totalAmount ≤ 0 ∧ key = "finalStatus" then
        some (.str OrderStatus.CANCELLED.value)
      else if order.totalAmount ≤ 0 ∧ key = "failureReason" then
        some (.str "Invalid total amount")
      else (orderPayload order).lookup key := by
  by_cases hamount : order.totalAmount ≤ 0
  · simp [sagaOptions, hamount, failedOrderOptions, failedOrderPayload, JsonObject.lookup_put]
  · simp [sagaOptions, hamount, orderOptions]

/-- The order that a payload names. -/
def orderIdOf (payload : JsonObject) : Option String := Json.str? (payload.lookup "orderId")

theorem orderIdOf_sagaPayload (order : Order) :
    orderIdOf (sagaOptions order).payload = some order.id := by
  rw [orderIdOf, lookup_sagaPayload, lookup_orderPayload]
  simp

/-- A forward command says all that its saga was started with. -/
theorem commandOf_stepCommand (order : Order) (t name : String) :
    CommandOf order t (stepCommand t (sagaOptions order).payload name).message := by
  have hlookup : ∀ key, key ≠ "stepName" → key ≠ "transactionId" →
      (stepCommand t (sagaOptions order).payload name).message.lookup key =
        (sagaOptions order).payload.lookup key := by
    intro key hs ht
    rw [lookup_stepCommand t name _ hs, JsonObject.lookup_put_of_ne _ _ ht]
    cases (sagaOptions order).payload.lookup key <;> rfl
  refine ⟨?_, ?_, ?_, ?_, ?_, ?_⟩
  · rw [lookup_stepCommand t name _ (by decide), lookup_sagaPayload, lookup_orderPayload]
    simp
  · rw [hlookup _ (by decide) (by decide), lookup_sagaPayload, lookup_orderPayload]
    simp
  · rw [hlookup _ (by decide) (by decide), lookup_sagaPayload, lookup_orderPayload]
    simp
  · rw [hlookup _ (by decide) (by decide), lookup_sagaPayload, lookup_orderPayload]
    simp
  · rw [hlookup _ (by decide) (by decide), lookup_sagaPayload, lookup_orderPayload]
    by_cases hamount : order.totalAmount ≤ 0
    · simp [hamount, Json.truthy]
    · simp [hamount, Json.truthy]
  · intro hamount
    rw [hlookup _ (by decide) (by decide), lookup_sagaPayload]
    simp [hamount]

namespace CommandOf

variable {order : Order} {t : String} {message : JsonObject}

/-- The status a forward command asks for. -/
theorem updateTarget (h : CommandOf order t message) :
    updateTarget message =
      some (if order.totalAmount ≤ 0 then OrderStatus.CANCELLED else .COMPLETED) := by
  unfold Services.updateTarget
  rw [h.failureReason]
  by_cases hamount : order.totalAmount ≤ 0
  · simp [hamount, h.finalStatus hamount]
  · simp [hamount]

/-- The invoice it asks for. -/
theorem invoiceOf (h : CommandOf order t message) (hid : order.id ≠ "") :
    invoiceOf message = if order.userId = "" then none
      else some (invoiceData order.id order.userId order.totalAmount) := by
  unfold Services.invoiceOf
  rw [h.userId, h.orderId, h.totalAmount]
  by_cases hu : order.userId = ""
  · simp [hu]
  · simp [hu, hid, Json.num?]

end CommandOf

/-- A compensation command has none of the properties that the handlers read. -/
theorem lookup_wrappedCommand (t name : String) (payload : JsonObject) {key : String}
    (ht : key ≠ "topicName") (hm : key ≠ "message") :
    (wrappedCommand t payload name).message.lookup key = none := by
  simp [wrappedCommand, JsonObject.lookup_put, ht, hm]

theorem updateTarget_wrappedCommand (t name : String) (payload : JsonObject) :
    updateTarget (wrappedCommand t payload name).message = some .COMPLETED := by
  unfold updateTarget
  rw [lookup_wrappedCommand t name payload (by decide) (by decide)]
  rfl

theorem invoiceOf_wrappedCommand (t name : String) (payload : JsonObject) :
    invoiceOf (wrappedCommand t payload name).message = none := by
  unfold invoiceOf
  have huser : (wrappedCommand t payload name).message.lookup "userId" = none :=
    lookup_wrappedCommand t name payload (by decide) (by decide)
  rw [huser]
  rfl

end InvoiceHub
