import InvoiceHub.Platform.Messages
import InvoiceHub.Platform.Orders

/-!
# Isolation between orders

A forward command on the update topic changes the row of its own order and no other
(`onlyChanges_forward`).  A compensation command carries the id of the order inside a second
message, where the handler does not look: it updates whatever row is found for no id
(`Hub.Consistent.onlyChanges_wrapped_iff`).
-/

namespace InvoiceHub

open Effects Transaction Services

/-! ## Handling an update message -/

/-- What handling an update message, by itself, does to the tables. -/
def handled (choice : Choice) (db : Database) (message : JsonObject) : Database :=
  (handleUpdateOrderStatus message).exec Services.perform .handleUpdateOrderStatus choice db

/-- No row but that of `orderId` is changed. -/
def OnlyChanges (orderId : String) (db db' : Database) : Prop :=
  ∀ id, id ≠ orderId → db'.order? id = db.order? id

section Handled

variable (choice : Choice) (db : Database) {message : JsonObject} {target : OrderStatus}

/-- Where no row is found nothing changes. -/
theorem handled_of_none (ht : updateTarget message = some target)
    (hf : db.findOne choice (Json.str? (message.lookup "orderId")) = none) :
    handled choice db message = db := by
  unfold handled
  rw [handleUpdateOrderStatus_eq, ht]
  simp only [Job.prog, Prog.exec, Services.perform, hf]

/-- The row that is found is saved with the status that the message asks for. -/
theorem order?_handled {row : Order} (ht : updateTarget message = some target)
    (hf : db.findOne choice (Json.str? (message.lookup "orderId")) = some row) (id : String) :
    (handled choice db message).order? id =
      if id = row.id then some (Order.stored { row with status := target })
      else db.order? id := by
  have hsave : ∀ order : Order, (db.saveOrder order).order? id =
      if id = order.id then some order.stored else db.order? id := by
    intro order
    exact Job.order?_answer (.save message order) choice db id
  unfold handled
  rw [handleUpdateOrderStatus_eq, ht]
  simp only [Job.prog, Job.saveProg, Prog.exec, Services.perform, hf]
  split
  · exact hsave _
  · exact hsave _

end Handled

/-! ## Rows -/

/-- Rows hold amounts as the column stores them. -/
theorem Hub.Consistent.stored_row {h : Hub} (hc : h.Consistent) {id : String} {row : Order}
    (hrow : h.db.order? id = some row) : row.stored = row := by
  obtain ⟨order, -, hr⟩ := hc.rows id row hrow
  have hamount : numeric row.totalAmount = row.totalAmount := by
    rw [hr.totalAmount, numeric_numeric]
  cases row
  simp only [Order.stored] at hamount ⊢
  rw [hamount]

/-! ## Isolation -/

/-- A forward command changes the row of its order only. -/
theorem onlyChanges_forward (t : String) (order : Order) (choice : Choice) (db : Database) :
    OnlyChanges order.id db (handled choice db (stepCommand t (sagaOptions order).payload
      Subjects.ORDER_APPROVAL_STEP_UPDATE_ORDER_STATUS.value).message) := by
  intro id hid
  have hcmd := commandOf_stepCommand order t Subjects.ORDER_APPROVAL_STEP_UPDATE_ORDER_STATUS.value
  have hlookup : Json.str? ((stepCommand t (sagaOptions order).payload
      Subjects.ORDER_APPROVAL_STEP_UPDATE_ORDER_STATUS.value).message.lookup "orderId") =
        some order.id := by
    rw [hcmd.orderId]
    rfl
  cases hf : db.findOne choice (some order.id) with
  | none => rw [handled_of_none choice db hcmd.updateTarget (by rw [hlookup, hf])]
  | some row =>
    rw [order?_handled choice db hcmd.updateTarget (by rw [hlookup, hf]), if_neg]
    rw [Database.id_of_findOne hf]
    exact hid

/-- A compensation command changes whatever row is found for no id. -/
theorem Hub.Consistent.onlyChanges_wrapped_iff {h : Hub} (hc : h.Consistent) (t orderId : String)
    (payload : JsonObject) (choice : Choice) :
    OnlyChanges orderId h.db (handled choice h.db (wrappedCommand t payload
        Subjects.ORDER_APPROVAL_STEP_UPDATE_ORDER_STATUS.value).message) ↔
      ∀ row, h.db.findOne choice none = some row → row.id = orderId ∨ row.status = .COMPLETED := by
  have htarget := updateTarget_wrappedCommand t
    Subjects.ORDER_APPROVAL_STEP_UPDATE_ORDER_STATUS.value payload
  have hlookup : Json.str? ((wrappedCommand t payload
      Subjects.ORDER_APPROVAL_STEP_UPDATE_ORDER_STATUS.value).message.lookup "orderId") = none := by
    rw [lookup_wrappedCommand _ _ _ (by decide) (by decide)]
    rfl
  cases hf : h.db.findOne choice none with
  | none =>
    rw [handled_of_none choice h.db htarget (by rw [hlookup, hf])]
    exact ⟨fun _ row hrow => (nomatch hrow), fun _ id _ => rfl⟩
  | some row =>
    have hrow := Database.order?_of_findOne hf
    have hhandled := order?_handled choice h.db htarget (by rw [hlookup, hf])
    refine ⟨fun honly => ?_, fun hcase id hid => ?_⟩
    · rintro _ ⟨⟩
      by_cases hid : row.id = orderId
      · exact .inl hid
      · have hsame := honly row.id hid
        rw [hhandled, if_pos rfl, hrow] at hsame
        exact .inr (congrArg (·.status) (Option.some_inj.mp hsame)).symm
    · rw [hhandled]
      split
      · rename_i heq
        subst heq
        rcases hcase row rfl with hid' | hstatus
        · exact absurd hid' hid
        · rw [hrow]
          have hst : { row with status := OrderStatus.COMPLETED } = row := by
            rw [← hstatus]
          rw [hst, hc.stored_row hrow]
      · rfl

/-- Handling what a coordinator has published on the update topic leaves the rows of other orders
alone just if it is a forward command, or the row that is found for no id happens to be that of
the order, or one that is completed already. -/
theorem isolation {policy : Platform.Policy} {s : Platform} (hs : Platform.Reachable policy s)
    {p : Publication} (hp : .published p ∈ s.order.world.history ++ s.invoice.world.history)
    (ht : p.event.topicName = Subjects.ORDER_APPROVAL_STEP_UPDATE_ORDER_STATUS.value)
    (choice : Choice) :
    ∃ t options orderId, p.transactionId = some t ∧
      .created t options ∈ s.order.world.history ∧
      Json.str? (options.payload.lookup "orderId") = some orderId ∧
      (OnlyChanges orderId s.services.world (handled choice s.services.world p.event.message) ↔
        p.publisher = .handleProgressTransaction ∨
        ∀ row, s.services.world.findOne choice none = some row →
          row.id = orderId ∨ row.status = .COMPLETED) := by
  obtain ⟨h, rfl, hsound⟩ := Hub.sound_reachable hs
  change .published p ∈ h.order.world.history ++ h.invoice.world.history at hp
  rw [List.mem_append] at hp
  rcases hp with hp | hp
  · obtain ⟨t, options, hcreated, -, hcase⟩ := command_origin hsound.order hp (by decide) ht
    obtain ⟨hu, order, -, rfl⟩ := hsound.consistent.started t options hcreated
    refine ⟨t, sagaOptions order, order.id, ?_, hcreated, ?_, ?_⟩
    · rcases hcase with ⟨-, hid, -⟩ | ⟨-, hid, -⟩
      · exact Platform.eq_some_of_transactionKey hu hid
      · exact hid
    · rw [lookup_sagaPayload, lookup_orderPayload]
      simp
    · change OnlyChanges order.id h.db (handled choice h.db p.event.message) ↔ _ ∨
        ∀ row, h.db.findOne choice none = some row → row.id = order.id ∨ row.status = .COMPLETED
      rcases hcase with ⟨hpub, -, hevent⟩ | ⟨hpub, -, hevent⟩
      · rw [hevent]
        exact ⟨fun _ => .inl hpub, fun _ => onlyChanges_forward t order choice h.db⟩
      · have hnot : p.publisher ≠ .handleProgressTransaction := by
          rw [hpub]
          decide
        rw [hevent, hsound.consistent.onlyChanges_wrapped_iff]
        exact ⟨.inr, fun hcase => hcase.resolve_left hnot⟩
  · -- the coordinator of the invoice service has started no transaction
    obtain ⟨t, options, hcreated, -⟩ := command_origin hsound.invoice hp (by decide) ht
    exact absurd hcreated (passive_not_created (fun _ _ hl => hl) hsound.invoice t options)

/-- Then the order `b` is placed. -/
def secondOrder : List Platform.Label :=
  compensatedOrder ++ [.createOrder "v" 20, .advance 0 { uuid := "b" }]

theorem isSome_secondOrder : (Platform.run (fun _ _ => true) secondOrder).isSome = true := by
  decide +kernel

/-- The platform once both orders are placed. -/
def twoOrders : Platform := (Platform.run (fun _ _ => true) secondOrder).get isSome_secondOrder

theorem reachable_twoOrders : Platform.Reachable (fun _ _ => true) twoOrders :=
  Machine.reachable_run secondOrder isSome_secondOrder

/-- A command of the update step. -/
def commandsUpdate : Entry → Bool
  | .published p =>
    p.event.topicName == Subjects.ORDER_APPROVAL_STEP_UPDATE_ORDER_STATUS.value
  | _ => false

/-- A command in the saga of the first order that changes the second one. -/
def commandsSecond : Entry → Bool
  | .published p => p.event.topicName ==
      Subjects.ORDER_APPROVAL_STEP_UPDATE_ORDER_STATUS.value && p.transactionId == some "t" &&
      decide ((handled {} twoOrders.services.world p.event.message).order? "b" ≠
        twoOrders.services.world.order? "b")
  | _ => false

theorem isolation_secondOrder :
    ∃ p, .published p ∈ twoOrders.order.world.history ++ twoOrders.invoice.world.history ∧
      ∃ t options orderId, p.transactionId = some t ∧
        .created t options ∈ twoOrders.order.world.history ∧
        Json.str? (options.payload.lookup "orderId") = some orderId ∧
        (OnlyChanges orderId twoOrders.services.world
            (handled {} twoOrders.services.world p.event.message) ↔
          p.publisher = .handleProgressTransaction ∨
          ∀ row, twoOrders.services.world.findOne {} none = some row →
            row.id = orderId ∨ row.status = .COMPLETED) := by
  have hany : (twoOrders.order.world.history ++ twoOrders.invoice.world.history).any
      commandsUpdate = true := by decide +kernel
  obtain ⟨entry, hmem, he⟩ := List.any_eq_true.mp hany
  cases entry with
  | published p =>
    exact ⟨p, hmem, isolation reachable_twoOrders hmem (beq_iff_eq.mp he) {}⟩
  | _ => cases he

/-- The compensation command of the first order completes the second one. -/
theorem not_isolated :
    ∃ s, Platform.Reachable (fun _ _ => true) s ∧
      ∃ p t options orderId, .published p ∈ s.order.world.history ∧
        p.event.topicName = Subjects.ORDER_APPROVAL_STEP_UPDATE_ORDER_STATUS.value ∧
        p.transactionId = some t ∧ .created t options ∈ s.order.world.history ∧
        Json.str? (options.payload.lookup "orderId") = some orderId ∧
        ∃ choice, ¬OnlyChanges orderId s.services.world
          (handled choice s.services.world p.event.message) := by
  refine ⟨twoOrders, reachable_twoOrders, ?_⟩
  have hcreated : twoOrders.order.world.history.any (startsSaga "t" "a") = true := by
    decide +kernel
  have hpublished : twoOrders.order.world.history.any commandsSecond = true := by decide +kernel
  obtain ⟨options, hc, horder⟩ := exists_created hcreated
  obtain ⟨published, hp, hpublished⟩ := List.any_eq_true.mp hpublished
  cases published with
  | published p =>
    simp only [commandsSecond, Bool.and_eq_true, beq_iff_eq, decide_eq_true_eq] at hpublished
    exact ⟨p, "t", options, "a", hp, hpublished.1.1, hpublished.1.2, hc, horder, {},
      fun honly => hpublished.2 (honly "b" (by decide))⟩
  | _ => cases hpublished

end InvoiceHub
