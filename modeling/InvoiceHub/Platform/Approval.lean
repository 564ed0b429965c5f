import InvoiceHub.Platform.Messages
import InvoiceHub.Platform.Orders

/-!
# What is done for an order

The jobs of the services are done at the request of a saga, for the order of that saga
(`Approving.moves`).  This holds as long as no compensation command is published: such a command
names no order.
-/

namespace InvoiceHub

open Effects Transaction Services

/-- The status a saga asks for. -/
def targetOf (order : Order) : OrderStatus :=
  if order.totalAmount ≤ 0 then .CANCELLED else .COMPLETED

namespace Hub

variable {h h' : Hub} {label : Platform.Label} {t : String} {order : Order} {subject : Subjects}

/-! ## Requests -/

/-- The saga `t` of `order` has commanded the step on the topic `subject`. -/
structure Requested (h : Hub) (t : String) (order : Order) (subject : Subjects) : Prop where
  placed : order ∈ h.placed
  created : .created t (sagaOptions order) ∈ h.order.world.history
  published : ∃ p, .published p ∈ h.order.world.history ∧
    p.publisher = .handleProgressTransaction ∧
    transactionKey p.transactionId = transactionKey (some t) ∧
    p.event = stepCommand t (sagaOptions order).payload subject.value

/-- The message of its command. -/
def requestOf (t : String) (order : Order) (subject : Subjects) : JsonObject :=
  (stepCommand t (sagaOptions order).payload subject.value).message

theorem Moves.order_history_mem (hm : h.Moves label h') {entry : Entry}
    (hmem : entry ∈ h.order.world.history) : entry ∈ h'.order.world.history := by
  rcases hm.order_cases with heq | ⟨l, -, hf⟩
  · exact heq ▸ hmem
  · obtain ⟨added, hh, -⟩ := Cluster.history_fire hf
    exact hh ▸ List.mem_append_left _ hmem

theorem Requested.moves (hr : h.Requested t order subject) (hm : h.Moves label h') :
    h'.Requested t order subject := by
  obtain ⟨p, hp, hpub, hkey, hevent⟩ := hr.published
  exact ⟨hm.placed_mem hr.placed, hm.order_history_mem hr.created, p, hm.order_history_mem hp,
    hpub, hkey, hevent⟩

/-- No step is commanded in compensation. -/
def Uncompensated (h : Hub) : Prop :=
  ∀ p, .published p ∈ h.order.world.history → p.publisher ≠ .handleCompensationStep

/-- What arrives on the topic of a step commands it for a saga, forward or in compensation. -/
theorem Sound.command (hs : Sound h) {source : Source} {index : Nat} {event : EventMessage}
    (hc : h.Carries source index subject event)
    (hstep : subject ∈ [Subjects.ORDER_APPROVAL_STEP_UPDATE_ORDER_STATUS,
      .ORDER_APPROVAL_STEP_INVOICE_GENERATE]) :
    source = .orderCoordinator ∧ ∃ t order, Platform.isUuid t = true ∧
      ((h.Requested t order subject ∧ event.message = requestOf t order subject) ∨
        (event = wrappedCommand t (sagaOptions order).payload subject.value ∧
          ∃ p, .published p ∈ h.order.world.history ∧ p.publisher = .handleCompensationStep)) := by
  obtain ⟨hget, ht⟩ := hc
  have hmem := List.mem_of_getElem? hget
  have hnot : subject ∉ announcedTopics := by
    rcases List.mem_pair.mp hstep with rfl | rfl <;> decide
  cases source with
  | orderCoordinator =>
    obtain ⟨p, hp, rfl⟩ := mem_messages hmem
    obtain ⟨t, options, hcreated, -, hcase⟩ := command_origin hs.order hp hnot ht
    obtain ⟨hu, order, hplaced, rfl⟩ := hs.consistent.started t options hcreated
    refine ⟨rfl, t, order, hu, ?_⟩
    rcases hcase with ⟨hpub, hkey, hevent⟩ | ⟨hpub, -, hevent⟩
    · exact .inl ⟨⟨hplaced, hcreated, p, hp, hpub, hkey, hevent⟩, by rw [hevent]; rfl⟩
    · exact .inr ⟨hevent, p, hp, hpub⟩
  | invoiceCoordinator =>
    obtain ⟨p, hp, rfl⟩ := mem_messages hmem
    obtain ⟨t, options, hcreated, -⟩ := command_origin hs.invoice hp hnot ht
    exact absurd hcreated (passive_not_created (fun _ _ hl => hl) hs.invoice t options)
  | services =>
    rcases hs.services.subject_cases hmem ht with rfl | rfl
    · exact absurd hstep (by decide)
    · exact absurd hstep (by decide)

/-! ## Rows -/

/-- Orders are known by their ids. -/
theorem Consistent.eq_of_id (hc : Consistent h) {order' : Order} (ho : order ∈ h.placed)
    (ho' : order' ∈ h.placed) (hid : order.id = order'.id) : order = order' :=
  List.inj_on_of_nodup_map hc.ids ho ho' hid

theorem Consistent.id_ne_empty (hc : Consistent h) (ho : order ∈ h.placed) : order.id ≠ "" := by
  intro hid
  have hu := hc.uuid order ho
  rw [hid] at hu
  exact absurd hu (by decide)

/-- The row of the order is completed. -/
def RowCompleted (h : Hub) (id : String) : Prop :=
  ∃ row, h.db.order? id = some row ∧ row.status = .COMPLETED

/-- The row of the order has the status. -/
def RowHas (h : Hub) (id : String) (status : OrderStatus) : Prop :=
  ∃ row, h.db.order? id = some row ∧ row.status = status

/-- The row of the invoice of an order. -/
structure InvoiceFor (order : Order) (invoice : Invoice) : Prop where
  orderId : invoice.orderId = order.id
  userId : invoice.userId = order.userId
  amount : invoice.amount = numeric order.totalAmount
  status : invoice.status = .PAID

/-- What the services report. -/
inductive Reports (h : Hub) : EventMessage → Prop where
  | updated {t : String} {order : Order} :
      h.Requested t order .ORDER_APPROVAL_STEP_UPDATE_ORDER_STATUS → 0 < order.totalAmount →
      h.RowCompleted order.id →
      Reports h (orderUpdated (requestOf t order .ORDER_APPROVAL_STEP_UPDATE_ORDER_STATUS))
  | generated {t : String} {order : Order} (invoice : Invoice) :
      h.Requested t order .ORDER_APPROVAL_STEP_INVOICE_GENERATE →
      Reports h (invoiceGenerated (requestOf t order .ORDER_APPROVAL_STEP_INVOICE_GENERATE)
        invoice)
  | notification (transactionId : String) (order : Order) (reason : String) (timestamp : Date) :
      Reports h (handleTransactionUserNotification transactionId order reason timestamp)

/-- All jobs are done at the request of a saga. -/
structure Approving (h : Hub) : Prop where
  cancels : ∀ order t, .cancel order t ∈ h.jobs → order.totalAmount ≤ 0
  finds : ∀ message target, .find message target ∈ h.jobs → ∃ t order,
    h.Requested t order .ORDER_APPROVAL_STEP_UPDATE_ORDER_STATUS ∧
    message = requestOf t order .ORDER_APPROVAL_STEP_UPDATE_ORDER_STATUS ∧
    target = targetOf order
  saves : ∀ message row, .save message row ∈ h.jobs → ∃ t order,
    h.Requested t order .ORDER_APPROVAL_STEP_UPDATE_ORDER_STATUS ∧
    message = requestOf t order .ORDER_APPROVAL_STEP_UPDATE_ORDER_STATUS ∧
    row.id = order.id ∧ row.status = targetOf order
  invoicing : ∀ message data, .invoice message data ∈ h.jobs → ∃ t order,
    h.Requested t order .ORDER_APPROVAL_STEP_INVOICE_GENERATE ∧
    message = requestOf t order .ORDER_APPROVAL_STEP_INVOICE_GENERATE ∧
    data = invoiceData order.id order.userId order.totalAmount
  invoiced : ∀ invoice ∈ h.db.invoices, ∃ t order,
    h.Requested t order .ORDER_APPROVAL_STEP_INVOICE_GENERATE ∧ InvoiceFor order invoice
  publishes : ∀ event, .publish event ∈ h.jobs → h.Reports event
  published : ∀ event ∈ h.db.published, h.Reports event

theorem Approving.initial : Approving initial where
  cancels := fun _ _ hmem => nomatch hmem
  finds := fun _ _ hmem => nomatch hmem
  saves := fun _ _ hmem => nomatch hmem
  invoicing := fun _ _ hmem => nomatch hmem
  invoiced := fun _ hmem => nomatch hmem
  publishes := fun _ hmem => nomatch hmem
  published := fun _ hmem => nomatch hmem

namespace Approving

/-- A row that has the status its saga asks for keeps it. -/
theorem target_moves (ha : Approving h) (hs : Sound h) (hm : h.Moves label h')
    (ho : order ∈ h.placed) (hr : h.RowHas order.id (targetOf order)) :
    h'.RowHas order.id (targetOf order) := by
  obtain ⟨row, hrow, hstatus⟩ := hr
  rcases hm.db_cases with ⟨hdb, -⟩ | ⟨job, choice, cluster, han⟩
  · exact ⟨row, hdb ▸ hrow, hstatus⟩
  · unfold RowHas
    rw [han.db, Job.order?_answer]
    split
    · rename_i saved hsaved
      split
      · rename_i hid
        refine ⟨_, rfl, ?_⟩
        cases job with
        | insert userId totalAmount =>
          cases hsaved
          have hnone := (coordinate_insert han.coordinated).2
          rw [show choice.uuid = order.id from hid.symm, hrow] at hnone
          cases hnone
        | cancel other t =>
          cases hsaved
          have hother := hs.consistent.jobs _ han.mem other rfl
          obtain rfl := hs.consistent.eq_of_id ho hother hid
          exact (if_pos (ha.cancels _ _ han.mem)).symm
        | save message other =>
          cases hsaved
          obtain ⟨t, placed, hreq, -, hid', htarget⟩ := ha.saves _ _ han.mem
          obtain rfl := hs.consistent.eq_of_id ho hreq.placed (hid.trans hid')
          exact htarget
        | _ => cases hsaved
      · exact ⟨row, hrow, hstatus⟩
    · exact ⟨row, hrow, hstatus⟩

/-- A completed row of an order with a positive amount stays completed. -/
theorem rowCompleted_moves (ha : Approving h) (hs : Sound h) (hm : h.Moves label h')
    (ho : order ∈ h.placed) (hpos : 0 < order.totalAmount) (hr : h.RowCompleted order.id) :
    h'.RowCompleted order.id := by
  have htarget : targetOf order = .COMPLETED := if_neg (not_le.mpr hpos)
  have hkept := ha.target_moves hs hm ho (by rw [htarget]; exact hr)
  rw [htarget] at hkept
  exact hkept

theorem reports_moves (ha : Approving h) (hs : Sound h) (hm : h.Moves label h')
    {event : EventMessage} (hr : h.Reports event) : h'.Reports event := by
  cases hr with
  | updated hreq hpos hrow =>
    exact .updated (hreq.moves hm) hpos (ha.rowCompleted_moves hs hm hreq.placed hpos hrow)
  | generated invoice hreq => exact .generated invoice (hreq.moves hm)
  | notification t order reason timestamp => exact .notification t order reason timestamp

/-- A forward command as the handlers read it. -/
theorem commandOf_requestOf (t : String) (order : Order) (subject : Subjects) :
    CommandOf order t (requestOf t order subject) :=
  commandOf_stepCommand order t subject.value

/-- What is found for a forward command is the row of its order. -/
theorem id_of_found {choice : Choice} {row : Order}
    (hf : h.db.findOne choice (Json.str? ((requestOf t order subject).lookup "orderId")) =
      some row) : row.id = order.id := by
  rw [(commandOf_requestOf t order subject).orderId] at hf
  exact Database.id_of_findOne hf

/-- What is looked for is the order of an update command. -/
theorem finds_moves (ha : Approving h) (hs : Sound h) (hu : Uncompensated h)
    (hm : h.Moves label h') {message : JsonObject} {target : OrderStatus}
    (hmem : .find message target ∈ h'.jobs) : ∃ t order,
      h'.Requested t order .ORDER_APPROVAL_STEP_UPDATE_ORDER_STATUS ∧
      message = requestOf t order .ORDER_APPROVAL_STEP_UPDATE_ORDER_STATUS ∧
      target = targetOf order := by
  cases hm.job_cases hmem with
  | stays hmem =>
    obtain ⟨t, order, hreq, hmessage, htarget⟩ := ha.finds message target hmem
    exact ⟨t, order, hreq.moves hm, hmessage, htarget⟩
  | update hc htarget =>
    obtain ⟨-, t, order, -, ⟨hreq, hmessage⟩ | ⟨-, p, hp, hpub⟩⟩ := hs.command hc (by decide)
    · refine ⟨t, order, hreq.moves hm, hmessage, ?_⟩
      rw [hmessage, (commandOf_requestOf t order _).updateTarget] at htarget
      exact (Option.some_inj.mp htarget).symm
    · exact absurd hpub (hu p hp)
  | answer _ hl => cases hl

/-- What is saved is the row that was found for it. -/
theorem saves_moves (ha : Approving h) (hm : h.Moves label h') {message : JsonObject} {row : Order}
    (hmem : .save message row ∈ h'.jobs) : ∃ t order,
      h'.Requested t order .ORDER_APPROVAL_STEP_UPDATE_ORDER_STATUS ∧
      message = requestOf t order .ORDER_APPROVAL_STEP_UPDATE_ORDER_STATUS ∧
      row.id = order.id ∧ row.status = targetOf order := by
  cases hm.job_cases hmem with
  | stays hmem =>
    obtain ⟨t, order, hreq, hmessage, hid, htarget⟩ := ha.saves message row hmem
    exact ⟨t, order, hreq.moves hm, hmessage, hid, htarget⟩
  | answer han hl =>
    cases hl with
    | save target hfound =>
      obtain ⟨t, order, hreq, rfl, rfl⟩ := ha.finds _ _ han.mem
      have hid := id_of_found hfound
      exact ⟨t, order, hreq.moves hm, rfl, hid, rfl⟩

/-- What is invoiced is the order of an invoice command. -/
theorem invoicing_moves (ha : Approving h) (hs : Sound h) (hu : Uncompensated h)
    (hm : h.Moves label h') {message : JsonObject} {data : InvoiceData}
    (hmem : .invoice message data ∈ h'.jobs) : ∃ t order,
      h'.Requested t order .ORDER_APPROVAL_STEP_INVOICE_GENERATE ∧
      message = requestOf t order .ORDER_APPROVAL_STEP_INVOICE_GENERATE ∧
      data = invoiceData order.id order.userId order.totalAmount := by
  cases hm.job_cases hmem with
  | stays hmem =>
    obtain ⟨t, order, hreq, hmessage, hdata⟩ := ha.invoicing message data hmem
    exact ⟨t, order, hreq.moves hm, hmessage, hdata⟩
  | generate hc hdata =>
    obtain ⟨-, t, order, -, ⟨hreq, hmessage⟩ | ⟨-, p, hp, hpub⟩⟩ := hs.command hc (by decide)
    · refine ⟨t, order, hreq.moves hm, hmessage, ?_⟩
      rw [hmessage, (commandOf_requestOf t order _).invoiceOf
        (hs.consistent.id_ne_empty hreq.placed)] at hdata
      split at hdata
      · cases hdata
      · exact (Option.some_inj.mp hdata).symm
    · exact absurd hpub (hu p hp)
  | answer _ hl => cases hl

theorem invoiced_moves (ha : Approving h) (hm : h.Moves label h') {invoice : Invoice}
    (hmem : invoice ∈ h'.db.invoices) : ∃ t order,
      h'.Requested t order .ORDER_APPROVAL_STEP_INVOICE_GENERATE ∧ InvoiceFor order invoice := by
  have hold : invoice ∈ h.db.invoices → ∃ t order,
      h'.Requested t order .ORDER_APPROVAL_STEP_INVOICE_GENERATE ∧ InvoiceFor order invoice := by
    intro hmem
    obtain ⟨t, order, hreq, hinvoice⟩ := ha.invoiced invoice hmem
    exact ⟨t, order, hreq.moves hm, hinvoice⟩
  rcases hm.db_cases with ⟨hdb, -⟩ | ⟨job, choice, cluster, han⟩
  · exact hold (hdb ▸ hmem)
  · rw [han.db] at hmem
    cases job with
    | invoice message data =>
      rcases List.mem_append.mp hmem with hmem | hmem
      · exact hold hmem
      · obtain ⟨t, order, hreq, -, rfl⟩ := ha.invoicing _ _ han.mem
        cases List.mem_singleton.mp hmem
        exact ⟨t, order, hreq.moves hm, rfl, rfl, rfl, rfl⟩
    | _ => exact hold hmem

/-- What a finished job announces is true. -/
theorem publishes_moves (ha : Approving h) (hs : Sound h) (hm : h.Moves label h')
    {event : EventMessage} (hmem : .publish event ∈ h'.jobs) : h'.Reports event := by
  cases hm.job_cases hmem with
  | stays hmem => exact ha.reports_moves hs hm (ha.publishes event hmem)
  | answer han hl =>
    cases hl with
    | notify order t => exact .notification _ _ _ _
    | updated row hpos =>
      obtain ⟨t, order, hreq, rfl, hid, htarget⟩ := ha.saves _ _ han.mem
      rw [(commandOf_requestOf t order _).failureReason, decide_eq_false_iff_not, not_le] at hpos
      refine .updated (hreq.moves hm) hpos ?_
      unfold RowCompleted
      rw [han.db, Job.order?_answer]
      simp only [Job.saved, hid, if_true]
      exact ⟨_, rfl, htarget.trans (if_neg (not_le.mpr hpos))⟩
    | generated message data =>
      obtain ⟨t, order, hreq, rfl, -⟩ := ha.invoicing _ _ han.mem
      exact .generated _ (hreq.moves hm)

theorem published_moves (ha : Approving h) (hs : Sound h) (hm : h.Moves label h')
    {event : EventMessage} (hmem : event ∈ h'.db.published) : h'.Reports event := by
  rcases hm.db_cases with ⟨hdb, -⟩ | ⟨job, choice, cluster, han⟩
  · exact ha.reports_moves hs hm (ha.published event (hdb ▸ hmem))
  · rw [han.db] at hmem
    rcases published_answer hmem with hmem | rfl
    · exact ha.reports_moves hs hm (ha.published event hmem)
    · exact ha.reports_moves hs hm (ha.publishes event han.mem)

/-- Nothing but requests of sagas is done, as long as no step is commanded in compensation. -/
theorem moves (ha : Approving h) (hs : Sound h) (hu : Uncompensated h) (hm : h.Moves label h') :
    Approving h' where
  cancels := by
    intro order t hmem
    cases hm.job_cases hmem with
    | stays hmem => exact ha.cancels order t hmem
    | answer _ hl =>
      cases hl with
      | cancel _ hle => exact hle
  finds := fun _ _ hmem => ha.finds_moves hs hu hm hmem
  saves := fun _ _ hmem => ha.saves_moves hm hmem
  invoicing := fun _ _ hmem => ha.invoicing_moves hs hu hm hmem
  invoiced := fun _ hmem => ha.invoiced_moves hm hmem
  publishes := fun _ hmem => ha.publishes_moves hs hm hmem
  published := fun _ hmem => ha.published_moves hs hm hmem

end Approving

/-! ## Reports -/

open Approving

theorem ofMessage_orderUpdated (message : JsonObject) :
    TransactionEvent.ofMessage (orderUpdated message).message =
      { transactionId := Json.str? (message.lookup "transactionId")
        processType := some ProcessType.ORDER_APPROVAL.value
        stepName := some Subjects.ORDER_APPROVAL_STEP_UPDATE_ORDER_STATUS.value } := by
  simp [TransactionEvent.ofMessage, orderUpdated, handleUpdateOrderStatusPublisher,
    JsonObject.lookup_put]

theorem ofMessage_invoiceGenerated (message : JsonObject) (invoice : Invoice) :
    TransactionEvent.ofMessage (invoiceGenerated message invoice).message =
      { transactionId := Json.str? (message.lookup "transactionId")
        processType := some ProcessType.ORDER_APPROVAL.value
        stepName := some Subjects.ORDER_APPROVAL_STEP_INVOICE_GENERATE.value } := by
  simp [TransactionEvent.ofMessage, invoiceGenerated, handleTransactionInvoiceGenerationPublisher,
    JsonObject.lookup_put]

/-- A step that is reported was requested; if it is the update, the row is completed. -/
theorem Approving.reported (ha : Approving h) (hs : Sound h) {event : TransactionEvent}
    (hsent : h.Sent .TRANSACTION_STEP_COMPLETED event) :
    ∃ t order subject, h.Requested t order subject ∧ event.transactionId = some t ∧
      event.stepName = some subject.value ∧
      (subject = .ORDER_APPROVAL_STEP_UPDATE_ORDER_STATUS →
        0 < order.totalAmount ∧ h.RowCompleted order.id) := by
  obtain ⟨source, index, message, hc, rfl⟩ := hsent
  obtain rfl := hs.of_services hc (by decide) (by decide)
  cases ha.published message (List.mem_of_getElem? hc.message) with
  | @updated t order hreq hpos hrow =>
    refine ⟨t, order, _, hreq, ?_, ?_, fun _ => ⟨hpos, hrow⟩⟩
    · rw [ofMessage_orderUpdated, (commandOf_requestOf t order _).transactionId]
      rfl
    · rw [ofMessage_orderUpdated]
  | @generated t order invoice hreq =>
    refine ⟨t, order, _, hreq, ?_, ?_, nofun⟩
    · rw [ofMessage_invoiceGenerated, (commandOf_requestOf t order _).transactionId]
      rfl
    · rw [ofMessage_invoiceGenerated]
  | notification _ _ _ _ =>
    have htopic : Subjects.TRANSACTION_USER_NOTIFICATION.value =
      Subjects.TRANSACTION_STEP_COMPLETED.value := hc.topic
    exact absurd htopic (by decide)

end Hub

end InvoiceHub
