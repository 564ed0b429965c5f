import InvoiceHub.Platform.Completion
import InvoiceHub.Transaction.Expiry
import Mathlib.Algebra.Order.BigOperators.Group.List

/-!
# What is never done for an order

Whatever is delivered again, late or to compensate, and whichever calls fail: an order that can be
approved is never cancelled, and an invoice is only made for such an order, after its row was
completed (`warranted_reachable`).  A compensation command names no order, so it can complete any
row, but it asks for no invoice and what it makes the services report is heard by no saga.
-/

namespace InvoiceHub

open Effects Transaction Services

namespace Hub

variable {h h' : Hub} {label : Platform.Label} {t : String} {order : Order}

/-! ## What warrants a job -/

/-- The message of a compensation command of the update step. -/
def compensationOf (t : String) (order : Order) : JsonObject :=
  (wrappedCommand t (sagaOptions order).payload
    Subjects.ORDER_APPROVAL_STEP_UPDATE_ORDER_STATUS.value).message

/-- A message makes the order service look for a row that is to get a status. -/
inductive Sought (h : Hub) : JsonObject → OrderStatus → Prop where
  | request {t : String} {order : Order} :
      h.Requested t order .ORDER_APPROVAL_STEP_UPDATE_ORDER_STATUS →
      Sought h (requestOf t order .ORDER_APPROVAL_STEP_UPDATE_ORDER_STATUS) (targetOf order)
  | compensation (t : String) (order : Order) : Sought h (compensationOf t order) .COMPLETED

/-- A message makes it save a row. -/
inductive Kept (h : Hub) : JsonObject → Order → Prop where
  | request {t : String} {order row : Order} :
      h.Requested t order .ORDER_APPROVAL_STEP_UPDATE_ORDER_STATUS → row.id = order.id →
      row.status = targetOf order →
      Kept h (requestOf t order .ORDER_APPROVAL_STEP_UPDATE_ORDER_STATUS) row
  | compensation (t : String) (order : Order) {row : Order} : row.status = .COMPLETED →
      Kept h (compensationOf t order) row

/-- What the services report, compensated steps included. -/
def Announces (h : Hub) (event : EventMessage) : Prop :=
  h.Reports event ∨ ∃ t order, event = orderUpdated (compensationOf t order)

theorem Sought.moves {message : JsonObject} {target : OrderStatus} (hs : h.Sought message target)
    (hm : h.Moves label h') : h'.Sought message target := by
  cases hs with
  | request hreq => exact .request (hreq.moves hm)
  | compensation t order => exact .compensation t order

theorem Kept.moves {message : JsonObject} {row : Order} (hk : h.Kept message row)
    (hm : h.Moves label h') : h'.Kept message row := by
  cases hk with
  | request hreq hid htarget => exact .request (hreq.moves hm) hid htarget
  | compensation t order hstatus => exact .compensation t order hstatus

/-- What is found for a message is saved for it. -/
theorem Sought.kept {message : JsonObject} {target : OrderStatus} (hs : h.Sought message target)
    {choice : Choice} {found : Order}
    (hf : h.db.findOne choice (Json.str? (message.lookup "orderId")) = some found) :
    h.Kept message { found with status := target } := by
  cases hs with
  | request hreq =>
    have hid := Approving.id_of_found hf
    exact .request hreq hid rfl
  | compensation t order => exact .compensation t order rfl

theorem transactionId_compensationOf (t : String) (order : Order) :
    (compensationOf t order).lookup "transactionId" = none :=
  lookup_wrappedCommand t _ _ (by decide) (by decide)

/-! ## The invariant -/

/-- Everything the services do and have done is warranted. -/
structure Warranted (h : Hub) : Prop where
  cancels : ∀ order t, .cancel order t ∈ h.jobs → order.totalAmount ≤ 0
  finds : ∀ message target, .find message target ∈ h.jobs → h.Sought message target
  saves : ∀ message row, .save message row ∈ h.jobs → h.Kept message row
  invoicing : ∀ message data, .invoice message data ∈ h.jobs → ∃ t order,
    h.Requested t order .ORDER_APPROVAL_STEP_INVOICE_GENERATE ∧
    message = requestOf t order .ORDER_APPROVAL_STEP_INVOICE_GENERATE ∧
    data = invoiceData order.id order.userId order.totalAmount
  invoiced : ∀ invoice ∈ h.db.invoices, ∃ t order,
    h.Requested t order .ORDER_APPROVAL_STEP_INVOICE_GENERATE ∧ InvoiceFor order invoice
  publishes : ∀ event, .publish event ∈ h.jobs → h.Announces event
  published : ∀ event ∈ h.db.published, h.Announces event
  rows : ∀ order ∈ h.placed, 0 < order.totalAmount → ∀ row, h.db.order? order.id = some row →
    row.status = .PENDING ∨ row.status = .COMPLETED

namespace Warranted

theorem initial : Warranted initial where
  cancels := fun _ _ hmem => nomatch hmem
  finds := fun _ _ hmem => nomatch hmem
  saves := fun _ _ hmem => nomatch hmem
  invoicing := fun _ _ hmem => nomatch hmem
  invoiced := fun _ hmem => nomatch hmem
  publishes := fun _ hmem => nomatch hmem
  published := fun _ hmem => nomatch hmem
  rows := fun _ hmem => nomatch hmem

/-! ## Rows -/

/-- The row of an order that can be approved is only ever saved as completed. -/
theorem saved_completed (hw : Warranted h) (hs : Sound h) {job : Job} {choice : Choice}
    {cluster : Cluster} {saved : Order} (ha : h.Answered h' job choice cluster)
    (hsaved : job.saved choice = some saved) (ho : order ∈ h.placed)
    (hpos : 0 < order.totalAmount) (hid : order.id = saved.id) : saved.status = .COMPLETED := by
  cases job with
  | insert userId totalAmount =>
    cases hsaved
    obtain ⟨row, hrow⟩ := hs.consistent.found order ho
    have hnone : h.db.order? choice.uuid = none := (coordinate_insert ha.coordinated).2
    rw [show choice.uuid = order.id from hid.symm, hrow] at hnone
    cases hnone
  | cancel other t =>
    cases hsaved
    have hother := hs.consistent.jobs _ ha.mem other rfl
    obtain rfl := hs.consistent.eq_of_id ho hother hid
    exact absurd (hw.cancels _ _ ha.mem) (not_le.mpr hpos)
  | save message row =>
    cases hsaved
    cases hw.saves _ _ ha.mem with
    | request hreq hid' htarget =>
      obtain rfl := hs.consistent.eq_of_id ho hreq.placed (hid.trans hid')
      exact htarget.trans (if_neg (not_le.mpr hpos))
    | compensation t order hstatus => exact hstatus
  | _ => cases hsaved

/-- Its row stays as it is or is completed. -/
theorem row_moves (hw : Warranted h) (hs : Sound h) (hm : h.Moves label h')
    (ho : order ∈ h.placed) (hpos : 0 < order.totalAmount) {row : Order}
    (hrow : h'.db.order? order.id = some row) :
    h.db.order? order.id = some row ∨ row.status = .COMPLETED := by
  rcases hm.db_cases with ⟨hdb, -⟩ | ⟨job, choice, cluster, ha⟩
  · exact .inl (hdb ▸ hrow)
  · rw [ha.db] at hrow
    rcases Job.row_cases hrow with hrow | ⟨saved, hsaved, hid, rfl⟩
    · exact .inl hrow
    · have hcompleted : saved.status = .COMPLETED :=
        hw.saved_completed hs ha hsaved ho hpos hid.symm
      exact .inr hcompleted

/-- Once completed it stays completed. -/
theorem rowCompleted_moves (hw : Warranted h) (hs : Sound h) (hm : h.Moves label h')
    (ho : order ∈ h.placed) (hpos : 0 < order.totalAmount) (hr : h.RowCompleted order.id) :
    h'.RowCompleted order.id := by
  obtain ⟨row, hrow, hstatus⟩ := hr
  obtain ⟨row', hrow'⟩ := (hs.moves hm).consistent.found order (hm.placed_mem ho)
  refine ⟨row', hrow', ?_⟩
  rcases hw.row_moves hs hm ho hpos hrow' with hold | hcompleted
  · rw [hrow] at hold
    cases hold
    exact hstatus
  · exact hcompleted

theorem rows_moves (hw : Warranted h) (hs : Sound h) (hm : h.Moves label h')
    (ho : order ∈ h'.placed) (hpos : 0 < order.totalAmount) {row : Order}
    (hrow : h'.db.order? order.id = some row) :
    row.status = .PENDING ∨ row.status = .COMPLETED := by
  rcases hm.placed_new ho with ho | ⟨userId, totalAmount, choice, cluster, ha, rfl⟩
  · rcases hw.row_moves hs hm ho hpos hrow with hold | hcompleted
    · exact hw.rows order ho hpos row hold
    · exact .inr hcompleted
  · rw [ha.db, Job.order?_answer] at hrow
    rw [← Option.some_inj.mp ((if_pos rfl).symm.trans hrow)]
    exact .inl rfl

/-! ## Jobs -/

theorem announces_moves (hw : Warranted h) (hs : Sound h) (hm : h.Moves label h')
    {event : EventMessage} (ha : h.Announces event) : h'.Announces event := by
  refine ha.imp_left fun hr => ?_
  cases hr with
  | updated hreq hpos hrow =>
    exact .updated (hreq.moves hm) hpos (hw.rowCompleted_moves hs hm hreq.placed hpos hrow)
  | generated invoice hreq => exact .generated invoice (hreq.moves hm)
  | notification t order reason timestamp => exact .notification t order reason timestamp

theorem finds_moves (hw : Warranted h) (hs : Sound h) (hm : h.Moves label h')
    {message : JsonObject} {target : OrderStatus} (hmem : .find message target ∈ h'.jobs) :
    h'.Sought message target := by
  cases hm.job_cases hmem with
  | stays hmem => exact (hw.finds message target hmem).moves hm
  | update hc htarget =>
    obtain ⟨-, t, order, -, ⟨hreq, hmessage⟩ | ⟨hevent, -⟩⟩ := hs.command hc (by decide)
    · rw [hmessage] at htarget ⊢
      rw [(Approving.commandOf_requestOf t order _).updateTarget] at htarget
      cases htarget
      exact .request (hreq.moves hm)
    · rw [hevent] at htarget ⊢
      rw [updateTarget_wrappedCommand] at htarget
      cases htarget
      exact .compensation t order
  | answer _ hl => cases hl

theorem saves_moves (hw : Warranted h) (hm : h.Moves label h') {message : JsonObject}
    {row : Order} (hmem : .save message row ∈ h'.jobs) : h'.Kept message row := by
  cases hm.job_cases hmem with
  | stays hmem => exact (hw.saves message row hmem).moves hm
  | answer ha hl =>
    cases hl with
    | save target hfound => exact ((hw.finds _ _ ha.mem).kept hfound).moves hm

/-- A compensation command asks for no invoice. -/
theorem invoicing_moves (hw : Warranted h) (hs : Sound h) (hm : h.Moves label h')
    {message : JsonObject} {data : InvoiceData} (hmem : .invoice message data ∈ h'.jobs) :
    ∃ t order, h'.Requested t order .ORDER_APPROVAL_STEP_INVOICE_GENERATE ∧
      message = requestOf t order .ORDER_APPROVAL_STEP_INVOICE_GENERATE ∧
      data = invoiceData order.id order.userId order.totalAmount := by
  cases hm.job_cases hmem with
  | stays hmem =>
    obtain ⟨t, order, hreq, hmessage, hdata⟩ := hw.invoicing message data hmem
    exact ⟨t, order, hreq.moves hm, hmessage, hdata⟩
  | generate hc hdata =>
    obtain ⟨-, t, order, -, ⟨hreq, hmessage⟩ | ⟨hevent, -⟩⟩ := hs.command hc (by decide)
    · refine ⟨t, order, hreq.moves hm, hmessage, ?_⟩
      rw [hmessage, (Approving.commandOf_requestOf t order _).invoiceOf
        (hs.consistent.id_ne_empty hreq.placed)] at hdata
      split at hdata
      · cases hdata
      · exact (Option.some_inj.mp hdata).symm
    · rw [hevent, invoiceOf_wrappedCommand] at hdata
      cases hdata
  | answer _ hl => cases hl

theorem invoiced_moves (hw : Warranted h) (hm : h.Moves label h') {invoice : Invoice}
    (hmem : invoice ∈ h'.db.invoices) : ∃ t order,
      h'.Requested t order .ORDER_APPROVAL_STEP_INVOICE_GENERATE ∧ InvoiceFor order invoice := by
  have hold : invoice ∈ h.db.invoices → ∃ t order,
      h'.Requested t order .ORDER_APPROVAL_STEP_INVOICE_GENERATE ∧ InvoiceFor order invoice := by
    intro hmem
    obtain ⟨t, order, hreq, hinvoice⟩ := hw.invoiced invoice hmem
    exact ⟨t, order, hreq.moves hm, hinvoice⟩
  rcases hm.db_cases with ⟨hdb, -⟩ | ⟨job, choice, cluster, ha⟩
  · exact hold (hdb ▸ hmem)
  · rw [ha.db] at hmem
    cases job with
    | invoice message data =>
      rcases List.mem_append.mp hmem with hmem | hmem
      · exact hold hmem
      · obtain ⟨t, order, hreq, -, rfl⟩ := hw.invoicing _ _ ha.mem
        cases List.mem_singleton.mp hmem
        exact ⟨t, order, hreq.moves hm, rfl, rfl, rfl, rfl⟩
    | _ => exact hold hmem

/-- A report names the saga that requested it, or none. -/
theorem publishes_moves (hw : Warranted h) (hs : Sound h) (hm : h.Moves label h')
    {event : EventMessage} (hmem : .publish event ∈ h'.jobs) : h'.Announces event := by
  cases hm.job_cases hmem with
  | stays hmem => exact hw.announces_moves hs hm (hw.publishes event hmem)
  | answer ha hl =>
    cases hl with
    | notify order t => exact .inl (.notification _ _ _ _)
    | updated row hreason =>
      cases hw.saves _ _ ha.mem with
      | @request t order _ hreq hid htarget =>
        rw [(Approving.commandOf_requestOf t order _).failureReason, decide_eq_false_iff_not,
          not_le] at hreason
        refine .inl (.updated (hreq.moves hm) hreason ?_)
        unfold RowCompleted
        rw [ha.db, Job.order?_answer]
        simp only [Job.saved, hid, if_true]
        exact ⟨_, rfl, htarget.trans (if_neg (not_le.mpr hreason))⟩
      | compensation t order _ => exact .inr ⟨t, order, rfl⟩
    | generated message data =>
      obtain ⟨t, order, hreq, rfl, -⟩ := hw.invoicing _ _ ha.mem
      exact .inl (.generated _ (hreq.moves hm))

theorem published_moves (hw : Warranted h) (hs : Sound h) (hm : h.Moves label h')
    {event : EventMessage} (hmem : event ∈ h'.db.published) : h'.Announces event := by
  rcases hm.db_cases with ⟨hdb, -⟩ | ⟨job, choice, cluster, ha⟩
  · exact hw.announces_moves hs hm (hw.published event (hdb ▸ hmem))
  · rw [ha.db] at hmem
    rcases published_answer hmem with hmem | rfl
    · exact hw.announces_moves hs hm (hw.published event hmem)
    · exact hw.announces_moves hs hm (hw.publishes event ha.mem)

theorem moves (hw : Warranted h) (hs : Sound h) (hm : h.Moves label h') : Warranted h' where
  cancels := by
    intro order t hmem
    cases hm.job_cases hmem with
    | stays hmem => exact hw.cancels order t hmem
    | answer _ hl =>
      cases hl with
      | cancel _ hle => exact hle
  finds := fun _ _ hmem => hw.finds_moves hs hm hmem
  saves := fun _ _ hmem => hw.saves_moves hm hmem
  invoicing := fun _ _ hmem => hw.invoicing_moves hs hm hmem
  invoiced := fun _ hmem => hw.invoiced_moves hm hmem
  publishes := fun _ hmem => hw.publishes_moves hs hm hmem
  published := fun _ hmem => hw.published_moves hs hm hmem
  rows := fun _ ho hpos _ hrow => hw.rows_moves hs hm ho hpos hrow

/-! ## Reports that are heard -/

/-- The update of a row is only heard of by the saga of its order, and it is true. -/
theorem updated (hw : Warranted h) (hs : Sound h) {subject : Subjects}
    (hr : h.Requested t order subject) {event : TransactionEvent}
    (hsent : h.Sent .TRANSACTION_STEP_COMPLETED event)
    (hkey : transactionKey event.transactionId = transactionKey (some t))
    (hname : event.stepName = some Subjects.ORDER_APPROVAL_STEP_UPDATE_ORDER_STATUS.value) :
    0 < order.totalAmount ∧ h.RowCompleted order.id := by
  obtain ⟨source, index, message, hc, rfl⟩ := hsent
  obtain rfl := hs.of_services hc (by decide) (by decide)
  rcases hw.published message (List.mem_of_getElem? hc.message) with hreports | ⟨u, other, rfl⟩
  · cases hreports with
    | @updated u order' hreq hpos hrow =>
      rw [ofMessage_orderUpdated, (Approving.commandOf_requestOf u order' _).transactionId] at hkey
      obtain rfl : u = t := transactionKey_some_inj.mp hkey
      obtain rfl := hs.eq_of_created hr.placed hreq.placed hr.created hreq.created
      exact ⟨hpos, hrow⟩
    | generated invoice _ =>
      rw [ofMessage_invoiceGenerated] at hname
      exact absurd (Option.some_inj.mp hname) (by decide)
    | notification _ _ _ _ =>
      have htopic : Subjects.TRANSACTION_USER_NOTIFICATION.value =
        Subjects.TRANSACTION_STEP_COMPLETED.value := hc.topic
      exact absurd htopic (by decide)
  · obtain ⟨hu, -⟩ := hs.consistent.started t _ hr.created
    rw [ofMessage_orderUpdated, transactionId_compensationOf] at hkey
    cases Platform.eq_some_of_transactionKey hu hkey

/-- An invoice is only asked for once the row is completed. -/
theorem completed_of_requested (hw : Warranted h) (hs : Sound h)
    (hr : h.Requested t order .ORDER_APPROVAL_STEP_INVOICE_GENERATE) :
    0 < order.totalAmount ∧ h.RowCompleted order.id := by
  obtain ⟨p, hp, hpub, hkey, hevent⟩ := hr.published
  obtain ⟨u, options, i, step, hC, hstep, hkey', hcase⟩ :=
    presupposes_reachable (Expiring.of_cluster hs.order) hp (.inl hpub)
  obtain rfl : u = t := transactionKey_some_inj.mp (hkey'.symm.trans hkey)
  rcases hcase with ⟨-, hcommand, hbelow⟩ | ⟨hother, -⟩
  · have hname : step.1 = Subjects.ORDER_APPROVAL_STEP_INVOICE_GENERATE.value :=
      congrArg EventMessage.topicName (hcommand.symm.trans hevent)
    rw [hs.consistent.steps hC] at hstep hbelow
    -- the step is the second one, so the first was reported
    have hi : 0 < i := by
      rcases Nat.eq_zero_or_pos i with rfl | hi
      · cases hstep
        exact absurd hname (by decide)
      · exact hi
    obtain ⟨event, hreceived, hek, hen⟩ := hbelow 0 hi _ rfl
    exact hw.updated hs hr (hs.relayed.order _ event hreceived) hek hen
  · rw [hpub] at hother
    cases hother

/-- Whoever is invoiced has a completed order. -/
theorem invoiced_completed (hw : Warranted h) (hs : Sound h) :
    ∀ invoice ∈ h.db.invoices, ∃ order ∈ h.placed, InvoiceFor order invoice ∧
      0 < order.totalAmount ∧ ∃ row, h.db.order? order.id = some row ∧ RowOf order row ∧
        row.status = .COMPLETED := by
  intro invoice hmem
  obtain ⟨t, order, hreq, hinvoice⟩ := hw.invoiced invoice hmem
  obtain ⟨hpos, row, hrow, hstatus⟩ := hw.completed_of_requested hs hreq
  exact ⟨order, hreq.placed, hinvoice, hpos, row, hrow, hs.rowOf hreq.placed hrow, hstatus⟩

end Warranted

/-- Everything is warranted in every run. -/
theorem warranted_reachable {policy : Platform.Policy} {s : Platform}
    (hs : Platform.Reachable policy s) : ∃ h : Hub, s = h.toPlatform ∧ Sound h ∧ Warranted h :=
  induction ⟨.initial, .initial⟩
    (fun _ _ _ _ ⟨hs, hw⟩ _ hm => ⟨hs.moves hm, hw.moves hs hm⟩) hs

end Hub

/-! ## Runs of the platform -/

/-- Whatever happens to the messages, the calls and the processes: an invoice belongs to an order
with a positive amount whose row is completed, names its user and has its amount. -/
theorem invoiced_orders_completed {policy : Platform.Policy} {s : Platform}
    (hs : Platform.Reachable policy s) :
    ∀ invoice ∈ s.services.world.invoices, ∃ order ∈ s.placed,
      Hub.InvoiceFor order invoice ∧ 0 < order.totalAmount ∧
      ∃ row, s.services.world.order? order.id = some row ∧ Hub.RowOf order row ∧
        row.status = .COMPLETED := by
  obtain ⟨h, rfl, hsound, hw⟩ := Hub.warranted_reachable hs
  exact hw.invoiced_completed hsound

theorem invoiced_orders_commandRedelivered :
    ∃ s, Platform.run (fun _ _ => true) commandRedelivered = some s ∧
      s.services.world.invoices ≠ [] ∧
      ∀ invoice ∈ s.services.world.invoices, ∃ order ∈ s.placed,
        Hub.InvoiceFor order invoice ∧ 0 < order.totalAmount ∧
        ∃ row, s.services.world.order? order.id = some row ∧ Hub.RowOf order row ∧
          row.status = .COMPLETED := by
  have hrun : (Platform.run (fun _ _ => true) commandRedelivered).any (fun s =>
      !s.services.world.invoices.isEmpty) = true := by decide +kernel
  obtain ⟨s, hs, hinvoices⟩ := (Option.any_eq_true _ _).mp hrun
  exact ⟨s, hs, by simpa using hinvoices,
    invoiced_orders_completed (Machine.run_steps commandRedelivered hs)⟩

/-- The row of an order with a positive amount keeps its user and its amount, is pending or
completed, and once completed stays so. -/
theorem approvable_rows_advance {policy : Platform.Policy} {s s' : Platform}
    (hs : Platform.Reachable policy s)
    (hlater : Relation.ReflTransGen (Platform.machine.Step policy) s s') :
    ∀ order ∈ s.placed, 0 < order.totalAmount →
      ∃ row row', s.services.world.order? order.id = some row ∧
        s'.services.world.order? order.id = some row' ∧
        Hub.RowOf order row ∧ Hub.RowOf order row' ∧
        (row.status = .PENDING ∨ row.status = .COMPLETED) ∧
        (row'.status = row.status ∨ row'.status = .COMPLETED) := by
  obtain ⟨h, rfl, hsound, hw⟩ := Hub.warranted_reachable hs
  intro order ho hpos
  obtain ⟨row, hrow⟩ := hsound.consistent.found order ho
  have hlast : ∃ h' : Hub, s' = h'.toPlatform ∧ h'.Sound ∧ h'.Warranted ∧ order ∈ h'.placed ∧
      ∃ row', h'.db.order? order.id = some row' ∧
        (row'.status = row.status ∨ row'.status = .COMPLETED) := by
    clear hs
    induction hlater with
    | refl => exact ⟨h, rfl, hsound, hw, ho, row, hrow, .inl rfl⟩
    | tail _ hst ih =>
      obtain ⟨label, -, hf⟩ := hst
      obtain ⟨h₁, rfl, hs₁, hw₁, ho₁, row₁, hrow₁, hstatus₁⟩ := ih
      obtain ⟨h₂, hm, rfl⟩ := Hub.moves_of_fire hf
      obtain ⟨row₂, hrow₂⟩ := (hs₁.moves hm).consistent.found order (hm.placed_mem ho₁)
      refine ⟨h₂, rfl, hs₁.moves hm, hw₁.moves hs₁ hm, hm.placed_mem ho₁, row₂, hrow₂, ?_⟩
      rcases hw₁.row_moves hs₁ hm ho₁ hpos hrow₂ with hold | hcompleted
      · rw [hrow₁] at hold
        cases hold
        exact hstatus₁
      · exact .inr hcompleted
  obtain ⟨h', rfl, hsound', -, ho', row', hrow', hstatus⟩ := hlast
  exact ⟨row, row', hrow, hrow', hsound.rowOf ho hrow, hsound'.rowOf ho' hrow',
    hw.rows order ho hpos row hrow, hstatus⟩

/-- The order `a` is placed, then completed and compensated. -/
theorem approvable_rows_compensatedOrder :
    ∃ s s', Platform.run (fun _ _ => true) (compensatedOrder.take 2) = some s ∧
      Platform.machine.run (fun _ _ => true) s (compensatedOrder.drop 2) = some s' ∧
      s.placed ≠ [] ∧
      ∀ order ∈ s.placed, 0 < order.totalAmount →
        ∃ row row', s.services.world.order? order.id = some row ∧
          s'.services.world.order? order.id = some row' ∧
          Hub.RowOf order row ∧ Hub.RowOf order row' ∧
          (row.status = .PENDING ∨ row.status = .COMPLETED) ∧
          (row'.status = row.status ∨ row'.status = .COMPLETED) := by
  have hrun : (Platform.run (fun _ _ => true) (compensatedOrder.take 2)).any (fun s =>
      !s.placed.isEmpty && (Platform.machine.run (fun _ _ => true) s
        (compensatedOrder.drop 2)).isSome) = true := by decide +kernel
  obtain ⟨s, hs, hrest⟩ := (Option.any_eq_true _ _).mp hrun
  obtain ⟨hplaced, hsome⟩ := Bool.and_eq_true_iff.mp hrest
  obtain ⟨s', hs'⟩ := Option.isSome_iff_exists.mp hsome
  exact ⟨s, s', hs, hs', by simpa using hplaced,
    approvable_rows_advance (Machine.run_steps _ hs) (Machine.run_steps _ hs')⟩

/-! ## The books -/

/-- A sum over elements of distinct keys, each below that of another list with the same key. -/
theorem sum_le_sum_of_keys {α β κ M : Type} [DecidableEq β] [AddCommMonoid M] [PartialOrder M]
    [IsOrderedAddMonoid M] (key : α → κ) (key' : β → κ) (f : α → M) (g : β → M) (as : List α) :
    ∀ bs : List β, (as.map key).Nodup → (∀ b ∈ bs, 0 ≤ g b) →
      (∀ a ∈ as, ∃ b ∈ bs, key' b = key a ∧ f a ≤ g b) →
      (as.map f).sum ≤ (bs.map g).sum := by
  induction as with
  | nil =>
    intro bs _ hpos _
    exact List.sum_nonneg (by simpa using hpos)
  | cons a as ih =>
    intro bs hnodup hpos hkeys
    obtain ⟨hnew, hnodup⟩ := List.nodup_cons.mp hnodup
    obtain ⟨b, hb, hkey, hle⟩ := hkeys a List.mem_cons_self
    have hrest : (as.map f).sum ≤ ((bs.erase b).map g).sum := by
      refine ih _ hnodup (fun c hc => hpos c (List.mem_of_mem_erase hc)) fun a' ha' => ?_
      obtain ⟨c, hc, hkey', hle'⟩ := hkeys a' (List.mem_cons_of_mem _ ha')
      refine ⟨c, (List.mem_erase_of_ne ?_).mpr hc, hkey', hle'⟩
      rintro rfl
      exact hnew (List.mem_map.mpr ⟨a', ha', hkey'.symm.trans hkey⟩)
    calc ((a :: as).map f).sum = f a + (as.map f).sum := List.sum_cons
      _ ≤ g b + ((bs.erase b).map g).sum := add_le_add hle hrest
      _ = ((b :: bs.erase b).map g).sum := List.sum_cons.symm
      _ = (bs.map g).sum := ((List.perm_cons_erase hb).map g).sum_eq.symm

/-- The rows of `orders`. -/
def Services.Database.rows (db : Database) : List Order :=
  db.orders.entries.map fun entry => { entry.2 with id := entry.1 }

theorem mem_rows {db : Database} {id : String} {row : Order} (h : db.order? id = some row) :
    row ∈ db.rows := by
  obtain ⟨data, hdata, rfl⟩ := Option.map_eq_some_iff.mp h
  exact List.mem_map.mpr ⟨⟨id, data⟩, AList.mem_lookup_iff.mp hdata, rfl⟩

theorem numeric_nonneg {q : Rat} (h : 0 ≤ q) : 0 ≤ numeric q := by
  unfold numeric
  rw [if_pos h]
  have hfloor : (0 : Int) ≤ ⌊q * 100 + 1 / 2⌋ := Int.floor_nonneg.mpr (by positivity)
  positivity

/-- The rows of a user that are completed and owe something. -/
def completedOf (db : Database) (userId : String) : List Order :=
  db.rows.filter fun row => row.userId = userId ∧ row.status = .COMPLETED ∧ 0 ≤ row.totalAmount

end InvoiceHub
