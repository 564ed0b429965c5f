import InvoiceHub.Platform.Approval
import InvoiceHub.Transaction.Causes
import InvoiceHub.Transaction.Passive
import InvoiceHub.Transaction.Shape

/-!
# When compensation undoes the saga

Nothing undoes a completed row or an invoice: compensation commands name no order.  So a
compensated transaction leaves neither behind only where it has timed out before its row was
completed.  In the runs in which no timed out transaction has its row completed, this is so
in every state (`timely_reachable`, `Timely.timedOut_of_compensated`).
-/

namespace InvoiceHub

open Effects Transaction Services

/-! ## Runs without late completions -/

namespace Platform

/-- A transaction of the order has been marked as timed out. -/
def timedOut (s : Platform) (orderId : String) : Bool :=
  s.order.world.history.any fun
    | .stored _ value => decide (value.status = .TIMED_OUT) && orderIdOf value.payload == some orderId
    | _ => false

/-- The row of the order is completed. -/
def rowCompleted (s : Platform) (orderId : Option String) : Bool :=
  (orderId.bind s.services.world.order?).any fun row => decide (row.status = .COMPLETED)

end Platform

/-- No transaction is marked as timed out whose row is completed, no row is completed whose
transaction is marked as timed out, and `TRANSACTION_COMPLETED` finds completed transactions. -/
def timelyPolicy : Platform.Policy := fun s label =>
  match label with
  | .order l => fulfilledPolicy s.order l &&
    match l with
    | .advance j _ =>
      match s.order.tasks[j]? with
      | some ⟨_, .call (.set _ value) _ _⟩ =>
        decide (value.status ≠ .TIMED_OUT) || !s.rowCompleted (orderIdOf value.payload)
      | _ => true
    | _ => true
  | .advance j _ =>
    match s.services.tasks[j]? with
    | some ⟨_, .call (.saveOrder order) _ _⟩ =>
      decide (order.status ≠ .COMPLETED) || !s.timedOut order.id
    | _ => true
  | _ => true

namespace Hub

variable {h h' : Hub} {label : Platform.Label} {t : String} {order : Order}

/-! ## Who has announced what -/

/-- The coordinator of the invoice service has no records with steps. -/
theorem Sound.invoice_steps (hs : Sound h) {key : String} {value : SerializedTransaction}
    (hv : h.invoice.world.redis.lookup key = some value) : value.steps = [] :=
  passive_steps (fun _ _ hl => hl) hs.invoice hv

/-- It announces the start of no compensation. -/
theorem Sound.invoice_not_started (hs : Sound h) {p : Publication}
    (hp : .published p ∈ h.invoice.world.history) : p.publisher ≠ .handleStartCompensation := by
  intro hpub
  rcases (stemming_reachable hs.invoice fun _ _ hmem => hmem).2 p hp with
    ⟨r, id, hr, -, ha, -⟩ | ⟨r, -, hm, -⟩
  · cases ha with
    | compensationStart step hstep =>
      obtain ⟨t, options, hC, -⟩ := hr.2 _ rfl (Founded.ne_nil_of_getElem? hstep)
      exact passive_not_created (fun _ _ hl => hl) hs.invoice t options hC
    | _ => cases hpub
  · cases hm <;> cases hpub

theorem unreserved_orderSteps : (orderSteps.all fun step => !ownTopic step.1) = true := by decide

/-- What the order service publishes on a topic of the coordinator's own, the method of that topic
publishes for the transaction that is named. -/
theorem Sound.own_order (hs : Sound h) {subject : Subjects} {method : Publisher}
    (hm : ownMethod subject = some method) {p : Publication}
    (hp : .published p ∈ h.order.world.history) (ht : p.event.topicName = subject.value) :
    p.publisher = method ∧
      transactionKey (TransactionEvent.ofMessage p.event.message).transactionId =
        transactionKey p.transactionId := by
  have hreported := (unreserved_reachable (fun s options t date hl => by
    rw [of_decide_eq_true (p := options.steps = orderSteps) hl]
    exact unreserved_orderSteps) hs.order).2 p hp
  exact own_of_reported hm hreported ht

/-- So does the invoice service. -/
theorem Sound.own_invoice (hs : Sound h) {subject : Subjects} {method : Publisher}
    (hm : ownMethod subject = some method) {p : Publication}
    (hp : .published p ∈ h.invoice.world.history) (ht : p.event.topicName = subject.value) :
    p.publisher = method ∧
      transactionKey (TransactionEvent.ofMessage p.event.message).transactionId =
        transactionKey p.transactionId := by
  have hreported := (unreserved_reachable (fun _ _ _ _ hl => absurd hl Bool.false_ne_true)
    hs.invoice).2 p hp
  exact own_of_reported hm hreported ht

/-- An announcement was made by the method of its topic, for the transaction it names. -/
theorem Sound.own_sent (hs : Sound h) {subject : Subjects} {event : TransactionEvent}
    (hsent : h.Sent subject event) {method : Publisher} (hm : ownMethod subject = some method) :
    ∃ p, (.published p ∈ h.order.world.history ∨ .published p ∈ h.invoice.world.history) ∧
      p.publisher = method ∧
      transactionKey event.transactionId = transactionKey p.transactionId := by
  obtain ⟨source, index, message, ⟨hget, ht⟩, rfl⟩ := hsent
  have hmem := List.mem_of_getElem? hget
  cases source with
  | orderCoordinator =>
    obtain ⟨p, hp, rfl⟩ := mem_messages hmem
    obtain ⟨hpub, hkey⟩ := hs.own_order hm hp ht
    exact ⟨p, .inl hp, hpub, hkey⟩
  | invoiceCoordinator =>
    obtain ⟨p, hp, rfl⟩ := mem_messages hmem
    obtain ⟨hpub, hkey⟩ := hs.own_invoice hm hp ht
    exact ⟨p, .inr hp, hpub, hkey⟩
  | services =>
    rcases hs.services.subject_cases hmem ht with rfl | rfl
    · cases hm
    · cases hm

/-- A saga is that of one order. -/
theorem Sound.eq_of_created (hs : Sound h) {order' : Order} (ho : order ∈ h.placed)
    (ho' : order' ∈ h.placed) (hc : .created t (sagaOptions order) ∈ h.order.world.history)
    (hc' : .created t (sagaOptions order') ∈ h.order.world.history) : order = order' := by
  have hids := congrArg orderIdOf (payload_eq_of_created hs.order hc hc')
  rw [orderIdOf_sagaPayload, orderIdOf_sagaPayload, Option.some_inj] at hids
  exact hs.consistent.eq_of_id ho ho' hids

/-! ## What a step can complete and time out -/

/-- `TRANSACTION_COMPLETED` finds no record with steps in the invoice service. -/
theorem Sound.invoice_fulfilled (hs : Sound h) {l : Cluster.Label}
    (hi : Platform.internal l = true) : fulfilledPolicy h.invoice l = true := by
  cases l with
  | start options t date => cases hi
  | advance j date =>
    simp only [fulfilledPolicy]
    split
    · rename_i key ok err _
      cases hv : h.invoice.world.redis.lookup key with
      | none => rfl
      | some value => simp [Fulfilled, hs.invoice_steps hv]
    · rfl
  | _ => rfl

/-- A transaction is marked as timed out by a write of its coordinator. -/
theorem Moves.timedOut_cases (hm : h.Moves label h') {id : String}
    (ht : h'.toPlatform.timedOut id = true) :
    h.toPlatform.timedOut id = true ∨ ∃ j date activity key value ok err,
      label = .order (.advance j date) ∧
      h.order.tasks[j]? = some ⟨activity, .call (.set key value) ok err⟩ ∧
      value.status = .TIMED_OUT ∧ orderIdOf value.payload = some id := by
  obtain ⟨entry, hmem, he⟩ := List.any_eq_true.mp ht
  have hmem : entry ∈ h'.order.world.history := hmem
  rcases hm.order_cases with heq | ⟨l, hl, hf⟩
  · rw [heq] at hmem
    exact .inl (List.any_eq_true.mpr ⟨entry, hmem, he⟩)
  · obtain ⟨added, hh, ha⟩ := Cluster.history_fire hf
    rw [hh, List.mem_append] at hmem
    rcases hmem with hmem | hmem
    · exact .inl (List.any_eq_true.mpr ⟨entry, hmem, he⟩)
    · cases ha _ hmem with
      | stored hj =>
        simp only [Bool.and_eq_true, decide_eq_true_eq, beq_iff_eq] at he
        cases hl with
        | internal _ => exact .inr ⟨_, _, _, _, _, _, _, rfl, hj, he⟩
      | first options t date =>
        simp [newTransaction, DistributedTransaction.serialize] at he
      | _ => cases he

/-- A row is completed by a service that saves it. -/
theorem Moves.rowCompleted_cases (hm : h.Moves label h') {id : String}
    (hr : h'.RowCompleted id) :
    h.RowCompleted id ∨ ∃ message order before after choice,
      label = .advance before.length choice ∧ h.jobs = before ++ .save message order :: after ∧
      order.id = id ∧ order.status = .COMPLETED := by
  obtain ⟨row, hrow, hstatus⟩ := hr
  cases hm with
  | @answer before after job choice cluster hjobs hc =>
    rcases Job.row_cases hrow with hrow | ⟨order, hs, rfl, rfl⟩
    · exact .inl ⟨row, hrow, hstatus⟩
    · cases job with
      | save message saved =>
        cases hs
        exact .inr ⟨message, order, before, after, choice, rfl, hjobs, rfl, hstatus⟩
      | insert userId totalAmount =>
        cases hs
        cases hstatus
      | cancel saved t =>
        cases hs
        cases hstatus
      | _ => cases hs
  | _ => exact .inl ⟨row, hrow, hstatus⟩

/-! ## The invariant -/

/-- No timed out transaction has its row completed, and all that is done is requested. -/
structure Timely (h : Hub) : Prop where
  sound : Sound h
  approving : Approving h
  order : Cluster.Reachable fulfilledPolicy h.order
  invoice : Cluster.Reachable fulfilledPolicy h.invoice
  exclusive : ∀ id, h.toPlatform.timedOut id = true → ¬h.RowCompleted id

namespace Timely

theorem initial : Timely initial where
  sound := .initial
  approving := .initial
  order := .refl
  invoice := .refl
  exclusive := fun _ ht => nomatch ht

/-- The start of a compensation presupposes a timeout. -/
theorem timedOut_of_start (ht : Timely h) {event : TransactionEvent}
    (hsent : h.Sent .TRANSACTION_COMPENSATION_START event) :
    ∃ value, .stored (transactionKey event.transactionId) value ∈ h.order.world.history ∧
      value.status = .TIMED_OUT := by
  obtain ⟨p, hp | hp, hpub, hkey⟩ := ht.sound.own_sent hsent rfl
  · have hg := grounded_of_reported (founded_reachable (fun _ _ hl => hl) ht.order
      fun _ hmem => hmem).2.1 hp
    rw [hpub] at hg
    rcases hg with ⟨value, hv, hstatus⟩ | ⟨event', ha⟩
    · exact ⟨value, hkey ▸ hv, hstatus⟩
    · obtain ⟨source, index, message, hc, -⟩ := ht.sound.relayed.order _ _ ha.received
      exact absurd hc ht.sound.not_failed
  · exact absurd hpub (ht.sound.invoice_not_started hp)

/-- So does its end. -/
theorem timedOut_of_completed (ht : Timely h) {event : TransactionEvent}
    (hsent : h.Sent .TRANSACTION_COMPENSATION_COMPLETED event) :
    ∃ value, .stored (transactionKey event.transactionId) value ∈ h.order.world.history ∧
      value.status = .TIMED_OUT := by
  obtain ⟨p, hp | hp, hpub, hkey⟩ := ht.sound.own_sent hsent rfl
  · have hg := grounded_of_reported (founded_reachable (fun _ _ hl => hl) ht.order
      fun _ hmem => hmem).2.1 hp
    rw [hpub] at hg
    obtain ⟨event', ha⟩ := hg
    rw [hkey, ← ha.key]
    exact ht.timedOut_of_start (ht.sound.relayed.order _ _ ha.received)
  · have hg := grounded_of_reported (founded_reachable (fun _ _ hl => hl) ht.invoice
      fun _ hmem => hmem).2.1 hp
    rw [hpub] at hg
    obtain ⟨event', ha⟩ := hg
    rw [hkey, ← ha.key]
    exact ht.timedOut_of_start (ht.sound.relayed.invoice _ _ ha.received)

/-- The record that is marked as timed out names the order of its transaction. -/
theorem timedOut_of_stored (ht : Timely h) {value : SerializedTransaction}
    (hc : .created t (sagaOptions order) ∈ h.order.world.history)
    (hv : .stored (transactionKey (some t)) value ∈ h.order.world.history)
    (hstatus : value.status = .TIMED_OUT) : h.toPlatform.timedOut order.id = true := by
  obtain ⟨⟨hkeyed, hstems⟩, hfounded⟩ := (founded_reachable (fun _ _ hl => hl) ht.order
    fun _ hmem => hmem).2.2 _ _ hv
  have hne : value.steps ≠ [] := by
    intro hnil
    rcases (hfounded value rfl).invented hnil with hs | hs | hs <;> rw [hstatus] at hs <;> cases hs
  obtain ⟨u, options, hu, hid, hpayload, -⟩ := hstems value rfl hne
  have hkey := (hfounded value rfl).keyed
  rw [hid, transactionKey_some_inj] at hkey
  subst hkey
  refine List.any_eq_true.mpr ⟨_, hv, ?_⟩
  have horder : orderIdOf value.payload = some order.id := by
    rw [hpayload, payload_eq_of_created ht.order hu hc]
    exact orderIdOf_sagaPayload order
  simp [hstatus, horder]

/-- A transaction of which the first step has been reported is not timed out. -/
theorem not_timedOut_of_reported (ht : Timely h) {event : TransactionEvent}
    (hsent : h.Sent .TRANSACTION_STEP_COMPLETED event)
    (hkey : transactionKey event.transactionId = transactionKey (some t))
    (hname : event.stepName = some Subjects.ORDER_APPROVAL_STEP_UPDATE_ORDER_STATUS.value)
    {value : SerializedTransaction}
    (hv : .stored (transactionKey (some t)) value ∈ h.order.world.history) :
    value.status ≠ .TIMED_OUT := by
  intro hstatus
  obtain ⟨u, order, subject, hreq, hid, hsubject, hrow⟩ := ht.approving.reported ht.sound hsent
  rw [hid, transactionKey_some_inj] at hkey
  subst hkey
  rw [hname, Option.some_inj] at hsubject
  obtain ⟨-, hrow⟩ := hrow (Subjects.value_injective hsubject).symm
  exact ht.exclusive order.id (ht.timedOut_of_stored hreq.created hv hstatus) hrow

/-- The first step of every saga is the update of the order. -/
theorem first_step (ht : Timely h) {options : TransactionOptions} {first : String × ClientIds}
    (hc : .created t options ∈ h.order.world.history) (hfirst : options.steps[0]? = some first) :
    first.1 = Subjects.ORDER_APPROVAL_STEP_UPDATE_ORDER_STATUS.value := by
  rw [ht.sound.consistent.steps hc] at hfirst
  cases hfirst
  rfl

/-- No step is commanded in compensation. -/
theorem uncompensated (ht : Timely h) : Uncompensated h := by
  intro p hp hpub
  have hg := grounded_of_reported (founded_reachable (fun _ _ hl => hl) ht.order
    fun _ hmem => hmem).2.1 hp
  rw [hpub] at hg
  obtain ⟨started, hstarted⟩ := hg
  obtain ⟨value, hv, hstatus⟩ :=
    ht.timedOut_of_start (ht.sound.relayed.order _ _ hstarted.received)
  obtain ⟨t, options, first, hc, hkey, hfirst, ⟨hforward, -⟩ | ⟨event, hreceived, hevent, hname⟩⟩ :=
    command_cause (fun _ _ hl => hl) ht.order hp (.inr hpub)
  · rw [hpub] at hforward
    cases hforward
  · rw [hstarted.key, hkey] at hv
    rw [ht.first_step hc hfirst] at hname
    exact ht.not_timedOut_of_reported (ht.sound.relayed.order _ _ hreceived) hevent hname hv
      hstatus

/-- Where there is an invoice the row is completed. -/
theorem rowCompleted_of_invoice (ht : Timely h) {invoice : Invoice}
    (hi : invoice ∈ h.db.invoices) : h.RowCompleted invoice.orderId := by
  obtain ⟨t, order, hreq, hinvoice⟩ := ht.approving.invoiced invoice hi
  obtain ⟨p, hp, hpub, hkey, hevent⟩ := hreq.published
  obtain ⟨u, options, first, hc, hkey', hfirst, ⟨-, htopic⟩ | ⟨event, hreceived, hevent', hname⟩⟩ :=
    command_cause (fun _ _ hl => hl) ht.order hp (.inl hpub)
  · rw [ht.first_step hc hfirst, hevent] at htopic
    have htopic : Subjects.ORDER_APPROVAL_STEP_INVOICE_GENERATE.value =
      Subjects.ORDER_APPROVAL_STEP_UPDATE_ORDER_STATUS.value := htopic
    exact absurd htopic (by decide)
  · rw [ht.first_step hc hfirst] at hname
    rw [hkey, transactionKey_some_inj] at hkey'
    subst hkey'
    obtain ⟨u, order', subject, hreq', hid, hsubject, hrow⟩ :=
      ht.approving.reported ht.sound (ht.sound.relayed.order _ _ hreceived)
    rw [hid, transactionKey_some_inj] at hevent'
    subst hevent'
    rw [hname, Option.some_inj] at hsubject
    obtain ⟨-, hrow⟩ := hrow (Subjects.value_injective hsubject).symm
    obtain rfl := ht.sound.eq_of_created hreq.placed hreq'.placed hreq.created hreq'.created
    rw [hinvoice.orderId]
    exact hrow

theorem moves (ht : Timely h) (hm : h.Moves label h')
    (hp : timelyPolicy h.toPlatform label = true) : Timely h' where
  sound := ht.sound.moves hm
  approving := ht.approving.moves ht.sound ht.uncompensated hm
  order := by
    refine hm.order_reachable ht.order fun l hl => ?_
    cases hl with
    | start choice hjobs hu =>
      simp only [fulfilledPolicy, steps_sagaOptions]
      decide
    | receive hc htopic => rfl
    | internal hi => exact (Bool.and_eq_true_iff.mp hp).1
  invoice := by
    refine hm.invoice_reachable ht.invoice fun l hl => ?_
    cases hl with
    | receive hc htopic => rfl
    | internal hi => exact ht.sound.invoice_fulfilled hi
  exclusive := by
    intro id hout hrow
    rcases hm.timedOut_cases hout with hold | ⟨j, date, activity, key, value, ok, err, rfl, hj, hv⟩
    · rcases hm.rowCompleted_cases hrow with hrow | ⟨message, order, before, after, choice, rfl,
        hjobs, hid, hstatus⟩
      · exact ht.exclusive id hold hrow
      · have hget : h.toPlatform.services.tasks[before.length]? =
            some (Job.save message order).task := by
          simp [toPlatform, hjobs]
        have hallowed := hp
        simp only [timelyPolicy, hget, Job.task, Job.prog, Job.saveProg, hstatus] at hallowed
        rw [hid, hold] at hallowed
        cases hallowed
    · have hallowed := (Bool.and_eq_true_iff.mp hp).2
      rcases hm.rowCompleted_cases hrow with hrow | ⟨_, _, _, _, _, hlabel, -⟩
      · obtain ⟨row, hrow, hstatus⟩ := hrow
        have hj : h.toPlatform.order.tasks[j]? = _ := hj
        have hcompleted : h.toPlatform.rowCompleted (orderIdOf value.payload) = true := by
          have hrow : h.toPlatform.services.world.order? id = some row := hrow
          simp [Platform.rowCompleted, hv.2, hrow, hstatus]
        simp only [hj, hv.1, hcompleted] at hallowed
        cases hallowed
      · cases hlabel

end Timely

theorem timely_reachable {s : Platform} (hs : Platform.Reachable timelyPolicy s) :
    ∃ h : Hub, s = h.toPlatform ∧ Timely h :=
  induction .initial (fun _ _ _ _ ht hp hm => ht.moves hm hp) hs

/-- A compensated transaction has been timed out. -/
theorem Timely.timedOut_of_compensated (ht : Timely h)
    (hc : .created t (sagaOptions order) ∈ h.order.world.history)
    (hstatus : Platform.recordStatus h.order t = some .COMPENSATED ∨
      Platform.recordStatus h.invoice t = some .COMPENSATED) :
    h.toPlatform.timedOut order.id = true := by
  have hcause : ∃ event : TransactionEvent,
      transactionKey event.transactionId = transactionKey (some t) ∧
      (h.Sent .TRANSACTION_COMPENSATION_START event ∨
        h.Sent .TRANSACTION_COMPENSATION_COMPLETED event) := by
    rcases hstatus with hstatus | hstatus
    · obtain ⟨value, hv, hvs⟩ := Option.map_eq_some_iff.mp hstatus
      obtain ⟨event, ha | ha⟩ := (((founded_reachable (fun _ _ hl => hl) ht.order
        fun _ hmem => hmem).1.stored _).2 value hv).compensated (.inr hvs)
      · exact ⟨event, ha.key, .inl (ht.sound.relayed.order _ _ ha.received)⟩
      · exact ⟨event, ha.key, .inr (ht.sound.relayed.order _ _ ha.received)⟩
    · obtain ⟨value, hv, hvs⟩ := Option.map_eq_some_iff.mp hstatus
      obtain ⟨event, ha | ha⟩ := (((founded_reachable (fun _ _ hl => hl) ht.invoice
        fun _ hmem => hmem).1.stored _).2 value hv).compensated (.inr hvs)
      · exact ⟨event, ha.key, .inl (ht.sound.relayed.invoice _ _ ha.received)⟩
      · exact ⟨event, ha.key, .inr (ht.sound.relayed.invoice _ _ ha.received)⟩
  obtain ⟨event, hkey, hsent⟩ := hcause
  obtain ⟨value, hv, hvs⟩ := hsent.elim ht.timedOut_of_start ht.timedOut_of_completed
  rw [hkey] at hv
  exact ht.timedOut_of_stored hc hv hvs

end Hub

/-! ## Compensation -/

/-- What the saga of an order has done is undone. -/
structure Undone (s : Platform) (orderId : String) : Prop where
  order : ∀ row, s.services.world.order? orderId = some row → row.status ≠ .COMPLETED
  invoice : ∀ invoice ∈ s.services.world.invoices, invoice.orderId = orderId →
    invoice.status ≠ .PAID

/-- Where no timed out transaction has its row completed, a compensated one leaves no completed
row and no invoice. -/
theorem compensation_undoes {s : Platform} (hs : Platform.Reachable timelyPolicy s) {t id : String}
    {options : TransactionOptions} (hc : .created t options ∈ s.order.world.history)
    (hid : orderIdOf options.payload = some id)
    (hstatus : Platform.recordStatus s.order t = some .COMPENSATED ∨
      Platform.recordStatus s.invoice t = some .COMPENSATED) : Undone s id := by
  obtain ⟨h, rfl, ht⟩ := Hub.timely_reachable hs
  obtain ⟨-, order, -, rfl⟩ := ht.sound.consistent.started t options hc
  rw [orderIdOf_sagaPayload, Option.some_inj] at hid
  subst hid
  have hout := ht.timedOut_of_compensated hc hstatus
  refine ⟨fun row hrow hcompleted => ?_, fun invoice hmem hid _ => ?_⟩
  · exact ht.exclusive _ hout ⟨row, hrow, hcompleted⟩
  · exact ht.exclusive _ hout (hid ▸ ht.rowCompleted_of_invoice hmem)

/-- The order `a` times out before its row is updated, and is compensated.  Then its update is
handled and fails, and so is every other message. -/
def slowOrder : List Platform.Label := List.flatten
  [[.createOrder "u" 10, .advance 0 { uuid := "a" }, .advance 0 { uuid := "t" }],
    List.replicate 4 (.order (.advance 0 0)),
    [.advance 0 {}, .order .checkTimeouts],
    List.replicate 4 (.order (.advance 0 1000000)),
    [.deliver .ORDER_SERVICE_TRANSACTION_GROUP .TRANSACTION_TIMEOUT .orderCoordinator 1],
    List.replicate 7 (.order (.advance 0 0)),
    [.deliver .ORDER_SERVICE_TRANSACTION_GROUP .TRANSACTION_COMPENSATION_START
      .orderCoordinator 3],
    List.replicate 5 (.order (.advance 0 0)),
    [.deliver .ORDER_SERVICE_TRANSACTION_GROUP .ORDER_APPROVAL_STEP_UPDATE_ORDER_STATUS
        .orderCoordinator 0, .reject 0,
      .deliver .INVOICE_SERVICE_TRANSACTION_GROUP .TRANSACTION_TIMEOUT .orderCoordinator 1,
      .invoice (.advance 0 0),
      .deliver .INVOICE_SERVICE_TRANSACTION_GROUP .TRANSACTION_USER_NOTIFICATION
        .orderCoordinator 2,
      .deliver .INVOICE_SERVICE_TRANSACTION_GROUP .TRANSACTION_COMPENSATION_START
        .orderCoordinator 3],
    List.replicate 3 (.invoice (.advance 0 0)),
    [.deliver .ORDER_SERVICE_TRANSACTION_GROUP .TRANSACTION_COMPENSATION_COMPLETED
        .orderCoordinator 4, .order (.advance 0 0),
      .deliver .INVOICE_SERVICE_TRANSACTION_GROUP .TRANSACTION_COMPENSATION_COMPLETED
        .orderCoordinator 4],
    List.replicate 3 (.invoice (.advance 0 0))]

theorem isSome_slowOrder : (Platform.run timelyPolicy slowOrder).isSome = true := by
  decide +kernel

/-- Its record is compensated. -/
def slowlyCompensated : Platform := (Platform.run timelyPolicy slowOrder).get isSome_slowOrder

theorem reachable_slowlyCompensated : Platform.Reachable timelyPolicy slowlyCompensated :=
  Machine.reachable_run slowOrder isSome_slowOrder

theorem compensation_undoes_slowOrder :
    slowlyCompensated.quiescent = true ∧ Undone slowlyCompensated "a" := by
  refine ⟨by decide +kernel, ?_⟩
  have hcreated : slowlyCompensated.order.world.history.any (startsSaga "t" "a") = true := by
    decide +kernel
  obtain ⟨options, hmem, hid⟩ := exists_created hcreated
  exact compensation_undoes reachable_slowlyCompensated hmem hid (.inl (by decide +kernel))

/-- After the compensation of `a` all messages are handled. -/
def settledOrder : List Platform.Label := List.flatten
  [compensatedOrder,
    [.deliver .INVOICE_SERVICE_APP_GROUP .ORDER_APPROVAL_STEP_INVOICE_GENERATE
      .orderCoordinator 1, .advance 0 {}, .advance 0 {},
      .deliver .INVOICE_SERVICE_TRANSACTION_GROUP .TRANSACTION_TIMEOUT .orderCoordinator 2,
      .invoice (.advance 0 0),
      .deliver .INVOICE_SERVICE_TRANSACTION_GROUP .TRANSACTION_USER_NOTIFICATION
        .orderCoordinator 3,
      .deliver .INVOICE_SERVICE_TRANSACTION_GROUP .TRANSACTION_COMPENSATION_START
        .orderCoordinator 4],
    List.replicate 3 (.invoice (.advance 0 0)),
    [.deliver .ORDER_SERVICE_TRANSACTION_GROUP .TRANSACTION_COMPENSATION_COMPLETED
        .orderCoordinator 5, .order (.advance 0 0),
      .deliver .INVOICE_SERVICE_TRANSACTION_GROUP .TRANSACTION_COMPENSATION_COMPLETED
        .orderCoordinator 5],
    List.replicate 3 (.invoice (.advance 0 0)),
    [.deliver .ORDER_SERVICE_TRANSACTION_GROUP .ORDER_APPROVAL_STEP_UPDATE_ORDER_STATUS
      .orderCoordinator 6],
    List.replicate 3 (.advance 0 {}),
    [.deliver .INVOICE_SERVICE_TRANSACTION_GROUP .TRANSACTION_STEP_COMPLETED .services 0,
      .invoice (.advance 0 0),
      .deliver .ORDER_SERVICE_TRANSACTION_GROUP .TRANSACTION_STEP_COMPLETED .services 1],
    List.replicate 4 (.order (.advance 0 0)),
    [.deliver .INVOICE_SERVICE_TRANSACTION_GROUP .TRANSACTION_STEP_COMPLETED .services 1,
      .invoice (.advance 0 0),
      .deliver .ORDER_SERVICE_TRANSACTION_GROUP .TRANSACTION_STEP_COMPLETED .services 2,
      .order (.advance 0 0),
      .deliver .INVOICE_SERVICE_TRANSACTION_GROUP .TRANSACTION_STEP_COMPLETED .services 2,
      .invoice (.advance 0 0)]]

theorem isSome_settledOrder : (Platform.run (fun _ _ => true) settledOrder).isSome = true := by
  decide +kernel

/-- The row of `a` is completed, and it has a paid invoice. -/
def settled : Platform := (Platform.run (fun _ _ => true) settledOrder).get isSome_settledOrder

/-- A compensated transaction leaves all that it did, once every message is handled. -/
theorem not_undone :
    ∃ s, Platform.Reachable (fun _ _ => true) s ∧ s.quiescent = true ∧
      ∃ t options id, .created t options ∈ s.order.world.history ∧
        orderIdOf options.payload = some id ∧
        Platform.recordStatus s.order t = some .COMPENSATED ∧
        Platform.recordStatus s.invoice t = some .COMPENSATED ∧ ¬Undone s id ∧
        ∃ invoice ∈ s.services.world.invoices, invoice.orderId = id ∧ invoice.status = .PAID := by
  refine ⟨settled, Machine.reachable_run settledOrder isSome_settledOrder, by decide +kernel, ?_⟩
  have hcreated : settled.order.world.history.any (startsSaga "t" "a") = true := by decide +kernel
  have hinvoice : settled.services.world.invoices.any (fun invoice =>
      invoice.orderId == "a" && decide (invoice.status = .PAID)) = true := by decide +kernel
  obtain ⟨invoice, hi, hinvoice⟩ := List.any_eq_true.mp hinvoice
  simp only [Bool.and_eq_true, beq_iff_eq, decide_eq_true_eq] at hinvoice
  obtain ⟨options, hmem, hid⟩ := exists_created hcreated
  refine ⟨"t", options, "a", hmem, hid, by decide +kernel, by decide +kernel, fun hu => ?_,
    invoice, hi, hinvoice⟩
  exact hu.invoice invoice hi hinvoice.1 hinvoice.2

end InvoiceHub
