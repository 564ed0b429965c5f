import InvoiceHub.Platform.Progress

/-!
# How orders end

Once everything is delivered and nobody is at work, every message of a saga has been answered: an
order that can be approved is completed and has one invoice (`approved`), any other is cancelled
and has none (`declined`).
-/

namespace InvoiceHub

open Effects Transaction Services

namespace Hub

variable {h : Hub} {t : String} {order : Order} {subject : Subjects}

/-! ## Platforms at rest -/

theorem jobs_of_quiescent (hq : h.toPlatform.quiescent = true) : h.jobs = [] := by
  simp only [Platform.quiescent, Bool.and_eq_true, List.isEmpty_iff] at hq
  exact List.map_eq_nil_iff.mp hq.1.2

theorem idle_of_quiescent (hq : h.toPlatform.quiescent = true) (key : String) :
    h.order.idle key = true := by
  simp only [Platform.quiescent, Bool.and_eq_true, List.isEmpty_iff] at hq
  have htasks : h.order.tasks = [] := hq.1.1.1
  simp [Cluster.idle, Pool.Idle, htasks]

namespace Reliable

/-- A saga waits for an answer, or is over. -/
theorem waiting (hr : Reliable h) (hq : h.toPlatform.quiescent = true) (ho : order ∈ h.placed)
    (hc : .created t (sagaOptions order) ∈ h.order.world.history) :
    ∃ n, Waiting t (sagaOptions order) n (h.order.world.view t) := by
  rcases ((turn_regime t).reachable hr.order).1 (idle_of_quiescent hq _) with hnew | ⟨options, n, hw⟩
  · have hmem : .created t (sagaOptions order) ∈ (h.order.world.view t).history :=
      Lifecycle.created_mem_view hc
    rw [hnew] at hmem
    cases hmem
  · have hcreated := (List.mem_filter.mp hw.created).1
    obtain ⟨-, order', ho', rfl⟩ := hr.sound.consistent.started t options hcreated
    obtain rfl := hr.sound.eq_of_created ho ho' hc hcreated
    exact ⟨n, hw⟩

/-- What the group of the order service subscribes to, it has heard. -/
theorem posted_le_hears (hr : Reliable h) (hq : h.toPlatform.quiescent = true) (t : String)
    (σ : Signal) : h.posted (answers t σ) ≤ h.order.world.history.countP (hears t σ) := by
  rw [hr.heard]
  refine posted_le_handed hq fun event ha => ?_
  obtain ⟨subject, hmem, htopic, -⟩ := answers_iff.mp ha
  exact ⟨subject, .coordinator .ORDER_SERVICE subject, if_pos hmem, htopic⟩

/-- Every announcement that a transaction is completed has been heard. -/
theorem completed_heard (hr : Reliable h) (hq : h.toPlatform.quiescent = true) (t : String) :
    h.order.world.history.countP (sends t .completed) ≤
      h.order.world.history.countP (hears t .completed) :=
  (hr.sound.sent_le_completed t).trans (hr.posted_le_hears hq t .completed)

theorem subscription_stepGroup (hstep : subject ∈ stepTopics) :
    ∃ handler, subscription (stepGroup subject) subject = some handler := by
  rcases List.mem_pair.mp hstep with rfl | rfl
  · exact ⟨_, rfl⟩
  · exact ⟨_, rfl⟩

/-- Every command of a saga that can be approved has been handled, and the report heard. -/
theorem step_heard (hr : Reliable h) (hq : h.toPlatform.quiescent = true) (ho : order ∈ h.placed)
    (hc : .created t (sagaOptions order) ∈ h.order.world.history) (hpos : 0 < order.totalAmount)
    (hstep : subject ∈ stepTopics) :
    h.order.world.history.countP (sends t (.step subject.value)) ≤
      h.order.world.history.countP (hears t (.step subject.value)) := by
  have hasked : h.order.world.history.countP (sends t (.step subject.value)) ≤
      h.posted (asks t subject) := by
    refine sent_le_posted fun q hp hsends => ?_
    simp only [sends, Bool.and_eq_true, beq_iff_eq] at hsends
    obtain ⟨⟨hkey, -⟩, hsignal⟩ := hsends
    have htopic : q.event.topicName = subject.value := by
      unfold signal at hsignal
      split at hsignal
      · exact Signal.step.inj hsignal
      · cases hsignal
      · cases hsignal
    obtain ⟨u, options, hcreated, -, ⟨-, hu, hevent⟩ | ⟨hpub, -⟩⟩ :=
      command_origin hr.sound.order hp (not_announced_of_step hstep) htopic
    · obtain rfl := transactionKey_some_inj.mp (hu.symm.trans hkey)
      obtain ⟨-, order', ho', rfl⟩ := hr.sound.consistent.started u options hcreated
      obtain rfl := hr.sound.eq_of_created ho ho' hc hcreated
      rw [hevent]
      exact hr.sound.asks_of_command ho (hr.users order ho) hpos hstep
    · exact absurd hpub (hr.uncompensated q hp)
  have hhanded : h.posted (asks t subject) ≤ h.handed (stepGroup subject) (asks t subject) := by
    refine posted_le_handed hq fun event ha => ?_
    obtain ⟨handler, hsub⟩ := subscription_stepGroup hstep
    exact ⟨subject, handler, hsub, (names_of_asks hstep ha).1⟩
  -- no job is left that owes a report, so all of them have been published
  calc h.order.world.history.countP (sends t (.step subject.value))
      ≤ h.handed (stepGroup subject) (asks t subject) := hasked.trans hhanded
    _ = h.posted (answers t (.step subject.value)) := by
        rw [hr.owed t subject hstep, jobs_of_quiescent hq, hr.sound.posted_step]
        exact Nat.zero_add _
    _ ≤ h.order.world.history.countP (hears t (.step subject.value)) := hr.posted_le_hears hq t _

/-- A step whose report was heard has been reported by a service. -/
theorem reported_of_answered (hr : Reliable h) {name : String}
    (hmem : .step name ∈ answeredSignals (h.order.world.view t).history) :
    ∃ event ∈ h.db.published, answers t (.step name) event = true := by
  have hpos := List.count_pos_iff.mpr hmem
  rw [count_answeredSignals, hr.heard] at hpos
  have hposted := Nat.lt_of_lt_of_le hpos (hr.once.handed_le_posted _ _)
  rw [hr.sound.posted_step] at hposted
  exact List.countP_pos_iff.mp hposted

/-- Whose update was reported can be approved, and its row is completed. -/
theorem updated (hr : Reliable h) (ho : order ∈ h.placed)
    (hc : .created t (sagaOptions order) ∈ h.order.world.history)
    (hmem : .step Subjects.ORDER_APPROVAL_STEP_UPDATE_ORDER_STATUS.value ∈
      answeredSignals (h.order.world.view t).history) :
    0 < order.totalAmount ∧ h.RowCompleted order.id := by
  obtain ⟨event, hevent, ha⟩ := hr.reported_of_answered hmem
  cases hr.approving.published event hevent with
  | @updated u order' hreq hpos hrow =>
    rw [answers_orderUpdated] at ha
    have hkey := beq_iff_eq.mp (Bool.and_eq_true_iff.mp ha).2
    rw [(Approving.commandOf_requestOf u order' _).transactionId] at hkey
    obtain rfl : u = t := transactionKey_some_inj.mp hkey
    obtain rfl := hr.sound.eq_of_created ho hreq.placed hc hreq.created
    exact ⟨hpos, hrow⟩
  | generated invoice hreq =>
    rw [answers_invoiceGenerated] at ha
    cases ha
  | notification u other reason timestamp =>
    rw [answers_notification] at ha
    cases ha

/-- Whose invoice was reported has one. -/
theorem generated (hr : Reliable h) (ho : order ∈ h.placed)
    (hc : .created t (sagaOptions order) ∈ h.order.world.history)
    (hmem : .step Subjects.ORDER_APPROVAL_STEP_INVOICE_GENERATE.value ∈
      answeredSignals (h.order.world.view t).history) :
    ∃ invoice ∈ h.db.invoices, invoice.orderId = order.id := by
  obtain ⟨event, hevent, ha⟩ := hr.reported_of_answered hmem
  obtain ⟨order', hreq, hinvoice⟩ := hr.billing.published event hevent t ha
  obtain rfl := hr.sound.eq_of_created ho hreq.placed hc hreq.created
  exact hinvoice

/-- Every invoice is made of the order that it names. -/
theorem invoiceFor (hr : Reliable h) (ho : order ∈ h.placed) {invoice : Invoice}
    (hi : invoice ∈ h.db.invoices) (hid : invoice.orderId = order.id) :
    InvoiceFor order invoice ∧ ∃ t, h.Requested t order .ORDER_APPROVAL_STEP_INVOICE_GENERATE := by
  obtain ⟨t, order', hreq, hinvoice⟩ := hr.approving.invoiced invoice hi
  obtain rfl := hr.sound.consistent.eq_of_id ho hreq.placed (hid.symm.trans hinvoice.orderId)
  exact ⟨hinvoice, t, hreq⟩

/-- The saga of an order that can be approved is over. -/
theorem settled (hr : Reliable h) (hq : h.toPlatform.quiescent = true) (ho : order ∈ h.placed)
    (hc : .created t (sagaOptions order) ∈ h.order.world.history) (hpos : 0 < order.totalAmount) :
    answeredSignals (h.order.world.view t).history = script (sagaOptions order) ∧
      Platform.recordStatus h.order t = some .COMPLETED := by
  obtain ⟨n, hw⟩ := hr.waiting hq ho hc
  have hall : ∀ σ ∈ script (sagaOptions order),
      (sentSignals (h.order.world.view t).history).count σ ≤
        (answeredSignals (h.order.world.view t).history).count σ := by
    intro σ hσ
    rw [count_sentSignals, count_answeredSignals]
    rw [script, steps_sagaOptions] at hσ
    rcases List.mem_append.mp hσ with hσ | hσ
    · have hsteps : orderSteps.map (fun step => Signal.step step.1) =
          stepTopics.map fun subject => .step subject.value := rfl
      rw [hsteps] at hσ
      obtain ⟨subject, hstep, rfl⟩ := List.mem_map.mp hσ
      exact hr.step_heard hq ho hc hpos hstep
    · rw [List.mem_singleton.mp hσ]
      exact hr.completed_heard hq t
  obtain ⟨hanswered, r, hrecord, hstatus⟩ := hw.ends hall
  refine ⟨hanswered, ?_⟩
  have hlookup : h.order.world.redis.lookup (transactionKey (some t)) = some r.serialize := hrecord
  rw [Platform.recordStatus, hlookup]
  exact congrArg some hstatus

/-- An order that is not approved gets no invoice. -/
theorem not_requested (hr : Reliable h) (hq : h.toPlatform.quiescent = true)
    (hle : order.totalAmount ≤ 0) :
    ¬h.Requested t order .ORDER_APPROVAL_STEP_INVOICE_GENERATE := by
  intro hreq
  obtain ⟨p, hp, hpub, hkey, hevent⟩ := hreq.published
  obtain ⟨n, hw⟩ := hr.waiting hq hreq.placed hreq.created
  have hsent : .step Subjects.ORDER_APPROVAL_STEP_INVOICE_GENERATE.value ∈
      sentSignals (h.order.world.view t).history := by
    rw [← List.count_pos_iff, count_sentSignals]
    refine List.countP_pos_iff.mpr ⟨_, hp, ?_⟩
    simp [sends, signal, hpub, hkey, hevent, stepCommand, Publisher.awaited]
  have hscript : script (sagaOptions order) =
      [.step Subjects.ORDER_APPROVAL_STEP_UPDATE_ORDER_STATUS.value,
        .step Subjects.ORDER_APPROVAL_STEP_INVOICE_GENERATE.value, .completed] := by
    rw [script, steps_sagaOptions]
    rfl
  have hnodup : (script (sagaOptions order)).Nodup := by
    rw [hscript]
    decide
  have hanswered := hw.mem_answered (k := 0) hnodup (by rw [hscript]; rfl) (by rw [hscript]; rfl)
    hsent
  exact absurd (hr.updated hreq.placed hreq.created hanswered).1 (not_lt.mpr hle)

end Reliable

end Hub

/-! ## The outcome -/

/-- No timeout has been announced. -/
def Platform.untimed (s : Platform) : Bool :=
  [Source.orderCoordinator, .invoiceCoordinator, .services].all fun source =>
    (s.published source).all fun event =>
      event.topicName != Subjects.TRANSACTION_TIMEOUT.value

theorem Hub.untimed_of_platform {h : Hub} (hu : h.toPlatform.untimed = true) : h.Untimed := by
  intro source event hmem
  have hsource := List.all_eq_true.mp hu source (Hub.mem_sources source)
  simpa using List.all_eq_true.mp hsource event hmem

/-- The order is completed, its transaction too, and it has one invoice, which is paid. -/
structure Approved (s : Platform) (order : Services.Order) : Prop where
  saga : ∃ t options, .created t options ∈ s.order.world.history ∧
    orderIdOf options.payload = some order.id
  record : ∀ t options, .created t options ∈ s.order.world.history →
    orderIdOf options.payload = some order.id → Platform.recordStatus s.order t = some .COMPLETED
  row : ∃ row, s.services.world.order? order.id = some row ∧ Hub.RowOf order row ∧
    row.status = .COMPLETED ∧
    ∃ invoice, s.services.world.invoices.filter (·.orderId = order.id) = [invoice] ∧
      invoice.userId = row.userId ∧ invoice.amount = row.totalAmount ∧ invoice.status = .PAID

/-- The order is cancelled and has no invoice. -/
structure Declined (s : Platform) (order : Services.Order) : Prop where
  row : ∃ row, s.services.world.order? order.id = some row ∧ Hub.RowOf order row ∧
    row.status = .CANCELLED
  invoices : s.services.world.invoices.filter (·.orderId = order.id) = []

namespace Hub

variable {h : Hub} {order : Services.Order}

/-- The row of an order holds what the order was placed with. -/
theorem Sound.rowOf (hs : Sound h) (ho : order ∈ h.placed) {row : Services.Order}
    (hrow : h.db.order? order.id = some row) : RowOf order row := by
  obtain ⟨order', ho', hr⟩ := hs.consistent.rows _ _ hrow
  have hid : row.id = order.id := @Database.id_of_findOne h.db {} order.id row hrow
  obtain rfl := hs.consistent.eq_of_id ho ho' (hid.symm.trans hr.id)
  exact hr

namespace Reliable

/-- The invoice of an order is its only one. -/
theorem filter_invoices (hr : Reliable h) {invoice : Invoice} (hi : invoice ∈ h.db.invoices)
    (hid : invoice.orderId = order.id) :
    h.db.invoices.filter (·.orderId = order.id) = [invoice] := by
  have hle : (h.db.invoices.filter (·.orderId = order.id)).length ≤ 1 := by
    have hcount := List.nodup_iff_count_le_one.mp hr.invoicing.nodup_invoices order.id
    rw [List.count, List.countP_map] at hcount
    rw [← List.countP_eq_length_filter]
    exact hcount
  have hmem : invoice ∈ h.db.invoices.filter (·.orderId = order.id) :=
    List.mem_filter.mpr ⟨hi, decide_eq_true hid⟩
  obtain ⟨only, honly⟩ :=
    List.length_eq_one_iff.mp (Nat.le_antisymm hle (List.length_pos_of_mem hmem))
  rw [honly] at hmem ⊢
  rw [List.mem_singleton.mp hmem]

theorem approved (hr : Reliable h) (hq : h.toPlatform.quiescent = true) (ho : order ∈ h.placed)
    (hpos : 0 < order.totalAmount) : Approved h.toPlatform order := by
  have hlaunched : ∃ t, .created t (sagaOptions order) ∈ h.order.world.history := by
    rcases hr.launched order ho with hstart | ⟨t, hc, -⟩
    · rw [jobs_of_quiescent hq] at hstart
      cases hstart
    · exact ⟨t, hc⟩
  obtain ⟨t, hc⟩ := hlaunched
  obtain ⟨hanswered, -⟩ := hr.settled hq ho hc hpos
  have hmem : ∀ subject ∈ stepTopics, .step subject.value ∈
      answeredSignals (h.order.world.view t).history := by
    intro subject hstep
    rw [hanswered, script, steps_sagaOptions]
    rcases List.mem_pair.mp hstep with rfl | rfl <;> decide
  obtain ⟨-, row, hrow, hstatus⟩ := hr.updated ho hc (hmem _ (by decide))
  obtain ⟨invoice, hi, hid⟩ := hr.generated ho hc (hmem _ (by decide))
  have hrowOf := hr.sound.rowOf ho hrow
  obtain ⟨hinvoice, -⟩ := hr.invoiceFor ho hi hid
  refine ⟨⟨t, _, hc, orderIdOf_sagaPayload order⟩, fun u options hcreated hoptions => ?_,
    row, hrow, hrowOf, hstatus, invoice, hr.filter_invoices hi hid, ?_, ?_, hinvoice.status⟩
  · obtain ⟨-, order', ho', rfl⟩ := hr.sound.consistent.started u options hcreated
    rw [orderIdOf_sagaPayload, Option.some_inj] at hoptions
    obtain rfl := hr.sound.consistent.eq_of_id ho ho' hoptions.symm
    exact (hr.settled hq ho hcreated hpos).2
  · rw [hinvoice.userId, hrowOf.userId]
  · rw [hinvoice.amount, hrowOf.totalAmount]

theorem declined (hr : Reliable h) (hq : h.toPlatform.quiescent = true) (ho : order ∈ h.placed)
    (hle : order.totalAmount ≤ 0) : Declined h.toPlatform order := by
  have hcancelled : h.RowHas order.id .CANCELLED := by
    rcases hr.launched order ho with hstart | ⟨t, -, hcancelled⟩
    · rw [jobs_of_quiescent hq] at hstart
      cases hstart
    · rw [jobs_of_quiescent hq] at hcancelled
      rcases hcancelled hle with hawait | hcancel | hrow
      · cases hawait
      · cases hcancel
      · exact hrow
  obtain ⟨row, hrow, hstatus⟩ := hcancelled
  refine ⟨⟨row, hrow, hr.sound.rowOf ho hrow, hstatus⟩, List.filter_eq_nil_iff.mpr ?_⟩
  intro invoice hi hid
  obtain ⟨-, t, hreq⟩ := hr.invoiceFor ho hi (of_decide_eq_true hid)
  exact hr.not_requested hq hle hreq

end Reliable

/-- What was asked for in a reliable run is what has been and will be placed. -/
theorem ordered_run {labels : List Platform.Label} {s : Platform}
    (hs : Platform.run Platform.reliable labels = some s) :
    ∃ h : Hub, s = h.toPlatform ∧ h.ordered.Perm (Platform.orderCalls labels) := by
  refine Machine.run_induction (P := fun past s => ∃ h : Hub, s = h.toPlatform ∧
    h.ordered.Perm (Platform.orderCalls past)) ⟨Hub.initial, rfl, .nil⟩ ?_ hs
  rintro past _ label s' ⟨h, rfl, hperm⟩ hp hf
  obtain ⟨h', hm, rfl⟩ := moves_of_fire hf
  refine ⟨h', rfl, (hm.ordered hp).trans ?_⟩
  rw [Platform.orderCalls, Platform.orderCalls, List.filterMap_append]
  exact hperm.append_right _

end Hub

/-- Where each message is delivered once to each group, no call fails and no timeout is announced,
every call of `createOrder` has placed its order once everything is handled; those with a positive
amount are approved, the others declined. -/
theorem approval_outcome {labels : List Platform.Label} {s : Platform}
    (hs : Platform.run Platform.reliable labels = some s) (hq : s.quiescent = true)
    (hu : s.untimed = true) :
    (s.placed.map fun order => (order.userId, order.totalAmount)).Perm
        (Platform.orderCalls labels) ∧
      ∀ order ∈ s.placed, (0 < order.totalAmount → Approved s order) ∧
        (order.totalAmount ≤ 0 → Declined s order) := by
  constructor
  · obtain ⟨h, rfl, hperm⟩ := Hub.ordered_run hs
    rw [Hub.ordered, Hub.jobs_of_quiescent hq, List.filterMap_nil, List.append_nil] at hperm
    exact hperm
  · obtain ⟨h, rfl, hr⟩ := Hub.reliable_reachable (Machine.run_steps labels hs)
    have hr := hr (Hub.untimed_of_platform hu)
    exact fun order ho => ⟨hr.approved hq ho, hr.declined hq ho⟩

/-- The order `a` is approved and meanwhile the order `b`, of a negative amount, is declined. -/
def twoOutcomes : List Platform.Label := List.flatten
  [updatedOrder, [.createOrder "v" (-5), .advance 0 { uuid := "b" }], reportHandled 0 7,
    [.deliver .INVOICE_SERVICE_APP_GROUP .ORDER_APPROVAL_STEP_INVOICE_GENERATE .orderCoordinator 1,
      .advance 1 { uuid := "i" }, .advance 1 {}, .advance 0 { uuid := "u" }],
    List.replicate 4 (.order (.advance 0 0)), List.replicate 4 (.advance 0 {}),
    [.deliver .ORDER_SERVICE_TRANSACTION_GROUP .ORDER_APPROVAL_STEP_UPDATE_ORDER_STATUS
      .orderCoordinator 2, .advance 0 {}, .advance 0 {},
      .deliver .INVOICE_SERVICE_TRANSACTION_GROUP .TRANSACTION_USER_NOTIFICATION .services 2],
    reportHandled 1 8, endHandled 3]

theorem approval_outcome_twoOutcomes :
    ∃ s, Platform.run Platform.reliable twoOutcomes = some s ∧ s.quiescent = true ∧
      s.placed.map (fun order => (order.id, order.totalAmount)) = [("a", 10), ("b", -5)] ∧
      (s.placed.map fun order => (order.userId, order.totalAmount)).Perm
        (Platform.orderCalls twoOutcomes) ∧
      ∀ order ∈ s.placed, (0 < order.totalAmount → Approved s order) ∧
        (order.totalAmount ≤ 0 → Declined s order) := by
  have hrun : (Platform.run Platform.reliable twoOutcomes).any (fun s =>
      s.quiescent && s.untimed && decide (s.placed.map
        (fun order => (order.id, order.totalAmount)) = [("a", 10), ("b", -5)])) = true := by
    decide +kernel
  obtain ⟨s, hs, hend⟩ := (Option.any_eq_true _ _).mp hrun
  simp only [Bool.and_eq_true, decide_eq_true_eq] at hend
  obtain ⟨⟨hquiescent, huntimed⟩, hplaced⟩ := hend
  exact ⟨s, hs, hquiescent, hplaced, approval_outcome hs hquiescent huntimed⟩

end InvoiceHub
