import InvoiceHub.Platform.Compensation
import InvoiceHub.Platform.Invoices
import InvoiceHub.Platform.Ledger

/-!
# Reliable runs

Where each message is delivered once, no call fails and no transaction times out, each message
that reaches the coordinator of the order service answers a message of its transaction that is
still unanswered: no more steps are reported than commanded (`Sound.step_le_sent`), and no more
completions than announced (`Sound.completed_le_sent`).
-/

namespace InvoiceHub

open Effects Transaction Services

namespace Hub

variable {h h' : Hub} {label : Platform.Label} {t : String} {order : Order} {subject : Subjects}
  {event : EventMessage}

/-- No timeout has been announced. -/
def Untimed (h : Hub) : Prop :=
  ∀ source, ∀ event ∈ h.published source, event.topicName ≠ Subjects.TRANSACTION_TIMEOUT.value

theorem Untimed.of_moves (hu : Untimed h') (hm : h.Moves label h') : Untimed h := by
  intro source event hmem
  obtain ⟨added, hadded⟩ := hm.published_grows source
  exact hu source event (hadded ▸ List.mem_append_left _ hmem)

/-! ## What is never announced -/

/-- The order service announces nothing about compensations. -/
theorem not_compensating (ho : Cluster.Reachable promptPolicy h.order) {p : Publication}
    (hp : .published p ∈ h.order.world.history) :
    p.publisher ≠ .handleStartCompensation ∧ p.publisher ≠ .handleExecuteCompensation := by
  have htold := signal_ne_other ho hp
  constructor
  · intro hpub
    exact htold (by rw [hpub]; rfl) (by unfold signal; rw [hpub])
  · intro hpub
    exact htold (by rw [hpub]; rfl) (by unfold signal; rw [hpub])

section Announcements

variable (hs : Sound h) (ho : Cluster.Reachable promptPolicy h.order)

include hs ho

/-- No compensation starts. -/
theorem not_compensationStart {event : TransactionEvent} :
    ¬h.Sent .TRANSACTION_COMPENSATION_START event := by
  intro hsent
  obtain ⟨p, hp | hp, hpub, -⟩ := hs.own_sent hsent rfl
  · exact (not_compensating ho hp).1 hpub
  · exact hs.invoice_not_started hp hpub

/-- None ends. -/
theorem not_compensationCompleted {event : TransactionEvent} :
    ¬h.Sent .TRANSACTION_COMPENSATION_COMPLETED event := by
  intro hsent
  obtain ⟨p, hp | hp, hpub, -⟩ := hs.own_sent hsent rfl
  · exact (not_compensating ho hp).2 hpub
  · have hground := grounded_reachable hs.invoice hp
    rw [hpub] at hground
    obtain ⟨started, harrived⟩ := hground
    exact not_compensationStart hs ho (hs.relayed.invoice _ _ harrived.received)

/-- No step is commanded in compensation. -/
theorem uncompensated_of_prompt : Uncompensated h := by
  intro p hp hpub
  have hground := grounded_reachable hs.order hp
  rw [hpub] at hground
  obtain ⟨started, harrived⟩ := hground
  exact not_compensationStart hs ho (hs.relayed.order _ _ harrived.received)

/-- Coordinators receive reports of steps and announcements that a transaction is completed. -/
theorem carried_cases (hu : Untimed h) {source : Source} {index : Nat}
    (hc : h.Carries source index subject event) (ht : subject ∈ coordinatorTopics) :
    subject = .TRANSACTION_COMPLETED ∨ subject = .TRANSACTION_STEP_COMPLETED ∧
      ∃ step ∈ stepTopics, (TransactionEvent.ofMessage event.message).stepName = some step.value := by
  have hsent : h.Sent subject (TransactionEvent.ofMessage event.message) := ⟨_, _, _, hc, rfl⟩
  cases subject with
  | TRANSACTION_COMPLETED => exact .inl rfl
  | TRANSACTION_STEP_COMPLETED =>
    obtain rfl := hs.of_services hc (by decide) (by decide)
    refine .inr ⟨rfl, ?_⟩
    cases hs.services.published event (List.mem_of_getElem? hc.message) with
    | updated message =>
      refine ⟨.ORDER_APPROVAL_STEP_UPDATE_ORDER_STATUS, by decide, ?_⟩
      rw [ofMessage_orderUpdated]
    | generated message invoice =>
      refine ⟨.ORDER_APPROVAL_STEP_INVOICE_GENERATE, by decide, ?_⟩
      rw [ofMessage_invoiceGenerated]
    | notification _ _ _ _ =>
      have htopic : Subjects.TRANSACTION_USER_NOTIFICATION.value =
        Subjects.TRANSACTION_STEP_COMPLETED.value := hc.topic
      exact absurd htopic (by decide)
  | TRANSACTION_STEP_FAILED => exact absurd hc hs.not_failed
  | TRANSACTION_COMPENSATION_START => exact absurd hsent (not_compensationStart hs ho)
  | TRANSACTION_COMPENSATION_COMPLETED => exact absurd hsent (not_compensationCompleted hs ho)
  | TRANSACTION_TIMEOUT =>
    exact absurd hc.topic (hu source event (List.mem_of_getElem? hc.message))
  | _ => exact absurd ht (by decide)

end Announcements

/-! ## Messages and their answers -/

theorem mem_published_order {p : Publication} (hp : .published p ∈ h.order.world.history) :
    p.event ∈ h.published .orderCoordinator :=
  List.mem_filterMap.mpr ⟨_, hp, rfl⟩

theorem mem_published_invoice {p : Publication} (hp : .published p ∈ h.invoice.world.history) :
    p.event ∈ h.published .invoiceCoordinator :=
  List.mem_filterMap.mpr ⟨_, hp, rfl⟩

/-- Only services report steps. -/
theorem Sound.step_answered (hs : Sound h) {source : Source} {name : String}
    (hmem : event ∈ h.published source) (ha : answers t (.step name) event = true) :
    source = .services := by
  obtain ⟨index, hget⟩ := List.mem_iff_getElem?.mp hmem
  obtain ⟨topic, -, htopic, hhears⟩ := answers_iff.mp ha
  have hreply := beq_iff_eq.mp (Bool.and_eq_true_iff.mp hhears).2
  cases topic with
  | TRANSACTION_STEP_COMPLETED => exact hs.of_services ⟨hget, htopic⟩ (by decide) (by decide)
  | _ => cases hreply

theorem completed_of_answers (ha : answers t .completed event = true) :
    event.topicName = Subjects.TRANSACTION_COMPLETED.value ∧
      transactionKey (TransactionEvent.ofMessage event.message).transactionId =
        transactionKey (some t) := by
  obtain ⟨topic, -, htopic, hhears⟩ := answers_iff.mp ha
  obtain ⟨hkey, hreply⟩ := Bool.and_eq_true_iff.mp hhears
  cases topic with
  | TRANSACTION_COMPLETED => exact ⟨htopic, beq_iff_eq.mp hkey⟩
  | TRANSACTION_STEP_COMPLETED =>
    cases hname : (TransactionEvent.ofMessage event.message).stepName with
    | none => simp [reply, hname] at hreply
    | some name => simp [reply, hname] at hreply
  | _ => cases hreply

/-- What only the order service posts was sent by its coordinator. -/
theorem posted_le_sent {p : EventMessage → Bool} {σ : Signal}
    (horder : ∀ q, .published q ∈ h.order.world.history → p q.event = true →
      sends t σ (.published q) = true)
    (hinvoice : ∀ q, .published q ∈ h.invoice.world.history → p q.event ≠ true)
    (hservices : ∀ event ∈ h.db.published, p event ≠ true) :
    h.posted p ≤ h.order.world.history.countP (sends t σ) := by
  have hi : h.invoice.world.history.countP (publishes p) = 0 := by
    refine List.countP_eq_zero.mpr fun entry hmem => ?_
    cases entry with
    | published q => exact hinvoice q hmem
    | _ => exact Bool.false_ne_true
  rw [posted_eq, hi, List.countP_eq_zero.mpr hservices]
  refine List.countP_mono_left fun entry hmem hp => ?_
  cases entry with
  | published q => exact horder q hmem hp
  | _ => cases hp

/-- What the coordinator of the order service has sent was posted. -/
theorem sent_le_posted {p : EventMessage → Bool} {σ : Signal}
    (horder : ∀ q, .published q ∈ h.order.world.history → sends t σ (.published q) = true →
      p q.event = true) : h.order.world.history.countP (sends t σ) ≤ h.posted p := by
  rw [posted_eq, Nat.add_assoc]
  refine Nat.le_add_right_of_le (List.countP_mono_left fun entry hmem hs => ?_)
  cases entry with
  | published q => exact horder q hmem hs
  | _ => cases hs

/-- Each announcement that `t` is completed was sent by `t`. -/
theorem Sound.completed_le_sent (hs : Sound h) (t : String) :
    h.posted (answers t .completed) ≤ h.order.world.history.countP (sends t .completed) := by
  refine posted_le_sent (fun q hq ha => ?_) (fun q hq ha => ?_) fun event hmem ha => ?_
  · obtain ⟨htopic, hkey⟩ := completed_of_answers ha
    obtain ⟨hpub, hown⟩ := hs.own_order rfl hq htopic
    simp [sends, signal, hpub, ← hown, hkey, Publisher.awaited]
  · obtain ⟨htopic, -⟩ := completed_of_answers ha
    exact passive_not_completing (fun _ _ hl => hl) hs.invoice hq (hs.own_invoice rfl hq htopic).1
  · obtain ⟨htopic, -⟩ := completed_of_answers ha
    rcases hs.services.subject_cases hmem htopic with heq | heq
    · cases heq
    · cases heq

/-- Each such announcement is posted. -/
theorem Sound.sent_le_completed (hs : Sound h) (t : String) :
    h.order.world.history.countP (sends t .completed) ≤ h.posted (answers t .completed) := by
  refine sent_le_posted fun q hq hsends => ?_
  simp only [sends, Bool.and_eq_true, beq_iff_eq] at hsends
  obtain ⟨⟨hkey, -⟩, hsignal⟩ := hsends
  have hpub : q.publisher = .handleCompleteTransaction := by
    unfold signal at hsignal
    split at hsignal
    · cases hsignal
    · assumption
    · cases hsignal
  obtain ⟨htopic, hown⟩ :=
    completed_of_reported (stemming_reachable hs.order fun _ _ hmem => hmem).2 hq hpub
  rw [answers_eq htopic (by decide)]
  simp [hears, reply, hown, hkey]

/-! ## Commands and their reports -/

/-- Who asks for a report of a step on behalf of `t` has commanded the step for `t`. -/
theorem names_of_asks (hstep : subject ∈ stepTopics) (ha : asks t subject event = true) :
    event.topicName = subject.value ∧ namesTransaction t event.message = true := by
  obtain ⟨htopic, hany⟩ := Bool.and_eq_true_iff.mp ha
  obtain ⟨job, hmem, howes⟩ := List.any_eq_true.mp hany
  refine ⟨beq_iff_eq.mp htopic, ?_⟩
  rcases List.mem_pair.mp hstep with rfl | rfl
  · obtain ⟨target, -, rfl⟩ := Option.map_eq_some_iff.mp (Option.mem_toList.mp hmem)
    simp only [Job.owes, Bool.and_eq_true] at howes
    exact howes.1.2
  · obtain ⟨data, -, rfl⟩ := Option.map_eq_some_iff.mp (Option.mem_toList.mp hmem)
    simp only [Job.owes, Bool.and_eq_true] at howes
    exact howes.2

theorem not_announced_of_step (hstep : subject ∈ stepTopics) : subject ∉ announcedTopics := by
  rcases List.mem_pair.mp hstep with rfl | rfl <;> decide

/-- Each command that asks for a report was sent by `t`. -/
theorem Sound.asked_le_sent (hs : Sound h) (hu : Uncompensated h) (t : String)
    (hstep : subject ∈ stepTopics) :
    h.posted (asks t subject) ≤
      h.order.world.history.countP (sends t (.step subject.value)) := by
  have hnot := not_announced_of_step hstep
  refine posted_le_sent (fun q hq ha => ?_) (fun q hq ha => ?_) fun event hmem ha => ?_
  · obtain ⟨htopic, hnames⟩ := names_of_asks hstep ha
    obtain ⟨u, options, hcreated, -, ⟨hpub, hkey, hevent⟩ | ⟨hpub, -⟩⟩ :=
      command_origin hs.order hq hnot htopic
    · obtain ⟨huuid, order, -, rfl⟩ := hs.consistent.started u options hcreated
      have hid : namesTransaction t (stepCommand u (sagaOptions order).payload
          subject.value).message = true := hevent ▸ hnames
      simp only [namesTransaction, (commandOf_stepCommand order u _).transactionId, Json.str?,
        beq_iff_eq] at hid
      simp [sends, signal, hpub, hkey, hid, htopic, Publisher.awaited]
    · exact absurd hpub (hu q hq)
  · obtain ⟨htopic, -⟩ := names_of_asks hstep ha
    obtain ⟨u, options, hcreated, -⟩ := command_origin hs.invoice hq hnot htopic
    exact passive_not_created (fun _ _ hl => hl) hs.invoice u options hcreated
  · obtain ⟨htopic, -⟩ := names_of_asks hstep ha
    rcases hs.services.subject_cases hmem htopic with rfl | rfl
    · exact absurd hstep (by decide)
    · exact absurd hstep (by decide)

/-- What is reported of a step is what the services have published. -/
theorem Sound.posted_step (hs : Sound h) (t name : String) :
    h.posted (answers t (.step name)) = h.db.published.countP (answers t (.step name)) := by
  have horder : h.order.world.history.countP (publishes (answers t (.step name))) = 0 := by
    refine List.countP_eq_zero.mpr fun entry hmem ha => ?_
    cases entry with
    | published q => cases hs.step_answered (mem_published_order hmem) ha
    | _ => cases ha
  have hinvoice : h.invoice.world.history.countP (publishes (answers t (.step name))) = 0 := by
    refine List.countP_eq_zero.mpr fun entry hmem ha => ?_
    cases entry with
    | published q => cases hs.step_answered (mem_published_invoice hmem) ha
    | _ => cases ha
  rw [posted_eq, horder, hinvoice, Nat.zero_add]

/-- So there are no more reports of a step than the step was commanded. -/
theorem Sound.step_le_sent (hs : Sound h) (hu : Uncompensated h) (ho : Once h) (hw : Owed h)
    (t : String) (hstep : subject ∈ stepTopics) :
    h.posted (answers t (.step subject.value)) ≤
      h.order.world.history.countP (sends t (.step subject.value)) :=
  calc h.posted (answers t (.step subject.value))
      = h.db.published.countP (answers t (.step subject.value)) := hs.posted_step t _
    _ ≤ h.handed (stepGroup subject) (asks t subject) :=
        (Nat.le_add_left _ _).trans (hw t subject hstep).ge
    _ ≤ h.posted (asks t subject) := ho.handed_le_posted _ _
    _ ≤ h.order.world.history.countP (sends t (.step subject.value)) := hs.asked_le_sent hu t hstep

/-- The forward commands of an order that can be approved ask for reports. -/
theorem Sound.asks_of_command (hs : Sound h) (hplaced : order ∈ h.placed)
    (huser : order.userId ≠ "") (hpos : 0 < order.totalAmount) (hstep : subject ∈ stepTopics) :
    asks t subject (stepCommand t (sagaOptions order).payload subject.value) = true := by
  have hc := commandOf_stepCommand order t subject.value
  have hnames : namesTransaction t
      (stepCommand t (sagaOptions order).payload subject.value).message = true := by
    simp [namesTransaction, hc.transactionId, Json.str?]
  have hreason : Json.truthy ((stepCommand t (sagaOptions order).payload
      subject.value).message.lookup "failureReason") = false := by
    rw [hc.failureReason]
    exact decide_eq_false (not_le.mpr hpos)
  refine Bool.and_eq_true_iff.mpr ⟨beq_iff_eq.mpr rfl, ?_⟩
  rcases List.mem_pair.mp hstep with rfl | rfl
  · simp [startedBy, Job.ofUpdate, hc.updateTarget, Job.owes, hnames, hreason]
  · simp [startedBy, Job.ofInvoice, hc.invoiceOf (hs.consistent.id_ne_empty hplaced), huser,
      Job.owes, hnames]

end Hub

end InvoiceHub
