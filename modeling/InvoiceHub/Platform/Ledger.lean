import InvoiceHub.Platform.Approval
import InvoiceHub.Platform.Deliveries
import InvoiceHub.Transaction.Turns

/-!
# Commands and reports

A ledger of what the services owe: each command that is handed to a service and asks for a report
leads to one report (`Owed.moves`).  The coordinator of the order service hears the answers that
its group was handed (`Heard.moves`).
-/

namespace InvoiceHub

open Effects Transaction Services

/-- The topics of the steps of the order approval. -/
def stepTopics : List Subjects :=
  [.ORDER_APPROVAL_STEP_UPDATE_ORDER_STATUS, .ORDER_APPROVAL_STEP_INVOICE_GENERATE]

/-! ## Answers -/

/-- The message, once it is handed to a coordinator, answers `σ` of `t`. -/
def answers (t : String) (σ : Signal) (event : EventMessage) : Bool :=
  coordinatorTopics.any fun subject => event.topicName == subject.value &&
    hears t σ (.received subject (TransactionEvent.ofMessage event.message))

section Answers

variable {t : String} {σ : Signal} {subject : Subjects} {event : EventMessage}

theorem answers_iff : answers t σ event = true ↔
    ∃ subject ∈ coordinatorTopics, event.topicName = subject.value ∧
      hears t σ (.received subject (TransactionEvent.ofMessage event.message)) = true := by
  simp only [answers, List.any_eq_true, Bool.and_eq_true, beq_iff_eq]

/-- Its topic says what a message answers. -/
theorem answers_eq (ht : event.topicName = subject.value) (hs : subject ∈ coordinatorTopics) :
    answers t σ event =
      hears t σ (.received subject (TransactionEvent.ofMessage event.message)) := by
  rw [Bool.eq_iff_iff, answers_iff]
  constructor
  · rintro ⟨other, -, hother, hhears⟩
    rwa [Subjects.value_injective (ht.symm.trans hother)]
  · exact fun hhears => ⟨subject, hs, ht, hhears⟩

theorem answers_eq_false (ht : event.topicName = subject.value) (hs : subject ∉ coordinatorTopics) :
    answers t σ event = false := by
  rw [Bool.eq_false_iff]
  intro ha
  obtain ⟨other, hmem, hother, -⟩ := answers_iff.mp ha
  rw [Subjects.value_injective (ht.symm.trans hother)] at hs
  exact hs hmem

end Answers

/-! ## What is owed -/

/-- The message names `t`. -/
def namesTransaction (t : String) (message : JsonObject) : Bool :=
  transactionKey (Json.str? (message.lookup "transactionId")) == transactionKey (some t)

/-- The job leads to a report of the step on the topic `subject`, for `t`. -/
def Services.Job.owes (t : String) (subject : Subjects) : Job → Bool
  | .find message _ => decide (subject = .ORDER_APPROVAL_STEP_UPDATE_ORDER_STATUS) &&
      namesTransaction t message && !Json.truthy (message.lookup "failureReason")
  | .save message _ => decide (subject = .ORDER_APPROVAL_STEP_UPDATE_ORDER_STATUS) &&
      namesTransaction t message && !Json.truthy (message.lookup "failureReason")
  | .invoice message _ => decide (subject = .ORDER_APPROVAL_STEP_INVOICE_GENERATE) &&
      namesTransaction t message
  | .publish event => answers t (.step subject.value) event
  | _ => false

/-- The group that handles a step. -/
def stepGroup : Subjects → GroupIds
  | .ORDER_APPROVAL_STEP_UPDATE_ORDER_STATUS => .ORDER_SERVICE_TRANSACTION_GROUP
  | _ => .INVOICE_SERVICE_APP_GROUP

/-- The jobs that it starts for a command. -/
def startedBy (message : JsonObject) : Subjects → List Job
  | .ORDER_APPROVAL_STEP_UPDATE_ORDER_STATUS => Job.ofUpdate message
  | .ORDER_APPROVAL_STEP_INVOICE_GENERATE => Job.ofInvoice message
  | _ => []

/-- The message asks for a report of the step on the topic `subject`, for `t`. -/
def asks (t : String) (subject : Subjects) (event : EventMessage) : Bool :=
  event.topicName == subject.value && (startedBy event.message subject).any (Job.owes t subject)

section Jobs

variable {t : String} {subject : Subjects} {event : EventMessage}

theorem answers_orderUpdated (t : String) (subject : Subjects) (message : JsonObject) :
    answers t (.step subject.value) (orderUpdated message) =
      (decide (subject = .ORDER_APPROVAL_STEP_UPDATE_ORDER_STATUS) &&
        namesTransaction t message) := by
  have htopic : (orderUpdated message).topicName = Subjects.TRANSACTION_STEP_COMPLETED.value := rfl
  rw [answers_eq htopic (by decide), Hub.ofMessage_orderUpdated, Bool.eq_iff_iff]
  simp only [hears, reply, namesTransaction, Bool.and_eq_true, beq_iff_eq, Signal.step.injEq,
    Subjects.value_inj, decide_eq_true_eq, eq_comm (a := subject), and_comm]

theorem answers_invoiceGenerated (t : String) (subject : Subjects) (message : JsonObject)
    (invoice : Invoice) : answers t (.step subject.value) (invoiceGenerated message invoice) =
      (decide (subject = .ORDER_APPROVAL_STEP_INVOICE_GENERATE) &&
        namesTransaction t message) := by
  have htopic : (invoiceGenerated message invoice).topicName =
    Subjects.TRANSACTION_STEP_COMPLETED.value := rfl
  rw [answers_eq htopic (by decide), Hub.ofMessage_invoiceGenerated, Bool.eq_iff_iff]
  simp only [hears, reply, namesTransaction, Bool.and_eq_true, beq_iff_eq, Signal.step.injEq,
    Subjects.value_inj, decide_eq_true_eq, eq_comm (a := subject), and_comm]

theorem answers_notification (t : String) (σ : Signal) (transactionId : String) (order : Order)
    (reason : String) (timestamp : Date) :
    answers t σ (handleTransactionUserNotification transactionId order reason timestamp) =
      false := by
  have htopic : (handleTransactionUserNotification transactionId order reason timestamp).topicName =
    Subjects.TRANSACTION_USER_NOTIFICATION.value := rfl
  exact answers_eq_false htopic (by decide)

/-- The answer to the call of a job leaves as much to report as the job had, or reports it. -/
theorem owes_answer (job : Job) (choice : Choice) (db : Database)
    (hfound : ∀ message target, job = .find message target →
      ∃ row, db.findOne choice (Json.str? (message.lookup "orderId")) = some row) :
    (job.answer choice db).1.countP (Job.owes t subject) +
        (job.answer choice db).2.published.countP (answers t (.step subject.value)) =
      [job].countP (Job.owes t subject) + db.published.countP (answers t (.step subject.value)) := by
  cases job with
  | awaitStarted order u =>
    by_cases hle : order.totalAmount ≤ 0
    · simp [Job.answer, hle, Job.owes]
    · simp [Job.answer, hle, Job.owes]
  | stamp order u =>
    simp [Job.answer, Job.owes, answers_notification]
  | find message target =>
    obtain ⟨row, hrow⟩ := hfound message target rfl
    simp [Job.answer, hrow, Job.owes]
  | save message order =>
    cases hfail : Json.truthy (message.lookup "failureReason") with
    | true => simp [Job.answer, Job.owes, hfail, Database.saveOrder]
    | false => simp [Job.answer, Job.owes, hfail, Database.saveOrder, answers_orderUpdated]
  | invoice message data =>
    simp [Job.answer, Job.owes, Database.saveInvoice, answers_invoiceGenerated]
  | publish event =>
    simp only [Job.answer, List.countP_nil, List.countP_append, Nat.zero_add]
    rw [Nat.add_comm]
    rfl
  | _ => rfl

/-- A command starts the one report that it asks for. -/
theorem countP_startedBy {delivered : Subjects} (hd : delivered ∈ stepTopics)
    (hs : subject ∈ stepTopics) (ht : event.topicName = delivered.value) :
    (startedBy event.message delivered).countP (Job.owes t subject) =
      if stepGroup delivered = stepGroup subject ∧ asks t subject event = true then 1 else 0 := by
  have hlist : ∀ l : List Job, l.length ≤ 1 →
      l.countP (Job.owes t subject) = if l.any (Job.owes t subject) = true then 1 else 0 := by
    intro l hl
    match l, hl with
    | [], _ => rfl
    | [job], _ => simp [List.countP_singleton]
  rcases List.mem_pair.mp hd with rfl | rfl
  · rcases List.mem_pair.mp hs with rfl | rfl
    · rw [hlist _ (by
        unfold startedBy Job.ofUpdate
        cases updateTarget event.message <;> simp)]
      simp [asks, ht]
    · have hgroup : stepGroup .ORDER_APPROVAL_STEP_UPDATE_ORDER_STATUS ≠
        stepGroup .ORDER_APPROVAL_STEP_INVOICE_GENERATE := by decide
      rw [if_neg (fun h => hgroup h.1)]
      unfold startedBy Job.ofUpdate
      cases updateTarget event.message <;> simp [Job.owes]
  · rcases List.mem_pair.mp hs with rfl | rfl
    · have hgroup : stepGroup .ORDER_APPROVAL_STEP_INVOICE_GENERATE ≠
        stepGroup .ORDER_APPROVAL_STEP_UPDATE_ORDER_STATUS := by decide
      rw [if_neg (fun h => hgroup h.1)]
      unfold startedBy Job.ofInvoice
      cases invoiceOf event.message <;> simp [Job.owes]
    · rw [hlist _ (by
        unfold startedBy Job.ofInvoice
        cases invoiceOf event.message <;> simp)]
      simp [asks, ht]

/-- A message on another topic asks for nothing. -/
theorem asks_eq_false {other : Subjects} (ht : event.topicName = other.value)
    (hne : other ≠ subject) : asks t subject event = false := by
  have hvalue : event.topicName ≠ subject.value := by
    rw [ht]
    exact fun heq => hne (Subjects.value_injective heq)
  simp [asks, hvalue]

end Jobs

namespace Hub

variable {h h' : Hub} {label : Platform.Label}

/-! ## The ledgers -/

/-- The coordinator of the order service has heard what its group was handed. -/
def Heard (h : Hub) : Prop :=
  ∀ t σ, h.order.world.history.countP (hears t σ) =
    h.handed .ORDER_SERVICE_TRANSACTION_GROUP (answers t σ)

theorem Heard.initial : Heard initial := fun _ _ => rfl

theorem Heard.moves (hh : Heard h) (ho : Once h) (hm : h.Moves label h') : Heard h' := by
  intro t σ
  have hstays := fun hd => ho.handed_stays hm hd .ORDER_SERVICE_TRANSACTION_GROUP (answers t σ)
  cases hm with
  | orderReceives hc htopic hf =>
    rw [ho.handed_deliver (.orderReceives hc htopic hf) hc rfl, ← hh t σ,
      countP_hears_deliver hf, List.countP_singleton, answers_eq hc.topic htopic]
    simp
  | order hi hf =>
    rw [hstays rfl, ← hh t σ]
    exact countP_hears_fire hf (by rintro clientId subject event rfl; cases hi) t σ
  | answer choice hjobs hc =>
    rw [hstays rfl, ← hh t σ]
    rcases coordinate_cases hc with rfl | ⟨order, rfl, -, hf⟩
    · rfl
    · exact countP_hears_fire hf nofun t σ
  | invoiceReceives hc htopic hf =>
    rw [ho.handed_deliver (.invoiceReceives hc htopic hf) hc rfl, if_neg (by simp)]
    exact hh t σ
  | update hc =>
    rw [ho.handed_deliver (.update hc) hc rfl, answers_eq_false hc.topic (by decide),
      if_neg (by simp)]
    exact hh t σ
  | generate hc =>
    rw [ho.handed_deliver (.generate hc) hc rfl, if_neg (by simp)]
    exact hh t σ
  | notify hc =>
    rw [ho.handed_deliver (.notify hc) hc rfl, if_neg (by simp)]
    exact hh t σ
  | _ =>
    rw [hstays rfl]
    exact hh t σ

/-- The services owe a report for each command that asked for one, or have published it. -/
def Owed (h : Hub) : Prop :=
  ∀ t, ∀ subject ∈ stepTopics, h.handed (stepGroup subject) (asks t subject) =
    h.jobs.countP (Job.owes t subject) + h.db.published.countP (answers t (.step subject.value))

theorem Owed.initial : Owed initial := fun _ _ _ => rfl

theorem Owed.moves (hw : Owed h) (ho : Once h)
    (hfound : ∀ message target choice, .find message target ∈ h.jobs →
      ∃ row, h.db.findOne choice (Json.str? (message.lookup "orderId")) = some row)
    (hm : h.Moves label h') (hp : Platform.reliable h.toPlatform label = true) : Owed h' := by
  intro t subject hs
  have hstays := fun hd => ho.handed_stays hm hd (stepGroup subject) (asks t subject)
  have hother : ∀ {topic : Subjects}, topic ∉ stepTopics → topic ≠ subject := by
    rintro topic hnot rfl
    exact hnot hs
  have hcoordinator : ∀ {topic : Subjects}, topic ∈ coordinatorTopics → topic ≠ subject := by
    intro topic htopic
    refine hother fun hmem => ?_
    rcases List.mem_pair.mp hmem with rfl | rfl
    · exact absurd htopic (by decide)
    · exact absurd htopic (by decide)
  cases hm with
  | createOrder userId totalAmount =>
    rw [hstays rfl, hw t subject hs]
    simp [Job.owes]
  | orderReceives hc htopic hf =>
    rw [ho.handed_deliver (.orderReceives hc htopic hf) hc rfl,
      asks_eq_false hc.topic (hcoordinator htopic), if_neg (by simp)]
    exact hw t subject hs
  | invoiceReceives hc htopic hf =>
    rw [ho.handed_deliver (.invoiceReceives hc htopic hf) hc rfl,
      asks_eq_false hc.topic (hcoordinator htopic), if_neg (by simp)]
    exact hw t subject hs
  | update hc =>
    have hstarted := countP_startedBy (t := t) (List.mem_cons_self ..) hs hc.topic
    rw [ho.handed_deliver (.update hc) hc rfl, hw t subject hs, List.countP_append,
      Nat.add_right_comm]
    exact congrArg (_ + · + _) hstarted.symm
  | generate hc =>
    have hstarted := countP_startedBy (t := t) (List.mem_cons_of_mem _ (List.mem_cons_self ..)) hs
      hc.topic
    rw [ho.handed_deliver (.generate hc) hc rfl, hw t subject hs, List.countP_append,
      Nat.add_right_comm]
    exact congrArg (_ + · + _) hstarted.symm
  | notify hc =>
    rw [ho.handed_deliver (.notify hc) hc rfl, asks_eq_false hc.topic (hother (by decide)),
      if_neg (by simp)]
    exact hw t subject hs
  | @answer before after job choice cluster hjobs hc =>
    have hanswer := @owes_answer t subject job choice h.db fun message target heq =>
      hfound message target choice (by simp [hjobs, heq])
    have hold := hw t subject hs
    rw [hjobs] at hold
    rw [hstays rfl]
    simp only [List.countP_append, List.countP_cons, List.countP_nil] at hold hanswer ⊢
    omega
  | reject _ => cases hp
  | abandon _ => cases hp
  | _ =>
    rw [hstays rfl]
    exact hw t subject hs

end Hub

end InvoiceHub
