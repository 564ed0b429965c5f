import InvoiceHub.Transaction.Lifecycle

/-!
# The coordinator's own messages

Compensation and completion are announced by the coordinator itself.  In a run whose
transactions name no step like one of these topics, an event on such a topic was published by
the method whose message it carries (`own_published`).
-/

namespace InvoiceHub.Transaction

open Effects

/-! ## Own topics -/

/-- The method that publishes on a topic of the coordinator's own. -/
def ownMethod : Subjects → Option Publisher
  | .TRANSACTION_COMPENSATION_START => some .handleStartCompensation
  | .TRANSACTION_COMPENSATION_COMPLETED => some .handleExecuteCompensation
  | .TRANSACTION_COMPLETED => some .handleCompleteTransaction
  | _ => none

/-- A name that is a topic of the coordinator's own. -/
def ownTopic (name : String) : Bool :=
  [Subjects.TRANSACTION_COMPENSATION_START, .TRANSACTION_COMPENSATION_COMPLETED,
    .TRANSACTION_COMPLETED].any fun subject => subject.value == name

theorem ownTopic_value {subject : Subjects} {method : Publisher}
    (h : ownMethod subject = some method) : ownTopic subject.value = true := by
  cases subject with
  | TRANSACTION_COMPENSATION_START | TRANSACTION_COMPENSATION_COMPLETED
  | TRANSACTION_COMPLETED => decide
  | _ => cases h

/-- The law that no step is named like an own topic. -/
def Law.unreserved : Law where
  holds key content := Law.keyedOnly.holds key content ∧
    ∀ value, content = some value → ∀ d ∈ value.steps.map TransactionStep.declared,
      ownTopic d.1 = false
  keyed h := Law.keyedOnly.keyed h.1
  enacted := by
    rintro key r r' ⟨hk, h⟩ he
    refine ⟨Law.keyedOnly.enacted hk he, ?_⟩
    rintro _ ⟨⟩ d hd
    refine h _ rfl d ?_
    change d ∈ r.steps.map TransactionStep.declared
    rw [← he.transition.declared]
    exact hd
  invented := by
    rintro key content value ⟨hk, _⟩ hn hi
    refine ⟨Law.keyedOnly.invented hk hn hi, ?_⟩
    rintro _ ⟨⟩ d hd
    rw [hi.steps] at hd
    cases hd
  mention r := ∀ d ∈ r.steps.map TransactionStep.declared, ownTopic d.1 = false
  mentioned h := h.2 _ rfl

@[simp] theorem ofMessage_outcomeMessage (subject : Subjects) (id processType : Option String) :
    TransactionEvent.ofMessage (outcomeMessage subject id processType).message =
      ⟨id, processType, none, none⟩ := by
  simp [TransactionEvent.ofMessage, outcomeMessage, JsonObject.lookup_put]

@[simp] theorem ofMessage_compensationStart (r : DistributedTransaction) (failedStep : String) :
    TransactionEvent.ofMessage (compensationStart r failedStep).message =
      ⟨some r.transactionId, some r.processType.value, none, none⟩ := by
  simp [TransactionEvent.ofMessage, compensationStart, outcomeMessage, JsonObject.lookup_put]

/-- What is published on an own topic under the law is the message of its method, for the
transaction it names. -/
theorem own_of_reported {subject : Subjects} {method : Publisher}
    (hm : ownMethod subject = some method) {p : Publication}
    (h : Law.unreserved.Announced (transactionKey p.transactionId) p ∨ Law.unreserved.Mentioned p)
    (ht : p.event.topicName = subject.value) :
    p.publisher = method ∧
      transactionKey (TransactionEvent.ofMessage p.event.message).transactionId =
        transactionKey p.transactionId := by
  have hstep : ∀ (r : DistributedTransaction) (step : TransactionStep),
      (∀ d ∈ r.steps.map TransactionStep.declared, ownTopic d.1 = false) → step ∈ r.steps →
      step.name ≠ subject.value := by
    intro r step hr hmem hname
    have := hr step.declared (List.mem_map_of_mem hmem)
    rw [show step.declared.1 = subject.value from hname, ownTopic_value hm] at this
    cases this
  rcases h with ⟨r, id, hr, hid, ha, -⟩ | ⟨r, hr, hmen, -⟩
  · cases ha with
    | command step _ hget =>
      exact absurd ht (hstep r step (hr.2 _ rfl) (List.mem_of_getElem? hget))
    | completed =>
      obtain rfl : Subjects.TRANSACTION_COMPLETED = subject := Subjects.value_injective ht
      cases hm
      exact ⟨rfl, by rw [ofMessage_outcomeMessage]; exact Law.unreserved.key_eq hr⟩
    | compensationStart step _ =>
      obtain rfl : Subjects.TRANSACTION_COMPENSATION_START = subject := Subjects.value_injective ht
      cases hm
      exact ⟨rfl, by rw [ofMessage_compensationStart]; exact Law.unreserved.key_eq hr⟩
    | compensated processType =>
      obtain rfl : Subjects.TRANSACTION_COMPENSATION_COMPLETED = subject := Subjects.value_injective ht
      cases hm
      exact ⟨rfl, by rw [ofMessage_outcomeMessage]⟩
    | notification errorMessage type date =>
      obtain rfl : Subjects.TRANSACTION_USER_NOTIFICATION = subject := Subjects.value_injective ht
      cases hm
  · cases hmen with
    | compensation step hmem =>
      have hmem : step ∈ r.steps :=
        List.mem_of_mem_take (List.mem_filter.mp (List.mem_reverse.mp hmem)).1
      exact absurd ht (hstep r step hr hmem)
    | timeout =>
      obtain rfl : Subjects.TRANSACTION_TIMEOUT = subject := Subjects.value_injective ht
      cases hm

/-- What `handleCompleteTransaction` publishes announces the completion of its transaction. -/
theorem completed_of_reported {L : Law} {s : Cluster} (h : Reported L s) {p : Publication}
    (hp : .published p ∈ s.world.history) (hpub : p.publisher = .handleCompleteTransaction) :
    p.event.topicName = Subjects.TRANSACTION_COMPLETED.value ∧
      transactionKey (TransactionEvent.ofMessage p.event.message).transactionId =
        transactionKey p.transactionId := by
  rcases h p hp with ⟨r, id, hr, hid, ha, -⟩ | ⟨r, -, hm, -⟩
  · cases ha with
    | completed =>
      refine ⟨rfl, ?_⟩
      rw [ofMessage_outcomeMessage]
      exact L.key_eq hr
    | _ => cases hpub
  · cases hm <;> cases hpub

/-! ## Closed runs -/

/-- A message has been published on the topic `subject` that parses to `event`. -/
def wasPublished (history : List Entry) (subject : Subjects) (event : TransactionEvent) : Bool :=
  history.any fun
    | .published p => p.event.topicName == subject.value &&
        TransactionEvent.ofMessage p.event.message == event
    | _ => false

/-- Handlers of one transaction do not overlap; step events and timeouts arrive as they may, while
what arrives on an own topic has been published there. -/
def ownPolicy : Cluster.Policy := fun s label =>
  match label with
  | .deliver _ subject event => s.idle (transactionKey event.transactionId) &&
      ((ownMethod subject).isNone || wasPublished s.world.history subject event)
  | _ => true

/-- Besides, no transaction names a step like an own topic. -/
def closedPolicy : Cluster.Policy := fun s label =>
  ownPolicy s label &&
    match label with
    | .start options _ _ => options.steps.all fun step => !ownTopic step.1
    | _ => true

section Closed

variable {policy : Cluster.Policy} {s : Cluster}

theorem unreserved_newTransaction {options : TransactionOptions}
    (h : (options.steps.all fun step => !ownTopic step.1) = true) (t : String) (date : Date) :
    Law.unreserved.holds (transactionKey (some t))
      (some (newTransaction options t date).serialize) := by
  refine ⟨fun _ hv => by cases hv; exact wellKeyed_serialize _, ?_⟩
  rintro _ ⟨⟩ d hd
  have hd' : d ∈ options.steps := by
    simpa [DistributedTransaction.serialize, newTransaction, TransactionStep.declared,
      Function.comp_def] using hd
  simpa using List.all_eq_true.mp h d hd'

/-- Runs that start no transaction with a reserved step keep to the law, and so does what they
publish. -/
theorem unreserved_reachable
    (hp : ∀ s options t date, policy s (.start options t date) = true →
      (options.steps.all fun step => !ownTopic step.1) = true)
    (h : Cluster.Reachable policy s) : Lawful Law.unreserved s ∧ Reported Law.unreserved s := by
  refine h.induction (P := fun s => Lawful Law.unreserved s ∧ Reported Law.unreserved s)
    ⟨.initial ?_, .initial⟩ ?_
  · exact fun key => ⟨nofun, nofun⟩
  · rintro s s' - ⟨hl, hrep⟩ ⟨label, hlabel, hf⟩
    refine ⟨hl.fire hf Facts.cover_any ?_, hrep.fire hl hf⟩
    rintro options t date rfl
    exact unreserved_newTransaction (hp s options t date hlabel) t date

theorem closed_reachable (hp : ∀ s label, policy s label = true → closedPolicy s label = true)
    (h : Cluster.Reachable policy s) : Lawful Law.unreserved s ∧ Reported Law.unreserved s :=
  unreserved_reachable (fun s _ _ _ hs => (Bool.and_eq_true_iff.mp (hp s _ hs)).2) h

/-- What has been published on an own topic was announced for its transaction, by the method of
that topic. -/
theorem announced_of_wasPublished
    (hp : ∀ s label, policy s label = true → closedPolicy s label = true)
    (h : Cluster.Reachable policy s) {subject : Subjects} {event : TransactionEvent}
    {method : Publisher} (hm : ownMethod subject = some method)
    (hw : wasPublished s.world.history subject event = true) {t : String}
    (hk : transactionKey event.transactionId = transactionKey (some t)) :
    ∃ p, .published p ∈ (s.world.view t).history ∧ p.publisher = method := by
  obtain ⟨entry, hmem, he⟩ := List.any_eq_true.mp hw
  cases entry with
  | published p =>
    simp only [Bool.and_eq_true, beq_iff_eq] at he
    obtain ⟨hpub, hkey⟩ := own_of_reported hm ((closed_reachable hp h).2 p hmem) he.1
    rw [he.2, hk] at hkey
    refine ⟨p, List.mem_filter.mpr ⟨hmem, ?_⟩, hpub⟩
    have hawaited : p.publisher.awaited = true := by
      rw [hpub]
      cases subject <;> cases hm <;> rfl
    simp [Entry.concerns, ← hkey, hawaited]
  | _ => cases he

/-- An event of an own topic that reaches a transaction has been announced for it. -/
theorem own_published (hp : ∀ s label, policy s label = true → closedPolicy s label = true)
    (h : Cluster.Reachable policy s) {clientId : ClientIds} {subject : Subjects}
    {event : TransactionEvent} {method : Publisher} (hm : ownMethod subject = some method)
    (hd : policy s (.deliver clientId subject event) = true) {t : String}
    (hk : transactionKey event.transactionId = transactionKey (some t)) :
    ∃ p, .published p ∈ (s.world.view t).history ∧ p.publisher = method := by
  have hc := hp _ _ hd
  simp only [closedPolicy, ownPolicy, hm, Option.isNone_some, Bool.false_or, Bool.and_eq_true,
    Bool.and_true] at hc
  exact announced_of_wasPublished hp h hm hc.2 hk

end Closed

end InvoiceHub.Transaction
