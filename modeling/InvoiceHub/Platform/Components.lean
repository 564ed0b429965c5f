import InvoiceHub.Platform.Hub

/-!
# The components of a run of the platform

What a step of the platform does to each of its components: the coordinators take steps of
their own, and a run of the platform is a run of each of them (`Moves.order_reachable`,
`Moves.invoice_reachable`).  Rows, jobs and messages come from where `Moves.db_cases`,
`Moves.job_cases` and `Moves.published_grows` say.
-/

namespace InvoiceHub

open Effects Transaction Services

namespace Hub

variable {h h' : Hub} {label : Platform.Label}

/-! ## The coordinators -/

/-- The step of the order coordinator in a step of the platform. -/
inductive OrderLabel (h : Hub) : Platform.Label → Cluster.Label → Prop where
  | start {before after : List Job} {order : Order} (choice : Choice) :
      h.jobs = before ++ .start order :: after → Platform.isUuid choice.uuid = true →
      OrderLabel h (.advance before.length choice)
        (.start (sagaOptions order) choice.uuid choice.date)
  | receive {subject : Subjects} {source : Source} {index : Nat} {event : EventMessage} :
      h.Carries source index subject event → subject ∈ coordinatorTopics →
      OrderLabel h (.deliver .ORDER_SERVICE_TRANSACTION_GROUP subject source index)
        (.deliver .ORDER_SERVICE subject (TransactionEvent.ofMessage event.message))
  | internal {label : Cluster.Label} : Platform.internal label = true →
      OrderLabel h (.order label) label

/-- The step of the invoice coordinator in a step of the platform. -/
inductive InvoiceLabel (h : Hub) : Platform.Label → Cluster.Label → Prop where
  | receive {subject : Subjects} {source : Source} {index : Nat} {event : EventMessage} :
      h.Carries source index subject event → subject ∈ coordinatorTopics →
      InvoiceLabel h (.deliver .INVOICE_SERVICE_TRANSACTION_GROUP subject source index)
        (.deliver .INVOICE_SERVICE subject (TransactionEvent.ofMessage event.message))
  | internal {label : Cluster.Label} : Platform.internal label = true →
      InvoiceLabel h (.invoice label) label

/-- The coordinator starts the saga of an order under the id that was drawn. -/
theorem coordinate_start {choice : Choice} {o : Order} {order : Cluster}
    (hc : h.toPlatform.coordinate choice (Job.start o).call = some order) :
    Platform.isUuid choice.uuid = true ∧
      h.order.fire (.start (sagaOptions o) choice.uuid choice.date) = some order := by
  simp only [Job.call, Platform.coordinate] at hc
  split at hc
  · rename_i hu
    exact ⟨hu, hc⟩
  · cases hc

/-- Only the start of a saga asks something of the coordinator. -/
theorem coordinate_cases {choice : Choice} {job : Job} {order : Cluster}
    (hc : h.toPlatform.coordinate choice job.call = some order) :
    order = h.order ∨ ∃ o, job = .start o ∧ Platform.isUuid choice.uuid = true ∧
      h.order.fire (.start (sagaOptions o) choice.uuid choice.date) = some order := by
  cases job with
  | start o => exact .inr ⟨o, rfl, coordinate_start hc⟩
  | insert userId totalAmount =>
    simp only [Job.call, Platform.coordinate] at hc
    split at hc
    · exact .inl (Option.some_inj.mp hc).symm
    · cases hc
  | awaitStarted o t =>
    simp only [Job.call, Platform.coordinate] at hc
    split at hc
    · cases hc
    · exact .inl (Option.some_inj.mp hc).symm
  | _ => exact .inl (Option.some_inj.mp hc).symm

/-- The id of an order is new when the order is inserted. -/
theorem coordinate_insert {choice : Choice} {userId : String} {totalAmount : Rat}
    {order : Cluster}
    (hc : h.toPlatform.coordinate choice (Job.insert userId totalAmount).call = some order) :
    Platform.isUuid choice.uuid = true ∧ h.db.order? choice.uuid = none := by
  simp only [Job.call, Platform.coordinate] at hc
  split at hc
  · rename_i hu
    rw [Bool.and_eq_true, Option.isNone_iff_eq_none] at hu
    exact hu
  · cases hc

theorem Moves.order_cases (hm : h.Moves label h') :
    h'.order = h.order ∨ ∃ l, h.OrderLabel label l ∧ h.order.fire l = some h'.order := by
  cases hm with
  | orderReceives hc ht hf => exact .inr ⟨_, .receive hc ht, hf⟩
  | order hi hf => exact .inr ⟨_, .internal hi, hf⟩
  | answer choice hjobs hc =>
    rcases coordinate_cases hc with heq | ⟨o, rfl, hu, hf⟩
    · exact .inl heq
    · exact .inr ⟨_, .start choice hjobs hu, hf⟩
  | _ => exact .inl rfl

theorem Moves.invoice_cases (hm : h.Moves label h') :
    h'.invoice = h.invoice ∨ ∃ l, h.InvoiceLabel label l ∧ h.invoice.fire l = some h'.invoice := by
  cases hm with
  | invoiceReceives hc ht hf => exact .inr ⟨_, .receive hc ht, hf⟩
  | invoice hi hf => exact .inr ⟨_, .internal hi, hf⟩
  | _ => exact .inl rfl

/-- A step of the platform is a step of the order coordinator, or none. -/
theorem Moves.order_reachable {policy : Cluster.Policy} (hm : h.Moves label h')
    (hr : Cluster.Reachable policy h.order)
    (hp : ∀ l, h.OrderLabel label l → policy h.order l = true) :
    Cluster.Reachable policy h'.order := by
  rcases hm.order_cases with heq | ⟨l, hl, hf⟩
  · rw [heq]
    exact hr
  · exact hr.fire (hp l hl) hf

theorem Moves.invoice_reachable {policy : Cluster.Policy} (hm : h.Moves label h')
    (hr : Cluster.Reachable policy h.invoice)
    (hp : ∀ l, h.InvoiceLabel label l → policy h.invoice l = true) :
    Cluster.Reachable policy h'.invoice := by
  rcases hm.invoice_cases with heq | ⟨l, hl, hf⟩
  · rw [heq]
    exact hr
  · exact hr.fire (hp l hl) hf

/-- The invoice coordinator starts no transaction. -/
theorem InvoiceLabel.not_start {l : Cluster.Label} (hl : h.InvoiceLabel label l)
    (options : TransactionOptions) (t : String) (date : Date) : l ≠ .start options t date := by
  rintro rfl
  cases hl with
  | internal hi => cases hi

/-! ## The services -/

/-- In the step, `job` is answered. -/
structure Answered (h h' : Hub) (job : Job) (choice : Choice) (order : Cluster) : Prop where
  mem : job ∈ h.jobs
  coordinated : h.toPlatform.coordinate choice job.call = some order
  order : h'.order = order
  db : h'.db = (job.answer choice h.db).2
  placed : h'.placed = h.placed ++ Platform.placedBy choice job.call

/-- The tables change where a job is answered. -/
theorem Moves.db_cases (hm : h.Moves label h') :
    (h'.db = h.db ∧ h'.placed = h.placed) ∨
      ∃ job choice order, h.Answered h' job choice order := by
  cases hm with
  | answer choice hjobs hc => exact .inr ⟨_, choice, _, by simp [hjobs], hc, rfl, rfl, rfl⟩
  | _ => exact .inl ⟨rfl, rfl⟩

/-- Where a job that is left to do comes from. -/
inductive JobOrigin (h h' : Hub) : Platform.Label → Job → Prop where
  | stays {label : Platform.Label} {job : Job} : job ∈ h.jobs → JobOrigin h h' label job
  | insert (userId : String) (totalAmount : Rat) :
      JobOrigin h h' (.createOrder userId totalAmount) (.insert userId totalAmount)
  | update {group : GroupIds} {source : Source} {index : Nat} {event : EventMessage}
      {target : OrderStatus} :
      h.Carries source index .ORDER_APPROVAL_STEP_UPDATE_ORDER_STATUS event →
      updateTarget event.message = some target →
      JobOrigin h h' (.deliver group .ORDER_APPROVAL_STEP_UPDATE_ORDER_STATUS source index)
        (.find event.message target)
  | generate {group : GroupIds} {source : Source} {index : Nat} {event : EventMessage}
      {data : InvoiceData} :
      h.Carries source index .ORDER_APPROVAL_STEP_INVOICE_GENERATE event →
      invoiceOf event.message = some data →
      JobOrigin h h' (.deliver group .ORDER_APPROVAL_STEP_INVOICE_GENERATE source index)
        (.invoice event.message data)
  | answer {j : Nat} {choice : Choice} {answered : Job} {order : Cluster} {job : Job} :
      h.Answered h' answered choice order → answered.Leaves choice h.db job →
      JobOrigin h h' (.advance j choice) job

theorem Moves.job_cases (hm : h.Moves label h') {job : Job} (hmem : job ∈ h'.jobs) :
    JobOrigin h h' label job := by
  cases hm with
  | createOrder userId totalAmount =>
    rcases List.mem_append.mp hmem with hmem | hmem
    · exact .stays hmem
    · cases List.mem_singleton.mp hmem
      exact .insert userId totalAmount
  | update hc =>
    rcases List.mem_append.mp hmem with hmem | hmem
    · exact .stays hmem
    · obtain ⟨target, htarget, rfl⟩ := Option.map_eq_some_iff.mp (Option.mem_toList.mp hmem)
      exact .update hc htarget
  | generate hc =>
    rcases List.mem_append.mp hmem with hmem | hmem
    · exact .stays hmem
    · obtain ⟨data, hdata, rfl⟩ := Option.map_eq_some_iff.mp (Option.mem_toList.mp hmem)
      exact .generate hc hdata
  | answer choice hjobs hc =>
    rcases List.mem_append.mp hmem with hmem | hmem
    · rcases List.mem_append.mp hmem with hmem | hmem
      · exact .stays (by simp [hjobs, hmem])
      · exact .answer ⟨by simp [hjobs], hc, rfl, rfl, rfl⟩ (Job.leaves_of_mem hmem)
    · exact .stays (by simp [hjobs, hmem])
  | reject hjobs =>
    refine .stays ?_
    rw [hjobs]
    simp only [List.mem_append, List.mem_cons] at hmem ⊢
    tauto
  | abandon hjobs =>
    refine .stays ?_
    rw [hjobs]
    simp only [List.mem_append, List.mem_cons] at hmem ⊢
    tauto
  | _ => exact .stays hmem

/-! ## Messages -/

/-- What has been published stays where it is. -/
theorem Moves.published_grows (hm : h.Moves label h') (source : Source) :
    ∃ added, h'.published source = h.published source ++ added := by
  cases source with
  | orderCoordinator =>
    rcases hm.order_cases with heq | ⟨l, -, hf⟩
    · exact ⟨[], by simp [published, Platform.published, toPlatform, heq]⟩
    · obtain ⟨added, hh, -⟩ := Cluster.history_fire hf
      refine ⟨Platform.messages added, ?_⟩
      simp [published, Platform.published, toPlatform, hh, Platform.messages]
  | invoiceCoordinator =>
    rcases hm.invoice_cases with heq | ⟨l, -, hf⟩
    · exact ⟨[], by simp [published, Platform.published, toPlatform, heq]⟩
    · obtain ⟨added, hh, -⟩ := Cluster.history_fire hf
      refine ⟨Platform.messages added, ?_⟩
      simp [published, Platform.published, toPlatform, hh, Platform.messages]
  | services =>
    rcases hm.db_cases with ⟨hdb, -⟩ | ⟨job, choice, order, ha⟩
    · exact ⟨[], by simp [published, Platform.published, toPlatform, hdb]⟩
    · simp only [published, Platform.published, toPlatform, ha.db]
      cases job with
      | publish event => exact ⟨[event], rfl⟩
      | _ => exact ⟨[], (List.append_nil _).symm⟩

theorem Carries.moves {source : Source} {index : Nat} {subject : Subjects} {event : EventMessage}
    (hc : h.Carries source index subject event) (hm : h.Moves label h') :
    h'.Carries source index subject event := by
  obtain ⟨added, hadded⟩ := hm.published_grows source
  refine ⟨?_, hc.topic⟩
  obtain ⟨hlt, -⟩ := List.getElem?_eq_some_iff.mp hc.message
  rw [hadded, List.getElem?_append_left hlt]
  exact hc.message

/-- A message of a coordinator is an entry of its history. -/
theorem mem_messages {history : List Entry} {event : EventMessage}
    (hmem : event ∈ Platform.messages history) :
    ∃ p, .published p ∈ history ∧ p.event = event := by
  obtain ⟨entry, hentry, heq⟩ := List.mem_filterMap.mp hmem
  cases entry with
  | published p => exact ⟨p, hentry, Option.some_inj.mp heq⟩
  | _ => cases heq

/-- A message has been published on the topic that parses to the event. -/
def Sent (h : Hub) (subject : Subjects) (event : TransactionEvent) : Prop :=
  ∃ source index message, h.Carries source index subject message ∧
    event = TransactionEvent.ofMessage message.message

theorem Sent.moves {subject : Subjects} {event : TransactionEvent} (hs : h.Sent subject event)
    (hm : h.Moves label h') : h'.Sent subject event := by
  obtain ⟨source, index, message, hc, he⟩ := hs
  exact ⟨source, index, message, hc.moves hm, he⟩

/-- What the coordinators have received was sent. -/
structure Relayed (h : Hub) : Prop where
  order : ∀ subject event, .received subject event ∈ h.order.world.history → h.Sent subject event
  invoice : ∀ subject event, .received subject event ∈ h.invoice.world.history →
    h.Sent subject event

theorem Relayed.initial : Relayed initial :=
  ⟨fun _ _ hmem => (nomatch hmem), fun _ _ hmem => (nomatch hmem)⟩

theorem Relayed.moves (hr : Relayed h) (hm : h.Moves label h') : Relayed h' := by
  refine ⟨fun subject event hmem => ?_, fun subject event hmem => ?_⟩
  · rcases hm.order_cases with heq | ⟨l, hl, hf⟩
    · exact (hr.order subject event (heq ▸ hmem)).moves hm
    · obtain ⟨added, hh, ha⟩ := Cluster.history_fire hf
      rw [hh, List.mem_append] at hmem
      rcases hmem with hmem | hmem
      · exact (hr.order subject event hmem).moves hm
      · obtain ⟨clientId, rfl⟩ := (ha _ hmem).of_received
        cases hl with
        | receive hc _ => exact ⟨_, _, _, hc.moves hm, rfl⟩
        | internal hi => cases hi
  · rcases hm.invoice_cases with heq | ⟨l, hl, hf⟩
    · exact (hr.invoice subject event (heq ▸ hmem)).moves hm
    · obtain ⟨added, hh, ha⟩ := Cluster.history_fire hf
      rw [hh, List.mem_append] at hmem
      rcases hmem with hmem | hmem
      · exact (hr.invoice subject event hmem).moves hm
      · obtain ⟨clientId, rfl⟩ := (ha _ hmem).of_received
        cases hl with
        | receive hc _ => exact ⟨_, _, _, hc.moves hm, rfl⟩
        | internal hi => cases hi

/-- What the services publish. -/
inductive ServiceEvent : EventMessage → Prop where
  | updated (message : JsonObject) : ServiceEvent (orderUpdated message)
  | generated (message : JsonObject) (invoice : Invoice) :
      ServiceEvent (invoiceGenerated message invoice)
  | notification (transactionId : String) (order : Order) (reason : String) (timestamp : Date) :
      ServiceEvent (handleTransactionUserNotification transactionId order reason timestamp)

/-- Services report steps and notify users; no other topic is theirs. -/
theorem ServiceEvent.topic {event : EventMessage} (he : ServiceEvent event) :
    event.topicName = Subjects.TRANSACTION_STEP_COMPLETED.value ∨
      event.topicName = Subjects.TRANSACTION_USER_NOTIFICATION.value := by
  cases he with
  | updated _ => exact .inl rfl
  | generated _ _ => exact .inl rfl
  | notification _ _ _ _ => exact .inr rfl

/-- What has been and will be published by the services. -/
structure ServicesPublish (h : Hub) : Prop where
  published : ∀ event ∈ h.db.published, ServiceEvent event
  jobs : ∀ event, .publish event ∈ h.jobs → ServiceEvent event

theorem ServicesPublish.subject_cases (hs : ServicesPublish h) {event : EventMessage}
    {subject : Subjects} (hmem : event ∈ h.db.published) (ht : event.topicName = subject.value) :
    subject = .TRANSACTION_STEP_COMPLETED ∨ subject = .TRANSACTION_USER_NOTIFICATION :=
  (hs.published event hmem).topic.imp (fun htopic => Subjects.value_injective (ht.symm.trans htopic))
    fun htopic => Subjects.value_injective (ht.symm.trans htopic)

theorem ServicesPublish.initial : ServicesPublish initial :=
  ⟨fun _ hmem => (nomatch hmem), fun _ hmem => (nomatch hmem)⟩

/-- Only the rest of a service method is published. -/
theorem serviceEvent_leaves {job : Job} {choice : Choice} {db : Database} {event : EventMessage}
    (hl : job.Leaves choice db (.publish event)) : ServiceEvent event := by
  cases hl with
  | notify order t => exact .notification _ _ _ _
  | updated order _ => exact .updated _
  | generated message data => exact .generated message _

theorem published_answer {job : Job} {choice : Choice} {db : Database} {event : EventMessage}
    (hmem : event ∈ (job.answer choice db).2.published) :
    event ∈ db.published ∨ job = .publish event := by
  cases job with
  | publish e =>
    rcases List.mem_append.mp hmem with hmem | hmem
    · exact .inl hmem
    · exact .inr (congrArg _ (List.mem_singleton.mp hmem).symm)
  | _ => exact .inl hmem

theorem ServicesPublish.moves (hs : ServicesPublish h) (hm : h.Moves label h') :
    ServicesPublish h' := by
  refine ⟨fun event hmem => ?_, fun event hmem => ?_⟩
  · rcases hm.db_cases with ⟨hdb, -⟩ | ⟨job, choice, order, ha⟩
    · exact hs.published event (hdb ▸ hmem)
    · rw [ha.db] at hmem
      rcases published_answer hmem with hmem | rfl
      · exact hs.published event hmem
      · exact hs.jobs event ha.mem
  · cases hm.job_cases hmem with
    | stays hmem => exact hs.jobs event hmem
    | answer _ hl => exact serviceEvent_leaves hl

end Hub

end InvoiceHub
