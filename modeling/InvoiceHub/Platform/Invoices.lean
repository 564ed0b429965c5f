import InvoiceHub.Platform.Approval
import InvoiceHub.Transaction.Once
import Mathlib.Data.List.NodupEquivFin

/-!
# How many invoices an order gets

Nobody looks whether an order has an invoice already: each delivery of an invoice command inserts
one.  So an order keeps to one invoice where its saga commands it once and the command is delivered
once (`invoicing_reachable`).  The coordinator sees to the first, as long as it handles the completed
steps of a transaction one after the other; the second is up to Kafka.
-/

namespace InvoiceHub

open Effects Transaction Services

/-! ## Runs -/

/-- The handler of `TRANSACTION_STEP_COMPLETED` works on the record under `key`. -/
def completes (key : String) : Activity → Bool
  | .handler _ .TRANSACTION_STEP_COMPLETED event => transactionKey event.transactionId == key
  | _ => false

namespace Platform

/-- No message is handed to the invoice service twice. -/
def commandsOnce : Policy := fun s label =>
  match label with
  | .deliver .INVOICE_SERVICE_APP_GROUP _ source index =>
    decide (⟨.INVOICE_SERVICE_APP_GROUP, source, index⟩ ∉ s.delivered)
  | _ => true

/-- The order service handles the completed steps of a transaction one after the other. -/
def completionsSerial : Policy := fun s label =>
  match label with
  | .deliver .ORDER_SERVICE_TRANSACTION_GROUP .TRANSACTION_STEP_COMPLETED source index =>
    (s.published source)[index]?.all fun event =>
      Pool.Idle (completes (transactionKey (TransactionEvent.ofMessage event.message).transactionId))
        s.order.tasks
  | _ => true

/-- Both. -/
def invoicedOnce : Policy := fun s label => commandsOnce s label && completionsSerial s label

end Platform

/-- The message a job was started with. -/
def Services.Job.message : Job → Option JsonObject
  | .find message _ => some message
  | .save message _ => some message
  | .invoice message _ => some message
  | _ => none

/-- The job starts the saga of the order. -/
def Services.Job.startsSaga (id : String) : Job → Bool
  | .start order => order.id == id
  | _ => false

/-- The job inserts an invoice of the order. -/
def Services.Job.invoicesOrder (id : String) : Job → Bool
  | .invoice _ data => data.orderId == id
  | _ => false

/-- The saga of the order has been started. -/
def sagaStarted (id : String) : Entry → Bool
  | .created _ options => orderIdOf options.payload == some id
  | _ => false

namespace Hub

variable {h h' : Hub} {label : Platform.Label} {t : String} {order : Order}

/-! ## What is reported was commanded -/

/-- The transaction that `id` names, if it names one, has commanded a step. -/
def Commanded (h : Hub) (id : Option String) : Prop :=
  ∀ t, id = some t → ∃ p, .published p ∈ h.order.world.history ∧ isCommand p = true ∧
    transactionKey p.transactionId = transactionKey (some t)

theorem Commanded.moves {id : Option String} (hc : h.Commanded id) (hm : h.Moves label h') :
    h'.Commanded id := by
  intro t ht
  obtain ⟨p, hp, hcommand, hkey⟩ := hc t ht
  exact ⟨p, hm.order_history_mem hp, hcommand, hkey⟩

/-- A message on the topic of a step names a transaction that has commanded it, or none. -/
theorem Sound.commanded (hs : Sound h) {source : Source} {index : Nat} {subject : Subjects}
    {event : EventMessage} (hc : h.Carries source index subject event)
    (hstep : subject ∈ [Subjects.ORDER_APPROVAL_STEP_UPDATE_ORDER_STATUS,
      .ORDER_APPROVAL_STEP_INVOICE_GENERATE]) :
    h.Commanded (Json.str? (event.message.lookup "transactionId")) := by
  intro t ht
  obtain ⟨-, u, order, -, ⟨hreq, hmessage⟩ | ⟨hevent, -⟩⟩ := hs.command hc hstep
  · rw [hmessage, (Approving.commandOf_requestOf u order subject).transactionId] at ht
    obtain rfl : u = t := Option.some_inj.mp ht
    obtain ⟨p, hp, hpub, hkey, -⟩ := hreq.published
    exact ⟨p, hp, decide_eq_true hpub, hkey⟩
  · rw [hevent, lookup_wrappedCommand _ _ _ (by decide) (by decide)] at ht
    cases ht

/-- A report of a step is about a transaction that has commanded one. -/
def Traced (h : Hub) (event : EventMessage) : Prop :=
  event.topicName = Subjects.TRANSACTION_STEP_COMPLETED.value →
    h.Commanded (TransactionEvent.ofMessage event.message).transactionId

/-- All that the services do goes back to commands. -/
structure Tracing (h : Hub) : Prop where
  jobs : ∀ job ∈ h.jobs, ∀ message, job.message = some message →
    h.Commanded (Json.str? (message.lookup "transactionId"))
  publishes : ∀ event, .publish event ∈ h.jobs → h.Traced event
  published : ∀ event ∈ h.db.published, h.Traced event

theorem Tracing.initial : Tracing initial where
  jobs := fun _ hmem => nomatch hmem
  publishes := fun _ hmem => nomatch hmem
  published := fun _ hmem => nomatch hmem

theorem Tracing.moves (ht : Tracing h) (hs : Sound h) (hm : h.Moves label h') : Tracing h' := by
  have hkeep : ∀ event, h.Traced event → h'.Traced event :=
    fun event htraced htopic => (htraced htopic).moves hm
  refine ⟨?_, ?_, ?_⟩
  · intro job hmem message hmessage
    cases hm.job_cases hmem with
    | stays hmem => exact (ht.jobs job hmem message hmessage).moves hm
    | insert _ _ => cases hmessage
    | update hc _ =>
      cases hmessage
      exact (hs.commanded hc (by decide)).moves hm
    | generate hc _ =>
      cases hmessage
      exact (hs.commanded hc (by decide)).moves hm
    | answer ha hl =>
      cases hl with
      | save target _ => exact (ht.jobs _ ha.mem message hmessage).moves hm
      | _ => cases hmessage
  · intro event hmem
    cases hm.job_cases hmem with
    | stays hmem => exact hkeep event (ht.publishes event hmem)
    | answer ha hl =>
      cases hl with
      | notify order t =>
        intro htopic
        have htopic : Subjects.TRANSACTION_USER_NOTIFICATION.value =
          Subjects.TRANSACTION_STEP_COMPLETED.value := htopic
        exact absurd htopic (by decide)
      | updated row _ =>
        intro _
        rw [ofMessage_orderUpdated]
        exact (ht.jobs _ ha.mem _ rfl).moves hm
      | generated message data =>
        intro _
        rw [ofMessage_invoiceGenerated]
        exact (ht.jobs _ ha.mem _ rfl).moves hm
  · intro event hmem
    rcases hm.db_cases with ⟨hdb, -⟩ | ⟨job, choice, cluster, ha⟩
    · exact hkeep event (ht.published event (hdb ▸ hmem))
    · rw [ha.db] at hmem
      rcases published_answer hmem with hmem | rfl
      · exact hkeep event (ht.published event hmem)
      · exact hkeep event (ht.publishes event ha.mem)

/-- A transaction of which a step is reported is not being started any more. -/
theorem Tracing.not_starting (ht : Tracing h) (hs : Sound h)
    (hp : Cluster.Reachable pacedPolicy h.order) {source : Source} {index : Nat}
    {event : EventMessage} (hc : h.Carries source index .TRANSACTION_STEP_COMPLETED event)
    {task : Effects.Task Activity Transaction.Call Transaction.Call.Res}
    (hmem : task ∈ h.order.tasks) (htag : task.tag = .startTransaction t) :
    transactionKey (TransactionEvent.ofMessage event.message).transactionId ≠
      transactionKey (some t) := by
  intro hkey
  obtain ⟨⟨options, hcreated⟩, hnone⟩ := uncommanded_of_starting hp hmem htag
  obtain ⟨huuid, -⟩ := hs.consistent.started t options (List.mem_filter.mp hcreated).1
  obtain rfl := hs.of_services hc (by decide) (by decide)
  have htraced := ht.published event (List.mem_of_getElem? hc.message) hc.topic
  obtain ⟨p, hpub, hcommand, hpkey⟩ := htraced t (Platform.eq_some_of_transactionKey huuid hkey)
  have hview : .published p ∈ (h.order.world.view t).history := by
    refine List.mem_filter.mpr ⟨hpub, ?_⟩
    have hawaited : p.publisher.awaited = true := by
      rw [of_decide_eq_true hcommand]
      rfl
    simp [Entry.concerns, hpkey, hawaited]
  have hcommands : p.event ∈ commands (h.order.world.view t).history :=
    List.mem_filterMap.mpr ⟨_, hview, by simp [hcommand]⟩
  rw [hnone] at hcommands
  cases hcommands

/-- So the order service progresses a transaction for one report at a time. -/
theorem Tracing.paced (ht : Tracing h) (hs : Sound h) (hp : Cluster.Reachable pacedPolicy h.order)
    (hpolicy : Platform.completionsSerial h.toPlatform label = true) {l : Cluster.Label}
    (hl : h.OrderLabel label l) : pacedPolicy h.order l = true := by
  cases hl with
  | start choice hjobs hu => rfl
  | internal hi =>
    cases l with
    | deliver clientId subject event => cases hi
    | _ => rfl
  | @receive subject source index event hc htopic =>
    cases subject with
    | TRANSACTION_STEP_COMPLETED =>
      have hget : (h.toPlatform.published source)[index]? = some event := hc.message
      simp only [Platform.completionsSerial, hget, Option.all_some] at hpolicy
      refine List.all_eq_true.mpr fun task hmem => ?_
      have hidle := List.all_eq_true.mp hpolicy task hmem
      cases htag : task.tag with
      | startTransaction u =>
        have hne := ht.not_starting hs hp hc hmem htag
        simp only [progresses, Bool.not_eq_true', beq_eq_false_iff_ne]
        exact Ne.symm hne
      | handler clientId subject event =>
        rw [htag] at hidle
        cases subject with
        | TRANSACTION_STEP_COMPLETED => exact hidle
        | _ => rfl
      | _ => rfl
    | _ => rfl

/-! ## One saga for an order -/

/-- How often the saga of an order has been started or is about to be. -/
def sagas (h : Hub) (id : String) : Nat :=
  h.jobs.countP (Job.startsSaga id) + h.order.world.history.countP (sagaStarted id)

/-- An order that has no row has no saga. -/
theorem Sound.sagas_of_new (hs : Sound h) {id : String} (hnone : h.db.order? id = none) :
    h.sagas id = 0 := by
  have hplaced : ∀ order ∈ h.placed, order.id ≠ id := by
    rintro order hmem rfl
    obtain ⟨row, hrow⟩ := hs.consistent.found order hmem
    cases hnone.symm.trans hrow
  have hjobs : h.jobs.countP (Job.startsSaga id) = 0 := by
    refine List.countP_eq_zero.mpr fun job hmem hstarts => ?_
    cases job with
    | start order =>
      exact hplaced order (hs.consistent.jobs _ hmem order rfl) (beq_iff_eq.mp hstarts)
    | _ => cases hstarts
  have hhistory : h.order.world.history.countP (sagaStarted id) = 0 := by
    refine List.countP_eq_zero.mpr fun entry hmem hstarted => ?_
    cases entry with
    | created t options =>
      obtain ⟨-, order, hplacedOrder, rfl⟩ := hs.consistent.started t options hmem
      have hid := beq_iff_eq.mp hstarted
      rw [orderIdOf_sagaPayload] at hid
      exact hplaced order hplacedOrder (Option.some_inj.mp hid)
    | _ => cases hstarted
  rw [sagas, hjobs, hhistory]

/-- No other step of a coordinator than a start starts a saga. -/
theorem countP_sagaStarted_fire {s s' : Cluster} {l : Cluster.Label} (hf : s.fire l = some s')
    (hl : ∀ options t date, l ≠ .start options t date) (id : String) :
    s'.world.history.countP (sagaStarted id) = s.world.history.countP (sagaStarted id) := by
  obtain ⟨added, hh, ha⟩ := Cluster.history_fire hf
  have hnone : added.countP (sagaStarted id) = 0 := by
    refine List.countP_eq_zero.mpr fun entry hmem hstarted => ?_
    cases entry with
    | created t options =>
      obtain ⟨date, rfl⟩ := (ha _ hmem).of_created
      exact hl options t date rfl
    | _ => cases hstarted
  rw [hh, List.countP_append, hnone, Nat.add_zero]

theorem countP_sagaStarted_start {s s' : Cluster} {date : Date}
    (hf : s.fire (.start (sagaOptions order) t date) = some s') (id : String) :
    s'.world.history.countP (sagaStarted id) =
      s.world.history.countP (sagaStarted id) + [Job.start order].countP (Job.startsSaga id) := by
  have hstarted : sagaStarted id (.created t (sagaOptions order)) =
      Job.startsSaga id (.start order) := by
    simp only [sagaStarted, Job.startsSaga, orderIdOf_sagaPayload]
    rfl
  unfold Cluster.fire at hf
  dsimp only at hf
  split at hf
  · cases hf
    simp only [Pool.begin_world, Transaction.perform, List.countP_append, List.countP_singleton,
      hstarted]
    rfl
  · cases hf

/-- A job whose call is answered leaves no start behind, unless it has inserted the order. -/
theorem countP_startsSaga_answer (job : Job) (choice : Choice) (db : Database) (id : String) :
    (job.answer choice db).1.countP (Job.startsSaga id) = 0 ∨
      (job.answer choice db).1.countP (Job.startsSaga id) = 1 ∧
        ∃ userId totalAmount, job = .insert userId totalAmount ∧ choice.uuid = id := by
  by_cases hmem : ∃ left ∈ (job.answer choice db).1, Job.startsSaga id left = true
  · obtain ⟨left, hleft, hstarts⟩ := hmem
    cases Job.leaves_of_mem hleft with
    | start userId totalAmount =>
      have hid : choice.uuid = id := beq_iff_eq.mp hstarts
      exact .inr ⟨by simp [Job.answer, Job.startsSaga, hid], userId, totalAmount, rfl, hid⟩
    | _ => cases hstarts
  · push Not at hmem
    exact .inl (List.countP_eq_zero.mpr hmem)

/-- The saga of an order is started at most once. -/
theorem Sound.sagas_moves (hs : Sound h) (hm : h.Moves label h') {id : String}
    (hle : h.sagas id ≤ 1) : h'.sagas id ≤ 1 := by
  unfold sagas at hle ⊢
  cases hm with
  | createOrder userId totalAmount =>
    simpa [List.countP_append, Job.startsSaga] using hle
  | orderReceives _ _ hf =>
    rw [countP_sagaStarted_fire hf nofun]
    exact hle
  | invoiceReceives _ _ _ => exact hle
  | @update source index event hc =>
    have hnone : (Job.ofUpdate event.message).countP (Job.startsSaga id) = 0 := by
      unfold Job.ofUpdate
      cases updateTarget event.message <;> rfl
    simpa [List.countP_append, hnone] using hle
  | @generate source index event hc =>
    have hnone : (Job.ofInvoice event.message).countP (Job.startsSaga id) = 0 := by
      unfold Job.ofInvoice
      cases invoiceOf event.message <;> rfl
    simpa [List.countP_append, hnone] using hle
  | notify _ => exact hle
  | order hi hf =>
    rw [countP_sagaStarted_fire hf (by rintro options t date rfl; cases hi)]
    exact hle
  | invoice _ _ => exact hle
  | @answer before after job choice cluster hjobs hc =>
    have hanswer := countP_startsSaga_answer job choice h.db id
    rw [hjobs] at hle
    simp only [List.countP_append, List.countP_cons] at hle ⊢
    rcases coordinate_cases hc with rfl | ⟨order, rfl, -, hf⟩
    · rcases hanswer with hnone | ⟨hone, userId, totalAmount, rfl, rfl⟩
      · omega
      · have hnew := hs.sagas_of_new (coordinate_insert hc).2
        simp only [sagas, hjobs, List.countP_append, List.countP_cons] at hnew
        omega
    · have hstarted := countP_sagaStarted_start hf id
      rw [List.countP_singleton] at hstarted
      rcases hanswer with hnone | ⟨-, userId, totalAmount, heq, -⟩
      · omega
      · cases heq
  | reject hjobs =>
    rw [hjobs] at hle
    simp only [List.countP_append, List.countP_cons] at hle ⊢
    omega
  | abandon hjobs =>
    rw [hjobs] at hle
    simp only [List.countP_append, List.countP_cons] at hle ⊢
    omega

/-! ## One invoice for a delivered command -/

/-- What was delivered asks the invoice service for an invoice of the order. -/
def asksInvoice (h : Hub) (id : String) (d : Delivery) : Bool :=
  d.group == .INVOICE_SERVICE_APP_GROUP && (h.published d.source)[d.index]?.any fun event =>
    event.topicName == Subjects.ORDER_APPROVAL_STEP_INVOICE_GENERATE.value &&
      (invoiceOf event.message).any (·.orderId == id)

/-- The invoices that an order has or is about to get. -/
def billed (h : Hub) (id : String) : Nat :=
  h.db.invoices.countP (·.orderId == id) + h.jobs.countP (Job.invoicesOrder id)

theorem Moves.asksInvoice (hm : h.Moves label h') {id : String} {d : Delivery}
    (ha : h.asksInvoice id d = true) : h'.asksInvoice id d = true := by
  obtain ⟨hgroup, hevent⟩ := Bool.and_eq_true_iff.mp ha
  obtain ⟨event, hget, hasks⟩ := (Option.any_eq_true _ _).mp hevent
  obtain ⟨added, hadded⟩ := hm.published_grows d.source
  obtain ⟨hlt, -⟩ := List.getElem?_eq_some_iff.mp hget
  refine Bool.and_eq_true_iff.mpr ⟨hgroup, (Option.any_eq_true _ _).mpr ⟨event, ?_, hasks⟩⟩
  rw [hadded, List.getElem?_append_left hlt]
  exact hget

/-- Answering a job bills an order no more than the job already does. -/
theorem billed_answer (job : Job) (choice : Choice) (db : Database) (id : String) :
    (job.answer choice db).2.invoices.countP (·.orderId == id) +
        (job.answer choice db).1.countP (Job.invoicesOrder id) =
      db.invoices.countP (·.orderId == id) + [job].countP (Job.invoicesOrder id) := by
  have hnone : (job.answer choice db).1.countP (Job.invoicesOrder id) = 0 := by
    refine List.countP_eq_zero.mpr fun left hleft hinvoices => ?_
    cases Job.leaves_of_mem hleft <;> cases hinvoices
  rw [hnone]
  cases job with
  | invoice message data =>
    simp only [Job.answer, Database.saveInvoice, List.countP_append, List.countP_singleton,
      Job.invoicesOrder, Nat.add_zero]
    rfl
  | _ => rfl

/-- A delivered command starts at most the one job that it asks for. -/
theorem countP_ofInvoice_le {source : Source} {index : Nat} {event : EventMessage}
    (hc : h.Carries source index .ORDER_APPROVAL_STEP_INVOICE_GENERATE event) (id : String) :
    (Job.ofInvoice event.message).countP (Job.invoicesOrder id) ≤
      if h.asksInvoice id ⟨.INVOICE_SERVICE_APP_GROUP, source, index⟩ = true then 1 else 0 := by
  unfold Job.ofInvoice
  cases hdata : invoiceOf event.message with
  | none => exact Nat.zero_le _
  | some data =>
    simp only [Option.map_some, Option.toList_some, List.countP_singleton, Job.invoicesOrder]
    by_cases hid : (data.orderId == id) = true
    · have hasks : h.asksInvoice id ⟨.INVOICE_SERVICE_APP_GROUP, source, index⟩ = true := by
        simp [Hub.asksInvoice, hc.message, hc.topic, hdata, hid]
      simp [hid, hasks]
    · simp [hid]

/-- An order is billed at most once for each delivery that asks for it. -/
theorem billed_moves (hm : h.Moves label h') {id : String}
    (hle : h.billed id ≤ h.delivered.countP (h.asksInvoice id)) :
    h'.billed id ≤ h'.delivered.countP (h'.asksInvoice id) := by
  have hmono : h.delivered.countP (h.asksInvoice id) ≤ h.delivered.countP (h'.asksInvoice id) :=
    List.countP_mono_left fun d _ ha => hm.asksInvoice ha
  have happend : ∀ d, h.delivered.countP (h.asksInvoice id) ≤
      (h.delivered ++ [d]).countP (h'.asksInvoice id) := by
    intro d
    rw [List.countP_append]
    exact Nat.le_add_right_of_le hmono
  unfold billed at hle ⊢
  cases hm with
  | createOrder userId totalAmount =>
    simp only [List.countP_append, List.countP_singleton, Job.invoicesOrder]
    exact hle.trans hmono
  | orderReceives _ _ _ => exact hle.trans (happend _)
  | invoiceReceives _ _ _ => exact hle.trans (happend _)
  | @update source index event hc =>
    have hnone : (Job.ofUpdate event.message).countP (Job.invoicesOrder id) = 0 := by
      unfold Job.ofUpdate
      cases updateTarget event.message <;> rfl
    simp only [List.countP_append, hnone]
    exact Nat.le_add_right_of_le (hle.trans hmono)
  | @generate source index event hc =>
    have hcount := countP_ofInvoice_le hc id
    simp only [List.countP_append, List.countP_singleton] at hmono ⊢
    exact (Nat.add_assoc ..).symm.le.trans (Nat.add_le_add (hle.trans hmono) hcount)
  | notify _ => exact hle.trans (happend _)
  | order _ _ => exact hle.trans hmono
  | invoice _ _ => exact hle.trans hmono
  | @answer before after job choice cluster hjobs hc =>
    have hanswer := billed_answer job choice h.db id
    rw [hjobs] at hle
    simp only [List.countP_append, List.countP_cons, List.countP_nil] at hle hanswer ⊢
    omega
  | reject hjobs =>
    rw [hjobs] at hle
    simp only [List.countP_append, List.countP_cons] at hle ⊢
    omega
  | abandon hjobs =>
    rw [hjobs] at hle
    simp only [List.countP_append, List.countP_cons] at hle ⊢
    omega

/-! ## One command for a saga -/

/-- The command that a saga gives for the invoice of its order. -/
def invoiceCommand (t : String) (order : Order) : EventMessage :=
  stepCommand t (sagaOptions order).payload Subjects.ORDER_APPROVAL_STEP_INVOICE_GENERATE.value

/-- What may be delivered to ask for an invoice of an order: the command of its saga. -/
theorem Sound.asked (hs : Sound h) {id : String} {d : Delivery} (ha : h.asksInvoice id d = true) :
    d.group = .INVOICE_SERVICE_APP_GROUP ∧ d.source = .orderCoordinator ∧
      ∃ t order, order.id = id ∧ h.Requested t order .ORDER_APPROVAL_STEP_INVOICE_GENERATE ∧
        (h.published .orderCoordinator)[d.index]? = some (invoiceCommand t order) := by
  obtain ⟨hgroup, hevent⟩ := Bool.and_eq_true_iff.mp ha
  obtain ⟨event, hget, hasks⟩ := (Option.any_eq_true _ _).mp hevent
  obtain ⟨htopic, hinvoice⟩ := Bool.and_eq_true_iff.mp hasks
  obtain ⟨data, hdata, hid⟩ := (Option.any_eq_true _ _).mp hinvoice
  have hcarries : h.Carries d.source d.index .ORDER_APPROVAL_STEP_INVOICE_GENERATE event :=
    ⟨hget, beq_iff_eq.mp htopic⟩
  obtain ⟨hsource, t, order, -, ⟨hreq, hmessage⟩ | ⟨hevent, -⟩⟩ := hs.command hcarries (by decide)
  · refine ⟨beq_iff_eq.mp hgroup, hsource, t, order, ?_, hreq, ?_⟩
    · rw [hmessage, (Approving.commandOf_requestOf t order _).invoiceOf
        (hs.consistent.id_ne_empty hreq.placed)] at hdata
      split at hdata
      · cases hdata
      · cases hdata
        exact beq_iff_eq.mp hid
    · rw [hsource] at hget
      rw [hget]
      cases event with
      | mk topicName message =>
        cases hmessage
        cases hcarries.topic
        rfl
  · rw [hevent, invoiceOf_wrappedCommand] at hdata
    cases hdata

theorem eq_of_length_le_one {α : Type} {l : List α} (h : l.length ≤ 1) {a b : α} (ha : a ∈ l)
    (hb : b ∈ l) : a = b := by
  rcases Nat.le_one_iff_eq_zero_or_eq_one.mp h with hnil | hone
  · rw [List.length_eq_zero_iff.mp hnil] at ha
    cases ha
  · obtain ⟨x, rfl⟩ := List.length_eq_one_iff.mp hone
    rw [List.mem_singleton.mp ha, List.mem_singleton.mp hb]

/-- An order has one saga. -/
theorem saga_unique {u : String} (hle : h.sagas order.id ≤ 1)
    (ht : .created t (sagaOptions order) ∈ h.order.world.history)
    (hu : .created u (sagaOptions order) ∈ h.order.world.history) : t = u := by
  have hstarted : ∀ v, sagaStarted order.id (.created v (sagaOptions order)) = true := by
    intro v
    simp [sagaStarted, orderIdOf_sagaPayload]
  have hcount : h.order.world.history.countP (sagaStarted order.id) ≤ 1 :=
    (Nat.le_add_left _ _).trans hle
  rw [List.countP_eq_length_filter] at hcount
  cases eq_of_length_le_one hcount (List.mem_filter.mpr ⟨ht, hstarted t⟩)
    (List.mem_filter.mpr ⟨hu, hstarted u⟩)
  rfl

/-- A command that stands twice among the messages of its coordinator has been given twice. -/
theorem commands_of_messages {history : List Entry} {command : EventMessage} {key : String}
    (hcommand : ∀ p, .published p ∈ history → p.event = command →
      isCommand p = true ∧ transactionKey p.transactionId = key)
    (htwice : [command, command].Sublist (Platform.messages history)) :
    [command, command].Sublist (commands (history.filter (Entry.concerns key))) := by
  obtain ⟨entries, hentries, heq⟩ := List.sublist_filterMap_iff.mp htwice
  have hgiven : commands (entries.filter (Entry.concerns key)) = [command, command] := by
    rw [heq, commands, List.filterMap_filter]
    refine List.filterMap_congr fun entry hmem => ?_
    cases entry with
    | published p =>
      have hevent : p.event ∈ [command, command] := heq ▸ List.mem_filterMap.mpr ⟨_, hmem, rfl⟩
      have hevent : p.event = command := by simpa using hevent
      obtain ⟨hc, hkey⟩ := hcommand p (hentries.subset hmem) hevent
      have hawaited : p.publisher.awaited = true := by
        rw [of_decide_eq_true hc]
        rfl
      simp [Entry.concerns, hc, hkey, hawaited]
    | _ => simp
  rw [← hgiven]
  exact (hentries.filter _).filterMap _

/-- Whoever publishes this command publishes it for the saga. -/
theorem Sound.of_invoiceCommand (hs : Sound h) {p : Publication}
    (hp : .published p ∈ h.order.world.history) (hevent : p.event = invoiceCommand t order) :
    isCommand p = true ∧ transactionKey p.transactionId = transactionKey (some t) := by
  have htopic : p.event.topicName = Subjects.ORDER_APPROVAL_STEP_INVOICE_GENERATE.value := by
    rw [hevent]
    rfl
  have hid : p.event.message.lookup "transactionId" = some (.str t) := by
    rw [hevent]
    exact (commandOf_stepCommand order t _).transactionId
  obtain ⟨u, options, hcreated, -, ⟨hpub, hkey, hforward⟩ | ⟨-, -, hwrapped⟩⟩ :=
    command_origin hs.order hp (by decide) htopic
  · obtain ⟨-, order', -, rfl⟩ := hs.consistent.started u options hcreated
    rw [hforward, (commandOf_stepCommand order' u _).transactionId] at hid
    cases hid
    exact ⟨decide_eq_true hpub, hkey⟩
  · rw [hwrapped, lookup_wrappedCommand _ _ _ (by decide) (by decide)] at hid
    cases hid

/-- A saga gives it once. -/
theorem Sound.not_duplicate (hs : Sound h) (hp : Cluster.Reachable pacedPolicy h.order)
    (hcreated : .created t (sagaOptions order) ∈ h.order.world.history) :
    ¬(h.published .orderCoordinator).Duplicate (invoiceCommand t order) := by
  intro hduplicate
  have htwice := (commands_of_messages (fun _ => hs.of_invoiceCommand)
    (List.duplicate_iff_sublist.mp hduplicate)).trans (commands_sublist hp hcreated)
  rw [steps_sagaOptions] at htwice
  have htopics : [Subjects.ORDER_APPROVAL_STEP_INVOICE_GENERATE.value,
      Subjects.ORDER_APPROVAL_STEP_INVOICE_GENERATE.value] = orderSteps.map Prod.fst :=
    congrArg (List.map EventMessage.topicName) (htwice.eq_of_length rfl)
  exact absurd htopics (by decide)

theorem Sound.command_unique (hs : Sound h) (hp : Cluster.Reachable pacedPolicy h.order)
    (hcreated : .created t (sagaOptions order) ∈ h.order.world.history) {i j : Nat}
    (hi : (h.published .orderCoordinator)[i]? = some (invoiceCommand t order))
    (hj : (h.published .orderCoordinator)[j]? = some (invoiceCommand t order)) : i = j := by
  by_contra hne
  wlog hij : i < j generalizing i j
  · exact this hj hi (Ne.symm hne) (by omega)
  obtain ⟨hi, higet⟩ := List.getElem?_eq_some_iff.mp hi
  obtain ⟨hj, hjget⟩ := List.getElem?_eq_some_iff.mp hj
  exact hs.not_duplicate hp hcreated
    (List.duplicate_iff_exists_distinct_get.mpr ⟨⟨i, hi⟩, ⟨j, hj⟩, hij, higet.symm, hjget.symm⟩)

/-! ## The invariant -/

/-- Each order is billed at most as often as its command has been delivered, and each command is
delivered once. -/
structure Invoicing (h : Hub) : Prop where
  sound : Sound h
  tracing : Tracing h
  order : Cluster.Reachable pacedPolicy h.order
  sagas : ∀ id, h.sagas id ≤ 1
  billed : ∀ id, h.billed id ≤ h.delivered.countP (h.asksInvoice id)
  once : (h.delivered.filter (·.group = .INVOICE_SERVICE_APP_GROUP)).Nodup

theorem Invoicing.initial : Invoicing initial where
  sound := .initial
  tracing := .initial
  order := .refl
  sagas := fun _ => Nat.zero_le _
  billed := fun _ => Nat.le_refl _
  once := .nil

/-- A delivery to the invoice service is a new one. -/
theorem once_moves (hm : h.Moves label h') (hp : Platform.commandsOnce h.toPlatform label = true)
    (hn : (h.delivered.filter (·.group = .INVOICE_SERVICE_APP_GROUP)).Nodup) :
    (h'.delivered.filter (·.group = .INVOICE_SERVICE_APP_GROUP)).Nodup := by
  cases hm with
  | @generate source index event hc =>
    have hnew : (⟨.INVOICE_SERVICE_APP_GROUP, source, index⟩ : Delivery) ∉ h.delivered :=
      of_decide_eq_true hp
    simp only [List.filter_append, List.filter_cons, List.filter_nil, decide_true, if_true]
    refine List.nodup_append.mpr ⟨hn, List.nodup_singleton _, ?_⟩
    rintro d hd _ hmem rfl
    obtain rfl := List.mem_singleton.mp hmem
    exact hnew (List.mem_filter.mp hd).1
  | orderReceives _ _ _ => simpa [List.filter_append] using hn
  | invoiceReceives _ _ _ => simpa [List.filter_append] using hn
  | update _ => simpa [List.filter_append] using hn
  | notify _ => simpa [List.filter_append] using hn
  | _ => exact hn

theorem Invoicing.moves (hi : Invoicing h) (hm : h.Moves label h')
    (hp : Platform.invoicedOnce h.toPlatform label = true) : Invoicing h' := by
  obtain ⟨honce, hserial⟩ := Bool.and_eq_true_iff.mp hp
  exact
    { sound := hi.sound.moves hm
      tracing := hi.tracing.moves hi.sound hm
      order := hm.order_reachable hi.order fun _ hl =>
        hi.tracing.paced hi.sound hi.order hserial hl
      sagas := fun id => hi.sound.sagas_moves hm (hi.sagas id)
      billed := fun id => billed_moves hm (hi.billed id)
      once := once_moves hm honce hi.once }

/-- One delivery at most asks for an invoice of an order. -/
theorem Invoicing.asked_once (hi : Invoicing h) (id : String) :
    h.delivered.countP (h.asksInvoice id) ≤ 1 := by
  have hsame : ∀ d d', h.asksInvoice id d = true → h.asksInvoice id d' = true → d = d' := by
    intro d d' ha ha'
    obtain ⟨hgroup, hsource, t, order, rfl, hreq, hget⟩ := hi.sound.asked ha
    obtain ⟨hgroup', hsource', u, order', hid, hreq', hget'⟩ := hi.sound.asked ha'
    obtain rfl := hi.sound.consistent.eq_of_id hreq'.placed hreq.placed hid
    obtain rfl := saga_unique (hi.sagas _) hreq.created hreq'.created
    have hindex := hi.sound.command_unique hi.order hreq.created hget hget'
    cases d
    cases d'
    simp_all
  rw [List.countP_eq_length_filter]
  have hsub : (h.delivered.filter (h.asksInvoice id)).Sublist
      (h.delivered.filter (·.group = .INVOICE_SERVICE_APP_GROUP)) :=
    List.monotone_filter_right _ fun d ha => by
      simpa using (hi.sound.asked ha).1
  by_contra hlt
  rw [not_le] at hlt
  -- two of them would be the same delivery
  have hasks : ∀ i (hlen : i < (h.delivered.filter (h.asksInvoice id)).length),
      h.asksInvoice id (h.delivered.filter (h.asksInvoice id))[i] = true :=
    fun i hlen => (List.mem_filter.mp (List.getElem_mem hlen)).2
  have heq := hsame _ _ (hasks 0 (by omega)) (hasks 1 hlt)
  exact absurd ((hi.once.sublist hsub).getElem_inj_iff.mp heq) (by decide)

/-- So no order has two invoices. -/
theorem Invoicing.nodup_invoices (hi : Invoicing h) : (h.db.invoices.map (·.orderId)).Nodup := by
  refine List.nodup_iff_count_le_one.mpr fun id => ?_
  rw [List.count, List.countP_map]
  calc h.db.invoices.countP ((· == id) ∘ (·.orderId))
      ≤ h.billed id := Nat.le_add_right _ _
    _ ≤ h.delivered.countP (h.asksInvoice id) := hi.billed id
    _ ≤ 1 := hi.asked_once id

theorem invoicing_reachable {s : Platform} (hs : Platform.Reachable Platform.invoicedOnce s) :
    ∃ h : Hub, s = h.toPlatform ∧ Invoicing h :=
  induction .initial (fun _ _ _ _ hP hp hm => hP.moves hm hp) hs

end Hub

/-! ## Runs of one order -/

/-- The row of the order `a` is completed, which is reported. -/
def updatedOrder : List Platform.Label := List.flatten
  [[.createOrder "u" 10, .advance 0 { uuid := "a" }, .advance 0 { uuid := "t" }],
    List.replicate 4 (.order (.advance 0 0)),
    [.advance 0 {}, .deliver .ORDER_SERVICE_TRANSACTION_GROUP
      .ORDER_APPROVAL_STEP_UPDATE_ORDER_STATUS .orderCoordinator 0],
    List.replicate 3 (.advance 0 {})]

/-- Both coordinators handle a report, that of the order service with so many calls. -/
def reportHandled (index calls : Nat) : List Platform.Label := List.flatten
  [[.deliver .ORDER_SERVICE_TRANSACTION_GROUP .TRANSACTION_STEP_COMPLETED .services index],
    List.replicate calls (.order (.advance 0 0)),
    [.deliver .INVOICE_SERVICE_TRANSACTION_GROUP .TRANSACTION_STEP_COMPLETED .services index,
      .invoice (.advance 0 0)]]

/-- The invoice service handles a command. -/
def commandHandled (index : Nat) : List Platform.Label :=
  [.deliver .INVOICE_SERVICE_APP_GROUP .ORDER_APPROVAL_STEP_INVOICE_GENERATE
    .orderCoordinator index, .advance 0 { uuid := "i" }, .advance 0 {}]

/-- Both coordinators handle the end of the transaction. -/
def endHandled (index : Nat) : List Platform.Label := List.flatten
  [[.deliver .ORDER_SERVICE_TRANSACTION_GROUP .TRANSACTION_COMPLETED .orderCoordinator index,
      .order (.advance 0 0),
      .deliver .INVOICE_SERVICE_TRANSACTION_GROUP .TRANSACTION_COMPLETED .orderCoordinator index],
    List.replicate 4 (.invoice (.advance 0 0))]

/-- The report of the first step is delivered again when its handler is done. -/
def reportRedelivered : List Platform.Label := List.flatten
  [updatedOrder, reportHandled 0 7, reportHandled 0 1, commandHandled 1, reportHandled 1 8,
    endHandled 2]

/-- The command of the invoice is delivered twice. -/
def commandRedelivered : List Platform.Label := List.flatten
  [updatedOrder, reportHandled 0 7, commandHandled 1, commandHandled 1, reportHandled 1 8,
    reportHandled 2 1, endHandled 2]

/-- The report of the first step is delivered again before its handler has written. -/
def reportsOverlap : List Platform.Label := List.flatten
  [updatedOrder,
    List.replicate 2
      (.deliver .ORDER_SERVICE_TRANSACTION_GROUP .TRANSACTION_STEP_COMPLETED .services 0),
    [.order (.advance 0 0), .order (.advance 1 0)],
    List.replicate 12 (.order (.advance 0 0)),
    [.deliver .INVOICE_SERVICE_TRANSACTION_GROUP .TRANSACTION_STEP_COMPLETED .services 0,
      .invoice (.advance 0 0)],
    commandHandled 1, commandHandled 2, reportHandled 1 8, reportHandled 2 1, endHandled 3]

/-! ## One invoice for an order -/

/-- No order has two invoices if no command reaches the invoice service twice and the order service
handles the completed steps of a transaction one after the other. -/
theorem one_invoice_per_order {s : Platform}
    (hs : Platform.Reachable Platform.invoicedOnce s) :
    (s.services.world.invoices.map (·.orderId)).Nodup := by
  obtain ⟨h, rfl, hi⟩ := Hub.invoicing_reachable hs
  exact hi.nodup_invoices

theorem one_invoice_reportRedelivered :
    ∃ s, Platform.run Platform.invoicedOnce reportRedelivered = some s ∧ s.quiescent = true ∧
      s.services.world.invoices ≠ [] ∧ (s.services.world.invoices.map (·.orderId)).Nodup := by
  have hrun : (Platform.run Platform.invoicedOnce reportRedelivered).any (fun s =>
      s.quiescent && !s.services.world.invoices.isEmpty) = true := by decide +kernel
  obtain ⟨s, hs, hend⟩ := (Option.any_eq_true _ _).mp hrun
  obtain ⟨hquiescent, hinvoices⟩ := Bool.and_eq_true_iff.mp hend
  exact ⟨s, hs, hquiescent, by simpa using hinvoices,
    one_invoice_per_order (Machine.run_steps reportRedelivered hs)⟩

/-- A command that is delivered twice makes two invoices of an order, and so do two handlers of one
report that overlap: each condition is needed, in runs at whose end everything is delivered. -/
theorem two_invoices :
    (∃ s, Platform.Reachable Platform.completionsSerial s ∧ s.quiescent = true ∧
      ¬(s.services.world.invoices.map (·.orderId)).Nodup) ∧
    ∃ s, Platform.Reachable Platform.commandsOnce s ∧ s.quiescent = true ∧
      ¬(s.services.world.invoices.map (·.orderId)).Nodup := by
  have hcommand : (Platform.run Platform.completionsSerial commandRedelivered).any (fun s =>
      s.quiescent && !decide (s.services.world.invoices.map (·.orderId)).Nodup) = true := by
    decide +kernel
  have hreport : (Platform.run Platform.commandsOnce reportsOverlap).any (fun s =>
      s.quiescent && !decide (s.services.world.invoices.map (·.orderId)).Nodup) = true := by
    decide +kernel
  constructor
  · obtain ⟨s, hs, hend⟩ := (Option.any_eq_true _ _).mp hcommand
    obtain ⟨hquiescent, htwo⟩ := Bool.and_eq_true_iff.mp hend
    exact ⟨s, Machine.run_steps commandRedelivered hs, hquiescent, by simpa using htwo⟩
  · obtain ⟨s, hs, hend⟩ := (Option.any_eq_true _ _).mp hreport
    obtain ⟨hquiescent, htwo⟩ := Bool.and_eq_true_iff.mp hend
    exact ⟨s, Machine.run_steps reportsOverlap hs, hquiescent, by simpa using htwo⟩

end InvoiceHub
