import InvoiceHub.Platform.Reliable

/-!
# What becomes of the orders

In a reliable run every order that was placed has its saga, or a job that is about to start it;
one that cannot be approved is cancelled, or has a job that is about to cancel it; and whoever
reports an invoice has saved it.  All that holds in reliable runs is put together in
`reliable_reachable`.
-/

namespace InvoiceHub

open Effects Transaction Services

/-- What the calls of `createOrder` in a run ask for. -/
def Platform.orderCalls (labels : List Platform.Label) : List (String × Rat) :=
  labels.filterMap fun
    | .createOrder userId totalAmount => some (userId, totalAmount)
    | _ => none

/-- The call of a job that has not placed its order yet. -/
def Services.Job.orderCall : Job → Option (String × Rat)
  | .insert userId totalAmount => some (userId, totalAmount)
  | _ => none

namespace Hub

variable {h h' : Hub} {label : Platform.Label} {t : String} {order : Order} {event : EventMessage}

/-! ## Jobs -/

/-- An answered job, and what it leaves. -/
structure Finished (h h' : Hub) (job : Job) (choice : Choice) (cluster : Cluster) : Prop
    extends h.Answered h' job choice cluster where
  left : (job.answer choice h.db).1 ⊆ h'.jobs

/-- In a reliable run a job stays until it is answered. -/
theorem Moves.job_stays (hm : h.Moves label h') (hp : Platform.reliable h.toPlatform label = true)
    {job : Job} (hmem : job ∈ h.jobs) :
    job ∈ h'.jobs ∨ ∃ choice cluster, h.Finished h' job choice cluster := by
  cases hm with
  | createOrder _ _ => exact .inl (List.mem_append_left _ hmem)
  | update _ => exact .inl (List.mem_append_left _ hmem)
  | generate _ => exact .inl (List.mem_append_left _ hmem)
  | @answer before after answered choice cluster hjobs hc =>
    rw [hjobs, List.mem_append, List.mem_cons] at hmem
    rcases hmem with hmem | rfl | hmem
    · exact .inl (by simp [hmem])
    · refine .inr ⟨choice, cluster, ⟨by simp [hjobs], hc, rfl, rfl, rfl⟩, fun left hleft => ?_⟩
      simp [hleft]
    · exact .inl (by simp [hmem])
  | reject _ => cases hp
  | abandon _ => cases hp
  | _ => exact .inl hmem

/-- An order that is placed gets its saga. -/
theorem Moves.placed_cases (hm : h.Moves label h') (hmem : order ∈ h'.placed) :
    order ∈ h.placed ∨ .start order ∈ h'.jobs ∧
      .insert order.userId order.totalAmount ∈ h.jobs := by
  cases hm with
  | @answer before after job choice cluster hjobs hc =>
    refine (List.mem_append.mp hmem).imp_right fun hmem => ?_
    cases job with
    | insert userId totalAmount =>
      cases List.mem_singleton.mp hmem
      exact ⟨by simp [Job.answer], by simp [hjobs]⟩
    | _ => cases hmem
  | _ => exact .inl hmem

/-! ## Calls of users -/

/-- What has been asked for: the orders that were placed and those that will be. -/
def ordered (h : Hub) : List (String × Rat) :=
  h.placed.map (fun order => (order.userId, order.totalAmount)) ++ h.jobs.filterMap Job.orderCall

/-- No order is lost or made up. -/
theorem Moves.ordered (hm : h.Moves label h') (hp : Platform.reliable h.toPlatform label = true) :
    h'.ordered.Perm (h.ordered ++ Platform.orderCalls [label]) := by
  have hnone : ∀ jobs : List Job, (∀ job ∈ jobs, job.orderCall = none) →
      jobs.filterMap Job.orderCall = [] := fun jobs hjobs => List.filterMap_eq_nil_iff.mpr hjobs
  have hsame : ∀ l : List (String × Rat), l.Perm (l ++ []) := fun l => by rw [List.append_nil]
  cases hm with
  | createOrder userId totalAmount =>
    simp only [Hub.ordered, List.filterMap_append, ← List.append_assoc]
    exact .refl _
  | @update source index event hc =>
    have hstarted : (Job.ofUpdate event.message).filterMap Job.orderCall = [] := by
      refine hnone _ fun job hmem => ?_
      obtain ⟨target, -, rfl⟩ := Option.map_eq_some_iff.mp (Option.mem_toList.mp hmem)
      rfl
    simp only [Hub.ordered, List.filterMap_append, hstarted, List.append_nil]
    exact hsame _
  | @generate source index event hc =>
    have hstarted : (Job.ofInvoice event.message).filterMap Job.orderCall = [] := by
      refine hnone _ fun job hmem => ?_
      obtain ⟨data, -, rfl⟩ := Option.map_eq_some_iff.mp (Option.mem_toList.mp hmem)
      rfl
    simp only [Hub.ordered, List.filterMap_append, hstarted, List.append_nil]
    exact hsame _
  | @answer before after job choice cluster hjobs hc =>
    have hleft : (job.answer choice h.db).1.filterMap Job.orderCall = [] := by
      refine hnone _ fun left hmem => ?_
      cases Job.leaves_of_mem hmem <;> rfl
    simp only [Hub.ordered, hjobs, List.filterMap_append, List.filterMap_cons, hleft,
      List.append_nil]
    refine List.Perm.trans ?_ (hsame _)
    cases job with
    | insert userId totalAmount =>
      simp only [Job.call, Platform.placedBy, Job.orderCall, List.map_append, List.map_cons,
        List.map_nil, List.append_assoc, List.singleton_append]
      exact List.perm_middle.symm.append_left _
    | _ => simp [Job.call, Platform.placedBy, Job.orderCall]
  | reject _ => cases hp
  | abandon _ => cases hp
  | _ => exact hsame _

/-! ## Sagas -/

/-- The saga of the order has been started or is about to be; if the order cannot be approved it
has been cancelled or is about to be. -/
def Launched (h : Hub) (order : Order) : Prop :=
  .start order ∈ h.jobs ∨ ∃ t, .created t (sagaOptions order) ∈ h.order.world.history ∧
    (order.totalAmount ≤ 0 → .awaitStarted order t ∈ h.jobs ∨ .cancel order t ∈ h.jobs ∨
      h.RowHas order.id .CANCELLED)

theorem Launched.moves (hl : h.Launched order) (ha : Approving h) (hs : Sound h)
    (hplaced : order ∈ h.placed) (hm : h.Moves label h')
    (hp : Platform.reliable h.toPlatform label = true) : h'.Launched order := by
  rcases hl with hstart | ⟨t, hcreated, hcancelled⟩
  · rcases hm.job_stays hp hstart with hstart | ⟨choice, cluster, hf⟩
    · exact .inl hstart
    · refine .inr ⟨choice.uuid, ?_, fun _ => .inl (hf.left (List.mem_singleton.mpr rfl))⟩
      rw [hf.order]
      exact Cluster.created_start (coordinate_start hf.coordinated).2
  · refine .inr ⟨t, hm.order_history_mem hcreated, fun hle => ?_⟩
    have htarget : targetOf order = .CANCELLED := if_pos hle
    rcases hcancelled hle with hawait | hcancel | hrow
    · rcases hm.job_stays hp hawait with hawait | ⟨choice, cluster, hf⟩
      · exact .inl hawait
      · refine .inr (.inl (hf.left ?_))
        simp [Job.answer, hle]
    · rcases hm.job_stays hp hcancel with hcancel | ⟨choice, cluster, hf⟩
      · exact .inr (.inl hcancel)
      · refine .inr (.inr ?_)
        unfold RowHas
        rw [hf.db, Job.order?_answer]
        simp only [Job.saved, if_true]
        exact ⟨_, rfl, rfl⟩
    · refine .inr (.inr ?_)
      rw [← htarget] at hrow ⊢
      exact ha.target_moves hs hm hplaced hrow

/-! ## Invoices -/

/-- Who reports the invoice step of `t` has saved an invoice of the order of `t`. -/
def Billed (h : Hub) (event : EventMessage) : Prop :=
  ∀ t, answers t (.step Subjects.ORDER_APPROVAL_STEP_INVOICE_GENERATE.value) event = true →
    ∃ order, h.Requested t order .ORDER_APPROVAL_STEP_INVOICE_GENERATE ∧
      ∃ invoice ∈ h.db.invoices, invoice.orderId = order.id

theorem exists_saved (message : JsonObject) (data : InvoiceData) (choice : Choice)
    (db : Database) : ∃ invoice ∈ ((Job.invoice message data).answer choice db).2.invoices,
      invoice.orderId = data.orderId :=
  ⟨_, List.mem_append_right _ (List.mem_cons_self ..), rfl⟩

/-- No invoice is ever deleted. -/
theorem Moves.invoices_mem (hm : h.Moves label h') {invoice : Invoice}
    (hmem : invoice ∈ h.db.invoices) : invoice ∈ h'.db.invoices := by
  rcases hm.db_cases with ⟨hdb, -⟩ | ⟨job, choice, cluster, ha⟩
  · exact hdb ▸ hmem
  · rw [ha.db]
    cases job with
    | invoice message data => exact List.mem_append_left _ hmem
    | _ => exact hmem

theorem Billed.moves (hb : h.Billed event) (hm : h.Moves label h') : h'.Billed event := by
  intro t ha
  obtain ⟨order, hreq, invoice, hmem, hid⟩ := hb t ha
  exact ⟨order, hreq.moves hm, invoice, hm.invoices_mem hmem, hid⟩

/-- All reports are about invoices that were saved. -/
structure Billing (h : Hub) : Prop where
  publishes : ∀ event, .publish event ∈ h.jobs → h.Billed event
  published : ∀ event ∈ h.db.published, h.Billed event

theorem Billing.initial : Billing initial :=
  ⟨fun _ hmem => (nomatch hmem), fun _ hmem => (nomatch hmem)⟩

theorem Billing.moves (hb : Billing h) (ha : Approving h) (hm : h.Moves label h') :
    Billing h' := by
  refine ⟨fun event hmem => ?_, fun event hmem => ?_⟩
  · cases hm.job_cases hmem with
    | stays hmem => exact (hb.publishes event hmem).moves hm
    | answer han hl =>
      intro t hanswers
      cases hl with
      | notify order u =>
        rw [answers_notification] at hanswers
        cases hanswers
      | updated row _ =>
        rw [answers_orderUpdated] at hanswers
        cases hanswers
      | generated message data =>
        rw [answers_invoiceGenerated] at hanswers
        obtain ⟨u, order, hreq, rfl, rfl⟩ := ha.invoicing _ _ han.mem
        have hkey := beq_iff_eq.mp (Bool.and_eq_true_iff.mp hanswers).2
        rw [(Approving.commandOf_requestOf u order _).transactionId] at hkey
        obtain rfl : u = t := transactionKey_some_inj.mp hkey
        refine ⟨order, hreq.moves hm, ?_⟩
        rw [han.db]
        exact exists_saved _ _ _ _
  · rcases hm.db_cases with ⟨hdb, -⟩ | ⟨job, choice, cluster, han⟩
    · exact (hb.published event (hdb ▸ hmem)).moves hm
    · rw [han.db] at hmem
      rcases published_answer hmem with hmem | rfl
      · exact (hb.published event hmem).moves hm
      · exact (hb.publishes event han.mem).moves hm

/-! ## Reliable runs -/

/-- What holds in every state of a reliable run in which nothing times out. -/
structure Reliable (h : Hub) : Prop where
  invoicing : Invoicing h
  approving : Approving h
  order : Cluster.Reachable promptPolicy h.order
  once : Once h
  heard : Heard h
  owed : Owed h
  billing : Billing h
  launched : ∀ order ∈ h.placed, h.Launched order
  users : ∀ order ∈ h.placed, order.userId ≠ ""
  inserts : ∀ userId totalAmount, .insert userId totalAmount ∈ h.jobs → userId ≠ ""

namespace Reliable

theorem initial : Reliable initial where
  invoicing := .initial
  approving := .initial
  order := .refl
  once := .initial
  heard := .initial
  owed := .initial
  billing := .initial
  launched := fun _ hmem => nomatch hmem
  users := fun _ hmem => nomatch hmem
  inserts := fun _ _ hmem => nomatch hmem

theorem sound (hr : Reliable h) : Sound h := hr.invoicing.sound

theorem uncompensated (hr : Reliable h) : Uncompensated h :=
  uncompensated_of_prompt hr.sound hr.order

/-- What a coordinator receives answers no more than its transaction has sent. -/
theorem answers_le_sent (hr : Reliable h) (hu : Untimed h) {source : Source} {index : Nat}
    {subject : Subjects} (hc : h.Carries source index subject event)
    (ht : subject ∈ coordinatorTopics) (t : String) :
    h.posted (answers t (reply subject (TransactionEvent.ofMessage event.message))) ≤
      h.order.world.history.countP
        (sends t (reply subject (TransactionEvent.ofMessage event.message))) := by
  rcases carried_cases hr.sound hr.order hu hc ht with rfl | ⟨rfl, step, hstep, hname⟩
  · exact hr.sound.completed_le_sent t
  · rw [reply_stepCompleted hname]
    exact hr.sound.step_le_sent hr.uncompensated hr.once hr.owed t hstep

/-- So a message that its group has not been handed yet answers one that is still unanswered. -/
theorem unanswered (hr : Reliable h) (hu : Untimed h) {source : Source} {index : Nat}
    {subject : Subjects} (hc : h.Carries source index subject event)
    (ht : subject ∈ coordinatorTopics)
    (hnew : ⟨.ORDER_SERVICE_TRANSACTION_GROUP, source, index⟩ ∉ h.delivered)
    (hkey : transactionKey (TransactionEvent.ofMessage event.message).transactionId =
      transactionKey (some t)) :
    (answeredSignals (h.order.world.view t).history).count
        (reply subject (TransactionEvent.ofMessage event.message)) <
      (sentSignals (h.order.world.view t).history).count
        (reply subject (TransactionEvent.ofMessage event.message)) := by
  have hanswers :
      answers t (reply subject (TransactionEvent.ofMessage event.message)) event = true := by
    rw [answers_eq hc.topic ht]
    simp [hears, hkey]
  rw [count_answeredSignals, count_sentSignals, hr.heard]
  exact Nat.lt_of_lt_of_le (hr.once.handed_lt_posted hc hnew hanswers)
    (hr.answers_le_sent hu hc ht t)

/-- The coordinator of the order service is never disturbed. -/
theorem prompt (hr : Reliable h) (hu : Untimed h)
    (hp : Platform.reliable h.toPlatform label = true) {l : Cluster.Label}
    (hl : h.OrderLabel label l) : promptPolicy h.order l = true := by
  cases hl with
  | start choice hjobs huuid => rfl
  | internal hi =>
    cases l with
    | deliver clientId subject event => cases hi
    | reject j => cases hp
    | abandon j => cases hp
    | _ => rfl
  | @receive subject source index event hc ht =>
    have hkey : transactionKey (TransactionEvent.ofMessage event.message).transactionId =
        transactionKey (some ((TransactionEvent.ofMessage event.message).transactionId.getD
          "undefined")) := transactionKey_eq_iff.mpr rfl
    have hlt := hr.unanswered hu hc ht (of_decide_eq_true hp) hkey
    refine Bool.and_eq_true_iff.mpr ⟨?_, decide_eq_true hlt⟩
    rw [hkey]
    exact idle_of_unanswered hr.order hlt

/-- Nor does it handle two reports of a transaction at a time. -/
theorem invoicedOnce (hr : Reliable h) (hu : Untimed h) (hm : h.Moves label h')
    (hp : Platform.reliable h.toPlatform label = true) :
    Platform.invoicedOnce h.toPlatform label = true := by
  have hserial : Platform.completionsSerial h.toPlatform label = true := by
    cases hm with
    | @orderReceives subject source index event _ hc ht _ =>
      cases subject with
      | TRANSACTION_STEP_COMPLETED =>
        have hget : (h.toPlatform.published source)[index]? = some event := hc.message
        have hidle := (Bool.and_eq_true_iff.mp (hr.prompt hu hp (.receive hc ht))).1
        simp only [Platform.completionsSerial, hget, Option.all_some]
        refine List.all_eq_true.mpr fun task hmem => ?_
        have hother := List.all_eq_true.mp hidle task hmem
        cases htag : task.tag with
        | handler clientId subject event =>
          rw [htag] at hother
          cases subject with
          | TRANSACTION_STEP_COMPLETED => simpa [completes, Activity.key] using hother
          | _ => rfl
        | _ => rfl
      | _ => rfl
    | _ => rfl
  have honce : Platform.commandsOnce h.toPlatform label = true := by
    cases hm with
    | generate hc => exact hp
    | _ => rfl
  exact Bool.and_eq_true_iff.mpr ⟨honce, hserial⟩

theorem moves (hr : Reliable h) (hu : Untimed h) (hm : h.Moves label h')
    (hp : Platform.reliable h.toPlatform label = true) : Reliable h' where
  invoicing := hr.invoicing.moves hm (hr.invoicedOnce hu hm hp)
  approving := hr.approving.moves hr.sound hr.uncompensated hm
  order := hm.order_reachable hr.order fun _ hl => hr.prompt hu hp hl
  once := hr.once.moves hm hp
  heard := hr.heard.moves hr.once hm
  owed := by
    refine hr.owed.moves hr.once (fun message target choice hmem => ?_) hm hp
    obtain ⟨t, order, hreq, rfl, -⟩ := hr.approving.finds message target hmem
    rw [(Approving.commandOf_requestOf t order _).orderId]
    exact hr.sound.consistent.found order hreq.placed
  billing := hr.billing.moves hr.approving hm
  launched := by
    intro order hmem
    rcases hm.placed_cases hmem with hold | ⟨hstart, -⟩
    · exact (hr.launched order hold).moves hr.approving hr.sound hold hm hp
    · exact .inl hstart
  users := by
    intro order hmem
    rcases hm.placed_cases hmem with hold | ⟨-, hinsert⟩
    · exact hr.users order hold
    · exact hr.inserts _ _ hinsert
  inserts := by
    intro userId totalAmount hmem
    cases hm.job_cases hmem with
    | stays hmem => exact hr.inserts userId totalAmount hmem
    | insert _ _ => exact of_decide_eq_true hp
    | answer _ hl => cases hl

end Reliable

/-- A reliable run in which no timeout is announced. -/
theorem reliable_reachable {s : Platform} (hs : Platform.Reachable Platform.reliable s) :
    ∃ h : Hub, s = h.toPlatform ∧ (Untimed h → Reliable h) :=
  induction (fun _ => .initial)
    (fun _ _ _ _ hr hp hm hu => (hr (hu.of_moves hm)).moves (hu.of_moves hm) hm hp) hs

end Hub

end InvoiceHub
