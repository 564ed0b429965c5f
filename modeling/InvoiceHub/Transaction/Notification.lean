import InvoiceHub.Effects.Eval
import InvoiceHub.Transaction.Cluster

/-!
# Notifications that stand in the way

A failure or a timeout is stored, then the user is notified, then the compensation is announced.
`handleSendUserNotification` contains its errors, but its message is published by the decorator
around it: if that fails, the handler throws before the compensation.
-/

namespace InvoiceHub.Transaction

open Effects

/-! ## Handling while notifications may fail -/

/-- The publication of a user notification, where it is not `delivered`. -/
def undelivered (delivered : Bool) : Call → Bool
  | .publish p => !delivered && decide (p.publisher = .handleSendUserNotification)
  | _ => false

/-- All calls succeed but the publication of a user notification that is not `delivered`. -/
def notifying (activity : Activity) (delivered : Bool) :
    Answers (Store × (Nat → Date)) Call Call.Res :=
  consult fun date op s =>
    if undelivered delivered op then (none, s)
    else (some (perform activity date op s).1, (perform activity date op s).2)

/-! ## One call after the other -/

/-- From `s` on, the program leaves `Φ`. -/
def Leads (delivered : Bool) (p : Async Unit) (s : Store) (Φ : Store → Prop) : Prop :=
  ∀ activity clock, Φ (p.eval (notifying activity delivered) (s, clock)).2.1

section Leads

variable {delivered : Bool} {id id' : Option String} {s s₀ : Store} {Φ : Store → Prop}
  {r : DistributedTransaction} {step : TransactionStep}

theorem eval_getTransactionState {α : Type} {activity : Activity} {clock : Nat → Date}
    (hr : s.redis.lookup (transactionKey id) = some r.serialize)
    (f : Option DistributedTransaction → Async α) :
    (getTransactionState id >>= f).eval (notifying activity delivered) (s, clock) =
      (f (some r)).eval (notifying activity delivered) (s, fun n => clock (n + 1)) := by
  have hread : (s.redis.lookup (transactionKey id)).bind SerializedTransaction.read = some r := by
    rw [hr, Option.bind_some, DistributedTransaction.read_serialize]
  rw [← hread]
  rfl

theorem leads_getTransactionState {f : Option DistributedTransaction → Async Unit}
    (hr : s.redis.lookup (transactionKey id) = some r.serialize)
    (h : Leads delivered (f (some r)) s Φ) :
    Leads delivered (getTransactionState id >>= f) s Φ := by
  intro activity clock
  rw [eval_getTransactionState hr]
  exact h activity _

theorem leads_storeTransactionState {f : Unit → Async Unit}
    (h : Leads delivered (f ())
      { redis := s.redis.insert (transactionKey (some r.transactionId)) r.serialize
        history := s.history ++
          [.stored (transactionKey (some r.transactionId)) r.serialize] } Φ) :
    Leads delivered (storeTransactionState r >>= f) s Φ :=
  fun activity clock => h activity fun n => clock (n + 1)

theorem leads_publish {p : Publication} (hp : undelivered delivered (.publish p) = false)
    (h : Φ { s with history := s.history ++ [.published p] }) : Leads delivered (publish p) s Φ := by
  intro activity clock
  have hanswer : notifying activity delivered (.publish p) (s, clock) =
      (some (), { s with history := s.history ++ [.published p] }, fun n => clock (n + 1)) := by
    simp [notifying, consult, hp, perform]
  unfold publish Prog.await
  rw [Prog.eval_call_some (congrArg Prod.fst hanswer), hanswer]
  exact h

theorem leads_handleStartCompensation
    (hr : s.redis.lookup (transactionKey id) = some r.serialize)
    (hstep : r.steps[r.currentStep]? = some step)
    (h : Φ { s with history := s.history ++
      [.published ⟨.handleStartCompensation, id, compensationStart r step.name⟩] }) :
    Leads delivered (handleStartCompensation id) s Φ := by
  unfold handleStartCompensation eventPublisher
  rw [bind_assoc]
  refine leads_getTransactionState hr ?_
  simp only [hstep]
  exact leads_publish (by simp [undelivered]) h

/-- The errors of the method are contained, but not that of its publication. -/
theorem leads_handleSendUserNotification {f : Unit → Async Unit}
    (hr : s.redis.lookup (transactionKey id) = some r.serialize) (errorMessage : String)
    (processType : ProcessType)
    (hok : delivered = true → ∀ date, Leads delivered (f ()) { s with history := s.history ++
      [.published ⟨.handleSendUserNotification, id,
        userNotification id errorMessage processType r date⟩] } Φ)
    (herr : delivered = false → Φ s) :
    Leads delivered (handleSendUserNotification id errorMessage processType >>= f) s Φ := by
  intro activity clock
  unfold handleSendUserNotification eventPublisher
  rw [Prog.eval_bind, Prog.eval_bind, Prog.eval_tryCatch, eval_getTransactionState hr]
  cases delivered with
  | true => exact hok rfl _ activity _
  | false => exact herr rfl

end Leads

/-! ## Handlers -/

/-- What the handler of `subject` leaves behind. -/
def handled (clientId : ClientIds) (subject : Subjects) (event : TransactionEvent)
    (delivered : Bool) (clock : Nat → Date) (s : Store) : Store :=
  ((handle clientId subject event).eval
    (notifying (.handler clientId subject event) delivered) (s, clock)).2.1

/-- The events that end a transaction `r`, and the status in which they end it. -/
inductive Ended (r : DistributedTransaction) : Subjects → DistributedTransactionStatus → Prop where
  | failed : Ended r .TRANSACTION_STEP_FAILED .FAILED
  | timedOut : r.status = .IN_PROGRESS → Ended r .TRANSACTION_TIMEOUT .TIMED_OUT

/-- Since `s`, `t` has got the status and its compensation has been announced. -/
structure CompensationBegun (s s' : Store) (t : String) (status : DistributedTransactionStatus) :
    Prop where
  stored : ∃ v, s'.redis.lookup (transactionKey (some t)) = some v ∧ v.status = status
  announced : ∃ added p, s'.history = s.history ++ added ∧ .published p ∈ added ∧
    p.event.topicName = Subjects.TRANSACTION_COMPENSATION_START.value ∧
    p.event.message.lookup "transactionId" = some (.str t)

section Handlers

variable {clientId : ClientIds} {event : TransactionEvent} {subject : Subjects} {delivered : Bool}
  {id : Option String} {s : Store} {r : DistributedTransaction} {step : TransactionStep}
  {status : DistributedTransactionStatus}

theorem lookup_compensationStart (r : DistributedTransaction) (failedStep : String) :
    (compensationStart r failedStep).message.lookup "transactionId" =
      some (.str r.transactionId) := by
  simp [compensationStart, outcomeMessage, JsonObject.lookup_put]

/-- Both handlers store how `r` has ended, notify the user, and announce the compensation. -/
theorem leads_ended {errorMessage : String} {processType : ProcessType}
    (hid : transactionKey id = transactionKey (some r.transactionId))
    (hevent : transactionKey event.transactionId = transactionKey (some r.transactionId))
    (hstep : r.steps[r.currentStep]? = some step) :
    Leads delivered (storeTransactionState r >>= fun _ =>
      handleSendUserNotification id errorMessage processType >>= fun _ =>
        handleStartCompensation event.transactionId) s
      fun s' => CompensationBegun s s' r.transactionId r.status ↔ delivered = true := by
  refine leads_storeTransactionState ?_
  refine leads_handleSendUserNotification (r := r) (hid ▸ AList.lookup_insert _) _ _ ?_ ?_
  · intro hd date
    refine leads_handleStartCompensation (r := r) (hevent ▸ AList.lookup_insert _) hstep ?_
    refine iff_of_true ⟨⟨r.serialize, AList.lookup_insert _, rfl⟩, ?_⟩ hd
    exact ⟨_, ⟨.handleStartCompensation, event.transactionId, compensationStart r step.name⟩,
      (List.append_assoc _ _ _).trans (List.append_assoc _ _ _), by simp, rfl,
      lookup_compensationStart r step.name⟩
  · rintro rfl
    refine iff_of_false ?_ Bool.false_ne_true
    rintro ⟨-, added, p, hhistory, hmem, -⟩
    obtain rfl := List.append_cancel_left hhistory
    cases List.mem_singleton.mp hmem

/-- A failed or timed out transaction is compensated if and only if its user is notified. -/
theorem compensation_begun_iff (he : Ended r subject status)
    (hr : s.redis.lookup (transactionKey (some r.transactionId)) = some r.serialize)
    (hevent : transactionKey event.transactionId = transactionKey (some r.transactionId))
    (hleft : r.currentStep < r.steps.length) (clock : Nat → Date) :
    CompensationBegun s (handled clientId subject event delivered clock s) r.transactionId
      status ↔ delivered = true := by
  obtain ⟨step, hstep⟩ : ∃ step, r.steps[r.currentStep]? = some step :=
    ⟨_, List.getElem?_eq_getElem hleft⟩
  rw [← hevent] at hr
  have hended : Leads delivered (handle clientId subject event) s
      fun s' => CompensationBegun s s' r.transactionId status ↔ delivered = true := by
    cases he with
    | failed =>
      refine leads_getTransactionState hr ?_
      simp only [hstep]
      have hfailed : (failStep r step event.error).steps[(failStep r step event.error).currentStep]?
          = some { step with status := .FAILED, error := event.error } := by
        simp [failStep, hleft]
      exact leads_ended (r := failStep r step event.error) rfl hevent hfailed
    | timedOut hs =>
      refine leads_getTransactionState hr ?_
      simp only [hs, ne_eq, not_true, if_false]
      exact leads_ended (r := timeOut r) hevent hevent hstep
  exact hended _ clock

end Handlers

/-- The store once the step of `oneStep` is commanded. -/
def commandedOneStep : Store :=
  ((Cluster.run (fun _ _ => true) startOneStep).get (by decide)).world

/-- The step fails. -/
def oneStepFailed : TransactionEvent := { transactionId := some "t", error := some "no order" }

theorem compensation_begun_oneStep :
    CompensationBegun commandedOneStep (handled .ORDER_SERVICE .TRANSACTION_STEP_FAILED
      oneStepFailed true (fun _ => 0) commandedOneStep) "t" .FAILED :=
  (compensation_begun_iff (r := beginStep (newTransaction oneStep "t" 0)
    ⟨Subjects.ORDER_APPROVAL_STEP_UPDATE_ORDER_STATUS.value, .ORDER_SERVICE, .PENDING, none, none,
      none⟩ 0) .failed rfl rfl (by decide) _).mpr rfl

/-- The failure is stored, but the user is not notified, and no compensation is announced. -/
theorem unnotified_not_compensated :
    ((handled .ORDER_SERVICE .TRANSACTION_STEP_FAILED oneStepFailed false (fun _ => 0)
      commandedOneStep).redis.lookup (transactionKey (some "t"))).map (·.status) = some .FAILED ∧
    ¬CompensationBegun commandedOneStep (handled .ORDER_SERVICE .TRANSACTION_STEP_FAILED
      oneStepFailed false (fun _ => 0) commandedOneStep) "t" .FAILED := by
  refine ⟨by decide, ?_⟩
  rintro ⟨-, added, p, hhistory, hmem, -⟩
  obtain rfl : [Entry.stored _ _] = added := List.append_cancel_left hhistory
  cases List.mem_singleton.mp hmem

end InvoiceHub.Transaction
