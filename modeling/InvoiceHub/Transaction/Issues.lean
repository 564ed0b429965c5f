import InvoiceHub.Transaction.Monotone

/-!
# What a handler may issue

Whatever it reads, only the handler of `TRANSACTION_STEP_COMPLETED` publishes a forward command or
a completion, or writes a record that is still open; `startTransaction` progresses a transaction
the same way.  The others write closed records, and minimal ones that are closed as well.
-/

namespace InvoiceHub.Transaction

open Effects

/-- The calls of the handler of `subject`, awaited or started. -/
inductive Issues (clientId : ClientIds) (subject : Subjects) (event : TransactionEvent) :
    Call → Prop where
  | get (key : String) : Issues clientId subject event (.get key)
  | getKeysByPattern : Issues clientId subject event .getKeysByPattern
  | now : Issues clientId subject event .now
  | progress (r : DistributedTransaction) : subject = .TRANSACTION_STEP_COMPLETED →
      Issues clientId subject event (.set (transactionKey (some r.transactionId)) r.serialize)
  | close {r : DistributedTransaction} : Closed r.status →
      Issues clientId subject event (.set (transactionKey (some r.transactionId)) r.serialize)
  | minimal {processType : String} {status : DistributedTransactionStatus} (startedAt : Date)
      (completedAt : Option Date) : event.processType = some processType → Closed status →
      Issues clientId subject event (.set (transactionKey event.transactionId)
        (minimalTransaction clientId event.transactionId processType status startedAt completedAt))
  | command (p : Publication) : subject = .TRANSACTION_STEP_COMPLETED →
      Issues clientId subject event (.publish p)
  | publish {publisher : Publisher} (id : Option String) (message : EventMessage) :
      publisher ≠ .handleProgressTransaction ∧ publisher ≠ .handleCompleteTransaction →
      Issues clientId subject event (.publish ⟨publisher, id, message⟩)

/-- A program issues such calls only, whatever it reads. -/
abbrev IssuesOnly (clientId : ClientIds) (subject : Subjects) (event : TransactionEvent)
    {α : Type} (p : Async α) : Prop :=
  p.Guarded (fun _ _ => True) (Issues clientId subject event) (Issues clientId subject event)

section Methods

variable {clientId : ClientIds} {subject : Subjects} {event : TransactionEvent} {α : Type}
  {id processType : Option String}

theorem issues_getTransactionState {f : Option DistributedTransaction → Async α}
    (hnone : IssuesOnly clientId subject event (f none))
    (hsome : ∀ r, IssuesOnly clientId subject event (f (some r))) :
    IssuesOnly clientId subject event (getTransactionState id >>= f) := by
  rw [getTransactionState_bind]
  refine (Prog.guarded_call _ _ _).mpr ⟨.get _, fun content _ => ?_, trivial⟩
  cases content.bind SerializedTransaction.read with
  | none => exact hnone
  | some r => exact hsome r

theorem issues_newDate {f : Date → Async α} (h : ∀ date, IssuesOnly clientId subject event (f date)) :
    IssuesOnly clientId subject event (newDate >>= f) :=
  (Prog.guarded_call _ _ _).mpr ⟨.now, fun date _ => h date, trivial⟩

/-- A write that closes the record, or one that progresses it. -/
theorem issues_storeTransactionState {r : DistributedTransaction}
    (hr : subject = .TRANSACTION_STEP_COMPLETED ∨ Closed r.status) {f : Unit → Async α}
    (h : IssuesOnly clientId subject event (f ())) :
    IssuesOnly clientId subject event (storeTransactionState r >>= f) :=
  (Prog.guarded_call _ _ _).mpr ⟨hr.elim (.progress r) .close, fun _ _ => h, trivial⟩

theorem issues_lastStore {r : DistributedTransaction} (hr : Closed r.status) :
    IssuesOnly clientId subject event (storeTransactionState r) :=
  (Prog.guarded_call _ _ _).mpr ⟨.close hr, fun _ _ => trivial, trivial⟩

theorem issues_storeMinimalTransaction {status : DistributedTransactionStatus}
    (hs : Closed status) (startedAt : Date) (completedAt : Option Date) :
    IssuesOnly clientId subject event (storeMinimalTransaction clientId event.transactionId
      event.processType status startedAt completedAt) := by
  unfold storeMinimalTransaction
  split
  · exact trivial
  · rename_i processType hp
    exact (Prog.guarded_call _ _ _).mpr
      ⟨.minimal startedAt completedAt hp hs, fun _ _ => trivial, trivial⟩

theorem issues_eventPublisher {publisher : Publisher} {method : Async (Option EventMessage)}
    (hp : subject = .TRANSACTION_STEP_COMPLETED ∨
      publisher ≠ .handleProgressTransaction ∧ publisher ≠ .handleCompleteTransaction)
    (h : IssuesOnly clientId subject event method) :
    IssuesOnly clientId subject event (eventPublisher publisher id method) := by
  refine Prog.guarded_bind h fun message => ?_
  cases message with
  | none => exact trivial
  | some message =>
    exact (Prog.guarded_call _ _ _).mpr
      ⟨hp.elim (.command _) (.publish _ _), fun _ _ => trivial, trivial⟩

theorem issues_handleCompleteTransaction (hs : subject = .TRANSACTION_STEP_COMPLETED) :
    IssuesOnly clientId subject event (handleCompleteTransaction id) :=
  issues_eventPublisher (.inl hs) <| issues_getTransactionState trivial fun r =>
    issues_newDate fun date => issues_storeTransactionState (.inr (show Closed .COMPLETED by decide))
      trivial

/-- `handleProgressTransaction` writes records that are still open and commands steps. -/
theorem issues_handleProgressTransaction (hs : subject = .TRANSACTION_STEP_COMPLETED) :
    IssuesOnly clientId subject event (handleProgressTransaction id) := by
  refine issues_eventPublisher (.inl hs) (issues_getTransactionState trivial fun r => ?_)
  dsimp only
  split
  · exact trivial
  · split
    · exact Prog.guarded_bind (issues_handleCompleteTransaction hs) fun _ => trivial
    · exact issues_newDate fun date => issues_storeTransactionState (.inl hs) trivial

theorem issues_handleStartCompensation :
    IssuesOnly clientId subject event (handleStartCompensation id) := by
  refine issues_eventPublisher (.inr (by decide)) (issues_getTransactionState trivial fun r => ?_)
  dsimp only
  split <;> exact trivial

theorem issues_handleCompensationSteps (r : DistributedTransaction) (steps : List TransactionStep) :
    IssuesOnly clientId subject event (handleCompensationSteps r steps) := by
  induction steps with
  | nil => exact trivial
  | cons step rest ih => exact (Prog.guarded_spawn _ _).mpr ⟨.publish _ _ (by decide), ih⟩

theorem issues_handleExecuteCompensation :
    IssuesOnly clientId subject event
      (handleExecuteCompensation clientId event.transactionId event.processType) := by
  refine issues_eventPublisher (.inr (by decide)) (issues_getTransactionState ?_ fun r => ?_)
  · exact issues_newDate fun date => Prog.guarded_bind
      (issues_storeMinimalTransaction (by decide) date none) fun _ => trivial
  · dsimp only
    split
    · exact trivial
    · refine issues_storeTransactionState (.inr (show Closed .COMPENSATING by decide)) ?_
      split
      · refine Prog.guarded_bind (issues_handleCompensationSteps r _) fun _ => ?_
        exact issues_newDate fun date =>
          issues_storeTransactionState (.inr (show Closed .COMPENSATED by decide)) trivial
      · exact trivial

theorem issues_handleSendUserNotification (errorMessage : String) (type : ProcessType) :
    IssuesOnly clientId subject event (handleSendUserNotification id errorMessage type) :=
  issues_eventPublisher (.inr (by decide)) <| Prog.guarded_tryCatch
    (issues_getTransactionState trivial fun r => issues_newDate fun date => trivial) trivial

/-- What a handler issues, whatever it reads. -/
theorem issues_handle (clientId : ClientIds) (subject : Subjects) (event : TransactionEvent) :
    IssuesOnly clientId subject event (handle clientId subject event) := by
  cases subject with
  | TRANSACTION_STEP_COMPLETED =>
    refine issues_getTransactionState trivial fun r => ?_
    dsimp only
    split
    · exact trivial
    · split
      · exact trivial
      · exact issues_newDate fun date =>
          issues_storeTransactionState (.inl rfl) (issues_handleProgressTransaction rfl)
  | TRANSACTION_STEP_FAILED =>
    refine issues_getTransactionState trivial fun r => ?_
    dsimp only
    split
    · exact trivial
    · refine issues_storeTransactionState (.inr (show Closed .FAILED by decide)) ?_
      exact Prog.guarded_bind (issues_handleSendUserNotification _ _) fun _ =>
        issues_handleStartCompensation
  | TRANSACTION_COMPENSATION_START => exact issues_handleExecuteCompensation
  | TRANSACTION_COMPENSATION_COMPLETED =>
    refine issues_getTransactionState ?_ fun r => ?_
    · exact issues_newDate fun startedAt => issues_newDate fun completedAt =>
        issues_storeMinimalTransaction (by decide) startedAt _
    · dsimp only
      split
      · exact trivial
      · exact issues_newDate fun date => issues_lastStore (show Closed .COMPENSATED by decide)
  | TRANSACTION_COMPLETED =>
    refine issues_getTransactionState ?_ fun r => ?_
    · exact issues_newDate fun startedAt => issues_newDate fun completedAt =>
        issues_storeMinimalTransaction (by decide) startedAt _
    · dsimp only
      split
      · exact issues_newDate fun date => issues_lastStore (show Closed .COMPENSATED by decide)
      · exact trivial
  | TRANSACTION_TIMEOUT =>
    refine issues_getTransactionState trivial fun r => ?_
    dsimp only
    split
    · exact trivial
    · refine issues_storeTransactionState (.inr (show Closed .TIMED_OUT by decide)) ?_
      exact Prog.guarded_bind (issues_handleSendUserNotification _ _) fun _ =>
        issues_handleStartCompensation
  | _ => exact trivial

theorem issues_checkTimeoutsOf (now : Date) (keys : List String) :
    IssuesOnly clientId subject event (checkTimeoutsOf now keys) := by
  induction keys with
  | nil => exact trivial
  | cons key keys ih =>
    rw [checkTimeoutsOf, getTransactionByKey_bind]
    refine (Prog.guarded_call _ _ _).mpr ⟨.get key, fun content _ => ?_, trivial⟩
    cases content.bind SerializedTransaction.read with
    | none => exact ih
    | some r =>
      dsimp only
      split
      · split
        · exact trivial
        · split
          · exact (Prog.guarded_spawn _ _).mpr ⟨.publish _ _ (by decide), ih⟩
          · exact ih
      · exact ih

/-- The timeout checker writes nothing and commands nothing. -/
theorem issues_checkTimeouts : IssuesOnly clientId subject event checkTimeouts :=
  (Prog.guarded_call _ _ _).mpr ⟨.getKeysByPattern, fun keys _ =>
    issues_newDate fun now => issues_checkTimeoutsOf now keys, trivial⟩

end Methods

/-! ## Runs -/

section Runs

variable {G : Guard Activity Call Call.Res Activity.background} {s s' : Cluster}
  {label : Cluster.Label}

/-- A guard that relies on no answer is kept if the methods that are started keep it. -/
theorem keeps_fire (hanswer : ∀ activity op r, G.answer activity op r)
    (hstart : ∀ t, G.Admits (.startTransaction t) (handleProgressTransaction (some t)))
    (hhandle : ∀ clientId subject event, label = .deliver clientId subject event →
      G.Admits (.handler clientId subject event) (handle clientId subject event))
    (hcheck : G.Admits .checkTimeouts checkTimeouts) (h : ∀ task ∈ s.tasks, G.Keeps task)
    (hf : s.fire label = some s') : ∀ task ∈ s'.tasks, G.Keeps task := by
  cases label with
  | start options t date =>
    unfold Cluster.fire at hf
    dsimp only at hf
    split at hf
    · cases hf
      exact Guard.keeps_begin h (hstart t)
    · cases hf
  | deliver clientId subject event =>
    cases hf
    exact Guard.keeps_begin h (hhandle clientId subject event rfl)
  | checkTimeouts =>
    cases hf
    exact Guard.keeps_begin h hcheck
  | advance j date => exact Guard.keeps_advance h hf fun _ _ _ _ _ _ => hanswer _ _ _
  | reject j => exact Guard.keeps_reject h hf
  | abandon j => exact Guard.keeps_abandon h hf

/-- The tasks of handlers issue what those may issue. -/
def issuing : Guard Activity Call Call.Res Activity.background where
  answer _ _ _ := True
  permits
    | .handler clientId subject event => Issues clientId subject event
    | _ => fun _ => True
  spawns
    | .handler clientId subject event => Issues clientId subject event
    | _ => fun _ => True
  started _ := trivial

theorem issuing_reachable {policy : Cluster.Policy} (h : Cluster.Reachable policy s) :
    ∀ task ∈ s.tasks, issuing.Keeps task := by
  have hany : ∀ {p : Async Unit}, IssuesOnly .ORDER_SERVICE .TRANSACTION_STEP_COMPLETED
      { transactionId := none } p →
      p.Guarded (fun _ _ => True) (fun _ => True) fun _ => True :=
    fun hp => hp.mono (fun _ _ hr => hr) (fun _ _ => trivial) fun _ _ => trivial
  induction h with
  | refl => exact fun _ hmem => nomatch hmem
  | tail _ hst ih =>
    obtain ⟨label, -, hf⟩ := hst
    exact keeps_fire (fun _ _ _ => trivial) (fun t => hany (issues_handleProgressTransaction rfl))
      (fun clientId subject event _ => issues_handle clientId subject event)
      (hany issues_checkTimeouts) ih hf

end Runs

end InvoiceHub.Transaction
