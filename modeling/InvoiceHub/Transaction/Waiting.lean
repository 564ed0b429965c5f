import InvoiceHub.Transaction.Commands
import InvoiceHub.Transaction.Final

/-!
# What a transaction waits for

Where the handlers of a transaction do not overlap and no call fails, a transaction that no handler
works on has ended, or something will still happen to it: a message that it has published itself is
not handled yet, or it waits for the report of the step it has commanded last (`rests_lifecycle`).
-/

namespace InvoiceHub.Transaction

open Effects

/-- Something of `publisher` has been published since a message on `subject` was last received. -/
def outstanding (publisher : Publisher) (subject : Subjects) (history : List Entry) : Bool :=
  history.foldl (fun waiting entry =>
    match entry with
    | .published p => waiting || p.publisher = publisher
    | .received received _ => waiting && received ≠ subject
    | _ => waiting) false

/-- The topics on which a message ends the progress of a transaction. -/
def endsProgress : Subjects → Bool
  | .TRANSACTION_STEP_FAILED => true
  | .TRANSACTION_COMPENSATION_START => true
  | .TRANSACTION_COMPENSATION_COMPLETED => true
  | .TRANSACTION_COMPLETED => true
  | .TRANSACTION_TIMEOUT => true
  | _ => false

/-- Since `t` was started with `options`, no message has ended its progress. -/
def Undisturbed (t : String) (options : TransactionOptions) (history : List Entry) : Prop :=
  ∃ before after, history = before ++ .created t options :: after ∧
    ∀ subject event, .received subject event ∈ after → endsProgress subject = false

/-- The current step was begun and was commanded last, and it has not been reported since. -/
structure AwaitsReport (r : DistributedTransaction) (step : TransactionStep)
    (history : List Entry) : Prop where
  current : r.steps[r.currentStep]? = some step
  startedAt : step.startedAt ≠ none
  commanded : ∃ before p after, history = before ++ .published p :: after ∧
    isCommand p = true ∧ p.event = forwardCommand r step ∧
    (∀ other, .published other ∈ after → isCommand other = false) ∧
    ∀ event, .received .TRANSACTION_STEP_COMPLETED event ∈ after → event.stepName ≠ some step.name

/-- What a transaction waits for, by its status. -/
def Waits (t : String) (options : TransactionOptions) (r : DistributedTransaction)
    (history : List Entry) : Prop :=
  match r.status with
  | .STARTED => False
  | .IN_PROGRESS => Undisturbed t options history ∧ ∃ step, AwaitsReport r step history
  | .FAILED | .TIMED_OUT =>
    outstanding .handleStartCompensation .TRANSACTION_COMPENSATION_START history = true
  | .COMPENSATING =>
    outstanding .handleExecuteCompensation .TRANSACTION_COMPENSATION_COMPLETED history = true
  | .COMPLETED | .COMPENSATED => True

section Outstanding

variable {publisher : Publisher} {subject : Subjects} {history : List Entry}

@[simp] theorem outstanding_published (p : Publication) :
    outstanding publisher subject (history ++ [.published p]) =
      (outstanding publisher subject history || decide (p.publisher = publisher)) := by
  simp [outstanding]

@[simp] theorem outstanding_received (received : Subjects) (event : TransactionEvent) :
    outstanding publisher subject (history ++ [.received received event]) =
      (outstanding publisher subject history && decide (received ≠ subject)) := by
  simp [outstanding]

@[simp] theorem outstanding_stored (key : String) (value : SerializedTransaction) :
    outstanding publisher subject (history ++ [.stored key value]) =
      outstanding publisher subject history := by
  simp [outstanding]

end Outstanding

/-- A view of a transaction that no handler works on. -/
structure Rests (t : String) (options : TransactionOptions) (r : DistributedTransaction)
    (ℓ : View) : Prop where
  record : ℓ.record = some r.serialize
  waits : Waits t options r ℓ.history

/-- A message that means nothing to a transaction as it stands. -/
structure Ignored (r : DistributedTransaction) (subject : Subjects) (event : TransactionEvent) :
    Prop where
  inProgress : r.status = .IN_PROGRESS → endsProgress subject = false
  reported : r.status = .IN_PROGRESS → subject = .TRANSACTION_STEP_COMPLETED →
    ∀ step, r.steps[r.currentStep]? = some step → event.stepName ≠ some step.name
  failed : r.status = .FAILED ∨ r.status = .TIMED_OUT → subject ≠ .TRANSACTION_COMPENSATION_START
  compensating : r.status = .COMPENSATING → subject ≠ .TRANSACTION_COMPENSATION_COMPLETED

section Rests

variable {t : String} {options : TransactionOptions} {r : DistributedTransaction} {ℓ : View}
  {subject : Subjects} {event : TransactionEvent}

theorem Undisturbed.apply (h : Undisturbed t options ℓ.history) {entry : Entry}
    (hentry : ∀ subject event, entry = .received subject event → endsProgress subject = false) :
    Undisturbed t options (ℓ.apply entry).history := by
  obtain ⟨before, after, hhistory, hquiet⟩ := h
  refine ⟨before, after ++ [entry], by simp [View.apply, hhistory], fun subject event hmem => ?_⟩
  rcases List.mem_append.mp hmem with hmem | hmem
  · exact hquiet subject event hmem
  · exact hentry subject event (List.mem_singleton.mp hmem).symm

theorem AwaitsReport.received {step : TransactionStep} {history : List Entry}
    (h : AwaitsReport r step history)
    (hname : subject = .TRANSACTION_STEP_COMPLETED → event.stepName ≠ some step.name) :
    AwaitsReport r step (history ++ [.received subject event]) := by
  obtain ⟨before, p, after, rfl, hp, hevent, hlast, hreports⟩ := h.commanded
  refine ⟨h.current, h.startedAt, before, p, after ++ [.received subject event], by simp, hp,
    hevent, fun other hmem => ?_, fun event' hmem => ?_⟩
  · rcases List.mem_append.mp hmem with hmem | hmem
    · exact hlast other hmem
    · cases List.mem_singleton.mp hmem
  · rcases List.mem_append.mp hmem with hmem | hmem
    · exact hreports event' hmem
    · cases List.mem_singleton.mp hmem
      exact hname rfl

theorem ignored_of_ne (hends : r.status = .IN_PROGRESS → endsProgress subject = false)
    (hreport : r.status = .IN_PROGRESS → subject ≠ .TRANSACTION_STEP_COMPLETED)
    (hstart : r.status = .FAILED ∨ r.status = .TIMED_OUT →
      subject ≠ .TRANSACTION_COMPENSATION_START)
    (hcompleted : subject ≠ .TRANSACTION_COMPENSATION_COMPLETED) : Ignored r subject event :=
  ⟨hends, fun hstatus hsubject => absurd hsubject (hreport hstatus), hstart, fun _ => hcompleted⟩

/-- A completed step is ignored unless it is the current one of a transaction in progress. -/
theorem ignored_stepCompleted (h : r.status = .IN_PROGRESS → ∀ step,
    r.steps[r.currentStep]? = some step → event.stepName ≠ some step.name) :
    Ignored r .TRANSACTION_STEP_COMPLETED event :=
  ⟨fun _ => rfl, fun hstatus _ => h hstatus, fun _ => by decide, fun _ => by decide⟩

/-- A transaction goes on waiting when it ignores a message. -/
theorem Rests.ignore (h : Rests t options r ℓ) (hi : Ignored r subject event) :
    Rests t options r (ℓ.apply (.received subject event)) := by
  refine ⟨h.record, ?_⟩
  have hwaits := h.waits
  unfold Waits at hwaits ⊢
  rw [View.apply_received]
  split at hwaits
  · exact hwaits
  · rename_i hstatus
    obtain ⟨hundisturbed, step, hawaits⟩ := hwaits
    refine ⟨hundisturbed.apply ?_, step, hawaits.received fun hsubject =>
      hi.reported hstatus hsubject step hawaits.current⟩
    rintro _ _ ⟨⟩
    exact hi.inProgress hstatus
  · rename_i hstatus
    simp [hwaits, hi.failed (.inl hstatus)]
  · rename_i hstatus
    simp [hwaits, hi.failed (.inr hstatus)]
  · rename_i hstatus
    simp [hwaits, hi.compensating hstatus]
  · trivial
  · trivial

/-- A transaction that is progressed while it waits has not been disturbed. -/
theorem Rests.undisturbed (h : Rests t options r ℓ) (hactive : Active r) :
    Undisturbed t options ℓ.history := by
  have hwaits := h.waits
  rcases hactive with hstatus | hstatus
  · rw [Waits, hstatus] at hwaits
    cases hwaits
  · rw [Waits, hstatus] at hwaits
    exact hwaits.1

/-- Where a transaction is not progressed, what it waits for depends on its status alone. -/
theorem Rests.store (h : Rests t options r ℓ) (hactive : ¬Active r)
    {r' : DistributedTransaction} (hstatus : r'.status = r.status) :
    Rests t options r' (ℓ.apply (written r')) := by
  refine ⟨rfl, ?_⟩
  have hwaits := h.waits
  unfold Waits at hwaits ⊢
  rw [hstatus, written, View.apply_stored]
  split at hwaits
  · exact hwaits
  · rename_i h
    exact absurd (.inr h) hactive
  · simpa using hwaits
  · simpa using hwaits
  · simpa using hwaits
  · trivial
  · trivial

/-- A transaction that is progressed has completed or waits for the step that it commands. -/
theorem along_progress_rests (hundisturbed : Undisturbed t options ℓ.history) (hactive : Active r)
    (id : Option String) (date : Date) :
    View.Along (fun _ => True) (fun ℓ => ∃ r, Rests t options r ℓ) ℓ (progress id r date) := by
  unfold progress
  rw [if_pos hactive]
  split
  · exact ⟨trivial, trivial, trivial, close r .COMPLETED date, rfl, trivial⟩
  · rename_i step hstep
    obtain ⟨hlt, -⟩ := List.getElem?_eq_some_iff.mp hstep
    refine ⟨trivial, trivial, trivial, beginStep r step date, rfl, ?_,
      { step with startedAt := some date }, ?_⟩
    · refine (hundisturbed.apply ?_).apply ?_
      · exact nofun
      · exact nofun
    · exact ⟨by simp [beginStep, hlt], nofun, _, _, [], rfl, rfl, rfl, by simp, by simp⟩

/-- A failure waits for the start of compensation that is published for it. -/
theorem rests_of_failed (hrecord : ℓ.record = some r.serialize)
    (hstatus : r.status = .FAILED ∨ r.status = .TIMED_OUT) (id : Option String)
    (event : EventMessage) :
    Rests t options r (ℓ.apply (.published ⟨.handleStartCompensation, id, event⟩)) := by
  refine ⟨hrecord, ?_⟩
  rcases hstatus with hstatus | hstatus <;> simp [Waits, hstatus]

/-- An ended transaction waits for nothing. -/
theorem rests_of_ended (hrecord : ℓ.record = some r.serialize)
    (hstatus : r.status = .COMPLETED ∨ r.status = .COMPENSATED) : Rests t options r ℓ := by
  refine ⟨hrecord, ?_⟩
  rcases hstatus with hstatus | hstatus <;> simp [Waits, hstatus]

theorem undisturbed_started (r : DistributedTransaction) :
    Undisturbed t options ((ℓ.apply (.created t options)).apply (written r)).history :=
  ⟨ℓ.history, [written r], by simp [View.apply], fun _ _ hmem => by
    cases List.mem_singleton.mp hmem⟩

/-- A transaction that takes a completed step goes on, if it is progressed. -/
theorem Rests.stepCompleted (h : Rests t options r ℓ) (step : TransactionStep) (date : Date)
    (event : TransactionEvent) (date' : Date) :
    View.Along (fun _ => True) (fun ℓ => ∃ r, Rests t options r ℓ)
      ((ℓ.apply (.received .TRANSACTION_STEP_COMPLETED event)).apply
        (written (completeStep r step date)))
      (progress event.transactionId (completeStep r step date) date') := by
  by_cases hactive : Active (completeStep r step date)
  · refine along_progress_rests (((h.undisturbed hactive).apply ?_).apply ?_) hactive _ _
    · rintro _ _ ⟨⟩
      rfl
    · exact nofun
  · unfold progress
    rw [if_neg hactive]
    refine ⟨trivial, completeStep r step date,
      (h.ignore (ignored_stepCompleted ?_)).store hactive rfl⟩
    exact fun hstatus => absurd (.inr hstatus) hactive

/-- What `react` leaves of a transaction that waits. -/
theorem Rests.react (h : Rests t options r ℓ) (clientId : ClientIds) (event : TransactionEvent)
    (subject : Subjects) (dates : Nat → Date) :
    View.Along (fun _ => True) (fun ℓ => ∃ r, Rests t options r ℓ)
      (ℓ.apply (.received subject event))
      (react clientId subject event (some r) true dates) := by
  have hcurrent : r.status = .IN_PROGRESS → r.steps[r.currentStep]? ≠ none := by
    intro hstatus hnone
    have hwaits := h.waits
    rw [Waits, hstatus] at hwaits
    obtain ⟨-, step, hawaits⟩ := hwaits
    cases hawaits.current.symm.trans hnone
  have hignore : Ignored r subject event → View.Along (fun _ => True)
      (fun ℓ => ∃ r, Rests t options r ℓ) (ℓ.apply (.received subject event)) [] :=
    fun hi => ⟨trivial, r, h.ignore hi⟩
  cases subject with
  | TRANSACTION_STEP_COMPLETED =>
    simp only [Transaction.react]
    split
    · rename_i hnone
      exact hignore (ignored_stepCompleted fun hstatus => absurd hnone (hcurrent hstatus))
    · rename_i step hstep
      split
      · exact ⟨trivial, h.stepCompleted step (dates 0) event (dates 1)⟩
      · rename_i hname
        refine hignore (ignored_stepCompleted fun _ step' hstep' heq => hname ?_)
        cases hstep.symm.trans hstep'
        exact heq.symm
  | TRANSACTION_STEP_FAILED =>
    simp only [Transaction.react]
    split
    · rename_i hnone
      exact hignore (ignored_of_ne (fun hstatus => absurd hnone (hcurrent hstatus))
        (fun _ => by decide) (fun _ => by decide) (by decide))
    · exact ⟨trivial, trivial, trivial, trivial, _, rests_of_failed rfl (.inl rfl) _ _⟩
  | TRANSACTION_COMPENSATION_START =>
    simp only [Transaction.react]
    split
    · rename_i hstatus
      have hne : r.status ≠ .IN_PROGRESS ∧ ¬(r.status = .FAILED ∨ r.status = .TIMED_OUT) := by
        rcases hstatus with hstatus | hstatus <;> rw [hstatus] <;> decide
      exact hignore (ignored_of_ne (fun h => absurd h hne.1) (fun _ => by decide)
        (fun h => absurd h hne.2) (by decide))
    · split
      · refine ⟨trivial, trivial, trivial, beginCompensation r, rfl, ?_⟩
        simp [Waits, beginCompensation]
      · exact ⟨trivial, trivial, trivial, trivial, compensate r (dates 0),
          rests_of_ended rfl (.inr rfl)⟩
  | TRANSACTION_COMPENSATION_COMPLETED =>
    simp only [Transaction.react]
    split
    · rename_i hstatus
      exact ⟨trivial, r, rests_of_ended h.record (.inr hstatus)⟩
    · exact ⟨trivial, trivial, close r .COMPENSATED (dates 0), rests_of_ended rfl (.inr rfl)⟩
  | TRANSACTION_COMPLETED =>
    simp only [Transaction.react]
    split
    · rename_i hstatus
      exact ⟨trivial, r, rests_of_ended h.record (.inl hstatus)⟩
    · exact ⟨trivial, trivial, close r .COMPENSATED (dates 0), rests_of_ended rfl (.inr rfl)⟩
  | TRANSACTION_TIMEOUT =>
    simp only [Transaction.react]
    split
    · rename_i hstatus
      split
      · rename_i hnone
        exact absurd hnone (hcurrent hstatus)
      · exact ⟨trivial, trivial, trivial, trivial, timeOut r, rests_of_failed rfl (.inr rfl) _ _⟩
    · rename_i hstatus
      exact hignore (ignored_of_ne (fun h => absurd h hstatus) (fun _ => by decide)
        (fun _ => by decide) (by decide))
  | _ =>
    exact hignore (ignored_of_ne (fun _ => rfl) (fun _ => by decide) (fun _ => by decide)
      (by decide))

end Rests

/-! ## Runs -/

theorem rests_lifecycle (t : String) :
    Lifecycle smoothPolicy t (fun _ _ => True) (fun options ℓ => ∃ r, Rests t options r ℓ)
      False where
  stopped := False.elim
  record := by
    rintro _ v ⟨r, h⟩ hn
    cases h.record.symm.trans hn
  fails := fun _ _ _ hp _ _ => Bool.noConfusion hp
  stops := fun _ _ _ hp _ _ => Bool.noConfusion hp
  exclusive := by
    intro s clientId subject event hp hk
    rw [← hk]
    exact hp
  start := fun s options date _ _ _ _ date' =>
    along_progress_rests (undisturbed_started (newTransaction options t date)) (.inl rfl) (some t)
      date'
  deliver := by
    rintro s clientId subject event options - - - - ⟨r, h⟩ notified dates hnotified
    obtain rfl : notified = true := hnotified id
    rw [h.record, Option.bind_some, DistributedTransaction.read_serialize]
    exact h.react clientId event subject dates

/-- A transaction that no handler works on, and whose own messages about its compensation have been
followed by what they bring about, has ended; or nothing but a report of the step that it has
commanded last is missing. -/
theorem at_rest_ended_or_awaits {s : Cluster} {t : String} {options : TransactionOptions}
    (h : Cluster.Reachable smoothPolicy s) (hc : .created t options ∈ s.world.history)
    (hidle : s.idle (transactionKey (some t)) = true)
    (hstart : outstanding .handleStartCompensation .TRANSACTION_COMPENSATION_START
      (s.world.view t).history = false)
    (hcompleted : outstanding .handleExecuteCompensation .TRANSACTION_COMPENSATION_COMPLETED
      (s.world.view t).history = false) :
    ∃ r, (s.world.view t).record = some r.serialize ∧
      (r.status = .COMPLETED ∨ r.status = .COMPENSATED ∨
        r.status = .IN_PROGRESS ∧ Undisturbed t options (s.world.view t).history ∧
          ∃ step, AwaitsReport r step (s.world.view t).history) := by
  obtain ⟨r, hrests⟩ := ((rests_lifecycle t).reachable h hc).1 hidle
  refine ⟨r, hrests.record, ?_⟩
  have hwaits := hrests.waits
  unfold Waits at hwaits
  split at hwaits
  · cases hwaits
  · rename_i hstatus
    exact .inr (.inr ⟨hstatus, hwaits⟩)
  · cases hstart.symm.trans hwaits
  · cases hstart.symm.trans hwaits
  · cases hcompleted.symm.trans hwaits
  · rename_i hstatus
    exact .inl hstatus
  · rename_i hstatus
    exact .inr (.inl hstatus)

/-- The step of `oneStep` is slow, and what is published about its compensation is received. -/
def compensationReceived : List Cluster.Label :=
  timedOut ++ [.deliver .ORDER_SERVICE .TRANSACTION_COMPENSATION_COMPLETED
    { transactionId := some "t", processType := some ProcessType.ORDER_APPROVAL.value },
    .advance 0 0]

theorem at_rest_ended_or_awaits_compensated :
    let s := (Cluster.run smoothPolicy compensationReceived).get (by decide)
    ∃ r, (s.world.view "t").record = some r.serialize ∧
      (r.status = .COMPLETED ∨ r.status = .COMPENSATED ∨
        r.status = .IN_PROGRESS ∧ Undisturbed "t" oneStep (s.world.view "t").history ∧
          ∃ step, AwaitsReport r step (s.world.view "t").history) :=
  at_rest_ended_or_awaits (Machine.reachable_run _ _)
    (List.Mem.head (a := Entry.created "t" oneStep) _) (by decide) (by decide) (by decide)

end InvoiceHub.Transaction
