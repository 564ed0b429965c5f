import InvoiceHub.Transaction.Lawful

/-!
# The saga as a state machine

The purpose of the handlers, without their calls: `react` says which writes and
publications an event brings about in the record of its transaction.
-/

namespace InvoiceHub.Transaction

open Effects

/-! ## The view of one transaction -/

/-- The entries that concern the record under `key`; publications that no handler awaits
are left out, as they can be delayed beyond the handler. -/
def Entry.concerns (key : String) : Entry → Bool
  | created transactionId _ => transactionKey (some transactionId) == key
  | received _ event => transactionKey event.transactionId == key
  | stored k _ => k == key
  | published p => transactionKey p.transactionId == key && p.publisher.awaited

/-- A transaction as its handlers leave it: the record and what they did. -/
structure View where
  record : Option SerializedTransaction
  history : List Entry

namespace View

/-- The effect of one entry. -/
def apply (ℓ : View) (entry : Entry) : View where
  record := match entry with
    | .stored _ value => some value
    | _ => ℓ.record
  history := ℓ.history ++ [entry]

@[simp] theorem apply_stored (ℓ : View) (key : String) (value : SerializedTransaction) :
    ℓ.apply (.stored key value) = ⟨some value, ℓ.history ++ [.stored key value]⟩ := rfl

@[simp] theorem apply_published (ℓ : View) (p : Publication) :
    ℓ.apply (.published p) = ⟨ℓ.record, ℓ.history ++ [.published p]⟩ := rfl

@[simp] theorem apply_received (ℓ : View) (subject : Subjects) (event : TransactionEvent) :
    ℓ.apply (.received subject event) = ⟨ℓ.record, ℓ.history ++ [.received subject event]⟩ := rfl

@[simp] theorem apply_created (ℓ : View) (t : String) (options : TransactionOptions) :
    ℓ.apply (.created t options) = ⟨ℓ.record, ℓ.history ++ [.created t options]⟩ := rfl

/-- `J` holds from here on at every point while `entries` happen, and `I` at their end. -/
def Along (J I : View → Prop) : View → List Entry → Prop
  | ℓ, [] => J ℓ ∧ I ℓ
  | ℓ, entry :: entries => J ℓ ∧ Along J I (ℓ.apply entry) entries

variable {J I : View → Prop} {ℓ : View}

@[simp] theorem along_nil : Along J I ℓ [] ↔ J ℓ ∧ I ℓ := Iff.rfl

@[simp] theorem along_cons (entry : Entry) (entries : List Entry) :
    Along J I ℓ (entry :: entries) ↔ J ℓ ∧ Along J I (ℓ.apply entry) entries := Iff.rfl

theorem Along.head {entries : List Entry} (h : Along J I ℓ entries) : J ℓ := by
  cases entries with
  | nil => exact h.1
  | cons entry entries => exact h.1

theorem Along.mono {J' I' : View → Prop} {entries : List Entry} (hJ : ∀ ℓ, J ℓ → J' ℓ)
    (hI : ∀ ℓ, I ℓ → I' ℓ) : ∀ {ℓ : View}, Along J I ℓ entries → Along J' I' ℓ entries := by
  induction entries with
  | nil => exact fun h => ⟨hJ _ h.1, hI _ h.2⟩
  | cons entry entries ih => exact fun h => ⟨hJ _ h.1, ih h.2⟩

theorem Along.and {J' I' : View → Prop} {entries : List Entry} : ∀ {ℓ : View},
    Along J I ℓ entries → Along J' I' ℓ entries →
      Along (fun ℓ => J ℓ ∧ J' ℓ) (fun ℓ => I ℓ ∧ I' ℓ) ℓ entries := by
  induction entries with
  | nil => exact fun h h' => ⟨⟨h.1, h'.1⟩, h.2, h'.2⟩
  | cons entry entries ih => exact fun h h' => ⟨⟨h.1, h'.1⟩, ih h.2 h'.2⟩

end View

/-- The view of transaction `t` in a store. -/
def Store.view (t : String) (store : Store) : View where
  record := store.redis.lookup (transactionKey (some t))
  history := store.history.filter (Entry.concerns (transactionKey (some t)))

/-! ## Reactions -/

/-- The write of a record under its own id. -/
def written (r : DistributedTransaction) : Entry :=
  .stored (transactionKey (some r.transactionId)) r.serialize

/-- `progressTransaction` on a record: command the current step, or complete. -/
def progress (id : Option String) (r : DistributedTransaction) (date : Date) : List Entry :=
  if Active r then
    match r.steps[r.currentStep]? with
    | none =>
      [written (close r .COMPLETED date),
        .published ⟨.handleCompleteTransaction, id, outcomeMessage .TRANSACTION_COMPLETED
          (some r.transactionId) (some r.processType.value)⟩]
    | some step =>
      [written (beginStep r step date),
        .published ⟨.handleProgressTransaction, id, forwardCommand r step⟩]
  else []

/-- The notification, where it is sent. -/
def notify (notified : Bool) (id : Option String) (errorMessage : String)
    (r : DistributedTransaction) (date : Date) : List Entry :=
  if notified then
    [.published ⟨.handleSendUserNotification, id,
      userNotification id errorMessage r.processType r date⟩]
  else []

/-- The write of a minimal record; nothing is written without a process type. -/
def writtenMinimal (clientId : ClientIds) (event : TransactionEvent)
    (status : DistributedTransactionStatus) (startedAt : Date) (completedAt : Option Date) :
    List Entry :=
  match event.processType with
  | none => []
  | some processType =>
    [.stored (transactionKey event.transactionId)
      (minimalTransaction clientId event.transactionId processType status startedAt completedAt)]

/-- What the handler of `subject` does to the record of the transaction the event names;
`dates` are the readings of the clock, `notified` says whether the user was notified. -/
def react (clientId : ClientIds) (subject : Subjects) (event : TransactionEvent)
    (record : Option DistributedTransaction) (notified : Bool) (dates : Nat → Date) :
    List Entry :=
  match subject, record with
  | .TRANSACTION_STEP_COMPLETED, some r =>
    match r.steps[r.currentStep]? with
    | none => []
    | some step =>
      if some step.name = event.stepName then
        written (completeStep r step (dates 0)) ::
          progress event.transactionId (completeStep r step (dates 0)) (dates 1)
      else []
  | .TRANSACTION_STEP_FAILED, some r =>
    match r.steps[r.currentStep]? with
    | none => []
    | some step =>
      written (failStep r step event.error) ::
        (notify notified (some r.transactionId) (orElse event.error "Transaction step failed")
          (failStep r step event.error) (dates 0) ++
        [.published ⟨.handleStartCompensation, event.transactionId,
          compensationStart r step.name⟩])
  | .TRANSACTION_COMPENSATION_START, none =>
    writtenMinimal clientId event .COMPENSATING (dates 0) none
  | .TRANSACTION_COMPENSATION_START, some r =>
    if r.status = .COMPENSATING ∨ r.status = .COMPENSATED then []
    else
      written (beginCompensation r) ::
        ((if r.steps = [] then [] else [written (compensate r (dates 0))]) ++
        [.published ⟨.handleExecuteCompensation, event.transactionId,
          outcomeMessage .TRANSACTION_COMPENSATION_COMPLETED event.transactionId
            event.processType⟩])
  | .TRANSACTION_COMPENSATION_COMPLETED, none =>
    writtenMinimal clientId event .COMPENSATED (dates 0) (some (dates 1))
  | .TRANSACTION_COMPENSATION_COMPLETED, some r =>
    if r.status = .COMPENSATED then [] else [written (close r .COMPENSATED (dates 0))]
  | .TRANSACTION_COMPLETED, none =>
    writtenMinimal clientId event .COMPLETED (dates 0) (some (dates 1))
  | .TRANSACTION_COMPLETED, some r =>
    if r.status = .COMPLETED then [] else [written (close r .COMPENSATED (dates 0))]
  | .TRANSACTION_TIMEOUT, some r =>
    if r.status = .IN_PROGRESS then
      written (timeOut r) ::
        (notify notified event.transactionId "Transaction timed out" (timeOut r) (dates 0) ++
        match r.steps[r.currentStep]? with
        | none => []
        | some step =>
          [.published ⟨.handleStartCompensation, event.transactionId,
            compensationStart r step.name⟩])
    else []
  | _, _ => []

/-! ## One entry at a time -/

/-- The single entries of `progress`. -/
inductive Progresses (id : Option String) : Option SerializedTransaction → Entry → Prop where
  | beginStep {r : DistributedTransaction} {step : TransactionStep} (date : Date) :
      Active r → r.steps[r.currentStep]? = some step →
      Progresses id (some r.serialize) (written (beginStep r step date))
  | command {r : DistributedTransaction} (step : TransactionStep) :
      r.status = .IN_PROGRESS → r.steps[r.currentStep]? = some step →
      Progresses id (some r.serialize)
        (.published ⟨.handleProgressTransaction, id, forwardCommand r step⟩)
  | complete {r : DistributedTransaction} (date : Date) :
      Active r → r.steps[r.currentStep]? = none →
      Progresses id (some r.serialize) (written (close r .COMPLETED date))
  | completed {r : DistributedTransaction} : r.status = .COMPLETED →
      Progresses id (some r.serialize) (.published ⟨.handleCompleteTransaction, id,
        outcomeMessage .TRANSACTION_COMPLETED (some r.transactionId) (some r.processType.value)⟩)

/-- The single entries of `react`: what the handler of an event does next, from the record as it
stands then. -/
inductive Moves (clientId : ClientIds) (event : TransactionEvent) :
    Subjects → Option SerializedTransaction → Entry → Prop where
  | completeStep {r : DistributedTransaction} {step : TransactionStep} (date : Date) :
      r.steps[r.currentStep]? = some step → event.stepName = some step.name →
      Moves clientId event .TRANSACTION_STEP_COMPLETED (some r.serialize)
        (written (completeStep r step date))
  | progress {content : Option SerializedTransaction} {entry : Entry} :
      Progresses event.transactionId content entry →
      Moves clientId event .TRANSACTION_STEP_COMPLETED content entry
  | failStep {r : DistributedTransaction} {step : TransactionStep} :
      r.steps[r.currentStep]? = some step →
      Moves clientId event .TRANSACTION_STEP_FAILED (some r.serialize)
        (written (failStep r step event.error))
  | timeOut {r : DistributedTransaction} : r.status = .IN_PROGRESS →
      Moves clientId event .TRANSACTION_TIMEOUT (some r.serialize) (written (timeOut r))
  | notification {subject : Subjects} {r : DistributedTransaction} {id : Option String}
      (errorMessage : String) (date : Date) :
      Moves clientId event subject (some r.serialize) (.published ⟨.handleSendUserNotification, id,
        userNotification id errorMessage r.processType r date⟩)
  | compensationStart {subject : Subjects} {r : DistributedTransaction} (step : TransactionStep) :
      r.status = .FAILED ∨ r.status = .TIMED_OUT → r.steps[r.currentStep]? = some step →
      Moves clientId event subject (some r.serialize)
        (.published ⟨.handleStartCompensation, event.transactionId, compensationStart r step.name⟩)
  | beginCompensation {r : DistributedTransaction} :
      ¬(r.status = .COMPENSATING ∨ r.status = .COMPENSATED) →
      Moves clientId event .TRANSACTION_COMPENSATION_START (some r.serialize)
        (written (beginCompensation r))
  | compensate {r : DistributedTransaction} (date : Date) : r.status = .COMPENSATING →
      Moves clientId event .TRANSACTION_COMPENSATION_START (some r.serialize)
        (written (compensate r date))
  | compensated {r : DistributedTransaction} :
      r.status = .COMPENSATED ∨ (r.status = .COMPENSATING ∧ r.steps = []) →
      Moves clientId event .TRANSACTION_COMPENSATION_START (some r.serialize)
        (.published ⟨.handleExecuteCompensation, event.transactionId,
          outcomeMessage .TRANSACTION_COMPENSATION_COMPLETED event.transactionId
            event.processType⟩)
  | closeCompensated {r : DistributedTransaction} (date : Date) : r.status ≠ .COMPENSATED →
      Moves clientId event .TRANSACTION_COMPENSATION_COMPLETED (some r.serialize)
        (written (close r .COMPENSATED date))
  | closeCompleted {r : DistributedTransaction} (date : Date) : r.status ≠ .COMPLETED →
      Moves clientId event .TRANSACTION_COMPLETED (some r.serialize)
        (written (close r .COMPENSATED date))
  | minimal {subject : Subjects} {content : Option SerializedTransaction}
      {status : DistributedTransactionStatus} (processType : String) (startedAt : Date) (completedAt : Option Date) :
      content.bind SerializedTransaction.read = none →
      ¬(status = .STARTED ∨ status = .IN_PROGRESS) →
      Moves clientId event subject content (.stored (transactionKey event.transactionId)
        (minimalTransaction clientId event.transactionId processType status startedAt completedAt))

/-- What a move writes is a transition of the record, or a minimal record in place of what cannot
be read. -/
theorem Moves.stored {clientId : ClientIds} {event : TransactionEvent} {subject : Subjects}
    {content : Option SerializedTransaction} {key : String} {value : SerializedTransaction}
    (h : Moves clientId event subject content (.stored key value)) :
    (∃ r r', content = some r.serialize ∧ Transition r r' ∧ value = r'.serialize) ∨
    (content.bind SerializedTransaction.read = none ∧ value.currentStep = 0 ∧
      ¬(value.status = .STARTED ∨ value.status = .IN_PROGRESS)) := by
  cases h with
  | completeStep date hstep _ => exact .inl ⟨_, _, rfl, .completeStep _ date hstep, rfl⟩
  | progress h =>
    cases h with
    | beginStep date hact hstep => exact .inl ⟨_, _, rfl, .beginStep _ date hact hstep, rfl⟩
    | complete date _ _ => exact .inl ⟨_, _, rfl, .complete date, rfl⟩
  | failStep hstep => exact .inl ⟨_, _, rfl, .failStep _ event.error hstep, rfl⟩
  | timeOut hs => exact .inl ⟨_, _, rfl, .timeOut hs, rfl⟩
  | beginCompensation _ => exact .inl ⟨_, _, rfl, .beginCompensation, rfl⟩
  | compensate date _ => exact .inl ⟨_, _, rfl, .compensate date, rfl⟩
  | closeCompensated date _ => exact .inl ⟨_, _, rfl, .compensated date, rfl⟩
  | closeCompleted date _ => exact .inl ⟨_, _, rfl, .compensated date, rfl⟩
  | minimal processType startedAt completedAt hn hs => exact .inr ⟨hn, rfl, hs⟩

section Along

variable {I : View → Prop} {ℓ : View}

/-- What each entry of `progress` preserves holds all along it. -/
theorem along_progress {id : Option String}
    (h : ∀ ℓ entry, Progresses id ℓ.record entry → I ℓ → I (ℓ.apply entry)) (hI : I ℓ)
    {r : DistributedTransaction} (hr : ℓ.record = some r.serialize) (date : Date) :
    View.Along I I ℓ (progress id r date) := by
  have hfirst : ∀ entry, Progresses id (some r.serialize) entry → I (ℓ.apply entry) :=
    fun entry he => h ℓ entry (by rw [hr]; exact he) hI
  unfold progress
  split
  · rename_i hact
    split
    · rename_i hstep
      have h₁ := hfirst _ (.complete date hact hstep)
      have h₂ := h _ _ (.completed (r := close r .COMPLETED date) rfl) h₁
      exact ⟨hI, h₁, h₂, h₂⟩
    · rename_i step hstep
      obtain ⟨hlt, _⟩ := List.getElem?_eq_some_iff.mp hstep
      have h₁ := hfirst _ (.beginStep date hact hstep)
      have h₂ := h _ _ (.command (r := beginStep r step date) { step with startedAt := some date }
        rfl (by simp [beginStep, hlt])) h₁
      exact ⟨hI, h₁, h₂, h₂⟩
  · exact ⟨hI, hI⟩

/-- What each entry of `notify` preserves. -/
theorem along_notify {id : Option String} {errorMessage : String} {r : DistributedTransaction}
    {date : Date} {notified : Bool} {entries : List Entry}
    (hI : I ℓ) (h : I (ℓ.apply (.published ⟨.handleSendUserNotification, id,
      userNotification id errorMessage r.processType r date⟩)))
    (hrest : ∀ ℓ' : View, ℓ'.record = ℓ.record → I ℓ' → View.Along I I ℓ' entries) :
    View.Along I I ℓ (notify notified id errorMessage r date ++ entries) := by
  cases notified with
  | false => exact hrest ℓ rfl hI
  | true => exact ⟨hI, hrest _ rfl h⟩

/-- What each entry of `react` preserves holds all along it. -/
theorem along_react (clientId : ClientIds) (event : TransactionEvent) (subject : Subjects)
    (h : ∀ ℓ entry, Moves clientId event subject ℓ.record entry → I ℓ → I (ℓ.apply entry))
    (hI : I ℓ) (notified : Bool) (dates : Nat → Date) :
    View.Along I I ℓ (react clientId subject event
      (ℓ.record.bind SerializedTransaction.read) notified dates) := by
  have hminimal : ∀ status startedAt completedAt, ℓ.record.bind SerializedTransaction.read = none →
      ¬(status = .STARTED ∨ status = .IN_PROGRESS) →
      View.Along I I ℓ (writtenMinimal clientId event status startedAt completedAt) := by
    intro status startedAt completedAt hn hs
    unfold writtenMinimal
    split
    · exact ⟨hI, hI⟩
    · rename_i processType _
      have h₁ := h ℓ _ (.minimal processType startedAt completedAt hn hs) hI
      exact ⟨hI, h₁, h₁⟩
  rcases read_cases ℓ.record with hn | ⟨r, hread, hr⟩
  · rw [hn]
    cases subject with
    | TRANSACTION_COMPENSATION_START | TRANSACTION_COMPENSATION_COMPLETED
    | TRANSACTION_COMPLETED => exact hminimal _ _ _ hn (by decide)
    | _ => exact ⟨hI, hI⟩
  · have hfirst : ∀ entry, Moves clientId event subject (some r.serialize) entry →
        I (ℓ.apply entry) := fun entry he => h ℓ entry (by rw [hr]; exact he) hI
    rw [hread]
    cases subject with
    | TRANSACTION_STEP_COMPLETED =>
      simp only [react]
      split
      · exact ⟨hI, hI⟩
      · rename_i step hstep
        split
        · rename_i hname
          have h₁ := hfirst _ (.completeStep (dates 0) hstep hname.symm)
          exact ⟨hI, along_progress (fun ℓ entry he => h ℓ entry (.progress he)) h₁ rfl _⟩
        · exact ⟨hI, hI⟩
    | TRANSACTION_STEP_FAILED =>
      simp only [react]
      split
      · exact ⟨hI, hI⟩
      · rename_i step hstep
        obtain ⟨hlt, _⟩ := List.getElem?_eq_some_iff.mp hstep
        have h₁ := hfirst _ (.failStep hstep)
        refine ⟨hI, along_notify h₁ (h _ _ (.notification (r := failStep r step event.error)
          _ _) h₁) ?_⟩
        intro ℓ' hr' hI'
        have h₂ := h ℓ' _ (by
          rw [hr']
          exact .compensationStart (r := failStep r step event.error)
            { step with status := .FAILED, error := event.error } (.inl rfl)
            (by simp [failStep, hlt])) hI'
        exact ⟨hI', h₂, h₂⟩
    | TRANSACTION_COMPENSATION_START =>
      simp only [react]
      split
      · exact ⟨hI, hI⟩
      · rename_i hs
        have h₁ := hfirst _ (.beginCompensation hs)
        split
        · rename_i hsteps
          have h₂ := h _ _ (.compensated (r := beginCompensation r) (.inr ⟨rfl, hsteps⟩)) h₁
          exact ⟨hI, h₁, h₂, h₂⟩
        · have h₂ := h _ _ (.compensate (r := beginCompensation r) (dates 0) rfl) h₁
          have h₃ := h _ _ (.compensated (r := compensate r (dates 0)) (.inl rfl)) h₂
          exact ⟨hI, h₁, h₂, h₃, h₃⟩
    | TRANSACTION_COMPENSATION_COMPLETED =>
      simp only [react]
      split
      · exact ⟨hI, hI⟩
      · rename_i hs
        have h₁ := hfirst _ (.closeCompensated (dates 0) hs)
        exact ⟨hI, h₁, h₁⟩
    | TRANSACTION_COMPLETED =>
      simp only [react]
      split
      · exact ⟨hI, hI⟩
      · rename_i hs
        have h₁ := hfirst _ (.closeCompleted (dates 0) hs)
        exact ⟨hI, h₁, h₁⟩
    | TRANSACTION_TIMEOUT =>
      simp only [react]
      split
      · rename_i hs
        have h₁ := hfirst _ (.timeOut hs)
        refine ⟨hI, along_notify h₁ (h _ _ (.notification (r := timeOut r) _ _) h₁) ?_⟩
        intro ℓ' hr' hI'
        split
        · exact ⟨hI', hI'⟩
        · rename_i step hstep
          have h₂ := h ℓ' _ (by
            rw [hr']
            exact .compensationStart (r := timeOut r) step (.inr rfl) hstep) hI'
          exact ⟨hI', h₂, h₂⟩
      · exact ⟨hI, hI⟩
    | _ => exact ⟨hI, hI⟩

end Along

end InvoiceHub.Transaction
