import InvoiceHub.Transaction.Monotone
import InvoiceHub.Transaction.OwnMessages

/-!
# The outcome of a transaction is exclusive

In a closed run a started transaction either goes on to completion, and then nothing touches
its record any more, or it has failed, and then it is never announced as completed
(`decided_discipline`, `Decided.outcome`).
-/

namespace InvoiceHub.Transaction

open Effects

/-- The statuses of a transaction that has failed. -/
def Failing (status : DistributedTransactionStatus) : Prop :=
  status ∈ [.FAILED, .TIMED_OUT, .COMPENSATING, .COMPENSATED]

instance (status : DistributedTransactionStatus) : Decidable (Failing status) :=
  inferInstanceAs (Decidable (_ ∈ _))

/-- `method` has published for the transaction. -/
def Announcing (method : Publisher) (ℓ : View) : Prop :=
  ∃ p, .published p ∈ ℓ.history ∧ p.publisher = method

theorem announcing_apply {method : Publisher} {ℓ : View} {entry : Entry} :
    Announcing method (ℓ.apply entry) ↔
      Announcing method ℓ ∨ ∃ p, entry = .published p ∧ p.publisher = method := by
  unfold Announcing
  simp only [View.apply, List.mem_append, List.mem_singleton]
  constructor
  · rintro ⟨p, hp | hp, hm⟩
    · exact .inl ⟨p, hp, hm⟩
    · exact .inr ⟨p, hp.symm, hm⟩
  · rintro (⟨p, hp, hm⟩ | ⟨p, hp, hm⟩)
    · exact ⟨p, .inl hp, hm⟩
    · exact ⟨p, .inr hp.symm, hm⟩

/-! ## The record and what was announced of it -/

/-- The record `r` of a transaction whose outcome is exclusive. -/
structure Decided (r : DistributedTransaction) (ℓ : View) : Prop where
  record : ℓ.record = some r.serialize
  written : ∃ past, writes ℓ.history = past ++ [r.serialize] ∧ ∀ v ∈ past, v.status ≠ .COMPLETED
  bounded : r.currentStep ≤ r.steps.length
  finished : r.status = .COMPLETED → r.currentStep = r.steps.length
  done : ¬Failing r.status → ∀ step ∈ r.steps.take r.currentStep, step.status = .COMPLETED
  completed : Announcing .handleCompleteTransaction ℓ → r.status = .COMPLETED
  started : Announcing .handleStartCompensation ℓ → Failing r.status
  compensated : Announcing .handleExecuteCompensation ℓ → Failing r.status

/-- What arrives on an own topic has been announced. -/
def Sanctioned (subject : Subjects) (ℓ : View) : Prop :=
  ∀ method, ownMethod subject = some method → Announcing method ℓ

theorem Sanctioned.apply {subject : Subjects} {ℓ : View} (h : Sanctioned subject ℓ)
    (entry : Entry) : Sanctioned subject (ℓ.apply entry) :=
  fun method hm => announcing_apply.mpr (.inl (h method hm))

theorem not_failing_completed : ¬Failing .COMPLETED := by decide

namespace Decided

variable {r r' : DistributedTransaction} {ℓ : View}

/-- An entry that neither writes nor publishes. -/
theorem pass (h : Decided r ℓ) {entry : Entry} (hrec : (ℓ.apply entry).record = ℓ.record)
    (hw : writes [entry] = []) (hp : ∀ p, entry ≠ .published p) : Decided r (ℓ.apply entry) := by
  have hsame : ∀ {method}, Announcing method (ℓ.apply entry) → Announcing method ℓ := by
    intro method ha
    rcases announcing_apply.mp ha with ha | ⟨p, he, -⟩
    · exact ha
    · exact absurd he (hp p)
  refine ⟨hrec.trans h.record, ?_, h.bounded, h.finished, h.done, fun ha => h.completed (hsame ha),
    fun ha => h.started (hsame ha), fun ha => h.compensated (hsame ha)⟩
  obtain ⟨past, hpast, hall⟩ := h.written
  refine ⟨past, ?_, hall⟩
  rw [← hpast]
  simp only [View.apply, writes, List.filterMap_append] at hw ⊢
  rw [hw, List.append_nil]

/-- A publication that agrees with the record. -/
theorem publish (h : Decided r ℓ) (p : Publication)
    (hc : p.publisher = .handleCompleteTransaction → r.status = .COMPLETED)
    (hs : p.publisher = .handleStartCompensation → Failing r.status)
    (he : p.publisher = .handleExecuteCompensation → Failing r.status) :
    Decided r (ℓ.apply (.published p)) := by
  have hcase : ∀ {method}, Announcing method (ℓ.apply (.published p)) →
      Announcing method ℓ ∨ p.publisher = method := by
    intro method ha
    refine (announcing_apply.mp ha).imp id ?_
    rintro ⟨q, hq, hm⟩
    cases hq
    exact hm
  refine ⟨h.record, ?_, h.bounded, h.finished, h.done,
    fun ha => (hcase ha).elim h.completed hc, fun ha => (hcase ha).elim h.started hs,
    fun ha => (hcase ha).elim h.compensated he⟩
  obtain ⟨past, hpast, hall⟩ := h.written
  exact ⟨past, by simpa [writes] using hpast, hall⟩

section Publications

variable {id : Option String} {event : EventMessage}

/-- A command or a notification agrees with any record. -/
theorem publish_neutral (h : Decided r ℓ) {p : Publication}
    (hp : p.publisher = .handleProgressTransaction ∨ p.publisher = .handleSendUserNotification) :
    Decided r (ℓ.apply (.published p)) := by
  refine h.publish p ?_ ?_ ?_ <;> intro he <;> rw [he] at hp <;> rcases hp with hp | hp <;> cases hp

theorem publish_completed (h : Decided r ℓ) (hst : r.status = .COMPLETED) :
    Decided r (ℓ.apply (.published ⟨.handleCompleteTransaction, id, event⟩)) :=
  h.publish _ (fun _ => hst) (by rintro ⟨⟩) (by rintro ⟨⟩)

theorem publish_started (h : Decided r ℓ) (hf : Failing r.status) :
    Decided r (ℓ.apply (.published ⟨.handleStartCompensation, id, event⟩)) :=
  h.publish _ (by rintro ⟨⟩) (fun _ => hf) (by rintro ⟨⟩)

theorem publish_compensated (h : Decided r ℓ) (hf : Failing r.status) :
    Decided r (ℓ.apply (.published ⟨.handleExecuteCompensation, id, event⟩)) :=
  h.publish _ (by rintro ⟨⟩) (by rintro ⟨⟩) fun _ => hf

end Publications

/-- A write of a record that was not completed. -/
theorem store (h : Decided r ℓ) (hr : r.status ≠ .COMPLETED)
    (hf : Failing r.status → Failing r'.status) (hb : r'.currentStep ≤ r'.steps.length)
    (hfin : r'.status = .COMPLETED → r'.currentStep = r'.steps.length)
    (hd : ¬Failing r'.status → ∀ step ∈ r'.steps.take r'.currentStep, step.status = .COMPLETED) :
    Decided r' (ℓ.apply (Transaction.written r')) := by
  have hsame : ∀ {method}, Announcing method (ℓ.apply (Transaction.written r')) →
      Announcing method ℓ := by
    intro method ha
    rcases announcing_apply.mp ha with ha | ⟨p, he, -⟩
    · exact ha
    · cases he
  refine ⟨rfl, ?_, hb, hfin, hd, fun ha => absurd (h.completed (hsame ha)) hr,
    fun ha => hf (h.started (hsame ha)), fun ha => hf (h.compensated (hsame ha))⟩
  obtain ⟨past, hpast, hall⟩ := h.written
  refine ⟨past ++ [r.serialize], ?_, ?_⟩
  · rw [← hpast]
    simp [writes, Transaction.written]
  · intro v hv
    rcases List.mem_append.mp hv with hv | hv
    · exact hall v hv
    · rw [List.mem_singleton.mp hv]
      exact hr

/-- A transaction with a step left is not completed. -/
theorem not_completed (h : Decided r ℓ) {step : TransactionStep}
    (hstep : r.steps[r.currentStep]? = some step) : r.status ≠ .COMPLETED := by
  intro hc
  obtain ⟨hlt, _⟩ := List.getElem?_eq_some_iff.mp hstep
  rw [h.finished hc] at hlt
  exact Nat.lt_irrefl _ hlt

/-- The record fails, times out or is compensated. -/
theorem fail (h : Decided r ℓ) (hr : r.status ≠ .COMPLETED) (hf : Failing r'.status)
    (hc : r'.currentStep = r.currentStep) (hl : r'.steps.length = r.steps.length) :
    Decided r' (ℓ.apply (Transaction.written r')) := by
  refine h.store hr (fun _ => hf) ?_ ?_ fun hn => absurd hf hn
  · rw [hc, hl]
    exact h.bounded
  · intro hcompleted
    rw [hcompleted] at hf
    exact absurd hf not_failing_completed

/-- The current step is completed. -/
theorem completeStep (h : Decided r ℓ) {step : TransactionStep}
    (hstep : r.steps[r.currentStep]? = some step) (date : Date) :
    Decided (completeStep r step date)
      (ℓ.apply (Transaction.written (Transaction.completeStep r step date))) := by
  have hr := h.not_completed hstep
  obtain ⟨hlt, _⟩ := List.getElem?_eq_some_iff.mp hstep
  refine h.store hr id ?_ (fun hc => absurd hc hr) ?_
  · simpa [Transaction.completeStep, Nat.succ_le_iff] using hlt
  · intro hf s hs
    obtain ⟨i, hi⟩ := List.mem_iff_getElem?.mp hs
    simp only [Transaction.completeStep, List.getElem?_take, List.getElem?_set] at hi
    split at hi
    · split at hi
      · cases hi
        rfl
      · rename_i hle hne
        refine h.done hf s (List.mem_iff_getElem?.mpr ⟨i, ?_⟩)
        rw [List.getElem?_take, if_pos (by omega)]
        exact hi
    · cases hi

/-- The current step is commanded. -/
theorem beginStep (h : Decided r ℓ) {step : TransactionStep} (hact : Active r) (date : Date) :
    Decided (beginStep r step date)
      (ℓ.apply (Transaction.written (Transaction.beginStep r step date))) := by
  have hf : ¬Failing r.status := by
    rcases hact with hs | hs <;> rw [hs] <;> decide
  have hr : r.status ≠ .COMPLETED := by
    rcases hact with hs | hs <;> rw [hs] <;> decide
  refine h.store hr (fun hfail => absurd hfail hf) ?_ nofun ?_
  · simpa [Transaction.beginStep] using h.bounded
  · intro _ s hs
    simp only [Transaction.beginStep, List.take_set_of_le (Nat.le_refl _)] at hs
    exact h.done hf s hs

/-- Nothing is left to be done. -/
theorem complete (h : Decided r ℓ) (hact : Active r) (hnone : r.steps[r.currentStep]? = none)
    (date : Date) :
    Decided (close r .COMPLETED date) (ℓ.apply (Transaction.written (close r .COMPLETED date))) := by
  have hf : ¬Failing r.status := by
    rcases hact with hs | hs <;> rw [hs] <;> decide
  have hr : r.status ≠ .COMPLETED := by
    rcases hact with hs | hs <;> rw [hs] <;> decide
  have hlen : r.steps.length ≤ r.currentStep := List.getElem?_eq_none_iff.mp hnone
  exact h.store hr (fun hfail => absurd hfail hf) h.bounded
    (fun _ => Nat.le_antisymm h.bounded hlen) fun _ => h.done hf

theorem progress (h : Decided r ℓ) {id : Option String} {entry : Entry}
    (hm : Progresses id ℓ.record entry) : ∃ r', Decided r' (ℓ.apply entry) := by
  generalize hc : ℓ.record = content at hm
  have hsame : ∀ {q : DistributedTransaction}, ℓ.record = some q.serialize → r = q :=
    fun hq => serialize_inj (Option.some_inj.mp (h.record.symm.trans hq))
  cases hm with
  | beginStep date hact _ =>
    obtain rfl := hsame hc
    exact ⟨_, h.beginStep hact date⟩
  | command step _ _ => exact ⟨r, h.publish_neutral (.inl rfl)⟩
  | complete date hact hnone =>
    obtain rfl := hsame hc
    exact ⟨_, h.complete hact hnone date⟩
  | completed hst =>
    obtain rfl := hsame hc
    exact ⟨_, h.publish_completed hst⟩

/-- Every move of a handler agrees with the record. -/
theorem move (h : Decided r ℓ) {clientId : ClientIds} {event : TransactionEvent}
    {subject : Subjects} {entry : Entry} (hs : Sanctioned subject ℓ)
    (hm : Moves clientId event subject ℓ.record entry) : ∃ r', Decided r' (ℓ.apply entry) := by
  generalize hc : ℓ.record = content at hm
  have hsame : ∀ {q : DistributedTransaction}, ℓ.record = some q.serialize → r = q :=
    fun hq => serialize_inj (Option.some_inj.mp (h.record.symm.trans hq))
  have hfailing : Failing r.status → r.status ≠ .COMPLETED := by
    intro hf hcompleted
    rw [hcompleted] at hf
    exact not_failing_completed hf
  cases hm with
  | completeStep date hstep _ =>
    obtain rfl := hsame hc
    exact ⟨_, h.completeStep hstep date⟩
  | progress hm => exact h.progress (hc ▸ hm)
  | failStep hstep =>
    obtain rfl := hsame hc
    exact ⟨_, h.fail (h.not_completed hstep) (show Failing .FAILED by decide) rfl (by simp [failStep])⟩
  | timeOut hst =>
    obtain rfl := hsame hc
    exact ⟨_, h.fail (by rw [hst]; decide) (show Failing .TIMED_OUT by decide) rfl rfl⟩
  | notification errorMessage date => exact ⟨r, h.publish_neutral (.inr rfl)⟩
  | compensationStart step hst _ =>
    obtain rfl := hsame hc
    have hf : Failing r.status := by
      rcases hst with hst | hst <;> rw [hst] <;> decide
    exact ⟨r, h.publish_started hf⟩
  | beginCompensation _ =>
    obtain rfl := hsame hc
    -- compensation has been announced, so the transaction had failed
    have hf := h.started (hs _ rfl)
    exact ⟨_, h.fail (hfailing hf) (show Failing .COMPENSATING by decide) rfl rfl⟩
  | compensate date hst =>
    obtain rfl := hsame hc
    refine ⟨_, h.fail (by rw [hst]; decide) (show Failing .COMPENSATED by decide) rfl ?_⟩
    exact length_compensatedSteps _
  | compensated hst =>
    obtain rfl := hsame hc
    have hf : Failing r.status := by
      rcases hst with hst | ⟨hst, -⟩ <;> rw [hst] <;> decide
    exact ⟨r, h.publish_compensated hf⟩
  | closeCompensated date _ =>
    obtain rfl := hsame hc
    have hf := h.compensated (hs _ rfl)
    exact ⟨_, h.fail (hfailing hf) (show Failing .COMPENSATED by decide) rfl rfl⟩
  | closeCompleted date hst =>
    obtain rfl := hsame hc
    exact absurd (h.completed (hs _ rfl)) hst
  | minimal processType startedAt completedAt hn _ =>
    rw [← hc, h.record] at hn
    simp at hn

end Decided

theorem decided_of_written {r q : DistributedTransaction} {ℓ : View}
    (h : Decided q (ℓ.apply (written r))) : Decided r (ℓ.apply (written r)) := by
  obtain rfl : r = q := serialize_inj (Option.some_inj.mp h.record)
  exact h

/-! ## Closed runs -/

/-- Nothing has been written or published for the transaction. -/
structure Untouched (ℓ : View) : Prop where
  record : ℓ.record = none
  history : ∀ entry ∈ ℓ.history, ∃ subject event, entry = .received subject event

namespace Untouched

variable {ℓ : View}

theorem not_announcing (h : Untouched ℓ) (method : Publisher) : ¬Announcing method ℓ := by
  rintro ⟨p, hp, -⟩
  obtain ⟨subject, event, he⟩ := h.history _ hp
  cases he

theorem writes_eq_nil (h : Untouched ℓ) : writes ℓ.history = [] := by
  refine List.filterMap_eq_nil_iff.mpr fun entry hmem => ?_
  obtain ⟨subject, event, rfl⟩ := h.history entry hmem
  rfl

theorem received (h : Untouched ℓ) (subject : Subjects) (event : TransactionEvent) :
    Untouched (ℓ.apply (.received subject event)) := by
  refine ⟨h.record, fun entry hmem => ?_⟩
  rcases List.mem_append.mp hmem with hmem | hmem
  · exact h.history entry hmem
  · exact ⟨subject, event, List.mem_singleton.mp hmem⟩

/-- No handler does anything to it. -/
theorem react_eq_nil (h : Untouched ℓ) {subject : Subjects} (hs : Sanctioned subject ℓ)
    (clientId : ClientIds) (event : TransactionEvent) (notified : Bool) (dates : Nat → Date) :
    react clientId subject event (ℓ.record.bind SerializedTransaction.read) notified dates = [] := by
  rw [h.record]
  cases subject with
  | TRANSACTION_COMPENSATION_START | TRANSACTION_COMPENSATION_COMPLETED
  | TRANSACTION_COMPLETED => exact absurd (hs _ rfl) (h.not_announcing _)
  | _ => rfl

/-- A transaction that has just been started. -/
theorem start (h : Untouched ℓ) (options : TransactionOptions) (t : String) (date : Date) :
    Decided (newTransaction options t date)
      ((ℓ.apply (.created t options)).apply (written (newTransaction options t date))) := by
  have hnone : ∀ method, ¬Announcing method
      ((ℓ.apply (.created t options)).apply (written (newTransaction options t date))) := by
    intro method ha
    rcases announcing_apply.mp ha with ha | ⟨p, hp, -⟩
    · rcases announcing_apply.mp ha with ha | ⟨p, hp, -⟩
      · exact h.not_announcing method ha
      · cases hp
    · cases hp
  refine ⟨rfl, ⟨[], ?_, nofun⟩, Nat.zero_le _, nofun, fun _ step hs => ?_,
    fun ha => absurd ha (hnone _), fun ha => absurd ha (hnone _), fun ha => absurd ha (hnone _)⟩
  · have hw := h.writes_eq_nil
    simp only [writes] at hw
    simp [writes, View.apply, written, hw]
  · simp [newTransaction] at hs

end Untouched

theorem closed_exclusive {policy : Cluster.Policy}
    (hp : ∀ s label, policy s label = true → closedPolicy s label = true) {s : Cluster}
    {clientId : ClientIds} {subject : Subjects} {event : TransactionEvent}
    (hd : policy s (.deliver clientId subject event) = true) {t : String}
    (hk : transactionKey event.transactionId = transactionKey (some t)) :
    s.idle (transactionKey (some t)) = true := by
  have hc := hp _ _ hd
  simp only [closedPolicy, ownPolicy, Bool.and_eq_true] at hc
  rw [← hk]
  exact hc.1.1

theorem closed_sanctioned {policy : Cluster.Policy}
    (hp : ∀ s label, policy s label = true → closedPolicy s label = true) {s : Cluster}
    (h : Cluster.Reachable policy s) {clientId : ClientIds} {subject : Subjects}
    {event : TransactionEvent} (hd : policy s (.deliver clientId subject event) = true) {t : String}
    (hk : transactionKey event.transactionId = transactionKey (some t)) :
    Sanctioned subject (s.world.view t) :=
  fun _ hm => own_published hp h hm hd hk

/-- A policy of closed runs in which `I` is kept: nothing has happened to `t`, or its record
satisfies `I`. -/
theorem closed_discipline {policy : Cluster.Policy}
    (hp : ∀ s label, policy s label = true → closedPolicy s label = true) (t : String)
    (I : View → Prop)
    (hstart : ∀ s ℓ options date, policy s (.start options t date) = true → Untouched ℓ →
      I ((ℓ.apply (.created t options)).apply (written (newTransaction options t date))))
    (hprogress : ∀ ℓ entry, Progresses (some t) ℓ.record entry → I ℓ → I (ℓ.apply entry))
    (hrecord : ∀ ℓ, I ℓ → ℓ.record ≠ none)
    (hdeliver : ∀ s clientId subject event, Cluster.Reachable policy s →
      policy s (.deliver clientId subject event) = true →
      transactionKey event.transactionId = transactionKey (some t) → I (s.world.view t) →
      Sanctioned subject (s.world.view t) → ∀ notified dates,
        View.Along I I ((s.world.view t).apply (.received subject event))
          (react clientId subject event
            ((s.world.view t).record.bind SerializedTransaction.read) notified dates)) :
    Discipline policy t (fun ℓ => Untouched ℓ ∨ I ℓ) (fun ℓ => Untouched ℓ ∨ I ℓ) True where
  initial := .inl ⟨rfl, nofun⟩
  stopped := fun _ _ h => h
  fails := fun _ _ _ _ _ _ => trivial
  stops := fun _ _ _ _ _ _ => trivial
  exclusive := fun _ _ _ _ hd hk => closed_exclusive hp hd hk
  start := by
    intro s options date _ hd h hn date'
    rcases h with h | h
    · exact (along_progress hprogress (hstart s _ options date hd h) rfl date').mono
        (fun _ h => .inr h) (fun _ h => .inr h)
    · exact absurd hn (hrecord _ h)
  deliver := by
    intro s clientId subject event hr hd hk h notified dates _
    have hs := closed_sanctioned hp hr hd hk
    rcases h with h | h
    · rw [h.react_eq_nil hs]
      exact ⟨.inl (h.received subject event), .inl (h.received subject event)⟩
    · exact (hdeliver s clientId subject event hr hd hk h hs notified dates).mono
        (fun _ h => .inr h) (fun _ h => .inr h)

theorem decided_discipline (t : String) :
    Discipline closedPolicy t (fun ℓ => Untouched ℓ ∨ ∃ r, Decided r ℓ)
      (fun ℓ => Untouched ℓ ∨ ∃ r, Decided r ℓ) True := by
  refine closed_discipline (fun _ _ h => h) t (fun ℓ => ∃ r, Decided r ℓ) ?_ ?_ ?_ ?_
  · exact fun _ ℓ options date _ h => ⟨_, h.start options t date⟩
  · exact fun ℓ entry he ⟨_, hr⟩ => hr.progress he
  · rintro ℓ ⟨r, hr⟩ hn
    cases hr.record.symm.trans hn
  · rintro s clientId subject event - - - ⟨r, h⟩ hs notified dates
    have hreceived : ∃ r, Decided r ((s.world.view t).apply (.received subject event)) :=
      ⟨r, h.pass rfl rfl nofun⟩
    exact (along_react (I := fun ℓ => Sanctioned subject ℓ ∧ ∃ r, Decided r ℓ) clientId event
      subject (fun ℓ entry hm ⟨hs, r, hr⟩ => ⟨hs.apply entry, hr.move hs hm⟩)
      ⟨hs.apply _, hreceived⟩ notified dates).mono (fun _ h => h.2) (fun _ h => h.2)

/-- The outcome of `t` is exclusive in `s`. -/
structure OutcomeExclusive (policy : Cluster.Policy) (s : Cluster) (t : String) : Prop where
  /-- A completed transaction has done all its steps. -/
  complete : ∀ v ∈ writes (s.world.view t).history, v.status = .COMPLETED →
    v.currentStep = v.steps.length ∧ ∀ step ∈ v.steps, step.status = .COMPLETED
  /-- Nothing is written once it is completed. -/
  final : (writes (s.world.view t).history).Pairwise fun v _ => v.status ≠ .COMPLETED
  /-- Completion and compensation are not both announced. -/
  announced : ∀ p q, .published p ∈ s.world.history → .published q ∈ s.world.history →
    p.event.topicName = Subjects.TRANSACTION_COMPLETED.value →
    q.event.topicName = Subjects.TRANSACTION_COMPENSATION_START.value →
    (TransactionEvent.ofMessage p.event.message).transactionId = some t →
    (TransactionEvent.ofMessage q.event.message).transactionId ≠ some t
  /-- `TRANSACTION_COMPLETED` only reaches a completed record. -/
  observed : ∀ clientId event, event.transactionId = some t →
    policy s (.deliver clientId .TRANSACTION_COMPLETED event) = true →
      ∃ v, s.world.redis.lookup (transactionKey (some t)) = some v ∧ v.status = .COMPLETED

theorem announcing_of_topic {s : Cluster} (h : Cluster.Reachable closedPolicy s)
    {subject : Subjects} {method : Publisher} (hm : ownMethod subject = some method)
    {p : Publication} {t : String} (hp : .published p ∈ s.world.history)
    (ht : p.event.topicName = subject.value)
    (hid : (TransactionEvent.ofMessage p.event.message).transactionId = some t) :
    Announcing method (s.world.view t) := by
  obtain ⟨hpub, hkey⟩ := own_of_reported hm ((closed_reachable (fun _ _ h => h) h).2 p hp) ht
  rw [hid] at hkey
  refine ⟨p, List.mem_filter.mpr ⟨hp, ?_⟩, hpub⟩
  have hawaited : p.publisher.awaited = true := by
    rw [hpub]
    cases subject <;> cases hm <;> rfl
  simp [Entry.concerns, ← hkey, hawaited]

/-- The outcome of a transaction whose record is decided. -/
theorem Decided.outcome {r : DistributedTransaction} {ℓ : View} (hr : Decided r ℓ) :
    (∀ v ∈ writes ℓ.history, v.status = .COMPLETED →
      v.currentStep = v.steps.length ∧ ∀ step ∈ v.steps, step.status = .COMPLETED) ∧
    (writes ℓ.history).Pairwise fun v _ => v.status ≠ .COMPLETED := by
  obtain ⟨past, hpast, hall⟩ := hr.written
  rw [hpast]
  refine ⟨?_, ?_⟩
  · intro v hv hcompleted
    rw [List.mem_append, List.mem_singleton] at hv
    rcases hv with hv | rfl
    · exact absurd hcompleted (hall v hv)
    · have hcur := hr.finished hcompleted
      refine ⟨hcur, fun step hstep => ?_⟩
      refine hr.done ?_ step ?_
      · rw [show r.status = .COMPLETED from hcompleted]
        exact not_failing_completed
      · rw [hcur, List.take_length]
        exact hstep
  · rw [List.pairwise_append]
    refine ⟨?_, List.pairwise_singleton _ _, fun v hv _ _ => hall v hv⟩
    exact List.pairwise_iff_forall_sublist.mpr fun hsub =>
      hall _ (hsub.subset (List.mem_cons_self ..))

/-- In a closed run the outcome of every transaction is exclusive. -/
theorem outcome_exclusive {s : Cluster} (h : Cluster.Reachable closedPolicy s) (t : String) :
    OutcomeExclusive closedPolicy s t := by
  rcases ((decided_discipline t).always h).elim id id with hu | ⟨r, hr⟩
  · refine ⟨?_, ?_, ?_, ?_⟩
    · simp [hu.writes_eq_nil]
    · simp [hu.writes_eq_nil]
    · exact fun p q hp _ htp _ hip => absurd (announcing_of_topic h rfl hp htp hip)
        (hu.not_announcing _)
    · intro clientId event hid hd
      have hs := closed_sanctioned (fun _ _ h => h) h hd (t := t) (by rw [hid])
      exact absurd (hs _ rfl) (hu.not_announcing _)
  · refine ⟨hr.outcome.1, hr.outcome.2, ?_, ?_⟩
    · intro p q hp hq htp htq hip hiq
      have hcompleted := hr.completed (announcing_of_topic h rfl hp htp hip)
      have hf := hr.started (announcing_of_topic h rfl hq htq hiq)
      rw [hcompleted] at hf
      exact not_failing_completed hf
    · intro clientId event hid hd
      have hs := closed_sanctioned (fun _ _ h => h) h hd (t := t) (by rw [hid])
      exact ⟨_, hr.record, hr.completed (hs _ rfl)⟩

theorem isSome_completedTwoSteps :
    (Cluster.run closedPolicy completedTwoSteps).isSome = true := by
  decide +kernel

theorem outcome_exclusive_completedTwoSteps :
    OutcomeExclusive closedPolicy
      ((Cluster.run closedPolicy completedTwoSteps).get isSome_completedTwoSteps) "t" :=
  outcome_exclusive (Machine.reachable_run _ _) "t"

/-- A transaction whose only step is named like the topic on which compensation is announced. -/
def reservedStep : TransactionOptions :=
  { oneStep with steps := [(Subjects.TRANSACTION_COMPENSATION_START.value, .ORDER_SERVICE)] }

/-- The step is commanded and completed, the transaction completes; then the command of the step
arrives at the coordinator, which takes it for the announcement of compensation. -/
def reservedRun : List Cluster.Label :=
  [.start reservedStep "t" 0] ++ List.replicate 4 (.advance 0 0) ++
  [.deliver .ORDER_SERVICE .TRANSACTION_STEP_COMPLETED
    { transactionId := some "t"
      stepName := some Subjects.TRANSACTION_COMPENSATION_START.value }] ++
  List.replicate 8 (.advance 0 0) ++
  [.deliver .ORDER_SERVICE .TRANSACTION_COMPENSATION_START
    { transactionId := some "t"
      stepName := some Subjects.TRANSACTION_COMPENSATION_START.value }] ++
  List.replicate 2 (.advance 0 0)

/-- With a step named like an own topic the outcome is not exclusive. -/
theorem outcome_not_exclusive :
    ∃ s, Cluster.Reachable ownPolicy s ∧ .created "t" reservedStep ∈ s.world.history ∧
      (reservedStep.steps.map Prod.fst).Nodup ∧ ¬OutcomeExclusive ownPolicy s "t" := by
  refine ⟨_, Machine.reachable_run reservedRun (by decide), .head _, by decide, fun h => ?_⟩
  have hstatus := (List.pairwise_map (f := SerializedTransaction.status)
    (R := fun a _ => a ≠ .COMPLETED)).mpr h.final
  revert hstatus
  decide

end InvoiceHub.Transaction
