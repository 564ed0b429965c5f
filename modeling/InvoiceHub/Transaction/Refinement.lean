import InvoiceHub.Transaction.Saga

/-!
# The handlers refine the saga

`wp_handle`: a handler whose record nobody else writes meanwhile does what `react` says, one
entry at a time.
-/

namespace InvoiceHub.Transaction

open Effects

/-! ## One method after the other -/

/-- The calls of a handler that alone works on the record of `t`: reads see the view, writes
and publications extend it.  `J` holds at every await; calls may be rejected if `F`. -/
def localRules (t : String) (J : View → Prop) (F : Prop) : Rules Call Call.Res View where
  step := fun op ℓ r ℓ' =>
    match op, r with
    | .get key, r => (key = transactionKey (some t) → r = ℓ.record) ∧ ℓ' = ℓ
    | .set key value, _ => ℓ' = ℓ.apply (.stored key value)
    | .publish p, _ => ℓ' = ℓ.apply (.published p)
    | _, _ => ℓ' = ℓ
  fails := fun _ => F
  allow := fun _ ℓ => J ℓ
  spawns := fun _ _ => True

section Refinement

variable {t : String} {J : View → Prop} {F : Prop} {id : Option String} {ℓ : View} {α : Type}
  {Q : Option α → View → Prop}

theorem wp_getTransactionState (hid : transactionKey id = transactionKey (some t))
    {f : Option DistributedTransaction → Async α} (hJ : J ℓ) (hF : F → Q none ℓ)
    (h : (f (ℓ.record.bind SerializedTransaction.read)).wp (localRules t J F) Q ℓ) :
    (getTransactionState id >>= f).wp (localRules t J F) Q ℓ := by
  rw [getTransactionState_bind]
  refine (Prog.wp_call _ _ _).mpr ⟨hJ, ?_, hF⟩
  rintro r ℓ' ⟨hr, rfl⟩
  rw [hr hid]
  exact h

theorem wp_newDate {f : Date → Async α} (hJ : J ℓ) (hF : F → Q none ℓ)
    (h : ∀ date, (f date).wp (localRules t J F) Q ℓ) :
    (newDate >>= f).wp (localRules t J F) Q ℓ := by
  refine (Prog.wp_call _ _ _).mpr ⟨hJ, ?_, hF⟩
  rintro r ℓ' rfl
  exact h r

theorem wp_store (r : DistributedTransaction) {f : Unit → Async α} (hJ : J ℓ)
    (hF : F → Q none ℓ) (h : (f ()).wp (localRules t J F) Q (ℓ.apply (written r))) :
    (storeTransactionState r >>= f).wp (localRules t J F) Q ℓ := by
  refine (Prog.wp_call _ _ _).mpr ⟨hJ, ?_, hF⟩
  rintro _ ℓ' rfl
  exact h

theorem wp_publish {p : Publication} {f : Unit → Async α} (hJ : J ℓ) (hF : F → Q none ℓ)
    (h : (f ()).wp (localRules t J F) Q (ℓ.apply (.published p))) :
    (publish p >>= f).wp (localRules t J F) Q ℓ := by
  refine (Prog.wp_call _ _ _).mpr ⟨hJ, ?_, hF⟩
  rintro _ ℓ' rfl
  exact h

theorem wp_handleCompleteTransaction {r : DistributedTransaction}
    (hid : transactionKey id = transactionKey (some t))
    (hr : ℓ.record = some r.serialize) (hF : F → ∀ ℓ, J ℓ → Q none ℓ) {f : Unit → Async α}
    (h : ∀ date, View.Along J (fun ℓ => (f ()).wp (localRules t J F) Q ℓ) ℓ
      [written (close r .COMPLETED date),
        .published ⟨.handleCompleteTransaction, id, outcomeMessage .TRANSACTION_COMPLETED
          (some r.transactionId) (some r.processType.value)⟩]) :
    (handleCompleteTransaction id >>= f).wp (localRules t J F) Q ℓ := by
  have hJ : J ℓ := (h 0).head
  unfold handleCompleteTransaction eventPublisher
  rw [bind_assoc, bind_assoc]
  refine wp_getTransactionState hid hJ (fun hf => hF hf ℓ hJ) ?_
  rw [hr, Option.bind_some, DistributedTransaction.read_serialize]
  refine wp_newDate hJ (fun hf => hF hf ℓ hJ) fun date => ?_
  have hd := (h date).2
  refine wp_store (close r .COMPLETED date) hJ (fun hf => hF hf ℓ hJ) ?_
  exact wp_publish hd.head (fun hf => hF hf _ hd.head) hd.2.2

theorem wp_handleProgressTransaction {r : DistributedTransaction}
    (hid : transactionKey id = transactionKey (some t))
    (hr : ℓ.record = some r.serialize) (hF : F → ∀ ℓ, J ℓ → Q none ℓ) {f : Unit → Async α}
    (h : ∀ date, View.Along J (fun ℓ => (f ()).wp (localRules t J F) Q ℓ) ℓ (progress id r date)) :
    (handleProgressTransaction id >>= f).wp (localRules t J F) Q ℓ := by
  have hJ : J ℓ := (h 0).head
  have hJF : F → Q none ℓ := fun hf => hF hf ℓ hJ
  unfold handleProgressTransaction eventPublisher
  rw [bind_assoc, bind_assoc]
  refine wp_getTransactionState hid hJ hJF ?_
  rw [hr, Option.bind_some, DistributedTransaction.read_serialize]
  unfold progress at h
  dsimp only
  split
  · rename_i hs
    have hact : ¬Active r := fun ha => ha.elim hs.1 hs.2
    simp only [if_neg hact] at h
    exact (h 0).2
  · rename_i hs
    have hact : Active r := by
      unfold Active
      tauto
    simp only [if_pos hact] at h
    cases hstep : r.steps[r.currentStep]? with
    | none =>
      simp only [hstep] at h
      rw [bind_assoc]
      exact wp_handleCompleteTransaction hid hr hF h
    | some step =>
      simp only [hstep] at h
      rw [bind_assoc]
      refine wp_newDate hJ hJF fun date => ?_
      have hd := (h date).2
      rw [bind_assoc]
      refine wp_store (beginStep r step date) hJ hJF ?_
      exact wp_publish hd.head (fun hf => hF hf _ hd.head) hd.2.2

theorem wp_handleStartCompensation {r : DistributedTransaction}
    (hid : transactionKey id = transactionKey (some t))
    (hr : ℓ.record = some r.serialize) (hF : F → ∀ ℓ, J ℓ → Q none ℓ) {f : Unit → Async α}
    (hJ : J ℓ) (hnone : r.steps[r.currentStep]? = none → Q none ℓ)
    (hsome : ∀ step, r.steps[r.currentStep]? = some step →
      (f ()).wp (localRules t J F) Q (ℓ.apply (.published ⟨.handleStartCompensation, id,
        compensationStart r step.name⟩))) :
    (handleStartCompensation id >>= f).wp (localRules t J F) Q ℓ := by
  have hJF : F → Q none ℓ := fun hf => hF hf ℓ hJ
  unfold handleStartCompensation eventPublisher
  rw [bind_assoc, bind_assoc]
  refine wp_getTransactionState hid hJ hJF ?_
  rw [hr, Option.bind_some, DistributedTransaction.read_serialize]
  dsimp only
  cases hstep : r.steps[r.currentStep]? with
  | none => exact hnone hstep
  | some step => exact wp_publish hJ hJF (hsome step hstep)

theorem wp_handleSendUserNotification {r : DistributedTransaction} (errorMessage : String)
    (type : ProcessType) (hid : transactionKey id = transactionKey (some t))
    (hr : ℓ.record = some r.serialize) (hF : F → ∀ ℓ, J ℓ → Q none ℓ) {f : Unit → Async α}
    (htype : r.processType = type) (hJ : J ℓ)
    (h : ∀ notified date, (¬F → notified = true) →
      View.Along J (fun ℓ => (f ()).wp (localRules t J F) Q ℓ) ℓ
        (notify notified id errorMessage r date)) :
    (handleSendUserNotification id errorMessage type >>= f).wp (localRules t J F) Q ℓ := by
  have hJF : F → Q none ℓ := fun hf => hF hf ℓ hJ
  subst htype
  have hskip : F → (f ()).wp (localRules t J F) Q ℓ := fun hf => (h false 0 (absurd hf ·)).2
  unfold handleSendUserNotification eventPublisher
  rw [bind_assoc, Prog.wp_bind, Prog.wp_tryCatch]
  refine wp_getTransactionState hid hJ hskip ?_
  rw [hr, Option.bind_some, DistributedTransaction.read_serialize]
  refine wp_newDate hJ hskip fun date => ?_
  exact wp_publish hJ hJF (h true date fun _ => rfl).2.2

theorem wp_storeMinimalTransaction {clientId : ClientIds} {event : TransactionEvent}
    {status : DistributedTransactionStatus} {startedAt : Date} {completedAt : Option Date}
    (hF : F → ∀ ℓ, J ℓ → Q none ℓ) {f : Unit → Async α}
    (h : View.Along J (Q none) ℓ (writtenMinimal clientId event status startedAt completedAt)) 
    (hf : ∀ ℓ, Q none ℓ → (f ()).wp (localRules t J F) Q ℓ) :
    (storeMinimalTransaction clientId event.transactionId event.processType status startedAt
      completedAt >>= f).wp (localRules t J F) Q ℓ := by
  have hJ : J ℓ := h.head
  unfold storeMinimalTransaction
  unfold writtenMinimal at h
  cases hp : event.processType with
  | none =>
    simp only [hp] at h
    exact h.2
  | some p =>
    simp only [hp] at h
    refine (Prog.wp_call _ _ _).mpr ⟨hJ, ?_, fun hf => hF hf ℓ hJ⟩
    rintro _ ℓ' rfl
    exact hf _ h.2.2

theorem wp_handleCompensationSteps (r : DistributedTransaction) (steps : List TransactionStep)
    {f : Unit → Async α} (h : (f ()).wp (localRules t J F) Q ℓ) :
    (handleCompensationSteps r steps >>= f).wp (localRules t J F) Q ℓ := by
  induction steps with
  | nil => exact h
  | cons step rest ih => exact ⟨trivial, ih⟩

/-- What `startTransaction` does after its first write. -/
theorem wp_started {options : TransactionOptions} {date : Date} {I : View → Prop}
    (h : ∀ date', View.Along J I (ℓ.apply (written (newTransaction options t date)))
      (progress (some t) (newTransaction options t date) date')) (hF : F → ∀ ℓ, J ℓ → I ℓ) :
    (handleProgressTransaction (some t)).wp (localRules t J F) (fun _ => I)
      (ℓ.apply (written (newTransaction options t date))) := by
  rw [← bind_pure (handleProgressTransaction _)]
  exact wp_handleProgressTransaction (r := newTransaction options t date) rfl rfl hF h

section Handlers

variable {clientId : ClientIds} {event : TransactionEvent} {I : View → Prop}
  {r : DistributedTransaction}

theorem wp_handleTransactionStepCompleted
    (hid : transactionKey event.transactionId = transactionKey (some t))
    (hr : ℓ.record = some r.serialize) (hF : F → ∀ ℓ, J ℓ → I ℓ)
    (h : ∀ notified dates, (¬F → notified = true) → View.Along J I ℓ
      (react clientId .TRANSACTION_STEP_COMPLETED event (some r) notified dates)) :
    (handleTransactionStepCompleted event).wp (localRules t J F) (fun _ => I) ℓ := by
  have hJ : J ℓ := (h true (fun _ => 0) fun _ => rfl).head
  have hJF : F → I ℓ := fun hf => hF hf ℓ hJ
  refine wp_getTransactionState hid hJ hJF ?_
  rw [hr, Option.bind_some, DistributedTransaction.read_serialize]
  simp only [react] at h
  cases hstep : r.steps[r.currentStep]? with
  | none =>
    simp only [hstep] at h ⊢
    exact (h true (fun _ => 0) fun _ => rfl).2
  | some step =>
    simp only [hstep] at h ⊢
    by_cases hname : some step.name = event.stepName
    · simp only [hname, if_pos] at h
      rw [if_neg (not_not.mpr hname)]
      refine wp_newDate hJ hJF fun d₀ => ?_
      refine wp_store (completeStep r step d₀) hJ hJF ?_
      rw [← bind_pure (handleProgressTransaction _)]
      refine wp_handleProgressTransaction hid rfl hF fun d₁ => ?_
      exact (h true (fun n => if n = 0 then d₀ else d₁) fun _ => rfl).2
    · simp only [if_neg hname] at h
      rw [if_pos hname]
      exact (h true (fun _ => 0) fun _ => rfl).2

theorem wp_handleTransactionStepFailed
    (hid : transactionKey event.transactionId = transactionKey (some t))
    (hrid : transactionKey (some r.transactionId) = transactionKey (some t))
    (hr : ℓ.record = some r.serialize) (hF : F → ∀ ℓ, J ℓ → I ℓ)
    (h : ∀ notified dates, (¬F → notified = true) → View.Along J I ℓ
      (react clientId .TRANSACTION_STEP_FAILED event (some r) notified dates)) :
    (handleTransactionStepFailed event).wp (localRules t J F) (fun _ => I) ℓ := by
  have hJ : J ℓ := (h true (fun _ => 0) fun _ => rfl).head
  have hJF : F → I ℓ := fun hf => hF hf ℓ hJ
  refine wp_getTransactionState hid hJ hJF ?_
  rw [hr, Option.bind_some, DistributedTransaction.read_serialize]
  simp only [react] at h
  cases hstep : r.steps[r.currentStep]? with
  | none =>
    simp only [hstep] at h ⊢
    exact (h true (fun _ => 0) fun _ => rfl).2
  | some step =>
    simp only [hstep] at h ⊢
    refine wp_store (failStep r step event.error) hJ hJF ?_
    have hJ' := (h true (fun _ => 0) fun _ => rfl).2.head
    refine wp_handleSendUserNotification (r := failStep r step event.error) _ _ hrid rfl hF rfl
      hJ' fun notified date hn => ?_
    have hd := (h notified (fun _ => date) hn).2
    have hcur : (failStep r step event.error).steps[(failStep r step event.error).currentStep]? =
        some { step with status := .FAILED, error := event.error } := by
      obtain ⟨hlt, _⟩ := List.getElem?_eq_some_iff.mp hstep
      simp [failStep, hlt]
    have hstart : ∀ ℓ : View, ℓ.record = some (failStep r step event.error).serialize →
        View.Along J I ℓ [.published ⟨.handleStartCompensation, event.transactionId,
          compensationStart r step.name⟩] →
        (handleStartCompensation event.transactionId).wp (localRules t J F) (fun _ => I) ℓ := by
      intro ℓ hℓ ha
      rw [← bind_pure (handleStartCompensation _)]
      refine wp_handleStartCompensation hid hℓ hF ha.head ?_ ?_
      · intro hn
        rw [hcur] at hn
        cases hn
      · intro step' hs
        obtain rfl := Option.some_inj.mp (hcur.symm.trans hs)
        exact ha.2.2
    cases notified with
    | true => exact ⟨hd.1, hd.2.head, hstart _ rfl hd.2⟩
    | false => exact ⟨hd.head, hstart _ rfl hd⟩

/-- Compensation is started from a record with a step left, and a record without one makes the
handler throw. -/
theorem wp_handleStartCompensation_along {id : Option String}
    (hid : transactionKey id = transactionKey (some t)) (hr : ℓ.record = some r.serialize)
    (hF : F → ∀ ℓ, J ℓ → I ℓ)
    (ha : View.Along J I ℓ (match r.steps[r.currentStep]? with
      | none => []
      | some step => [.published ⟨.handleStartCompensation, id, compensationStart r step.name⟩])) :
    (handleStartCompensation id).wp (localRules t J F) (fun _ => I) ℓ := by
  rw [← bind_pure (handleStartCompensation _)]
  refine wp_handleStartCompensation hid hr hF ha.head ?_ ?_
  · intro hn
    simp only [hn] at ha
    exact ha.2
  · intro step hn
    simp only [hn] at ha
    exact ha.2.2

theorem wp_handleTransactionTimeout
    (hid : transactionKey event.transactionId = transactionKey (some t))
    (hr : ℓ.record = some r.serialize) (hF : F → ∀ ℓ, J ℓ → I ℓ)
    (h : ∀ notified dates, (¬F → notified = true) → View.Along J I ℓ
      (react clientId .TRANSACTION_TIMEOUT event (some r) notified dates)) :
    (handleTransactionTimeout event).wp (localRules t J F) (fun _ => I) ℓ := by
  have hJ : J ℓ := (h true (fun _ => 0) fun _ => rfl).head
  have hJF : F → I ℓ := fun hf => hF hf ℓ hJ
  refine wp_getTransactionState hid hJ hJF ?_
  rw [hr, Option.bind_some, DistributedTransaction.read_serialize]
  simp only [react] at h
  dsimp only
  by_cases hs : r.status = .IN_PROGRESS
  · simp only [if_pos hs] at h
    rw [if_neg (not_not.mpr hs)]
    refine wp_store (timeOut r) hJ hJF ?_
    have hJ' := (h true (fun _ => 0) fun _ => rfl).2.head
    refine wp_handleSendUserNotification (r := timeOut r) _ _ hid rfl hF rfl
      hJ' fun notified date hn => ?_
    have hd := (h notified (fun _ => date) hn).2
    cases notified with
    | true =>
      exact ⟨hd.1, hd.2.head, wp_handleStartCompensation_along (r := timeOut r) hid rfl hF hd.2⟩
    | false => exact ⟨hd.head, wp_handleStartCompensation_along (r := timeOut r) hid rfl hF hd⟩
  · simp only [if_neg hs] at h
    rw [if_pos hs]
    exact (h true (fun _ => 0) fun _ => rfl).2

theorem wp_handleTransactionCompensationStart
    (hid : transactionKey event.transactionId = transactionKey (some t))
    (hr : ℓ.record = some r.serialize) (hF : F → ∀ ℓ, J ℓ → I ℓ)
    (h : ∀ notified dates, (¬F → notified = true) → View.Along J I ℓ
      (react clientId .TRANSACTION_COMPENSATION_START event (some r) notified dates)) :
    (handleTransactionCompensationStart clientId event).wp (localRules t J F) (fun _ => I) ℓ := by
  have hJ : J ℓ := (h true (fun _ => 0) fun _ => rfl).head
  have hJF : F → I ℓ := fun hf => hF hf ℓ hJ
  unfold handleTransactionCompensationStart handleExecuteCompensation eventPublisher
  rw [bind_assoc]
  refine wp_getTransactionState hid hJ hJF ?_
  rw [hr, Option.bind_some, DistributedTransaction.read_serialize]
  simp only [react] at h
  dsimp only
  by_cases hs : r.status = .COMPENSATING ∨ r.status = .COMPENSATED
  · simp only [if_pos hs] at h
    rw [if_pos hs]
    exact (h true (fun _ => 0) fun _ => rfl).2
  · simp only [if_neg hs] at h
    rw [if_neg hs, bind_assoc]
    refine wp_store (beginCompensation r) hJ hJF ?_
    by_cases hsteps : r.steps = []
    · simp only [hsteps, if_pos, List.nil_append] at h
      rw [if_neg (not_not.mpr hsteps)]
      have hd := (h true (fun _ => 0) fun _ => rfl).2
      exact wp_publish hd.head (fun hf => hF hf _ hd.head) hd.2.2
    · simp only [if_neg hsteps] at h
      rw [if_pos hsteps, bind_assoc]
      have hJ' := (h true (fun _ => 0) fun _ => rfl).2.head
      refine wp_handleCompensationSteps r _ ?_
      rw [bind_assoc]
      refine wp_newDate hJ' (fun hf => hF hf _ hJ') fun date => ?_
      have hd := (h true (fun _ => date) fun _ => rfl).2.2
      rw [bind_assoc]
      refine wp_store (compensate r date) hJ' (fun hf => hF hf _ hJ') ?_
      exact wp_publish hd.head (fun hf => hF hf _ hd.head) hd.2.2

theorem wp_handleTransactionCompensationCompleted
    (hid : transactionKey event.transactionId = transactionKey (some t))
    (hr : ℓ.record = some r.serialize) (hF : F → ∀ ℓ, J ℓ → I ℓ)
    (h : ∀ notified dates, (¬F → notified = true) → View.Along J I ℓ
      (react clientId .TRANSACTION_COMPENSATION_COMPLETED event (some r) notified dates)) :
    (handleTransactionCompensationCompleted clientId event).wp (localRules t J F)
      (fun _ => I) ℓ := by
  have hJ : J ℓ := (h true (fun _ => 0) fun _ => rfl).head
  have hJF : F → I ℓ := fun hf => hF hf ℓ hJ
  refine wp_getTransactionState hid hJ hJF ?_
  rw [hr, Option.bind_some, DistributedTransaction.read_serialize]
  simp only [react] at h
  dsimp only
  by_cases hs : r.status = .COMPENSATED
  · simp only [if_pos hs] at h
    rw [if_pos hs]
    exact (h true (fun _ => 0) fun _ => rfl).2
  · simp only [if_neg hs] at h
    rw [if_neg hs]
    refine wp_newDate hJ hJF fun date => ?_
    rw [← bind_pure (storeTransactionState _)]
    exact wp_store (close r .COMPENSATED date) hJ hJF (h true (fun _ => date) fun _ => rfl).2.2

theorem wp_handleTransactionCompleted
    (hid : transactionKey event.transactionId = transactionKey (some t))
    (hr : ℓ.record = some r.serialize) (hF : F → ∀ ℓ, J ℓ → I ℓ)
    (h : ∀ notified dates, (¬F → notified = true) → View.Along J I ℓ
      (react clientId .TRANSACTION_COMPLETED event (some r) notified dates)) :
    (handleTransactionCompleted clientId event).wp (localRules t J F) (fun _ => I) ℓ := by
  have hJ : J ℓ := (h true (fun _ => 0) fun _ => rfl).head
  have hJF : F → I ℓ := fun hf => hF hf ℓ hJ
  refine wp_getTransactionState hid hJ hJF ?_
  rw [hr, Option.bind_some, DistributedTransaction.read_serialize]
  simp only [react] at h
  dsimp only
  by_cases hs : r.status = .COMPLETED
  · simp only [if_pos hs] at h
    rw [if_neg (not_not.mpr hs)]
    exact (h true (fun _ => 0) fun _ => rfl).2
  · simp only [if_neg hs] at h
    rw [if_pos hs]
    refine wp_newDate hJ hJF fun date => ?_
    rw [← bind_pure (storeTransactionState _)]
    exact wp_store (close r .COMPENSATED date) hJ hJF (h true (fun _ => date) fun _ => rfl).2.2

/-- The handlers do what `react` says. -/
theorem wp_handle {subject : Subjects}
    (hid : transactionKey event.transactionId = transactionKey (some t))
    (hkey : ∀ r, ℓ.record = some (DistributedTransaction.serialize r) →
      transactionKey (some r.transactionId) = transactionKey (some t))
    (hF : F → ∀ ℓ, J ℓ → I ℓ)
    (h : ∀ notified dates, (¬F → notified = true) → View.Along J I ℓ
      (react clientId subject event (ℓ.record.bind SerializedTransaction.read) notified dates)) :
    (handle clientId subject event).wp (localRules t J F) (fun _ => I) ℓ := by
  have hJ : J ℓ := (h true (fun _ => 0) fun _ => rfl).head
  have hJF : F → I ℓ := fun hf => hF hf ℓ hJ
  rcases read_cases ℓ.record with hn | ⟨r, hread, hr⟩
  · rw [hn] at h
    have hstop : react clientId subject event none true (fun _ => 0) = [] → I ℓ := by
      intro hnil
      have := (h true (fun _ => 0) fun _ => rfl)
      rw [hnil] at this
      exact this.2
    cases subject with
    | TRANSACTION_STEP_COMPLETED | TRANSACTION_STEP_FAILED | TRANSACTION_TIMEOUT =>
      refine wp_getTransactionState hid hJ hJF ?_
      rw [hn]
      exact hstop rfl
    | TRANSACTION_COMPENSATION_START =>
      change (handleExecuteCompensation clientId event.transactionId event.processType).wp
        (localRules t J F) (fun _ => I) ℓ
      unfold handleExecuteCompensation eventPublisher
      rw [bind_assoc]
      refine wp_getTransactionState hid hJ hJF ?_
      rw [hn]
      dsimp only
      rw [bind_assoc]
      refine wp_newDate hJ hJF fun date => ?_
      rw [bind_assoc]
      exact wp_storeMinimalTransaction hF (h true (fun _ => date) fun _ => rfl) fun ℓ hℓ => hℓ
    | TRANSACTION_COMPENSATION_COMPLETED | TRANSACTION_COMPLETED =>
      refine wp_getTransactionState hid hJ hJF ?_
      rw [hn]
      refine wp_newDate hJ hJF fun d₀ => wp_newDate hJ hJF fun d₁ => ?_
      rw [← bind_pure (storeMinimalTransaction _ _ _ _ _ _)]
      exact wp_storeMinimalTransaction hF
        (h true (fun n => if n = 0 then d₀ else d₁) fun _ => rfl) fun ℓ hℓ => hℓ
    | _ => exact hstop rfl
  · rw [hread] at h
    have hrid := hkey r hr
    cases subject with
    | TRANSACTION_STEP_COMPLETED => exact wp_handleTransactionStepCompleted hid hr hF h
    | TRANSACTION_STEP_FAILED => exact wp_handleTransactionStepFailed hid hrid hr hF h
    | TRANSACTION_COMPENSATION_START =>
      exact wp_handleTransactionCompensationStart hid hr hF h
    | TRANSACTION_COMPENSATION_COMPLETED =>
      exact wp_handleTransactionCompensationCompleted hid hr hF h
    | TRANSACTION_COMPLETED => exact wp_handleTransactionCompleted hid hr hF h
    | TRANSACTION_TIMEOUT => exact wp_handleTransactionTimeout hid hr hF h
    | _ => exact (h true (fun _ => 0) fun _ => rfl).2

end Handlers

end Refinement

end InvoiceHub.Transaction
