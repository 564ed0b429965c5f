import InvoiceHub.Effects.Relational
import InvoiceHub.Transaction.Law
import InvoiceHub.Transaction.Timeless

/-!
# What a handler depends on

A handler reads and writes one record.  Run twice on records that are alike up to the clock, it
makes calls that are alike up to the clock (`local_handle`).
-/

namespace InvoiceHub.Transaction

open Effects

/-! ## Calls on one record -/

/-- Two contents of one key that are alike up to the clock, each under its own key. -/
structure SameRecord (key : String) (content content' : Option SerializedTransaction) : Prop where
  timeless :
    content.map SerializedTransaction.timeless = content'.map SerializedTransaction.timeless
  keyed : ∀ value, content = some value → WellKeyed key value
  keyed' : ∀ value, content' = some value → WellKeyed key value

theorem SameRecord.refl {key : String} {content : Option SerializedTransaction}
    (h : ∀ value, content = some value → WellKeyed key value) : SameRecord key content content :=
  ⟨rfl, h, h⟩

/-- Calls on the record under `key` that are alike up to the clock. -/
inductive Alike (key : String) : Call → Call → Prop where
  | get : Alike key (.get key) (.get key)
  | set {value value' : SerializedTransaction} :
      SameRecord key (some value) (some value') → Alike key (.set key value) (.set key value')
  | publish {p p' : Publication} : p.timeless = p'.timeless → Alike key (.publish p) (.publish p')
  | now : Alike key .now .now

/-- Their answers: the clock may show anything. -/
def AnsweredAlike (key : String) : (op op' : Call) → op.Res → op'.Res → Prop
  | .get _, .get _, content, content' => SameRecord key content content'
  | _, _, _, _ => True

/-- The two programs make calls on the record under `key` that are alike up to the clock. -/
abbrev Local (key : String) {α : Type} (p p' : Async α) : Prop :=
  Prog.InStep (Alike key) (AnsweredAlike key) (fun _ _ => True) p p'

section Local

variable {key : String} {id : Option String} {r r' : DistributedTransaction} {α : Type}

theorem local_getTransactionState (hid : transactionKey id = key)
    {f f' : Option DistributedTransaction → Async α}
    (hsome : ∀ r r', r.timeless = r'.timeless → transactionKey (some r.transactionId) = key →
      Local key (f (some r)) (f' (some r')))
    (hnone : Local key (f none) (f' none)) :
    Local key (getTransactionState id >>= f) (getTransactionState id >>= f') := by
  subst hid
  rw [getTransactionState_bind, getTransactionState_bind]
  refine .call .get ?_ .throw
  intro content content' hc
  have hread := read_congr hc.timeless
  rcases read_cases content with hn | ⟨r, hr, rfl⟩
  · rw [hn, Option.map_none, eq_comm, Option.map_eq_none_iff] at hread
    rw [hn, hread]
    exact hnone
  · rw [hr, Option.map_some, eq_comm, Option.map_eq_some_iff] at hread
    obtain ⟨r', hr', hrr⟩ := hread
    rw [hr, hr']
    exact hsome r r' hrr.symm (hc.keyed _ rfl r r.read_serialize)

theorem local_storeTransactionState (r r' : DistributedTransaction) (h : r.timeless = r'.timeless)
    (hkey : transactionKey (some r.transactionId) = key) {f f' : Unit → Async α}
    (hf : Local key (f ()) (f' ())) :
    Local key (storeTransactionState r >>= f) (storeTransactionState r' >>= f') := by
  have hid : r'.transactionId = r.transactionId := (congrArg (·.transactionId) h).symm
  subst hkey
  have hset : Alike (transactionKey (some r.transactionId))
      (.set (transactionKey (some r.transactionId)) r.serialize)
      (.set (transactionKey (some r.transactionId)) r'.serialize) := by
    refine .set ⟨congrArg (some <| DistributedTransaction.serialize ·) h, ?_, ?_⟩
    · rintro _ ⟨⟩
      exact wellKeyed_serialize r
    · rintro _ ⟨⟩
      rw [← hid]
      exact wellKeyed_serialize r'
  unfold storeTransactionState
  rw [hid]
  exact .call hset (fun _ _ _ => hf) .throw

theorem local_lastStore (r r' : DistributedTransaction) (h : r.timeless = r'.timeless)
    (hkey : transactionKey (some r.transactionId) = key) :
    Local key (storeTransactionState r) (storeTransactionState r') := by
  rw [← bind_pure (storeTransactionState r), ← bind_pure (storeTransactionState r')]
  exact local_storeTransactionState r r' h hkey (.pure trivial)

theorem local_newDate {f f' : Date → Async α} (h : ∀ date date', Local key (f date) (f' date')) :
    Local key (newDate >>= f) (newDate >>= f') :=
  .call .now (fun date date' _ => h date date') .throw

theorem local_publish {p p' : Publication} (h : p.timeless = p'.timeless) :
    Local key (publish p) (publish p') :=
  .call (.publish h) (fun _ _ _ => .pure trivial) .throw

theorem local_storeMinimalTransaction (clientId : ClientIds) (processType : Option String)
    (hid : transactionKey id = key) (status : DistributedTransactionStatus)
    (startedAt startedAt' : Date) {completedAt completedAt' : Option Date}
    (hc : completedAt.map (fun _ => 0) = completedAt'.map (fun _ => (0 : Date))) :
    Local key (storeMinimalTransaction clientId id processType status startedAt completedAt)
      (storeMinimalTransaction clientId id processType status startedAt' completedAt') := by
  subst hid
  unfold storeMinimalTransaction
  cases processType with
  | none => exact .throw
  | some processType =>
    refine .call (.set ⟨?_, ?_, ?_⟩) (fun _ _ _ => .pure trivial) .throw
    · simp only [Option.map_some, SerializedTransaction.timeless, minimalTransaction, hc]
    · rintro _ ⟨⟩
      exact wellKeyed_of_transactionId rfl
    · rintro _ ⟨⟩
      exact wellKeyed_of_transactionId rfl

/-! ## The methods -/

/-- The current step of two records that are alike. -/
theorem current_cases (h : r.timeless = r'.timeless) :
    (r.steps[r.currentStep]? = none ∧ r'.steps[r'.currentStep]? = none) ∨
    ∃ step step', r.steps[r.currentStep]? = some step ∧ r'.steps[r'.currentStep]? = some step' ∧
      step.timeless = step'.timeless := by
  have hcurrent := current_congr h
  cases hs : r.steps[r.currentStep]? with
  | none =>
    rw [hs, Option.map_none, eq_comm, Option.map_eq_none_iff] at hcurrent
    exact .inl ⟨rfl, hcurrent⟩
  | some step =>
    rw [hs, Option.map_some, eq_comm, Option.map_eq_some_iff] at hcurrent
    obtain ⟨step', hs', hss⟩ := hcurrent
    exact .inr ⟨step, step', rfl, hs', hss.symm⟩

theorem local_handleCompleteTransaction (hid : transactionKey id = key) :
    Local key (handleCompleteTransaction id) (handleCompleteTransaction id) := by
  unfold handleCompleteTransaction eventPublisher
  rw [bind_assoc]
  refine local_getTransactionState hid ?_ (.pure trivial)
  intro r r' h hkey
  refine local_newDate fun date date' => ?_
  refine local_storeTransactionState (close r .COMPLETED date)
    (close r' .COMPLETED date') ?_ hkey ?_
  · rw [timeless_close, timeless_close, h]
  · refine local_publish ?_
    have ht : r.transactionId = r'.transactionId := congrArg (·.transactionId) h
    have hp : r.processType = r'.processType := congrArg (·.processType) h
    rw [ht, hp]

theorem local_handleProgressTransaction (hid : transactionKey id = key) :
    Local key (handleProgressTransaction id) (handleProgressTransaction id) := by
  unfold handleProgressTransaction eventPublisher
  rw [bind_assoc]
  refine local_getTransactionState hid ?_ (.pure trivial)
  intro r r' h hkey
  have hstatus : r.status = r'.status := congrArg (·.status) h
  dsimp only
  rw [hstatus]
  split
  · exact .pure trivial
  · rcases current_cases h with ⟨hs, hs'⟩ | ⟨step, step', hs, hs', hss⟩
    · simp only [hs, hs']
      rw [bind_assoc]
      exact (local_handleCompleteTransaction hid).bind fun _ _ _ => .pure trivial
    · simp only [hs, hs']
      rw [bind_assoc, bind_assoc]
      refine local_newDate fun date date' => ?_
      rw [bind_assoc, bind_assoc]
      refine local_storeTransactionState (beginStep r step date)
        (beginStep r' step' date') ?_ hkey ?_
      · rw [timeless_beginStep, timeless_beginStep, h, hss]
      · exact local_publish (by rw [forwardCommand_congr h hss])

theorem local_handleStartCompensation (hid : transactionKey id = key) :
    Local key (handleStartCompensation id) (handleStartCompensation id) := by
  unfold handleStartCompensation eventPublisher
  rw [bind_assoc]
  refine local_getTransactionState hid ?_ (.pure trivial)
  intro r r' h hkey
  rcases current_cases h with ⟨hs, hs'⟩ | ⟨step, step', hs, hs', hss⟩
  · simp only [hs, hs']
    exact .throw
  · simp only [hs, hs']
    exact local_publish (by rw [compensationStart_congr h hss])

theorem local_handleCompensationSteps (h : r.timeless = r'.timeless) (steps : List TransactionStep) :
    ∀ steps' : List TransactionStep,
      steps.map TransactionStep.timeless = steps'.map TransactionStep.timeless →
      Local key (handleCompensationSteps r steps) (handleCompensationSteps r' steps') := by
  induction steps with
  | nil =>
    intro steps' hs
    rw [List.map_nil, eq_comm, List.map_eq_nil_iff] at hs
    subst hs
    exact .pure trivial
  | cons step rest ih =>
    intro steps' hs
    rw [List.map_cons, eq_comm, List.map_eq_cons_iff] at hs
    obtain ⟨step', rest', rfl, hstep, hrest⟩ := hs
    have hid : r.transactionId = r'.transactionId := congrArg (·.transactionId) h
    refine .spawn (.publish ?_) (ih rest' hrest.symm)
    rw [hid, compensationCommand_congr h hstep.symm]

theorem local_handleExecuteCompensation (clientId : ClientIds) (processType : Option String)
    (hid : transactionKey id = key) :
    Local key (handleExecuteCompensation clientId id processType)
      (handleExecuteCompensation clientId id processType) := by
  unfold handleExecuteCompensation eventPublisher
  rw [bind_assoc]
  refine local_getTransactionState hid ?_ ?_
  · intro r r' h hkey
    have hstatus : r.status = r'.status := congrArg (·.status) h
    have hsteps : r.steps = [] ↔ r'.steps = [] := by
      have hmap := congrArg (·.steps) h
      rw [← List.map_eq_nil_iff (f := TransactionStep.timeless), ← List.map_eq_nil_iff
        (f := TransactionStep.timeless) (l := r'.steps)]
      exact iff_of_eq (congrArg (· = []) hmap)
    dsimp only
    rw [hstatus]
    split
    · exact .pure trivial
    · rw [bind_assoc, bind_assoc]
      refine local_storeTransactionState (beginCompensation r) (beginCompensation r') ?_ hkey ?_
      · rw [timeless_beginCompensation, timeless_beginCompensation, h]
      · by_cases hnil : r.steps = []
        · rw [if_neg (not_not.mpr hnil), if_neg (not_not.mpr (hsteps.mp hnil))]
          exact local_publish rfl
        · rw [if_pos hnil, if_pos fun h' => hnil (hsteps.mpr h')]
          have hcompleted : (completedSteps r).map TransactionStep.timeless =
              (completedSteps r').map TransactionStep.timeless := by
            rw [← completedSteps_timeless, ← completedSteps_timeless, h]
          rw [bind_assoc, bind_assoc, bind_assoc, bind_assoc]
          refine (local_handleCompensationSteps h _ _ hcompleted).bind fun _ _ _ => ?_
          refine local_newDate fun date date' => ?_
          rw [bind_assoc, bind_assoc]
          refine local_storeTransactionState (compensate r date)
            (compensate r' date') ?_ hkey (local_publish rfl)
          rw [timeless_compensate, timeless_compensate, h]
  · dsimp only
    rw [bind_assoc]
    refine local_newDate fun date date' => ?_
    rw [bind_assoc, bind_assoc]
    exact (local_storeMinimalTransaction clientId processType hid _ date date' rfl).bind
      fun _ _ _ => .pure trivial

theorem local_handleSendUserNotification (errorMessage : String) (type : ProcessType)
    (hid : transactionKey id = key) :
    Local key (handleSendUserNotification id errorMessage type)
      (handleSendUserNotification id errorMessage type) := by
  unfold handleSendUserNotification eventPublisher
  rw [getTransactionState_bind, Prog.tryCatch, Prog.call_bind]
  subst hid
  refine .call .get ?_ (.pure trivial)
  intro content content' hc
  have hread := read_congr hc.timeless
  rcases read_cases content with hn | ⟨r, hr, rfl⟩
  · rw [hn, Option.map_none, eq_comm, Option.map_eq_none_iff] at hread
    rw [hn, hread]
    exact .pure trivial
  · rw [hr, Option.map_some, eq_comm, Option.map_eq_some_iff] at hread
    obtain ⟨r', hr', hrr⟩ := hread
    rw [hr, hr']
    refine .call .now (fun date date' _ => ?_) (.pure trivial)
    exact local_publish (timeless_userNotification hrr.symm errorMessage type date date')

/-! ## The handlers -/

theorem local_startTransaction (options : TransactionOptions) (t : String) :
    Local (transactionKey (some t)) (startTransaction options t) (startTransaction options t) := by
  rw [startTransaction_eq]
  refine local_newDate fun date date' => ?_
  refine local_storeTransactionState (newTransaction options t date)
    (newTransaction options t date') rfl rfl ?_
  exact (local_handleProgressTransaction rfl).bind fun _ _ _ => .pure trivial

theorem local_handleTransactionStepCompleted {event : TransactionEvent}
    (hid : transactionKey event.transactionId = key) :
    Local key (handleTransactionStepCompleted event) (handleTransactionStepCompleted event) := by
  refine local_getTransactionState hid ?_ (.pure trivial)
  intro r r' h hkey
  rcases current_cases h with ⟨hs, hs'⟩ | ⟨step, step', hs, hs', hss⟩
  · simp only [hs, hs']
    exact .throw
  · have hname : step.name = step'.name := congrArg (·.name) hss
    simp only [hs, hs']
    by_cases hevent : some step.name = event.stepName
    · rw [if_neg (not_not.mpr hevent), if_neg (not_not.mpr (hname ▸ hevent))]
      refine local_newDate fun date date' => ?_
      refine local_storeTransactionState (completeStep r step date)
        (completeStep r' step' date') ?_ hkey ?_
      · rw [timeless_completeStep, timeless_completeStep, h, hss]
      · exact local_handleProgressTransaction hid
    · rw [if_pos hevent, if_pos fun h' => hevent (hname ▸ h')]
      exact .pure trivial

theorem local_handleTransactionStepFailed {event : TransactionEvent}
    (hid : transactionKey event.transactionId = key) :
    Local key (handleTransactionStepFailed event) (handleTransactionStepFailed event) := by
  refine local_getTransactionState hid ?_ (.pure trivial)
  intro r r' h hkey
  rcases current_cases h with ⟨hs, hs'⟩ | ⟨step, step', hs, hs', hss⟩
  · simp only [hs, hs']
    exact .throw
  · have ht : r.transactionId = r'.transactionId := congrArg (·.transactionId) h
    have hp : r.processType = r'.processType := congrArg (·.processType) h
    simp only [hs, hs']
    refine local_storeTransactionState (failStep r step event.error)
      (failStep r' step' event.error) ?_ hkey ?_
    · rw [timeless_failStep, timeless_failStep, h, hss]
    · rw [← ht, ← hp]
      exact (local_handleSendUserNotification _ _ hkey).bind fun _ _ _ =>
        local_handleStartCompensation hid

theorem local_handleTransactionTimeout {event : TransactionEvent}
    (hid : transactionKey event.transactionId = key) :
    Local key (handleTransactionTimeout event) (handleTransactionTimeout event) := by
  refine local_getTransactionState hid ?_ (.pure trivial)
  intro r r' h hkey
  have hstatus : r.status = r'.status := congrArg (·.status) h
  have hp : r.processType = r'.processType := congrArg (·.processType) h
  dsimp only
  rw [hstatus]
  split
  · exact .pure trivial
  · refine local_storeTransactionState (timeOut r) (timeOut r') ?_ hkey ?_
    · rw [timeless_timeOut, timeless_timeOut, h]
    · rw [hp]
      exact (local_handleSendUserNotification _ _ hid).bind fun _ _ _ =>
        local_handleStartCompensation hid

theorem local_handleTransactionCompensationCompleted (clientId : ClientIds)
    {event : TransactionEvent} (hid : transactionKey event.transactionId = key) :
    Local key (handleTransactionCompensationCompleted clientId event)
      (handleTransactionCompensationCompleted clientId event) := by
  refine local_getTransactionState hid ?_ ?_
  · intro r r' h hkey
    have hstatus : r.status = r'.status := congrArg (·.status) h
    simp only [hstatus]
    split
    · exact .pure trivial
    · refine local_newDate fun date date' => ?_
      refine local_lastStore (close r .COMPENSATED date) (close r' .COMPENSATED date') ?_ hkey
      rw [timeless_close, timeless_close, h]
  · refine local_newDate fun startedAt startedAt' => local_newDate fun completedAt completedAt' => ?_
    exact local_storeMinimalTransaction clientId _ hid _ _ _ rfl

theorem local_handleTransactionCompleted (clientId : ClientIds) {event : TransactionEvent}
    (hid : transactionKey event.transactionId = key) :
    Local key (handleTransactionCompleted clientId event)
      (handleTransactionCompleted clientId event) := by
  refine local_getTransactionState hid ?_ ?_
  · intro r r' h hkey
    have hstatus : r.status = r'.status := congrArg (·.status) h
    simp only [hstatus]
    split
    · refine local_newDate fun date date' => ?_
      refine local_lastStore (close r .COMPENSATED date) (close r' .COMPENSATED date') ?_ hkey
      rw [timeless_close, timeless_close, h]
    · exact .pure trivial
  · refine local_newDate fun startedAt startedAt' => local_newDate fun completedAt completedAt' => ?_
    exact local_storeMinimalTransaction clientId _ hid _ _ _ rfl

/-- The handler of an event works on the record the event names. -/
theorem local_handle (clientId : ClientIds) (subject : Subjects) (event : TransactionEvent) :
    Local (transactionKey event.transactionId) (handle clientId subject event)
      (handle clientId subject event) := by
  cases subject with
  | TRANSACTION_STEP_COMPLETED => exact local_handleTransactionStepCompleted rfl
  | TRANSACTION_STEP_FAILED => exact local_handleTransactionStepFailed rfl
  | TRANSACTION_COMPENSATION_START => exact local_handleExecuteCompensation clientId _ rfl
  | TRANSACTION_COMPENSATION_COMPLETED =>
    exact local_handleTransactionCompensationCompleted clientId rfl
  | TRANSACTION_COMPLETED => exact local_handleTransactionCompleted clientId rfl
  | TRANSACTION_TIMEOUT => exact local_handleTransactionTimeout rfl
  | _ => exact .pure trivial

end Local

/-! ## Methods that write nothing -/

/-- The program neither awaits a write nor starts one. -/
def Writeless (p : Async Unit) : Prop :=
  p.Guarded (fun _ _ => True) (fun op => ∀ key value, op ≠ .set key value)
    (fun op => ∀ key value, op ≠ .set key value)

section Writeless

variable {p : Async Unit}

theorem writeless_settle (h : Writeless p) : Writeless p.settle.2 := h.settle.2

theorem writeless_getTransactionState {id : Option String}
    {f : Option DistributedTransaction → Async Unit} (hf : ∀ r, Writeless (f r)) :
    Writeless (getTransactionState id >>= f) := by
  rw [getTransactionState_bind]
  exact (Prog.guarded_call _ _ _).mpr ⟨nofun, fun _ _ => hf _, trivial⟩

theorem writeless_publish (publication : Publication) : Writeless (publish publication) :=
  (Prog.guarded_call _ _ _).mpr ⟨nofun, fun _ _ => trivial, trivial⟩

theorem writeless_handleStartCompensation (id : Option String) :
    Writeless (handleStartCompensation id) := by
  unfold handleStartCompensation eventPublisher
  rw [bind_assoc]
  refine writeless_getTransactionState ?_
  rintro (_ | r)
  · exact trivial
  · dsimp only
    split
    · exact trivial
    · exact writeless_publish _

theorem writeless_handleSendUserNotification (id : Option String) (errorMessage : String)
    (type : ProcessType) : Writeless (handleSendUserNotification id errorMessage type) := by
  unfold handleSendUserNotification eventPublisher
  refine Prog.guarded_bind (Prog.guarded_tryCatch ?_ trivial) ?_
  · rw [getTransactionState_bind]
    refine (Prog.guarded_call _ _ _).mpr ⟨nofun, fun content _ => ?_, trivial⟩
    rcases read_cases content with hn | ⟨r, hr, -⟩
    · rw [hn]
      exact trivial
    · rw [hr]
      exact (Prog.guarded_call _ _ _).mpr ⟨nofun, fun _ _ => trivial, trivial⟩
  · rintro (_ | message)
    · exact trivial
    · exact writeless_publish _

theorem writeless_checkTimeoutsOf (now : Date) (keys : List String) :
    Writeless (checkTimeoutsOf now keys) := by
  induction keys with
  | nil => exact trivial
  | cons key keys ih =>
    rw [checkTimeoutsOf, getTransactionByKey_bind]
    refine (Prog.guarded_call _ _ _).mpr ⟨by rintro _ _ ⟨⟩, fun content _ => ?_, trivial⟩
    dsimp only
    split
    · exact ih
    · split
      · split
        · exact trivial
        · split
          · exact (Prog.guarded_spawn _ _).mpr ⟨by rintro _ _ ⟨⟩, ih⟩
          · exact ih
      · exact ih

theorem writeless_checkTimeouts : Writeless checkTimeouts :=
  (Prog.guarded_call _ _ _).mpr ⟨nofun, fun keys _ => (Prog.guarded_call _ _ _).mpr
    ⟨nofun, fun now _ => writeless_checkTimeoutsOf now keys, trivial⟩, trivial⟩

end Writeless

end InvoiceHub.Transaction
