import InvoiceHub.Transaction.Cluster

/-!
# Laws of the stored records

A `Law` says what may lie under each key of Redis, and is kept by whatever a handler makes of a
record.  The methods of the coordinator keep a law however their calls interleave, with any of
them rejected: each change is one of a record that was read under the law, and each publication
announces such a record.  The least law, `Law.keyedOnly`, has each record under its own key.
-/

namespace InvoiceHub.Transaction

open Effects

/-! ## Laws -/

/-- A stored record lies under the key of its own id. -/
def WellKeyed (key : String) (value : SerializedTransaction) : Prop :=
  ∀ transaction, value.read = some transaction →
    transactionKey (some transaction.transactionId) = key

theorem wellKeyed_serialize (transaction : DistributedTransaction) :
    WellKeyed (transactionKey (some transaction.transactionId)) transaction.serialize := by
  intro r hr
  rw [DistributedTransaction.read_serialize] at hr
  cases hr
  rfl

/-- A record is well keyed whatever it lacks if its own id, as it is, gives the key. -/
theorem wellKeyed_of_transactionId {key : String} {value : SerializedTransaction}
    (h : transactionKey value.transactionId = key) : WellKeyed key value := by
  intro r hr
  rw [SerializedTransaction.eq_serialize hr] at h
  exact h

/-- What is known of a run: what has happened in it, and what the handlers of a topic find under
the keys of their transactions. -/
structure Facts where
  happened : Entry → Prop
  found : Subjects → Option SerializedTransaction → Prop

/-- Nothing is known. -/
def Facts.any : Facts := ⟨fun _ => True, fun _ _ => True⟩

/-- An event has arrived on the topic, for the transaction under `key`. -/
structure Facts.Arrived (F : Facts) (subject : Subjects) (event : TransactionEvent)
    (key : String) : Prop where
  received : F.happened (.received subject event)
  key : transactionKey event.transactionId = key

/-- What a handler makes of the record `r` under `key`, and the event that is the reason. -/
inductive Enacts (F : Facts) (key : String) (r : DistributedTransaction) :
    DistributedTransaction → Prop where
  | completeStep {event : TransactionEvent} (step : TransactionStep) (date : Date) :
      F.Arrived .TRANSACTION_STEP_COMPLETED event key → event.stepName = some step.name →
      r.steps[r.currentStep]? = some step → Enacts F key r (completeStep r step date)
  | failStep {event : TransactionEvent} (step : TransactionStep) (error : Option String) :
      F.Arrived .TRANSACTION_STEP_FAILED event key →
      r.steps[r.currentStep]? = some step → Enacts F key r (failStep r step error)
  | beginStep (step : TransactionStep) (date : Date) :
      Active r → r.steps[r.currentStep]? = some step → Enacts F key r (beginStep r step date)
  | complete (date : Date) : Enacts F key r (close r .COMPLETED date)
  | closeCompensated {event : TransactionEvent} (date : Date) :
      F.Arrived .TRANSACTION_COMPENSATION_COMPLETED event key →
      Enacts F key r (close r .COMPENSATED date)
  | closeCompleted {event : TransactionEvent} (date : Date) :
      F.Arrived .TRANSACTION_COMPLETED event key →
      F.found .TRANSACTION_COMPLETED (some r.serialize) → r.status ≠ .COMPLETED →
      Enacts F key r (close r .COMPENSATED date)
  | timeOut {event : TransactionEvent} : F.Arrived .TRANSACTION_TIMEOUT event key →
      r.status = .IN_PROGRESS → Enacts F key r (timeOut r)
  | beginCompensation {event : TransactionEvent} :
      F.Arrived .TRANSACTION_COMPENSATION_START event key → Enacts F key r (beginCompensation r)
  | compensate {event : TransactionEvent} (date : Date) :
      F.Arrived .TRANSACTION_COMPENSATION_START event key → Enacts F key r (compensate r date)

theorem Enacts.transition {F : Facts} {key : String} {r r' : DistributedTransaction}
    (h : Enacts F key r r') : Transition r r' := by
  cases h with
  | completeStep step date _ _ hstep => exact .completeStep step date hstep
  | failStep step error _ hstep => exact .failStep step error hstep
  | beginStep step date hact hstep => exact .beginStep step date hact hstep
  | complete date => exact .complete date
  | closeCompensated date _ => exact .compensated date
  | closeCompleted date _ _ _ => exact .compensated date
  | timeOut _ hs => exact .timeOut hs
  | beginCompensation _ => exact .beginCompensation
  | compensate date _ => exact .compensate date

/-- The minimal records a handler makes up under `key`, and the event that is the reason. -/
inductive Invents (F : Facts) (key : String) : SerializedTransaction → Prop where
  | compensating {event : TransactionEvent} (clientId : ClientIds) (processType : String)
      (startedAt : Date) : F.Arrived .TRANSACTION_COMPENSATION_START event key →
      Invents F key (minimalTransaction clientId event.transactionId processType .COMPENSATING
        startedAt none)
  | compensated {event : TransactionEvent} (clientId : ClientIds) (processType : String)
      (startedAt completedAt : Date) : F.Arrived .TRANSACTION_COMPENSATION_COMPLETED event key →
      Invents F key (minimalTransaction clientId event.transactionId processType .COMPENSATED
        startedAt (some completedAt))
  | completed {event : TransactionEvent} (clientId : ClientIds) (processType : String)
      (startedAt completedAt : Date) : F.Arrived .TRANSACTION_COMPLETED event key →
      Invents F key (minimalTransaction clientId event.transactionId processType .COMPLETED
        startedAt (some completedAt))

theorem Invents.key {F : Facts} {key : String} {value : SerializedTransaction}
    (h : Invents F key value) : transactionKey value.transactionId = key := by
  cases h with
  | compensating _ _ _ ha => exact ha.key
  | compensated _ _ _ _ ha => exact ha.key
  | completed _ _ _ _ ha => exact ha.key

theorem Invents.steps {F : Facts} {key : String} {value : SerializedTransaction}
    (h : Invents F key value) : value.steps = [] := by
  cases h <;> rfl

theorem Invents.currentStep {F : Facts} {key : String} {value : SerializedTransaction}
    (h : Invents F key value) : value.currentStep = 0 := by
  cases h <;> rfl

/-- What has happened before a method publishes for the transaction under `key`. -/
def Grounded (F : Facts) (key : String) : Publisher → Prop
  | .handleStartCompensation =>
    (∃ value, F.happened (.stored key value) ∧ value.status = .TIMED_OUT) ∨
      ∃ event, F.Arrived .TRANSACTION_STEP_FAILED event key
  | .handleExecuteCompensation => ∃ event, F.Arrived .TRANSACTION_COMPENSATION_START event key
  | .handleCompensationStep => ∃ event, F.Arrived .TRANSACTION_COMPENSATION_START event key
  | _ => True

/-- What may lie under each key (`none`: nothing). -/
structure Law where
  facts : Facts := .any
  holds : String → Option SerializedTransaction → Prop
  keyed : ∀ {key value}, holds key (some value) → WellKeyed key value
  enacted : ∀ {key r r'}, holds key (some (DistributedTransaction.serialize r)) →
    Enacts facts key r r' → holds key (some r'.serialize)
  /-- A minimal record takes the place of what cannot be read. -/
  invented : ∀ {key content value}, holds key content →
    content.bind SerializedTransaction.read = none → Invents facts key value →
      holds key (some value)
  /-- What is known of the records in publications that nobody awaits. -/
  mention : DistributedTransaction → Prop
  mentioned : ∀ {key r}, holds key (some (DistributedTransaction.serialize r)) → mention r

namespace Law

/-- The law that every record lies under its own key. -/
def keyedOnly : Law where
  holds key content := ∀ value, content = some value → WellKeyed key value
  keyed h := h _ rfl
  enacted := by
    rintro key r r' h he _ ⟨⟩
    obtain rfl := h _ rfl r r.read_serialize
    rw [← he.transition.transactionId]
    exact wellKeyed_serialize r'
  invented := by
    rintro key content value _ _ hi _ ⟨⟩
    exact wellKeyed_of_transactionId hi.key
  mention _ := True
  mentioned _ := trivial

variable (L : Law) {key : String}

theorem key_eq {r : DistributedTransaction} (h : L.holds key (some r.serialize)) :
    transactionKey (some r.transactionId) = key :=
  L.keyed h r r.read_serialize

/-- What a program may rely on whose reads find what is `found`. -/
def Answer (found : Option SerializedTransaction → Prop) : (op : Call) → op.Res → Prop
  | .get key, content => L.holds key content ∧ found content
  | .set key value, _ => L.facts.happened (.stored key value)
  | _, _ => True

/-- A publication that announces a record under `key`. -/
def Announced (key : String) (p : Publication) : Prop :=
  ∃ r id, L.holds key (some (DistributedTransaction.serialize r)) ∧ transactionKey id = key ∧
    Announces r id p ∧ Grounded L.facts key p.publisher

/-- A publication that mentions a record without being awaited. -/
def Mentioned (p : Publication) : Prop :=
  ∃ r, L.mention r ∧ Mentions r p ∧ Grounded L.facts (transactionKey p.transactionId) p.publisher

/-- The calls that a handler of the record under `key` awaits. -/
def Issues (key : String) : Call → Prop
  | .set k value => k = key ∧ L.holds key (some value)
  | .publish p => L.Announced key p
  | _ => True

/-- The calls that it starts without awaiting them. -/
def Spawns : Call → Prop
  | .publish p => L.Mentioned p
  | _ => False

/-- The program keeps the law while it works on the record under `key`. -/
abbrev Allows (found : Option SerializedTransaction → Prop) (key : String) {α : Type}
    (p : Async α) : Prop := p.Guarded (L.Answer found) (L.Issues key) L.Spawns

end Law

theorem Law.Announced.key {L : Law} {key : String} {p : Publication} (h : L.Announced key p) :
    transactionKey p.transactionId = key := by
  obtain ⟨r, id, -, hid, ha, -⟩ := h
  rw [ha.transactionId, hid]

theorem Law.Announced.awaited {L : Law} {key : String} {p : Publication} (h : L.Announced key p) :
    p.publisher.awaited = true := by
  obtain ⟨r, id, -, -, ha, -⟩ := h
  exact ha.awaited

theorem Law.Mentioned.awaited {L : Law} {p : Publication} (h : L.Mentioned p) :
    p.publisher.awaited = false := by
  obtain ⟨r, -, hm, -⟩ := h
  exact hm.awaited

/-! ## The methods keep a law -/

section Allows

variable {L : Law} {found : Option SerializedTransaction → Prop}
  {transactionId processType : Option String} {key : String} {α : Type}

theorem allows_getTransactionState (hk : transactionKey transactionId = key)
    {f : Option DistributedTransaction → Async α}
    (h : ∀ r, L.holds key (some r.serialize) → found (some r.serialize) →
      L.Allows found key (f (some r)))
    (hnone : ∀ content, L.holds key content → content.bind SerializedTransaction.read = none →
      L.Allows found key (f none)) :
    L.Allows found key (getTransactionState transactionId >>= f) := by
  subst hk
  rw [getTransactionState_bind]
  refine (Prog.guarded_call _ _ _).mpr ⟨trivial, ?_, trivial⟩
  intro content hc
  rcases read_cases content with hn | ⟨r, hr, rfl⟩
  · rw [hn]
    exact hnone content hc.1 hn
  · rw [hr]
    exact h r hc.1 hc.2

theorem allows_storeTransactionState {r r' : DistributedTransaction}
    (h : L.holds key (some r.serialize)) (he : Enacts L.facts key r r') {f : Unit → Async α}
    (hf : L.facts.happened (.stored key r'.serialize) → L.Allows found key (f ())) :
    L.Allows found key (storeTransactionState r' >>= f) := by
  have hkey : transactionKey (some r'.transactionId) = key := by
    rw [he.transition.transactionId]
    exact L.key_eq h
  refine (Prog.guarded_call _ _ _).mpr ⟨⟨hkey, L.enacted h he⟩, fun _ hs => hf ?_, trivial⟩
  rw [← hkey]
  exact hs

/-- The last write of a handler. -/
theorem allows_lastStore {r r' : DistributedTransaction} (h : L.holds key (some r.serialize))
    (he : Enacts L.facts key r r') : L.Allows found key (storeTransactionState r') := by
  rw [← bind_pure (storeTransactionState r')]
  exact allows_storeTransactionState h he fun _ => trivial

theorem allows_newDate {f : Date → Async α} (h : ∀ date, L.Allows found key (f date)) :
    L.Allows found key (newDate >>= f) :=
  (Prog.guarded_call _ _ _).mpr ⟨trivial, fun d _ => h d, trivial⟩

theorem allows_publish {r : DistributedTransaction} (h : L.holds key (some r.serialize))
    (hk : transactionKey transactionId = key) {p : Publication} (hp : Announces r transactionId p)
    (hg : Grounded L.facts key p.publisher) : L.Allows found key (publish p) :=
  (Prog.guarded_call _ _ _).mpr ⟨⟨r, transactionId, h, hk, hp, hg⟩, fun _ _ => trivial, trivial⟩

theorem allows_storeMinimalTransaction (clientId : ClientIds)
    {content : Option SerializedTransaction} (h : L.holds key content)
    (hn : content.bind SerializedTransaction.read = none)
    (hk : transactionKey transactionId = key) (status : DistributedTransactionStatus)
    (startedAt : Date) (completedAt : Option Date)
    (hi : ∀ p, Invents L.facts key
      (minimalTransaction clientId transactionId p status startedAt completedAt)) :
    L.Allows found key (storeMinimalTransaction clientId transactionId processType status startedAt
      completedAt) := by
  unfold storeMinimalTransaction
  cases processType with
  | none => exact trivial
  | some p =>
    exact (Prog.guarded_call _ _ _).mpr
      ⟨⟨hk, L.invented h hn (hi p)⟩, fun _ _ => trivial, trivial⟩

theorem allows_handleCompleteTransaction (hk : transactionKey transactionId = key) :
    L.Allows found key (handleCompleteTransaction transactionId) := by
  unfold handleCompleteTransaction eventPublisher
  rw [bind_assoc]
  refine allows_getTransactionState hk ?_ fun _ _ _ => trivial
  intro r hr _
  refine allows_newDate fun date => ?_
  exact allows_storeTransactionState hr (.complete date) fun _ =>
    allows_publish hr hk .completed trivial

theorem allows_handleProgressTransaction (hk : transactionKey transactionId = key) :
    L.Allows found key (handleProgressTransaction transactionId) := by
  unfold handleProgressTransaction eventPublisher
  rw [bind_assoc]
  refine allows_getTransactionState hk ?_ fun _ _ _ => trivial
  intro r hr _
  dsimp only
  split
  · exact trivial
  · rename_i hs
    have hact : Active r := by
      unfold Active
      tauto
    split
    · rw [bind_assoc]
      exact Prog.guarded_bind (allows_handleCompleteTransaction hk) fun _ => trivial
    · rename_i step hstep
      rw [bind_assoc]
      refine allows_newDate fun date => ?_
      rw [bind_assoc]
      exact allows_storeTransactionState hr (.beginStep step date hact hstep) fun _ =>
        allows_publish hr hk (.command step hact hstep) trivial

theorem allows_handleStartCompensation (hk : transactionKey transactionId = key)
    (hg : Grounded L.facts key .handleStartCompensation) :
    L.Allows found key (handleStartCompensation transactionId) := by
  unfold handleStartCompensation eventPublisher
  rw [bind_assoc]
  refine allows_getTransactionState hk ?_ fun _ _ _ => trivial
  intro r hr _
  dsimp only
  split
  · exact trivial
  · rename_i step hstep
    exact allows_publish hr hk (.compensationStart step hstep) hg

theorem allows_handleCompensationSteps {r : DistributedTransaction}
    (hr : L.holds key (some r.serialize)) (hg : Grounded L.facts key .handleCompensationStep)
    (steps : List TransactionStep) (hsteps : ∀ step ∈ steps, step ∈ completedSteps r) :
    L.Allows found key (handleCompensationSteps r steps) := by
  induction steps with
  | nil => exact trivial
  | cons step rest ih =>
    refine (Prog.guarded_spawn _ _).mpr ⟨⟨r, L.mentioned hr, ?_, ?_⟩, ?_⟩
    · exact .compensation step (hsteps step (List.mem_cons_self ..))
    · rw [L.key_eq hr]
      exact hg
    · exact ih fun s hs => hsteps s (List.mem_cons_of_mem _ hs)

theorem allows_handleExecuteCompensation (clientId : ClientIds) {event : TransactionEvent}
    (ha : L.facts.Arrived .TRANSACTION_COMPENSATION_START event key) :
    L.Allows found key
      (handleExecuteCompensation clientId event.transactionId event.processType) := by
  unfold handleExecuteCompensation eventPublisher
  rw [bind_assoc]
  refine allows_getTransactionState ha.key ?_ ?_
  · intro r hr _
    dsimp only
    split
    · exact trivial
    · rw [bind_assoc]
      refine allows_storeTransactionState hr (.beginCompensation ha) fun _ => ?_
      split
      · rw [bind_assoc]
        refine Prog.guarded_bind
          (allows_handleCompensationSteps hr ⟨event, ha⟩ _ fun _ h => h) fun _ => ?_
        rw [bind_assoc]
        refine allows_newDate fun date => ?_
        rw [bind_assoc]
        exact allows_storeTransactionState hr (.compensate date ha) fun _ =>
          allows_publish hr ha.key (.compensated event.processType) ⟨event, ha⟩
      · exact allows_publish hr ha.key (.compensated event.processType) ⟨event, ha⟩
  · intro content hc hn
    dsimp only
    rw [bind_assoc]
    refine allows_newDate fun date => ?_
    rw [bind_assoc]
    exact Prog.guarded_bind (allows_storeMinimalTransaction _ hc hn ha.key _ _ _ fun p =>
      .compensating clientId p date ha) fun _ => trivial

theorem allows_handleSendUserNotification (errorMessage : String) (type : ProcessType)
    (hk : transactionKey transactionId = key) :
    L.Allows found key (handleSendUserNotification transactionId errorMessage type) := by
  unfold handleSendUserNotification eventPublisher
  rw [getTransactionState_bind, Prog.tryCatch, Prog.call_bind]
  refine (Prog.guarded_call _ _ _).mpr ⟨trivial, ?_, trivial⟩
  intro content hc
  subst hk
  rcases read_cases content with hn | ⟨r, hr, rfl⟩
  · rw [hn]
    exact trivial
  · rw [hr]
    refine (Prog.guarded_call _ _ _).mpr ⟨trivial, fun date _ => ?_, trivial⟩
    exact allows_publish hc.1 rfl (.notification errorMessage type date) trivial

/-- The handler of an event works on the record the event names. -/
theorem allows_handle (clientId : ClientIds) {subject : Subjects} {event : TransactionEvent}
    (ha : L.facts.Arrived subject event key) :
    L.Allows (L.facts.found subject) key (handle clientId subject event) := by
  cases subject with
  | TRANSACTION_STEP_COMPLETED =>
    refine allows_getTransactionState ha.key ?_ fun _ _ _ => trivial
    intro r hr _
    dsimp only
    split
    · exact trivial
    · rename_i step hstep
      split
      · exact trivial
      · rename_i hname
        refine allows_newDate fun date => ?_
        exact allows_storeTransactionState hr
          (.completeStep step date ha (not_not.mp hname).symm hstep) fun _ =>
            allows_handleProgressTransaction ha.key
  | TRANSACTION_STEP_FAILED =>
    refine allows_getTransactionState ha.key ?_ fun _ _ _ => trivial
    intro r hr _
    dsimp only
    split
    · exact trivial
    · rename_i step hstep
      refine allows_storeTransactionState hr (.failStep step event.error ha hstep) fun _ => ?_
      exact Prog.guarded_bind (allows_handleSendUserNotification _ _ (L.key_eq hr)) fun _ =>
        allows_handleStartCompensation ha.key (.inr ⟨event, ha⟩)
  | TRANSACTION_COMPENSATION_START => exact allows_handleExecuteCompensation clientId ha
  | TRANSACTION_COMPENSATION_COMPLETED =>
    refine allows_getTransactionState ha.key ?_ ?_
    · intro r hr _
      dsimp only
      split
      · exact trivial
      · exact allows_newDate fun date => allows_lastStore hr (.closeCompensated date ha)
    · exact fun content hc hn => allows_newDate fun startedAt => allows_newDate fun completedAt =>
        allows_storeMinimalTransaction clientId hc hn ha.key _ _ _ fun p =>
          .compensated clientId p startedAt completedAt ha
  | TRANSACTION_COMPLETED =>
    refine allows_getTransactionState ha.key ?_ ?_
    · intro r hr hfound
      dsimp only
      split
      · rename_i hs
        exact allows_newDate fun date => allows_lastStore hr (.closeCompleted date ha hfound hs)
      · exact trivial
    · exact fun content hc hn => allows_newDate fun startedAt => allows_newDate fun completedAt =>
        allows_storeMinimalTransaction clientId hc hn ha.key _ _ _ fun p =>
          .completed clientId p startedAt completedAt ha
  | TRANSACTION_TIMEOUT =>
    refine allows_getTransactionState ha.key ?_ fun _ _ _ => trivial
    intro r hr _
    dsimp only
    split
    · exact trivial
    · rename_i hs
      refine allows_storeTransactionState hr (.timeOut ha (not_not.mp hs)) fun hstored => ?_
      exact Prog.guarded_bind (allows_handleSendUserNotification _ _ ha.key) fun _ =>
        allows_handleStartCompensation ha.key (.inl ⟨_, hstored, rfl⟩)
  | _ => exact trivial

/-- The timeout checker writes nothing and awaits no publication. -/
theorem guarded_checkTimeoutsOf (now : Date) (keys : List String) {G : Call → Prop}
    (hget : ∀ key, G (.get key)) :
    (checkTimeoutsOf now keys).Guarded (L.Answer found) G L.Spawns := by
  induction keys with
  | nil => exact trivial
  | cons key keys ih =>
    rw [checkTimeoutsOf, getTransactionByKey_bind]
    refine (Prog.guarded_call _ _ _).mpr ⟨hget key, ?_, trivial⟩
    intro content hc
    rcases read_cases content with hn | ⟨r, hr, rfl⟩
    · rw [hn]
      exact ih
    · rw [hr]
      dsimp only
      split
      · split
        · exact trivial
        · split
          · exact (Prog.guarded_spawn _ _).mpr ⟨⟨r, L.mentioned hc.1, .timeout, trivial⟩, ih⟩
          · exact ih
      · exact ih

end Allows

end InvoiceHub.Transaction
