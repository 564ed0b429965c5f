import InvoiceHub.Effects.Hereditary
import InvoiceHub.Transaction.Shape

/-!
# Indexing past the last step

`handleProgressTransaction` compares `currentStep` with the number of steps before it reads
`steps[currentStep]`.  The handlers of completed and failed steps, `handleStartCompensation` and
the timeout checker read it unchecked, and throw on a record whose steps are all done.
-/

namespace InvoiceHub.Transaction

open Effects

/-! ## The shape of any record -/

/-- Every step of the record has been completed, and perhaps compensated since; a record without
steps is one. -/
def AllDone (r : DistributedTransaction) : Prop :=
  ∀ step ∈ r.steps, step.status = .COMPLETED ∨ step.status = .COMPENSATED

/-- Past the last step, and only there, all steps are done. -/
theorem Shape.current_eq_none_iff {options : TransactionOptions} {r : DistributedTransaction}
    (h : Shape options r) : r.steps[r.currentStep]? = none ↔ AllDone r := by
  constructor
  · intro hnone step hmem
    obtain ⟨i, hi⟩ := List.getElem?_of_mem hmem
    obtain ⟨hlt, -⟩ := List.getElem?_eq_some_iff.mp hi
    rw [List.getElem?_eq_none_iff] at hnone
    exact h.done i step hi (by omega)
  · intro hdone
    cases hs : r.steps[r.currentStep]? with
    | none => rfl
    | some step =>
      have hcurrent := h.current step hs
      rcases hdone step (List.mem_of_getElem? hs) with hd | hd <;> simp [hd] at hcurrent

/-- The law that every record has the shape of some transaction. -/
def Law.shapely : Law where
  holds key content := Law.keyedOnly.holds key content ∧
    ∀ r, content = some (DistributedTransaction.serialize r) → ∃ options, Shape options r
  keyed h := Law.keyedOnly.keyed h.1
  enacted := by
    rintro key r r' ⟨hk, h⟩ he
    refine ⟨Law.keyedOnly.enacted hk he, ?_⟩
    intro q hq
    obtain rfl : r' = q := serialize_inj (Option.some_inj.mp hq)
    obtain ⟨options, hs⟩ := h r rfl
    exact ⟨options, hs.transition he.transition⟩
  invented := by
    rintro key content value ⟨hk, -⟩ hn hi
    refine ⟨Law.keyedOnly.invented hk hn hi, ?_⟩
    intro q hq
    obtain rfl : value = q.serialize := Option.some_inj.mp hq
    have hsteps : q.steps = [] := hi.steps
    have hcurrent : q.currentStep = 0 := hi.currentStep
    refine ⟨⟨q.processType, [], q.payload, q.initiatedBy⟩, ?_⟩
    constructor <;> simp [hsteps, hcurrent]
  mention _ := True
  mentioned _ := trivial

/-- Whatever runs, every record has the shape of some transaction. -/
theorem shapely_reachable {policy : Cluster.Policy} {s : Cluster}
    (h : Cluster.Reachable policy s) : Lawful Law.shapely s := by
  refine h.induction ?_ ?_
  · exact .initial fun _ => ⟨nofun, nofun⟩
  intro s s' _ hl ⟨_, _, hf⟩
  refine hl.fire hf Facts.cover_any ?_
  intro options t date _
  refine ⟨fun _ hv => ?_, fun r hr => ?_⟩
  · cases hv
    exact wellKeyed_serialize _
  · obtain rfl : newTransaction options t date = r := serialize_inj (Option.some_inj.mp hr)
    exact ⟨options, .newTransaction options t date⟩

/-! ## Unchecked reads -/

/-- The programs that index the steps of the record they read next without a check, and the
records on which they do. -/
inductive Indexes : Async Unit → DistributedTransaction → Prop where
  | stepCompleted (event : TransactionEvent) (r : DistributedTransaction) :
      Indexes (handleTransactionStepCompleted event) r
  | stepFailed (event : TransactionEvent) (r : DistributedTransaction) :
      Indexes (handleTransactionStepFailed event) r
  | startCompensation (transactionId : Option String) (r : DistributedTransaction) :
      Indexes (handleStartCompensation transactionId) r
  | checkTimeouts (now : Date) (key : String) (keys : List String) (r : DistributedTransaction) :
      r.status = .IN_PROGRESS → Indexes (checkTimeoutsOf now (key :: keys)) r

/-- The program goes on with a throw before it awaits anything. -/
def Throws (p : Async Unit) : Bool :=
  match p.settle.2 with
  | .throw => true
  | _ => false

/-- Wherever the program throws on a record it has just read, it has indexed its steps past the
last one. -/
def Audited : Async Unit → Prop
  | .pure _ => True
  | .throw => True
  | .call (.get key) ok err =>
    (∀ content, Throws (ok content) = true →
      ∃ r, content = some (DistributedTransaction.serialize r) ∧
        r.steps[r.currentStep]? = none ∧ Indexes (.call (.get key) ok err) r) ∧
    (∀ content, Audited (ok content)) ∧ Audited err
  | .call _ ok err => (∀ r, Audited (ok r)) ∧ Audited err
  | .spawn _ next => Audited next

theorem hereditary_audited : Hereditary Audited where
  ok := by
    intro op ok err h
    cases op with
    | get key => exact h.2.1
    | _ => exact h.1
  err := by
    intro op ok err h
    cases op with
    | get key => exact h.2.2
    | _ => exact h.2
  next := fun h => h
  started := by
    intro op
    cases op with
    | get key => exact ⟨nofun, fun _ => trivial, trivial⟩
    | _ => exact ⟨fun _ => trivial, trivial⟩

section Audited

variable {id : Option String}

/-- A read whose answer is not thrown at. -/
theorem audited_read {f : Option DistributedTransaction → Async Unit}
    (hf : ∀ r, Audited (f r)) (hthrow : ∀ r, Throws (f r) = false) :
    Audited (getTransactionState id >>= f) := by
  refine ⟨?_, fun _ => hf _, trivial⟩
  intro content (h : Throws (f (content.bind SerializedTransaction.read)) = true)
  rw [hthrow] at h
  cases h

/-- A read whose answer is thrown at where it has no current step. -/
theorem audited_index {key : String} {f : Option DistributedTransaction → Async Unit}
    (hf : ∀ r, Audited (f r)) (hnone : Throws (f none) = false)
    (hthrow : ∀ r, Throws (f (some r)) = true → r.steps[r.currentStep]? = none ∧
      Indexes (getTransactionByKey key >>= f) r) : Audited (getTransactionByKey key >>= f) := by
  refine ⟨?_, fun _ => hf _, trivial⟩
  intro content (h : Throws (f (content.bind SerializedTransaction.read)) = true)
  rcases read_cases content with hn | ⟨r, hr, rfl⟩
  · rw [hn, hnone] at h
    cases h
  · rw [hr] at h
    exact ⟨r, rfl, hthrow r h⟩

variable {f : Unit → Async Unit}

theorem audited_handleCompleteTransaction (hf : Audited (f ())) (hend : Throws (f ()) = false) :
    Audited (handleCompleteTransaction id >>= f) := by
  unfold handleCompleteTransaction eventPublisher
  rw [bind_assoc, bind_assoc]
  refine audited_read ?_ ?_
  · rintro (_ | r)
    · exact hf
    · exact ⟨fun _ => ⟨fun _ => ⟨fun _ => hf, trivial⟩, trivial⟩, trivial⟩
  · rintro (_ | r)
    · exact hend
    · rfl

theorem audited_handleProgressTransaction : Audited (handleProgressTransaction id) := by
  unfold handleProgressTransaction eventPublisher
  rw [bind_assoc]
  refine audited_read ?_ ?_
  · rintro (_ | r)
    · exact trivial
    · dsimp only
      split
      · exact trivial
      · split
        · rw [bind_assoc]
          exact audited_handleCompleteTransaction trivial rfl
        · exact ⟨fun _ => ⟨fun _ => ⟨fun _ => trivial, trivial⟩, trivial⟩, trivial⟩
  · rintro (_ | r)
    · rfl
    · dsimp only
      split
      · rfl
      · split
        · rfl
        · rfl

theorem audited_handleStartCompensation : Audited (handleStartCompensation id) := by
  have hindexes := Indexes.startCompensation id
  unfold handleStartCompensation eventPublisher at hindexes ⊢
  rw [bind_assoc] at hindexes ⊢
  refine audited_index ?_ rfl ?_
  · rintro (_ | r)
    · exact trivial
    · dsimp only
      split
      · exact trivial
      · exact ⟨fun _ => trivial, trivial⟩
  · intro r h
    refine ⟨?_, hindexes r⟩
    dsimp only at h
    split at h
    · assumption
    · cases h

theorem audited_handleSendUserNotification (errorMessage : String) (type : ProcessType)
    (hf : Audited (f ())) (hend : Throws (f ()) = false) :
    Audited (handleSendUserNotification id errorMessage type >>= f) := by
  unfold handleSendUserNotification eventPublisher
  rw [getTransactionState_bind, Prog.tryCatch, bind_assoc, Prog.call_bind]
  refine ⟨?_, ?_, hf⟩
  · intro content h
    dsimp only at h
    rcases read_cases content with hn | ⟨r, hr, -⟩
    · rw [hn] at h
      cases hend.symm.trans h
    · rw [hr] at h
      cases h
  · intro content
    dsimp only
    rcases read_cases content with hn | ⟨r, hr, -⟩
    · rw [hn]
      exact hf
    · rw [hr]
      exact ⟨fun _ => ⟨fun _ => hf, trivial⟩, hf⟩

theorem audited_storeMinimalTransaction (clientId : ClientIds) (processType : Option String)
    (status : DistributedTransactionStatus) (startedAt : Date) (completedAt : Option Date)
    (hf : Audited (f ())) :
    Audited (storeMinimalTransaction clientId id processType status startedAt completedAt >>= f) := by
  unfold storeMinimalTransaction
  cases processType with
  | none => exact trivial
  | some p => exact ⟨fun _ => hf, trivial⟩

/-- The last write of a handler. -/
theorem audited_lastMinimalTransaction (clientId : ClientIds) (processType : Option String)
    (status : DistributedTransactionStatus) (startedAt : Date) (completedAt : Option Date) :
    Audited (storeMinimalTransaction clientId id processType status startedAt completedAt) := by
  rw [← bind_pure (storeMinimalTransaction ..)]
  exact audited_storeMinimalTransaction clientId processType status startedAt completedAt trivial

theorem audited_handleCompensationSteps (r : DistributedTransaction) (steps : List TransactionStep)
    (hf : Audited (f ())) : Audited (handleCompensationSteps r steps >>= f) := by
  induction steps with
  | nil => exact hf
  | cons step rest ih => exact ih

theorem audited_handleExecuteCompensation (clientId : ClientIds) (processType : Option String) :
    Audited (handleExecuteCompensation clientId id processType) := by
  unfold handleExecuteCompensation eventPublisher
  rw [bind_assoc]
  refine audited_read ?_ ?_
  · rintro (_ | r)
    · dsimp only
      rw [bind_assoc]
      refine ⟨fun date => ?_, trivial⟩
      change Audited ((storeMinimalTransaction clientId id processType .COMPENSATING date none >>=
        fun _ => pure none) >>= _)
      rw [bind_assoc]
      exact audited_storeMinimalTransaction clientId processType _ date none trivial
    · dsimp only
      split
      · exact trivial
      · rw [bind_assoc]
        refine ⟨fun _ => ?_, trivial⟩
        dsimp only
        split
        · rw [bind_assoc]
          refine audited_handleCompensationSteps r _ ?_
          exact ⟨fun _ => ⟨fun _ => ⟨fun _ => trivial, trivial⟩, trivial⟩, trivial⟩
        · exact ⟨fun _ => trivial, trivial⟩
  · rintro (_ | r)
    · rfl
    · dsimp only
      split
      · rfl
      · rfl

/-- Every handler is audited. -/
theorem audited_handle (clientId : ClientIds) (subject : Subjects) (event : TransactionEvent) :
    Audited (handle clientId subject event) := by
  cases subject with
  | TRANSACTION_STEP_COMPLETED =>
    refine audited_index ?_ rfl ?_
    · rintro (_ | r)
      · exact trivial
      · dsimp only
        split
        · exact trivial
        · split
          · exact trivial
          · exact ⟨fun _ => ⟨fun _ => audited_handleProgressTransaction, trivial⟩, trivial⟩
    · intro r h
      refine ⟨?_, .stepCompleted event r⟩
      dsimp only at h
      split at h
      · assumption
      · split at h
        · cases h
        · cases h
  | TRANSACTION_STEP_FAILED =>
    refine audited_index ?_ rfl ?_
    · rintro (_ | r)
      · exact trivial
      · dsimp only
        split
        · exact trivial
        · refine ⟨fun _ => ?_, trivial⟩
          exact audited_handleSendUserNotification _ _ audited_handleStartCompensation rfl
    · intro r h
      refine ⟨?_, .stepFailed event r⟩
      dsimp only at h
      split at h
      · assumption
      · cases h
  | TRANSACTION_COMPENSATION_START => exact audited_handleExecuteCompensation clientId _
  | TRANSACTION_COMPENSATION_COMPLETED =>
    refine audited_read ?_ ?_
    · rintro (_ | r)
      · refine ⟨fun _ => ⟨fun _ => ?_, trivial⟩, trivial⟩
        dsimp only
        exact audited_lastMinimalTransaction clientId _ _ _ _
      · dsimp only
        split
        · exact trivial
        · exact ⟨fun _ => ⟨fun _ => trivial, trivial⟩, trivial⟩
    · rintro (_ | r)
      · rfl
      · dsimp only
        split
        · rfl
        · rfl
  | TRANSACTION_COMPLETED =>
    refine audited_read ?_ ?_
    · rintro (_ | r)
      · refine ⟨fun _ => ⟨fun _ => ?_, trivial⟩, trivial⟩
        dsimp only
        exact audited_lastMinimalTransaction clientId _ _ _ _
      · dsimp only
        split
        · exact ⟨fun _ => ⟨fun _ => trivial, trivial⟩, trivial⟩
        · exact trivial
    · rintro (_ | r)
      · rfl
      · dsimp only
        split
        · rfl
        · rfl
  | TRANSACTION_TIMEOUT =>
    refine audited_read ?_ ?_
    · rintro (_ | r)
      · exact trivial
      · dsimp only
        split
        · exact trivial
        · refine ⟨fun _ => ?_, trivial⟩
          exact audited_handleSendUserNotification _ _ audited_handleStartCompensation rfl
    · rintro (_ | r)
      · rfl
      · dsimp only
        split
        · rfl
        · rfl
  | _ => exact trivial

theorem throws_checkTimeoutsOf (now : Date) (keys : List String) :
    Throws (checkTimeoutsOf now keys) = false := by
  cases keys with
  | nil => rfl
  | cons key keys => rfl

/-- The timeout checker is audited. -/
theorem audited_checkTimeoutsOf (now : Date) (keys : List String) :
    Audited (checkTimeoutsOf now keys) := by
  induction keys with
  | nil => exact trivial
  | cons key keys ih =>
    have hindexes := Indexes.checkTimeouts now key keys
    rw [checkTimeoutsOf] at hindexes ⊢
    refine audited_index ?_ (throws_checkTimeoutsOf now keys) ?_
    · rintro (_ | r)
      · exact ih
      · dsimp only
        split
        · split
          · exact trivial
          · split
            · exact ih
            · exact ih
        · exact ih
    · intro r h
      dsimp only at h
      split at h
      · rename_i hs
        refine ⟨?_, hindexes r hs⟩
        split at h
        · assumption
        · split at h
          · exact absurd ((throws_checkTimeoutsOf now keys).symm.trans h) Bool.false_ne_true
          · exact absurd ((throws_checkTimeoutsOf now keys).symm.trans h) Bool.false_ne_true
      · exact absurd ((throws_checkTimeoutsOf now keys).symm.trans h) Bool.false_ne_true

end Audited

/-! ## Runs -/

section Runs

variable {policy : Cluster.Policy} {s s' : Cluster}

theorem audited_checkTimeouts : Audited checkTimeouts :=
  ⟨fun keys => ⟨fun now => audited_checkTimeoutsOf now keys, trivial⟩, trivial⟩

theorem audited_fire {label : Cluster.Label} (h : ∀ task ∈ s.tasks, Audited task.prog)
    (hf : s.fire label = some s') : ∀ task ∈ s'.tasks, Audited task.prog := by
  cases label with
  | start options t date =>
    unfold Cluster.fire at hf
    dsimp only at hf
    split at hf
    · cases hf
      exact hereditary_audited.begin h audited_handleProgressTransaction
    · cases hf
  | deliver clientId subject event =>
    cases hf
    exact hereditary_audited.begin h (audited_handle clientId subject event)
  | checkTimeouts =>
    cases hf
    exact hereditary_audited.begin h audited_checkTimeouts
  | advance j date => exact hereditary_audited.advance h hf
  | reject j => exact hereditary_audited.reject h hf
  | abandon j => exact Hereditary.abandon h hf

theorem audited_reachable (h : Cluster.Reachable policy s) :
    ∀ task ∈ s.tasks, Audited task.prog :=
  h.induction (by rintro _ ⟨⟩) fun _ _ _ ha ⟨_, _, hf⟩ => audited_fire ha hf

/-- The step answers a read of a task that then throws: it has read `steps[currentStep]` of a
record whose `currentStep` is not below `steps.length`. -/
def Cluster.overruns (s : Cluster) : Cluster.Label → Bool
  | .advance j _ =>
    match s.tasks[j]? with
    | some ⟨_, .call (.get key) ok _⟩ => Throws (ok (s.world.redis.lookup key))
    | _ => false
  | _ => false

/-- The step answers a read whose record is indexed unchecked, with a record all of whose steps
are done. -/
def Cluster.ReadsDone (s : Cluster) (label : Cluster.Label) : Prop :=
  ∃ j date activity key ok err r, label = .advance j date ∧
    s.tasks[j]? = some ⟨activity, .call (.get key) ok err⟩ ∧
    s.world.redis.lookup key = some (DistributedTransaction.serialize r) ∧
    Indexes (.call (.get key) ok err) r ∧ AllDone r

/-- How a program goes on when its read is answered. -/
def afterRead : Async Unit → Option SerializedTransaction → Async Unit
  | .call (.get _) ok _, content => ok content
  | p, _ => p

theorem afterRead_getTransactionByKey (key : String)
    (f : Option DistributedTransaction → Async Unit) (r : DistributedTransaction) :
    afterRead (getTransactionByKey key >>= f) (some r.serialize) = f (some r) := by
  rw [getTransactionByKey_bind, afterRead, Option.bind_some, DistributedTransaction.read_serialize]

/-- The programs that index unchecked throw on a record without a current step. -/
theorem Indexes.throws {p : Async Unit} {r : DistributedTransaction} (h : Indexes p r)
    (hr : r.steps[r.currentStep]? = none) : Throws (afterRead p (some r.serialize)) = true := by
  cases h with
  | stepCompleted event =>
    unfold handleTransactionStepCompleted getTransactionState
    rw [afterRead_getTransactionByKey]
    simp only [hr]
    rfl
  | stepFailed event =>
    unfold handleTransactionStepFailed getTransactionState
    rw [afterRead_getTransactionByKey]
    simp only [hr]
    rfl
  | startCompensation id =>
    unfold handleStartCompensation eventPublisher getTransactionState
    rw [bind_assoc, afterRead_getTransactionByKey]
    simp only [hr]
    rfl
  | checkTimeouts now key keys _ hs =>
    rw [checkTimeoutsOf, afterRead_getTransactionByKey]
    simp only [hs, hr, if_pos]
    rfl

/-- A step of a run goes past the last step of a record exactly where an unchecked read finds a
record all of whose steps are done. -/
theorem overruns_iff (h : Cluster.Reachable policy s) (label : Cluster.Label) :
    s.overruns label = true ↔ s.ReadsDone label := by
  have hshape : ∀ key r, s.world.redis.lookup key = some (DistributedTransaction.serialize r) →
      (r.steps[r.currentStep]? = none ↔ AllDone r) := by
    intro key r hr
    obtain ⟨options, hs⟩ := ((shapely_reachable h).stored key).2 r hr
    exact hs.current_eq_none_iff
  constructor
  · intro ho
    unfold Cluster.overruns at ho
    split at ho
    · rename_i j date
      split at ho
      · rename_i activity key ok err hj
        have ha : Audited (.call (.get key) ok err) :=
          audited_reachable h _ (List.mem_of_getElem? hj)
        obtain ⟨r, hr, hnone, hindexes⟩ := ha.1 _ ho
        exact ⟨j, date, activity, key, ok, err, r, rfl, hj, hr, hindexes, (hshape key r hr).mp hnone⟩
      · cases ho
    · cases ho
  · rintro ⟨j, date, activity, key, ok, err, r, rfl, hj, hr, hindexes, hdone⟩
    have hthrows := hindexes.throws ((hshape key r hr).mpr hdone)
    simp only [Cluster.overruns, hj, hr]
    exact hthrows

/-- A run never goes past the last step of a record exactly when none of its unchecked reads
finds a record all of whose steps are done. -/
theorem never_overruns (labels : List Cluster.Label) :
    Cluster.machine.Throughout (fun s label => s.overruns label = false) .initial labels ↔
      Cluster.machine.Throughout (fun s label => ¬s.ReadsDone label) .initial labels := by
  refine Machine.throughout_congr (fun s label hs => ?_) labels _ .refl
  rw [← overruns_iff hs label, Bool.not_eq_true]

end Runs

/-! ## Two runs that overrun -/

/-- `oneStep` is completed, and the same `TRANSACTION_STEP_COMPLETED` arrives once more. -/
def redelivered : List Cluster.Label :=
  startOneStep ++ [stepCompleted] ++ List.replicate 8 (.advance 0 0) ++ [stepCompleted]

theorem isSome_redelivered : (Cluster.run (fun _ _ => true) redelivered).isSome = true := by
  decide +kernel

/-- A timeout checker looks at `oneStep` after the completion of its step has been stored and before
the completion of the transaction is. -/
def checkedBetween : List Cluster.Label :=
  startOneStep ++ [stepCompleted] ++ List.replicate 3 (.advance 0 0) ++
    [.checkTimeouts, .advance 1 0, .advance 1 0]

theorem isSome_checkedBetween :
    (Cluster.run (fun _ _ => true) checkedBetween).isSome = true := by
  decide +kernel

/-- The handler of a redelivered completion, and a timeout checker between the two writes of the
last completion, read `steps[currentStep]` past the last step. -/
theorem overrun :
    (∃ s, Cluster.run (fun _ _ => true) redelivered = some s ∧
      Cluster.Reachable (fun _ _ => true) s ∧ s.overruns (.advance 0 0) = true) ∧
    ∃ s, Cluster.run (fun _ _ => true) checkedBetween = some s ∧
      Cluster.Reachable (fun _ _ => true) s ∧ s.overruns (.advance 1 0) = true := by
  constructor
  · refine ⟨_, (Option.some_get isSome_redelivered).symm,
      Machine.reachable_run _ isSome_redelivered, ?_⟩
    decide +kernel
  · refine ⟨_, (Option.some_get isSome_checkedBetween).symm,
      Machine.reachable_run _ isSome_checkedBetween, ?_⟩
    decide +kernel

end InvoiceHub.Transaction
