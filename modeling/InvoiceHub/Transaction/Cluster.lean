import InvoiceHub.Effects.Exclusive
import InvoiceHub.Effects.Run
import InvoiceHub.Transaction.Records

/-!
# Coordinator processes over one store

Any number of coordinator processes share one Redis.  Their running handlers form a pool;
a step answers one awaited call, so handlers interleave at every Redis `get` and `set` and
at every Kafka `publish`.  The events that reach the handlers are labels of the run: which
of them may occur is the `Policy` of a theorem.

`history` lists what happened, oldest first; no handler reads it.
-/

namespace InvoiceHub.Transaction

open Effects

/-- What a run has done. -/
inductive Entry where
  /-- `startTransaction` was called; its first write is the next entry. -/
  | created (transactionId : String) (options : TransactionOptions)
  /-- An event was handed to the handler of its topic. -/
  | received (subject : Subjects) (event : TransactionEvent)
  | stored (key : String) (value : SerializedTransaction)
  | published (publication : Publication)

/-- The shared store and the past of the run. -/
structure Store where
  redis : Redis
  history : List Entry

/-- What a running task runs for. -/
inductive Activity where
  | startTransaction (transactionId : String)
  | handler (clientId : ClientIds) (subject : Subjects) (event : TransactionEvent)
  /-- A call that the method which started it does not await. -/
  | unawaited (call : Call)
  | checkTimeouts

namespace Activity

/-- The key of the record a handler works on. -/
def key : Activity → Option String
  | startTransaction transactionId => some (transactionKey (some transactionId))
  | handler _ _ event => some (transactionKey event.transactionId)
  | unawaited _ => none
  | checkTimeouts => none

/-- The activity of a call that is started without being awaited. -/
def background (_ : Activity) (call : Call) : Activity := unawaited call

end Activity

/-- What a call does; `date` is what the clock shows. -/
def perform : Perform Store Date Activity Call Call.Res := fun _ date op store =>
  match op with
  | .get key => (store.redis.lookup key, store)
  | .set key value =>
    ((), { redis := store.redis.insert key value
           history := store.history ++ [.stored key value] })
  | .getKeysByPattern => (store.redis.keys, store)
  | .publish publication => ((), { store with history := store.history ++ [.published publication] })
  | .now => (date, store)

/-- The processes, seen as the store and the running tasks. -/
abbrev Cluster := Pool Store Activity Call Call.Res

namespace Cluster

/-- Nothing stored, nothing running. -/
def initial : Cluster := { world := { redis := ∅, history := [] }, tasks := [] }

/-- A step of a run. -/
inductive Label where
  /-- `startTransaction`: `uuidv4` returns `transactionId`, the clock shows `date`. -/
  | start (options : TransactionOptions) (transactionId : String) (date : Date)
  /-- A process of `clientId` gets an event on the topic `subject`. -/
  | deliver (clientId : ClientIds) (subject : Subjects) (event : TransactionEvent)
  /-- The timer of a timeout checker fires. -/
  | checkTimeouts
  /-- The awaited call of a task is answered. -/
  | advance (task : Nat) (date : Date)
  /-- The awaited call of a task is rejected. -/
  | reject (task : Nat)
  /-- The process running a task stops. -/
  | abandon (task : Nat)

/-- No handler works on the record under `key`. -/
def idle (s : Cluster) (key : String) : Bool :=
  Pool.Idle (fun activity => activity.key == some key) s.tasks

/-- `uuidv4` returns an id that names no record and that no running handler was given. -/
def fresh (s : Cluster) (transactionId : String) : Bool :=
  (s.world.redis.lookup (transactionKey (some transactionId))).isNone &&
    s.idle (transactionKey (some transactionId))

/-- One step.  The first write of `startTransaction` belongs to its start: before it the new
id is known to nobody, so no other step can depend on it. -/
def fire (s : Cluster) : Label → Option Cluster
  | .start options transactionId date =>
    if s.fresh transactionId then
      let world := (perform (.startTransaction transactionId) date
        (.set (transactionKey (some transactionId))
          (newTransaction options transactionId date).serialize)
        { s.world with history := s.world.history ++ [.created transactionId options] }).2
      some (Pool.begin Activity.background { s with world := world }
        (.startTransaction transactionId) (handleProgressTransaction (some transactionId)))
    else none
  | .deliver clientId subject event =>
    some (Pool.begin Activity.background
      { s with world := { s.world with history := s.world.history ++ [.received subject event] } }
      (.handler clientId subject event) (handle clientId subject event))
  | .checkTimeouts => some (Pool.begin Activity.background s .checkTimeouts checkTimeouts)
  | .advance task date => Pool.advance Activity.background perform s task date
  | .reject task => Pool.reject Activity.background s task
  | .abandon task => Pool.abandon s task

/-- Where an entry that a step adds to the history comes from. -/
inductive Adds (s : Cluster) : Label → Entry → Prop where
  | created (options : TransactionOptions) (t : String) (date : Date) :
      Adds s (.start options t date) (.created t options)
  | first (options : TransactionOptions) (t : String) (date : Date) :
      Adds s (.start options t date)
        (.stored (transactionKey (some t)) (newTransaction options t date).serialize)
  | received (clientId : ClientIds) (subject : Subjects) (event : TransactionEvent) :
      Adds s (.deliver clientId subject event) (.received subject event)
  | stored {j : Nat} {date : Date} {activity : Activity} {key : String}
      {value : SerializedTransaction} {ok : Unit → Async Unit} {err : Async Unit} :
      s.tasks[j]? = some ⟨activity, .call (.set key value) ok err⟩ →
      Adds s (.advance j date) (.stored key value)
  | published {j : Nat} {date : Date} {activity : Activity} {p : Publication}
      {ok : Unit → Async Unit} {err : Async Unit} :
      s.tasks[j]? = some ⟨activity, .call (.publish p) ok err⟩ →
      Adds s (.advance j date) (.published p)

theorem Adds.of_created {s : Cluster} {label : Label} {t : String} {options : TransactionOptions}
    (h : Adds s label (.created t options)) : ∃ date, label = .start options t date := by
  cases h with
  | created options t date => exact ⟨date, rfl⟩

theorem Adds.of_received {s : Cluster} {label : Label} {subject : Subjects}
    {event : TransactionEvent} (h : Adds s label (.received subject event)) :
    ∃ clientId, label = .deliver clientId subject event := by
  cases h with
  | received clientId subject event => exact ⟨clientId, rfl⟩

/-- A step only adds to the history. -/
theorem history_fire {s s' : Cluster} {label : Label} (hf : s.fire label = some s') :
    ∃ added, s'.world.history = s.world.history ++ added ∧
      ∀ entry ∈ added, Adds s label entry := by
  cases label with
  | start options t date =>
    unfold fire at hf
    dsimp only at hf
    split at hf
    · cases hf
      refine ⟨[.created t options, _], List.append_assoc .., ?_⟩
      intro entry hmem
      rcases List.mem_pair.mp hmem with rfl | rfl
      · exact .created options t date
      · exact .first options t date
    · cases hf
  | deliver clientId subject event =>
    cases hf
    refine ⟨[.received subject event], rfl, fun entry hmem => ?_⟩
    cases List.mem_singleton.mp hmem
    exact .received clientId subject event
  | checkTimeouts =>
    cases hf
    exact ⟨[], (List.append_nil _).symm, by simp⟩
  | advance j date =>
    obtain ⟨tag, op, ok, err, before, after, hs, hj, hw, _⟩ := Pool.advance_cases hf
    have hget : s.tasks[j]? = some ⟨tag, .call op ok err⟩ := by
      rw [hs, ← hj]
      simp
    rw [hw]
    cases op with
    | set key value =>
      refine ⟨[.stored key value], rfl, fun entry hmem => ?_⟩
      cases List.mem_singleton.mp hmem
      exact .stored hget
    | publish p =>
      refine ⟨[.published p], rfl, fun entry hmem => ?_⟩
      cases List.mem_singleton.mp hmem
      exact .published hget
    | _ => exact ⟨[], (List.append_nil _).symm, by simp⟩
  | reject j =>
    obtain ⟨_, _, _, _, _, _, _, _, hw, _⟩ := Pool.reject_cases hf
    rw [hw]
    exact ⟨[], (List.append_nil _).symm, by simp⟩
  | abandon j =>
    obtain ⟨_, _, _, _, _, hw, _⟩ := Pool.abandon_cases hf
    rw [hw]
    exact ⟨[], (List.append_nil _).symm, by simp⟩

theorem created_start {s s' : Cluster} {options : TransactionOptions} {t : String} {date : Date}
    (hf : s.fire (.start options t date) = some s') : .created t options ∈ s'.world.history := by
  unfold fire at hf
  dsimp only at hf
  split at hf
  · cases hf
    simp [perform]
  · cases hf

/-- The cluster as a machine. -/
def machine : Machine Cluster Label := ⟨initial, fire⟩

/-- Which labels may occur in a state. -/
abbrev Policy := machine.Policy

/-- The states of the runs under a policy. -/
abbrev Reachable (policy : Policy) : Cluster → Prop := machine.Reachable policy

/-- Fire labels one after the other, each where the policy allows it. -/
abbrev run (policy : Policy) (labels : List Label) : Option Cluster :=
  machine.run policy initial labels

end Cluster

/-! ## Runs of one and of two steps -/

/-- A transaction of one step. -/
def oneStep : TransactionOptions where
  processType := .ORDER_APPROVAL
  steps := [(Subjects.ORDER_APPROVAL_STEP_UPDATE_ORDER_STATUS.value, .ORDER_SERVICE)]
  payload := ∅
  initiatedBy := "user"

/-- The transaction is started and its step commanded. -/
def startOneStep : List Cluster.Label :=
  [.start oneStep "t" 0, .advance 0 0, .advance 0 0, .advance 0 0, .advance 0 0]

/-- `TRANSACTION_STEP_COMPLETED` for the step of `oneStep`. -/
def stepCompleted : Cluster.Label :=
  .deliver .ORDER_SERVICE .TRANSACTION_STEP_COMPLETED
    { transactionId := some "t"
      stepName := some Subjects.ORDER_APPROVAL_STEP_UPDATE_ORDER_STATUS.value }

/-- A transaction of two steps. -/
def twoSteps : TransactionOptions where
  processType := .ORDER_APPROVAL
  steps := oneStep.steps ++
    [(Subjects.ORDER_APPROVAL_STEP_INVOICE_GENERATE.value, .INVOICE_SERVICE)]
  payload := JsonObject.put ∅ "orderId" (some (.str "order"))
  initiatedBy := "user"

/-- `TRANSACTION_STEP_COMPLETED` for the second step of `twoSteps`. -/
def invoiceCompleted : Cluster.Label :=
  .deliver .INVOICE_SERVICE .TRANSACTION_STEP_COMPLETED
    { transactionId := some "t"
      stepName := some Subjects.ORDER_APPROVAL_STEP_INVOICE_GENERATE.value }

/-- Both steps of `twoSteps` are completed, the first report arriving twice, and the end is
received. -/
def completedTwoSteps : List Cluster.Label :=
  [.start twoSteps "t" 0] ++ List.replicate 4 (.advance 0 0) ++
    [stepCompleted] ++ List.replicate 7 (.advance 0 1) ++ [stepCompleted, .advance 0 2] ++
    [invoiceCompleted] ++ List.replicate 8 (.advance 0 3) ++
    [.deliver .ORDER_SERVICE .TRANSACTION_COMPLETED
      { transactionId := some "t", processType := some ProcessType.ORDER_APPROVAL.value },
      .advance 0 4]

/-- Each report on `twoSteps` arrives twice, and both handlers read the record before either of
them writes it. -/
def overlappingTwoSteps : List Cluster.Label :=
  [.start twoSteps "t" 0] ++ List.replicate 4 (.advance 0 0) ++
    [stepCompleted, stepCompleted, .advance 0 1, .advance 1 1] ++
    List.replicate 12 (.advance 0 2) ++
    [invoiceCompleted, invoiceCompleted, .advance 0 3, .advance 1 3] ++
    List.replicate 14 (.advance 0 4)

end InvoiceHub.Transaction
