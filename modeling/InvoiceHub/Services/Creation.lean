import InvoiceHub.Cache.Redis
import InvoiceHub.Effects.Eval
import InvoiceHub.Services.OrderService
import InvoiceHub.Transaction.Records

/-!
# What createOrder leaves behind

`createOrder` down to the calls of the coordinator that it starts: the row is saved before the
saga exists, nothing takes it back, and any of the calls that follow may fail.
-/

namespace InvoiceHub.Services

open Effects

/-! ## Calls -/

/-- `ResultMessage`, as far as `createOrder` returns it. -/
inductive ResultMessage where
  | SUCCESS
  | FAILED_ORDER_UPDATE_STATUS
  deriving DecidableEq

/-- The awaited calls of the order service, and those of its coordinator. -/
inductive CreationCall where
  | service (op : Call)
  | coordinator (op : Transaction.Call)

/-- Their answers. -/
abbrev CreationCall.Res : CreationCall → Type
  | service op => Call.Res op
  | coordinator op => Transaction.Call.Res op

/-- A method of the order service, with what the coordinator does in it. -/
abbrev Creation := Prog CreationCall CreationCall.Res

variable {α : Type}

/-- A method of the coordinator. -/
def ofCoordinator (method : Transaction.Async α) : Creation α :=
  method.mapOp CreationCall.coordinator fun _ r => r

/-- What the calls of the service do where `uuidv4` returns `transactionId`: the two halves of
`startTransaction` are the coordinator's. -/
def inCoordinator (transactionId : String) : (op : Call) → Creation (Call.Res op)
  | .startTransaction options => ofCoordinator do
    let startedAt ← Transaction.newDate
    Transaction.storeTransactionState
      (Transaction.newTransaction options transactionId startedAt)
    return transactionId
  | .started transactionId =>
    ofCoordinator (Transaction.handleProgressTransaction (some transactionId))
  | .insertOrder data => Prog.await (CreationCall.service (.insertOrder data))
  | .findOneOrFail id => Prog.await (CreationCall.service (.findOneOrFail id))
  | .saveOrder order => Prog.await (CreationCall.service (.saveOrder order))
  | .saveInvoice data => Prog.await (CreationCall.service (.saveInvoice data))
  | .publish event => Prog.await (CreationCall.service (.publish event))
  | .now => Prog.await (CreationCall.service .now)

/-- A method of the service, with what the coordinator does in it. -/
def withCoordinator (transactionId : String) (method : Async α) : Creation α :=
  method.expand (inCoordinator transactionId) CreationCall.service

/-- `createOrder` without its decorator, and the `result` of its response. -/
def createOrderResult (userId : String) (totalAmount : Rat) : Async ResultMessage := do
  createOrder userId totalAmount
  return if totalAmount ≤ 0 then .FAILED_ORDER_UPDATE_STATUS else .SUCCESS

/-- `createOrder`. -/
def decoratedCreateOrder (transactionId userId : String) (totalAmount : Rat) :
    Cache.Async Empty CreationCall.Res ResultMessage :=
  Cache.redisCacheInvalidateDecorator "order:get:list"
    ((withCoordinator transactionId (createOrderResult userId totalAmount)).mapOp Cache.Call.own
      fun _ r => r)

/-- `startTransaction` of the coordinator is what runs inside the service. -/
theorem withCoordinator_startTransaction (transactionId : String) (options : TransactionOptions) :
    withCoordinator transactionId (startTransaction options) =
      ofCoordinator (Transaction.startTransaction options transactionId) := by
  unfold withCoordinator startTransaction
  rw [Prog.expand_bind, Prog.expand_await]
  have hstarted : ∀ t, (Prog.await (Call.started t) >>= fun _ => pure t :
      Async String).expand (inCoordinator transactionId) CreationCall.service =
      ofCoordinator (Transaction.handleProgressTransaction (some t)) >>= fun _ => pure t := by
    intro t
    rw [Prog.expand_bind, Prog.expand_await]
    rfl
  have hprogress : ofCoordinator (Transaction.handleProgressTransaction (some transactionId) >>=
      fun _ => pure transactionId) =
      ofCoordinator (Transaction.handleProgressTransaction (some transactionId)) >>=
        fun _ => pure transactionId := Prog.mapOp_bind _ _
  rw [funext hstarted]
  exact congrArg (fun p : Creation String => Prog.call (CreationCall.coordinator .now)
    (fun startedAt => Prog.call (CreationCall.coordinator
      (.set (Transaction.transactionKey (some transactionId))
        (Transaction.newTransaction options transactionId startedAt).serialize))
      (fun _ => p) .throw) .throw) hprogress.symm

/-! ## Failures -/

/-- What the service works on: its tables, the records of the coordinator, what has been
published, and whether the map of `RedisInfrastructure` has the client. -/
structure Backend where
  db : Database
  /-- How many saves have succeeded. -/
  saves : Nat
  records : Transaction.Redis
  publications : List Publication
  client : Bool

/-- What becomes of a call. -/
structure Outcome where
  choice : Choice := {}
  /-- The call is rejected, and has done nothing. -/
  fails : Bool := false
  /-- The client has been disconnected, which takes it out of the map. -/
  disconnected : Bool := false

namespace Backend

/-- The client is in the map as long as it is not disconnected. -/
def before (s : Backend) (outcome : Outcome) : Backend :=
  { s with client := s.client && !outcome.disconnected }

/-- The calls that can be rejected. -/
def fallible : CreationCall → Bool
  | .service .now => false
  | .coordinator .now => false
  | _ => true

/-- A call of the coordinator.  Without the client, `get` finds nothing and `set` does nothing. -/
def performCoordinator (outcome : Outcome) :
    (op : Transaction.Call) → Backend → Option (Transaction.Call.Res op) × Backend
  | .get key, s => (some (if s.client then s.records.lookup key else none), s)
  | .set key value, s =>
    (some (), if s.client then { s with records := s.records.insert key value } else s)
  | .getKeysByPattern, s => (if s.client then some s.records.keys else none, s)
  | .publish publication, s => (some (), { s with publications := s.publications ++ [publication] })
  | .now, s => (some outcome.choice.date, s)

/-- A call of the service. -/
def performService (outcome : Outcome) (op : Call) (s : Backend) : Call.Res op × Backend :=
  ((perform .createOrder outcome.choice op s.db).1,
    { s with
      db := (perform .createOrder outcome.choice op s.db).2
      saves := match op with
        | .insertOrder _ => s.saves + 1
        | .saveOrder _ => s.saves + 1
        | .saveInvoice _ => s.saves + 1
        | _ => s.saves })

/-- The row of an order would get the key of another one: the database rejects the insert. -/
def conflicts (outcome : Outcome) (s : Backend) : CreationCall → Bool
  | .service (.insertOrder _) => outcome.choice.uuid ∈ s.db.orders
  | _ => false

/-- What a call does. -/
def performCreation (outcome : Outcome) (op : CreationCall) (s : Backend) :
    Option (CreationCall.Res op) × Backend :=
  if outcome.fails && fallible op || conflicts outcome s op then (none, s)
  else match op with
    | .service op => (some (performService outcome op s).1, (performService outcome op s).2)
    | .coordinator op => performCoordinator outcome op s

/-- The calls of `createOrder`. -/
def answers : Answers (Backend × (Nat → Outcome)) CreationCall CreationCall.Res :=
  consult fun outcome op s => performCreation outcome op (s.before outcome)

/-- What a call does, the decorator's among them: these are rejected without the client. -/
def performDecorated (outcome : Outcome) :
    (op : Cache.Call Empty CreationCall) → Cache.World Backend →
      Option (Cache.Call.Answer CreationCall.Res op) × Cache.World Backend
  | .own op, w =>
    ((performCreation outcome op w.db).1, { w with db := (performCreation outcome op w.db).2 })
  | .query query, _ => nomatch query
  | .get key, w =>
    if outcome.fails then (none, w)
    else (some (if w.db.client then w.strings.lookup key else none), w)
  | .set key value _, w =>
    if outcome.fails then (none, w)
    else (some (), if w.db.client then { w with strings := w.strings.insert key value } else w)
  | .getHashKeys key, w =>
    if outcome.fails || !w.db.client then (none, w) else (some (w.members key), w)
  | .setHashKeys key cacheKey, w =>
    if outcome.fails || !w.db.client then (none, w)
    else (some (), { w with
      hashKeys := w.hashKeys.insert key ((w.members key).insert cacheKey) })
  | .deleteKeys keys, w =>
    if outcome.fails || !w.db.client then (none, w)
    else (some (), { w with strings := keys.foldl (fun m key => m.erase key) w.strings })

/-- The calls of `createOrder` with its decorator. -/
def decoratedAnswers :
    Answers (Cache.World Backend × (Nat → Outcome)) (Cache.Call Empty CreationCall)
      (Cache.Call.Answer CreationCall.Res) :=
  consult fun outcome op w => performDecorated outcome op { w with db := w.db.before outcome }

end Backend

/-! ## The coordinator's part -/

section Coordinator

variable {t : Backend × (Nat → Outcome)}

theorem performCoordinator_frame (outcome : Outcome) (op : Transaction.Call) (s : Backend) :
    (Backend.performCoordinator outcome op s).2.db = s.db ∧
    (Backend.performCoordinator outcome op s).2.saves = s.saves ∧
    (Backend.performCoordinator outcome op s).2.client = s.client := by
  cases op with
  | set key value =>
    cases hc : s.client <;> simp [Backend.performCoordinator, hc]
  | _ => exact ⟨rfl, rfl, rfl⟩

/-- A call of the coordinator fails, or does what it does. -/
theorem answers_coordinator (op : Transaction.Call) (t : Backend × (Nat → Outcome)) :
    (Backend.answers (.coordinator op) t).1 = none ∧
        (Backend.answers (.coordinator op) t).2.1 = t.1.before (t.2 0) ∨
      (Backend.answers (.coordinator op) t).1 =
          (Backend.performCoordinator (t.2 0) op (t.1.before (t.2 0))).1 ∧
        (Backend.answers (.coordinator op) t).2 =
          ((Backend.performCoordinator (t.2 0) op (t.1.before (t.2 0))).2, fun n => t.2 (n + 1)) := by
  have hconflicts : Backend.conflicts (t.2 0) (t.1.before (t.2 0)) (.coordinator op) = false := rfl
  cases hf : (t.2 0).fails && Backend.fallible (.coordinator op) with
  | true =>
    refine .inl ?_
    simp [Backend.answers, consult, Backend.performCreation, hf]
  | false =>
    refine .inr ?_
    simp [Backend.answers, consult, Backend.performCreation, hf, hconflicts]

theorem client_of_before {s : Backend} {outcome : Outcome} (h : (s.before outcome).client = true) :
    s.client = true := (Bool.and_eq_true_iff.mp h).1

theorem before_of_client {s : Backend} {outcome : Outcome} (h : (s.before outcome).client = true) :
    s.before outcome = s := by
  unfold Backend.before
  rw [show (s.client && !outcome.disconnected) = s.client from h.trans (client_of_before h).symm]

/-- The coordinator changes no table, and does not bring the client back. -/
theorem frame_ofCoordinator (method : Transaction.Async α) :
    ∀ t : Backend × (Nat → Outcome),
      ((ofCoordinator method).eval Backend.answers t).2.1.db = t.1.db ∧
      ((ofCoordinator method).eval Backend.answers t).2.1.saves = t.1.saves ∧
      (((ofCoordinator method).eval Backend.answers t).2.1.client = true → t.1.client = true) := by
  have hcall : ∀ (op : Transaction.Call) (t : Backend × (Nat → Outcome)),
      (Backend.answers (.coordinator op) t).2.1.db = t.1.db ∧
      (Backend.answers (.coordinator op) t).2.1.saves = t.1.saves ∧
      ((Backend.answers (.coordinator op) t).2.1.client = true → t.1.client = true) := by
    intro op t
    obtain ⟨hdb, hsaves, hclient⟩ :=
      performCoordinator_frame (t.2 0) op (t.1.before (t.2 0))
    rcases answers_coordinator op t with ⟨-, ht⟩ | ⟨-, ht⟩
    · rw [ht]
      exact ⟨rfl, rfl, client_of_before⟩
    · rw [ht]
      exact ⟨hdb, hsaves, fun h => client_of_before (hclient.symm.trans h)⟩
  induction method with
  | pure a => exact fun _ => ⟨rfl, rfl, id⟩
  | throw => exact fun _ => ⟨rfl, rfl, id⟩
  | call op ok err ih ihe =>
    intro t
    obtain ⟨hdb, hsaves, hclient⟩ := hcall op t
    unfold ofCoordinator at ih ihe ⊢
    rw [Prog.mapOp]
    cases hr : (Backend.answers (.coordinator op) t).1 with
    | some r =>
      obtain ⟨hdb', hsaves', hclient'⟩ := ih r (Backend.answers (.coordinator op) t).2
      rw [Prog.eval_call_some hr]
      exact ⟨hdb'.trans hdb, hsaves'.trans hsaves, fun h => hclient (hclient' h)⟩
    | none =>
      obtain ⟨hdb', hsaves', hclient'⟩ := ihe (Backend.answers (.coordinator op) t).2
      rw [Prog.eval_call_none hr]
      exact ⟨hdb'.trans hdb, hsaves'.trans hsaves, fun h => hclient (hclient' h)⟩
  | spawn op next ih =>
    intro t
    obtain ⟨hdb, hsaves, hclient⟩ := hcall op t
    obtain ⟨hdb', hsaves', hclient'⟩ := ih (Backend.answers (.coordinator op) t).2
    exact ⟨hdb'.trans hdb, hsaves'.trans hsaves, fun h => hclient (hclient' h)⟩

/-- A program that returns while the client is in the map leaves `Φ`. -/
def Connected (Φ : Backend → Prop) (result : Option α) (t : Backend × (Nat → Outcome)) : Prop :=
  result.isSome = true → t.1.client = true → Φ t.1

/-- To look at a call, its client may be taken to be there. -/
theorem ends_connected {Φ : Backend → Prop} {op : Transaction.Call}
    {ok : Transaction.Call.Res op → Transaction.Async α}
    (h : t.1.client = true → ∀ outcome outcomes r,
      (Backend.performCoordinator outcome op t.1).1 = some r →
      (ofCoordinator (ok r)).Ends Backend.answers (Connected Φ)
        ((Backend.performCoordinator outcome op t.1).2, outcomes)) :
    (ofCoordinator (.call op ok .throw)).Ends Backend.answers (Connected Φ) t := by
  refine Prog.ends_call (fun r hr => ?_) fun _ hsome => by cases hsome
  change (ofCoordinator (ok r)).Ends Backend.answers (Connected Φ) _
  rcases answers_coordinator op t with ⟨hnone, -⟩ | ⟨hsome, ht⟩
  · rw [hnone] at hr
    cases hr
  · by_cases hc : (Backend.answers (.coordinator op) t).2.1.client = true
    · have hbefore : (t.1.before (t.2 0)).client = true := by
        rw [ht, (performCoordinator_frame _ _ _).2.2] at hc
        exact hc
      rw [ht, before_of_client hbefore]
      rw [hsome, before_of_client hbefore] at hr
      exact h (client_of_before hbefore) _ _ r hr
    · exact fun _ hend => absurd ((frame_ofCoordinator (ok r) _).2.2 hend) hc

/-- From `s` on, the method leaves `Φ` if it returns while the client is in the map. -/
def Achieves (method : Transaction.Async α) (s : Backend) (Φ : Backend → Prop) : Prop :=
  ∀ outcomes, (ofCoordinator method).Ends Backend.answers (Connected Φ) (s, outcomes)

variable {s : Backend} {Φ : Backend → Prop}

theorem achieves_getTransactionState {id : Option String}
    {f : Option DistributedTransaction → Transaction.Async α}
    (h : Achieves (f ((s.records.lookup (Transaction.transactionKey id)).bind
      SerializedTransaction.read)) s Φ) :
    Achieves (Transaction.getTransactionState id >>= f) s Φ := by
  intro outcomes
  rw [Transaction.getTransactionState_bind]
  refine ends_connected fun hc outcome outcomes' content hget => ?_
  obtain rfl := Option.some_inj.mp hget
  rw [if_pos hc]
  exact h outcomes'

theorem achieves_newDate {f : Date → Transaction.Async α} (h : ∀ date, Achieves (f date) s Φ) :
    Achieves (Transaction.newDate >>= f) s Φ :=
  fun _ => ends_connected fun _ _ outcomes' date _ => h date outcomes'

theorem achieves_storeTransactionState {transaction : DistributedTransaction}
    {f : Unit → Transaction.Async α}
    (h : Achieves (f ()) { s with
      records := s.records.insert (Transaction.transactionKey (some transaction.transactionId))
        transaction.serialize } Φ) :
    Achieves (Transaction.storeTransactionState transaction >>= f) s Φ := by
  refine fun _ => ends_connected fun hc outcome outcomes' _ _ => ?_
  unfold Backend.performCoordinator
  dsimp only
  rw [if_pos hc]
  exact h outcomes'

theorem achieves_publish {publication : Publication}
    (h : Φ { s with publications := s.publications ++ [publication] }) :
    Achieves (Transaction.publish publication) s Φ :=
  fun _ => ends_connected fun _ _ _ _ _ _ _ => h

theorem Achieves.bind_pure {β : Type} {method : Transaction.Async α} (h : Achieves method s Φ)
    (b : β) : Achieves (method >>= fun _ => pure b) s Φ := by
  intro outcomes
  unfold ofCoordinator
  rw [Prog.mapOp_bind]
  refine Prog.ends_bind ((h outcomes).mono fun a t ht => ?_)
  cases a with
  | some a => exact fun _ hc => ht rfl hc
  | none => exact fun hsome => by cases hsome

/-- The current step of an active transaction is commanded. -/
theorem achieves_handleProgressTransaction {id : String} {r : DistributedTransaction}
    {step : TransactionStep} (hid : r.transactionId = id)
    (hr : s.records.lookup (Transaction.transactionKey (some id)) = some r.serialize)
    (hactive : Transaction.Active r) (hstep : r.steps[r.currentStep]? = some step)
    (h : ∀ date, Φ { s with
      records := s.records.insert (Transaction.transactionKey (some id))
        (Transaction.beginStep r step date).serialize
      publications := s.publications ++
        [⟨.handleProgressTransaction, some id, Transaction.forwardCommand r step⟩] }) :
    Achieves (Transaction.handleProgressTransaction (some id)) s Φ := by
  subst hid
  have hnot : ¬(r.status ≠ .STARTED ∧ r.status ≠ .IN_PROGRESS) :=
    fun hn => hactive.elim hn.1 hn.2
  unfold Transaction.handleProgressTransaction Transaction.eventPublisher
  rw [bind_assoc]
  refine achieves_getTransactionState ?_
  rw [hr, Option.bind_some, DistributedTransaction.read_serialize]
  dsimp only
  rw [if_neg hnot, hstep]
  dsimp only
  rw [bind_assoc]
  refine achieves_newDate fun date => ?_
  rw [bind_assoc]
  refine achieves_storeTransactionState ?_
  exact achieves_publish (h date)

end Coordinator

/-- The saga is under way: its record is stored and its first step commanded. -/
def Launched (options : TransactionOptions) (transactionId : String) (s : Backend) : Prop :=
  ∃ startedAt date first, options.steps.head? = some first ∧
    let transaction := Transaction.newTransaction options transactionId startedAt
    let step : TransactionStep := { name := first.1, service := first.2, status := .PENDING }
    s.records.lookup (Transaction.transactionKey (some transactionId)) =
      some (Transaction.beginStep transaction step date).serialize ∧
    ∃ publication ∈ s.publications, publication.event = Transaction.forwardCommand transaction step

/-- A start that returns while the client is in the map leaves the saga under way. -/
theorem achieves_startTransaction {options : TransactionOptions} (hsteps : options.steps ≠ [])
    (transactionId : String) (s : Backend) :
    Achieves (Transaction.startTransaction options transactionId) s
      (Launched options transactionId) := by
  obtain ⟨first, rest, hfirst⟩ := List.exists_cons_of_ne_nil hsteps
  rw [Transaction.startTransaction_eq]
  refine achieves_newDate fun startedAt => ?_
  refine achieves_storeTransactionState ?_
  have hstep : (Transaction.newTransaction options transactionId startedAt).steps[
      (Transaction.newTransaction options transactionId startedAt).currentStep]? =
      some { name := first.1, service := first.2, status := .PENDING } := by
    simp [Transaction.newTransaction, hfirst]
  refine Achieves.bind_pure ?_ transactionId
  refine achieves_handleProgressTransaction rfl (AList.lookup_insert _) (.inl rfl) hstep ?_
  intro date
  refine ⟨startedAt, date, first, by rw [hfirst]; rfl, AList.lookup_insert _, ?_⟩
  exact ⟨_, List.mem_append_right _ (List.mem_singleton_self _), rfl⟩

/-! ## createOrder -/

section CreateOrder

variable {transactionId userId : String} {totalAmount : Rat}

/-- The entity that the first save returns. -/
abbrev pendingOrder (userId : String) (totalAmount : Rat) (id : String) : Order :=
  { id, userId, totalAmount, status := .PENDING }

/-- What `createOrder` does, the coordinator's transaction in either branch and the second save in
the branch of a failed order. -/
theorem withCoordinator_createOrderResult :
    withCoordinator transactionId (createOrderResult userId totalAmount) = (do
      let newOrder ← Prog.await (CreationCall.service
        (.insertOrder { userId, totalAmount, status := .PENDING }))
      if totalAmount ≤ 0 then
        let t ← ofCoordinator (Transaction.startTransaction
          (failedOrderOptions newOrder "Invalid total amount" .CANCELLED) transactionId)
        Prog.await (CreationCall.service (.saveOrder { newOrder with status := .CANCELLED }))
        let timestamp ← Prog.await (CreationCall.service .now)
        Prog.start (CreationCall.service (.publish
          (handleTransactionUserNotification t newOrder "Invalid total amount" timestamp)))
        return ResultMessage.FAILED_ORDER_UPDATE_STATUS
      else
        let _ ← ofCoordinator (Transaction.startTransaction (orderOptions newOrder) transactionId)
        return ResultMessage.SUCCESS) := by
  unfold createOrderResult createOrder
  rw [bind_assoc]
  unfold withCoordinator
  rw [Prog.expand_bind, Prog.expand_await]
  refine congrArg (_ >>= ·) (funext fun newOrder => ?_)
  have hstart := withCoordinator_startTransaction transactionId
  unfold withCoordinator at hstart
  split
  · simp only [startFailedOrderTransaction, bind_assoc, Prog.expand_bind, hstart,
      Prog.expand_await]
    rfl
  · simp only [startOrderTransaction, bind_assoc, Prog.expand_bind, hstart]
    rfl

/-- There is one row more, that of a pending order. -/
structure OneMore (userId : String) (totalAmount : Rat) (s s' : Backend) (id : String) : Prop where
  fresh : id ∉ s.db.orders
  orders : s'.db.orders = s.db.orders.insert id
    { userId, totalAmount := numeric totalAmount, status := .PENDING }

/-- Without the first save nothing is left behind, and with it a pending order. -/
def LeftBehind (userId : String) (totalAmount : Rat) (s s' : Backend) : Prop :=
  s'.saves = s.saves ∧ s'.db.orders = s.db.orders ∨
  s'.saves = s.saves + 1 ∧ ∃ id, OneMore userId totalAmount s s' id

/-- What holds where `createOrder` ends. -/
structure Created (transactionId userId : String) (totalAmount : Rat) (s : Backend)
    (result : Option ResultMessage) (s' : Backend) : Prop where
  rejected : result = none → LeftBehind userId totalAmount s s'
  succeeded : result = some .SUCCESS → s'.client = true →
    ∃ id, OneMore userId totalAmount s s' id ∧
      Launched (orderOptions (pendingOrder userId totalAmount id)) transactionId s'

/-- What `createOrder` leaves is compared with the tables before it. -/
theorem Created.of_tables {s₀ s s' : Backend} {result : Option ResultMessage}
    (h : Created transactionId userId totalAmount s₀ result s') (hdb : s₀.db = s.db)
    (hsaves : s₀.saves = s.saves) : Created transactionId userId totalAmount s result s' := by
  have hmore : ∀ id, OneMore userId totalAmount s₀ s' id → OneMore userId totalAmount s s' id := by
    rintro id ⟨hfresh, horders⟩
    rw [hdb] at hfresh horders
    exact ⟨hfresh, horders⟩
  refine ⟨fun hnone => ?_, fun hsuccess hc => ?_⟩
  · have hleft := h.rejected hnone
    unfold LeftBehind at hleft
    rw [hdb, hsaves] at hleft
    exact hleft.imp_right fun ⟨hsaves', id, hid⟩ => ⟨hsaves', id, hmore id hid⟩
  · obtain ⟨id, hid, hlaunched⟩ := h.succeeded hsuccess hc
    exact ⟨id, hmore id hid, hlaunched⟩

/-- A call of the service fails, or does what it does. -/
theorem ends_service {op : Call} {f : Call.Res op → Creation α}
    {Q : Option α → Backend × (Nat → Outcome) → Prop} {t : Backend × (Nat → Outcome)}
    (hok : ∀ outcome outcomes, t.1.conflicts outcome (.service op) = false →
      (f (Backend.performService outcome op (t.1.before outcome)).1).Ends Backend.answers Q
        ((Backend.performService outcome op (t.1.before outcome)).2, outcomes))
    (herr : Backend.fallible (.service op) = true →
      ∀ outcome outcomes, Q none (t.1.before outcome, outcomes)) :
    (Prog.await (CreationCall.service op) >>= f).Ends Backend.answers Q t := by
  unfold Prog.Ends
  rw [Prog.await_bind]
  have hconflicts : (t.1.before (t.2 0)).conflicts (t.2 0) (.service op) =
      t.1.conflicts (t.2 0) (.service op) := by
    cases op <;> rfl
  cases hf : (t.2 0).fails && Backend.fallible (.service op) ||
      t.1.conflicts (t.2 0) (.service op) with
  | true =>
    have hfallible : Backend.fallible (.service op) = true := by
      rcases Bool.or_eq_true_iff.mp hf with hf | hf
      · exact (Bool.and_eq_true_iff.mp hf).2
      · cases op <;> first | rfl | cases hf
    have hnone : (Backend.answers (.service op) t).1 = none := by
      simp [Backend.answers, consult, Backend.performCreation, hconflicts, hf]
    rw [Prog.eval_call_none hnone]
    have ht : (Backend.answers (.service op) t).2 = (t.1.before (t.2 0), fun n => t.2 (n + 1)) := by
      simp [Backend.answers, consult, Backend.performCreation, hconflicts, hf]
    rw [ht]
    exact herr hfallible _ _
  | false =>
    have hsome : (Backend.answers (.service op) t).1 =
        some (Backend.performService (t.2 0) op (t.1.before (t.2 0))).1 := by
      simp [Backend.answers, consult, Backend.performCreation, hconflicts, hf]
    rw [Prog.eval_call_some hsome]
    have ht : (Backend.answers (.service op) t).2 =
        ((Backend.performService (t.2 0) op (t.1.before (t.2 0))).2, fun n => t.2 (n + 1)) := by
      simp [Backend.answers, consult, Backend.performCreation, hconflicts, hf]
    rw [ht]
    exact hok _ _ (Bool.or_eq_false_iff.mp hf).2

/-- A start changes no table; where it returns with the client in the map, the saga is under
way. -/
theorem ends_startTransaction {options : TransactionOptions} (hsteps : options.steps ≠ [])
    {f : String → Creation α} {Q : Option α → Backend × (Nat → Outcome) → Prop}
    {t : Backend × (Nat → Outcome)}
    (hok : ∀ id t', t'.1.db = t.1.db → t'.1.saves = t.1.saves →
      (t'.1.client = true → Launched options transactionId t'.1) →
      (f id).Ends Backend.answers Q t')
    (herr : ∀ t' : Backend × (Nat → Outcome), t'.1.db = t.1.db → t'.1.saves = t.1.saves →
      Q none t') :
    (ofCoordinator (Transaction.startTransaction options transactionId) >>= f).Ends
      Backend.answers Q t := by
  obtain ⟨hdb, hsaves, -⟩ := frame_ofCoordinator
    (Transaction.startTransaction options transactionId) t
  have hlaunched := achieves_startTransaction hsteps transactionId t.1 t.2
  refine Prog.ends_bind ?_
  unfold Prog.Ends at hlaunched ⊢
  cases hr : ((ofCoordinator (Transaction.startTransaction options transactionId)).eval
      Backend.answers t).1 with
  | some id =>
    refine hok id _ hdb hsaves (hlaunched ?_)
    rw [hr]
    rfl
  | none => exact herr _ hdb hsaves

theorem ends_createOrderResult (t : Backend × (Nat → Outcome)) :
    (withCoordinator transactionId (createOrderResult userId totalAmount)).Ends Backend.answers
      (fun result t' => Created transactionId userId totalAmount t.1 result t'.1) t := by
  rw [withCoordinator_createOrderResult]
  refine ends_service (fun outcome outcomes hconflicts => ?_) fun _ outcome outcomes => ?_
  · -- from here on the row is saved
    have hmore : ∀ s' : Backend,
        s'.db = (Backend.performService outcome
          (.insertOrder { userId, totalAmount, status := .PENDING }) (t.1.before outcome)).2.db →
        OneMore userId totalAmount t.1 s' outcome.choice.uuid := by
      intro s' hdb
      refine ⟨of_decide_eq_false hconflicts, ?_⟩
      rw [hdb]
      rfl
    have hleft : ∀ s' : Backend,
        s'.db = (Backend.performService outcome
          (.insertOrder { userId, totalAmount, status := .PENDING }) (t.1.before outcome)).2.db →
        s'.saves = t.1.saves + 1 → LeftBehind userId totalAmount t.1 s' :=
      fun s' hdb hsaves => .inr ⟨hsaves, _, hmore s' hdb⟩
    split
    · refine ends_startTransaction (by simp [failedOrderOptions, orderSteps])
        (fun id t' hdb hsaves _ => ?_) fun t' hdb hsaves =>
          ⟨fun _ => hleft _ hdb hsaves, fun h => by cases h⟩
      refine ends_service (fun _ _ _ => ?_) fun _ _ _ =>
        ⟨fun _ => hleft _ hdb hsaves, fun h => by cases h⟩
      refine ends_service (fun _ _ _ => ?_) fun hfallible => by cases hfallible
      exact ⟨fun h => (by cases h), fun h => by cases h⟩
    · refine ends_startTransaction (by simp [orderOptions, orderSteps])
        (fun id t' hdb hsaves hlaunched => ?_) fun t' hdb hsaves =>
          ⟨fun _ => hleft _ hdb hsaves, fun h => by cases h⟩
      exact ⟨fun h => (by cases h), fun _ hc => ⟨outcome.choice.uuid, hmore _ hdb, hlaunched hc⟩⟩
  · exact ⟨fun _ => .inl ⟨rfl, rfl⟩, fun h => by cases h⟩

/-- The decorator hands over to the method, whatever it has dropped. -/
theorem ends_own {t : Cache.World Backend × (Nat → Outcome)} {s : Backend}
    (h : t.1.db.db = s.db ∧ t.1.db.saves = s.saves) :
    ((withCoordinator transactionId (createOrderResult userId totalAmount)).mapOp Cache.Call.own
      fun _ r => r).Ends Backend.decoratedAnswers
      (fun result t => Created transactionId userId totalAmount s result t.1.db) t := by
  have hown : ∀ (op : CreationCall) (t : Backend × (Nat → Outcome))
      (t' : Cache.World Backend × (Nat → Outcome)), t'.1.db = t.1 ∧ t'.2 = t.2 →
        (Backend.decoratedAnswers (.own op) t').1.map (fun r => r) = (Backend.answers op t).1 ∧
          (Backend.decoratedAnswers (.own op) t').2.1.db = (Backend.answers op t).2.1 ∧
            (Backend.decoratedAnswers (.own op) t').2.2 = (Backend.answers op t).2.2 := by
    rintro op ⟨t, outcomes⟩ ⟨w, outcomes'⟩ ⟨rfl, rfl⟩
    exact ⟨Option.map_id', rfl, rfl⟩
  obtain ⟨hresult, hworld, -⟩ := Prog.eval_mapOp hown
    (withCoordinator transactionId (createOrderResult userId totalAmount)) (t.1.db, t.2) t
    ⟨rfl, rfl⟩
  have hcreated : Created transactionId userId totalAmount t.1.db _ _ :=
    ends_createOrderResult (t.1.db, t.2)
  unfold Prog.Ends
  dsimp only
  rw [hresult, hworld]
  exact hcreated.of_tables h.1 h.2

theorem db_getHashKeys (key : String) (t : Cache.World Backend × (Nat → Outcome)) :
    (Backend.decoratedAnswers (.getHashKeys key) t).2.1.db = t.1.db.before (t.2 0) := by
  unfold Backend.decoratedAnswers consult Backend.performDecorated
  dsimp only
  split <;> rfl

theorem db_deleteKeys (keys : List String) (t : Cache.World Backend × (Nat → Outcome)) :
    (Backend.decoratedAnswers (.deleteKeys keys) t).2.1.db = t.1.db.before (t.2 0) := by
  unfold Backend.decoratedAnswers consult Backend.performDecorated
  dsimp only
  split <;> rfl

/-- However its calls end: where `createOrder` rejects, either its first save has not succeeded and
the orders are as they were, or there is one row more, a pending order; where it resolves with
`SUCCESS` and the Redis client has not been taken out of the map, the saga is under way. -/
theorem createOrder_leaves (transactionId userId : String) (totalAmount : Rat)
    (w : Cache.World Backend) (outcomes : Nat → Outcome) :
    (decoratedCreateOrder transactionId userId totalAmount).Ends Backend.decoratedAnswers
      (fun result t => Created transactionId userId totalAmount w.db result t.1.db)
      (w, outcomes) := by
  unfold decoratedCreateOrder Cache.redisCacheInvalidateDecorator
  have hrejected : ∀ {t : Cache.World Backend × (Nat → Outcome)},
      t.1.db.db = w.db.db ∧ t.1.db.saves = w.db.saves →
      (Prog.throw : Cache.Async Empty CreationCall.Res ResultMessage).Ends Backend.decoratedAnswers
        (fun result t => Created transactionId userId totalAmount w.db result t.1.db) t :=
    fun h => ⟨fun _ => .inl ⟨h.2, congrArg Database.orders h.1⟩, fun h => by cases h⟩
  have hlisted : ∀ key, (Backend.decoratedAnswers (.getHashKeys key) (w, outcomes)).2.1.db.db =
      w.db.db ∧
      (Backend.decoratedAnswers (.getHashKeys key) (w, outcomes)).2.1.db.saves = w.db.saves := by
    intro key
    rw [db_getHashKeys]
    exact ⟨rfl, rfl⟩
  refine Prog.ends_call (fun keys _ => ?_) fun _ => hrejected (hlisted _)
  change Prog.Ends _ _ (if keys ≠ [] then _ else _) _
  split
  · refine Prog.ends_call (fun _ _ => ends_own ?_) fun _ => hrejected ?_
    · rw [db_deleteKeys]
      exact hlisted _
    · rw [db_deleteKeys]
      exact hlisted _
  · exact ends_own (hlisted _)

end CreateOrder

/-! ### Rows without a saga -/

/-- A service that has not been used. -/
def unused : Cache.World Backend where
  db := { db := ⟨∅, [], []⟩, saves := 0, records := ∅, publications := [], client := true }
  strings := ∅
  hashKeys := ∅

/-- Redis rejects the first `set` of the coordinator. -/
def rejectedSet (n : Nat) : Outcome := { choice := { uuid := "order" }, fails := n == 3 }

/-- The client is disconnected before the first `set` of the coordinator. -/
def disconnectedSet (n : Nat) : Outcome :=
  { choice := { uuid := "order" }, disconnected := n == 3 }

/-- The first leaves a row where `createOrder` rejects, the second lets it resolve with `SUCCESS`
with no record and no command. -/
theorem createOrder_leaves_half :
    (((decoratedCreateOrder "transaction" "user" 10).eval Backend.decoratedAnswers
        (unused, rejectedSet)).1 = none ∧
      ((decoratedCreateOrder "transaction" "user" 10).eval Backend.decoratedAnswers
        (unused, rejectedSet)).2.1.db.db.orders ≠ unused.db.db.orders) ∧
    ((decoratedCreateOrder "transaction" "user" 10).eval Backend.decoratedAnswers
        (unused, disconnectedSet)).1 = some .SUCCESS ∧
      ((decoratedCreateOrder "transaction" "user" 10).eval Backend.decoratedAnswers
        (unused, disconnectedSet)).2.1.db.records.entries.length = 0 ∧
      ((decoratedCreateOrder "transaction" "user" 10).eval Backend.decoratedAnswers
        (unused, disconnectedSet)).2.1.db.publications.length = 0 := by
  refine ⟨⟨by decide +kernel, fun h => ?_⟩, by decide +kernel, by decide +kernel,
    by decide +kernel⟩
  have hrow := congrArg (fun orders => (orders.lookup "order").isSome) h
  exact absurd hrow (by decide +kernel)

end InvoiceHub.Services
