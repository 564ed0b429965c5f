import InvoiceHub.Services.Creation
import InvoiceHub.Domain.RoundTrip

/-!
# What createOrder reports of its order

The entity that was saved first is an object, of which the notification and the response are made.
`startFailedOrderTransaction` saves a copy of it that has another status: the row gets that status,
and neither of the two sees it.
-/

namespace InvoiceHub.Services

open Effects

/-- `OrderDto`. -/
structure OrderDto where
  id : String
  userId : String
  totalAmount : Rat
  status : OrderStatus
  deriving DecidableEq

/-- `plainToInstance(OrderDto, order, { excludeExtraneousValues: true })`. -/
def OrderDto.ofOrder (order : Order) : OrderDto := { order with }

/-- What `createOrder` resolves to. -/
structure OrderResponse where
  payload : OrderDto
  result : ResultMessage
  deriving DecidableEq

/-! ## Objects -/

/-- The entities that a method holds, by their references. -/
structure Objects where
  entity : Nat → Order
  /-- The reference of the next object. -/
  next : Nat

namespace Objects

/-- An object that nobody holds yet. -/
def alloc (objects : Objects) (order : Order) : Objects where
  entity ref := if ref = objects.next then order else objects.entity ref
  next := objects.next + 1

/-- The properties of an object are assigned. -/
def assign (objects : Objects) (ref : Nat) (order : Order) : Objects :=
  { objects with entity := fun other => if other = ref then order else objects.entity other }

@[simp] theorem entity_alloc_self (objects : Objects) (order : Order) :
    (objects.alloc order).entity objects.next = order := if_pos rfl

theorem entity_alloc_of_ne {objects : Objects} {ref : Nat} (order : Order) (h : ref ≠ objects.next) :
    (objects.alloc order).entity ref = objects.entity ref := if_neg h

@[simp] theorem entity_assign_self (objects : Objects) (ref : Nat) (order : Order) :
    (objects.assign ref order).entity ref = order := if_pos rfl

/-- `save` of an entity without an id, which the object gets. -/
def saveNew (objects : Objects) (ref : Nat) : Async Objects := do
  let saved ← Prog.await (Call.insertOrder (objects.entity ref).toOrderData)
  return objects.assign ref saved

/-- `startOrderTransaction`. -/
def startOrderTransaction (objects : Objects) (order : Nat) : Async String :=
  startTransaction (orderOptions (objects.entity order))

/-- `startFailedOrderTransaction`: `{ ...order, status: finalStatus }` is an object of its own. -/
def startFailedOrderTransaction (objects : Objects) (order : Nat) (reason : String)
    (finalStatus : OrderStatus) : Async Objects := do
  let transactionId ← startTransaction
    (failedOrderOptions (objects.entity order) reason finalStatus)
  let copy := objects.next
  let objects := objects.alloc { objects.entity order with status := finalStatus }
  Prog.await (Call.saveOrder (objects.entity copy))
  let timestamp ← newDate
  publishUnawaited
    (handleTransactionUserNotification transactionId (objects.entity order) reason timestamp)
  return objects

/-- `createOrder` without its decorator.  `create` makes an object that has no id, and `save`
returns that object. -/
def createOrder (objects : Objects) (userId : String) (totalAmount : Rat) :
    Async OrderResponse := do
  let newOrder := objects.next
  let objects := objects.alloc { userId, totalAmount, status := .PENDING, id := "" }
  let objects ← objects.saveNew newOrder
  if totalAmount ≤ 0 then
    let objects ← objects.startFailedOrderTransaction newOrder "Invalid total amount" .CANCELLED
    return { payload := .ofOrder (objects.entity newOrder), result := .FAILED_ORDER_UPDATE_STATUS }
  else
    let _ ← objects.startOrderTransaction newOrder
    return { payload := .ofOrder (objects.entity newOrder), result := .SUCCESS }

/-! ## The objects of one call -/

variable {userId : String} {totalAmount : Rat}

theorem saveNew_bind {α : Type} (objects : Objects) (data : OrderData) (f : Objects → Async α) :
    ((objects.alloc { data with id := "" }).saveNew objects.next >>= f) =
      Prog.await (Call.insertOrder data) >>= fun saved =>
        f ((objects.alloc { data with id := "" }).assign objects.next saved) := by
  rw [saveNew, entity_alloc_self]
  rfl

/-- The copy is another object: the first one keeps its status. -/
theorem startFailedOrderTransaction_eq {objects : Objects} {order : Nat} (h : order < objects.next)
    (reason : String) (finalStatus : OrderStatus) :
    objects.startFailedOrderTransaction order reason finalStatus =
      Services.startFailedOrderTransaction (objects.entity order) reason finalStatus >>= fun _ =>
        pure (objects.alloc { objects.entity order with status := finalStatus }) := by
  unfold startFailedOrderTransaction Services.startFailedOrderTransaction
  dsimp only
  rw [entity_alloc_self, entity_alloc_of_ne _ (Nat.ne_of_lt h)]
  simp only [bind_assoc, pure_bind]

/-- The response is made of the entity as the first save left it. -/
theorem createOrder_eq (objects : Objects) :
    objects.createOrder userId totalAmount = (do
      let newOrder ← Prog.await (Call.insertOrder { userId, totalAmount, status := .PENDING })
      if totalAmount ≤ 0 then
        let _ ← Services.startFailedOrderTransaction newOrder "Invalid total amount" .CANCELLED
        return { payload := .ofOrder newOrder, result := .FAILED_ORDER_UPDATE_STATUS }
      else
        let _ ← Services.startOrderTransaction newOrder
        return { payload := .ofOrder newOrder, result := .SUCCESS }) := by
  unfold createOrder
  rw [saveNew_bind objects { userId, totalAmount, status := .PENDING }]
  refine congrArg (_ >>= ·) (funext fun saved => ?_)
  split
  · rw [startFailedOrderTransaction_eq (Nat.lt_succ_self objects.next), entity_assign_self,
      bind_assoc]
    refine congrArg (_ >>= ·) (funext fun _ => ?_)
    rw [pure_bind, entity_alloc_of_ne _ (Nat.ne_of_lt (Nat.lt_succ_self objects.next)),
      entity_assign_self]
  · rw [startOrderTransaction, entity_assign_self]
    rfl

/-- Besides what it resolves to it is the `createOrder` of the platform. -/
theorem createOrder_forget (objects : Objects) :
    (objects.createOrder userId totalAmount >>= fun _ => pure ()) =
      Services.createOrder userId totalAmount := by
  rw [createOrder_eq, Services.createOrder, bind_assoc]
  refine congrArg (_ >>= ·) (funext fun newOrder => ?_)
  split <;> simp only [bind_assoc, pure_bind]

end Objects

/-! ## Runs -/

/-- What becomes of a call: what others do to the tables before it, and how it is answered. -/
structure Turn where
  others : Database → Database := id
  choice : Choice := {}
  /-- The call is rejected, and has done nothing. -/
  fails : Bool := false

/-- What a call publishes. -/
def Call.published : Call → List EventMessage
  | publish event => [event]
  | _ => []

/-- The call saves an order. -/
def Call.savesOrder : Call → Bool
  | insertOrder _ => true
  | saveOrder _ => true
  | _ => false

/-- The tables, and what a running `createOrder` has published. -/
structure Journal where
  db : Database
  sent : List EventMessage

namespace Journal

/-- A call of `createOrder`. -/
def act (turn : Turn) (op : Call) (s : Journal) : Option (Call.Res op) × Journal :=
  if turn.fails && Backend.fallible (.service op) then (none, { s with db := turn.others s.db })
  else
    (some (Services.perform .createOrder turn.choice op (turn.others s.db)).1,
      { db := (Services.perform .createOrder turn.choice op (turn.others s.db)).2
        sent := s.sent ++ op.published })

/-- The calls of `createOrder`. -/
def answers : Answers (Journal × (Nat → Turn)) Call Call.Res := consult act

end Journal

/-- Nobody else has changed the row that the first call inserts. -/
def Untouched (turns : Nat → Turn) : Prop :=
  ∀ n db, ((turns (n + 1)).others db).order? (turns 0).choice.uuid =
    db.order? (turns 0).choice.uuid

/-- `details.finalStatus` of a message. -/
def finalStatus (event : EventMessage) : Option Json :=
  (event.message.lookup "details").bind fun details => Serialization.property details "finalStatus"

/-- What `createOrder` reports is the status of the row. -/
structure Agrees (response : OrderResponse) (s : Journal) : Prop where
  payload : (s.db.order? response.payload.id).map (·.status) = some response.payload.status
  notified : ∀ event ∈ s.sent,
    finalStatus event = (s.db.order? response.payload.id).map fun row => .str row.status.value

/-- What holds where `createOrder` resolves. -/
structure Reported (totalAmount : Rat) (response : OrderResponse) (s : Journal) : Prop where
  payload : response.payload.status = .PENDING
  row : (s.db.order? response.payload.id).map (·.status) =
    some (if totalAmount ≤ 0 then .CANCELLED else .PENDING)
  notified : ∀ event ∈ s.sent, finalStatus event = some (.str OrderStatus.PENDING.value)

section Runs

variable {userId : String} {totalAmount : Rat} {s : Journal} {turns : Nat → Turn}

/-- A notification tells the status of the entity it is made of. -/
theorem finalStatus_notification (transactionId : String) (order : Order) (reason : String)
    (timestamp : Date) :
    finalStatus (handleTransactionUserNotification transactionId order reason timestamp) =
      some (.str order.status.value) := by
  simp [finalStatus, handleTransactionUserNotification, Serialization.property_toJson]

/-- Only what is saved changes a row. -/
theorem order?_perform {op : Call} (hop : op.savesOrder = false) (choice : Choice) (db : Database)
    (id : String) : (perform .createOrder choice op db).2.order? id = db.order? id := by
  cases op with
  | insertOrder data => cases hop
  | saveOrder order => cases hop
  | _ => rfl

/-- What holds of the response, if there is one, and of what is left. -/
abbrev Resolved (Φ : OrderResponse → Journal → Prop) (result : Option OrderResponse)
    (t : Journal × (Nat → Turn)) : Prop :=
  ∀ response, result = some response → Φ response t.1

/-- A call that is no publication is rejected, or does what it does after what others have done. -/
theorem Journal.ends_await {op : Call} (hop : op.published = [])
    {f : Call.Res op → Async OrderResponse} {Φ : OrderResponse → Journal → Prop}
    (h : (f (perform .createOrder (turns 0).choice op ((turns 0).others s.db)).1).Ends
      Journal.answers (Resolved Φ)
      ({ s with db := (perform .createOrder (turns 0).choice op ((turns 0).others s.db)).2 },
        fun n => turns (n + 1))) :
    (Prog.await op >>= f).Ends Journal.answers (Resolved Φ) (s, turns) := by
  rw [Prog.await_bind]
  refine Prog.ends_call (fun r hr => ?_) fun _ response hnone => by cases hnone
  cases hf : (turns 0).fails && Backend.fallible (.service op) with
  | true => simp [Journal.answers, consult, Journal.act, hf] at hr
  | false =>
    have hsent : Journal.answers op (s, turns) =
        (some (perform .createOrder (turns 0).choice op ((turns 0).others s.db)).1,
          { s with db := (perform .createOrder (turns 0).choice op ((turns 0).others s.db)).2 },
          fun n => turns (n + 1)) := by
      simp [Journal.answers, consult, Journal.act, hf, hop]
    rw [hsent] at hr ⊢
    cases hr
    exact h

/-- A publication, whether it fails or not. -/
theorem Journal.ends_publish {event : EventMessage} {f : Unit → Async OrderResponse}
    {Φ : OrderResponse → Journal → Prop} {id : String} {row : Order}
    (hkeeps : ∀ db, ((turns 0).others db).order? id = db.order? id)
    (hrow : s.db.order? id = some row)
    (h : ∀ db sent, db.order? id = some row → (∀ e ∈ sent, e ∈ s.sent ∨ e = event) →
      (f ()).Ends answers (Resolved Φ) ({ db, sent }, fun n => turns (n + 1))) :
    (publishUnawaited event >>= f).Ends answers (Resolved Φ) (s, turns) := by
  have hact : ((act (turns 0) (.publish event) s).2.db.order? id = some row) ∧
      ∀ e ∈ (act (turns 0) (.publish event) s).2.sent, e ∈ s.sent ∨ e = event := by
    unfold act
    split
    · exact ⟨(hkeeps _).trans hrow, fun e he => .inl he⟩
    · exact ⟨(hkeeps _).trans hrow,
        fun e he => (List.mem_append.mp he).imp_right List.mem_singleton.mp⟩
  exact h _ _ hact.1 hact.2

/-- The calls of the coordinator leave the row as it is. -/
theorem Journal.ends_startTransaction {options : TransactionOptions} {f : String → Async OrderResponse}
    {Φ : OrderResponse → Journal → Prop} {id : String} {row : Order}
    (hkeeps : ∀ n db, ((turns n).others db).order? id = db.order? id)
    (hrow : s.db.order? id = some row)
    (h : ∀ transactionId db turns', db.order? id = some row →
      (∀ n db, ((turns' n).others db).order? id = db.order? id) →
        (f transactionId).Ends Journal.answers (Resolved Φ) ({ s with db }, turns')) :
    (startTransaction options >>= f).Ends Journal.answers (Resolved Φ) (s, turns) := by
  unfold startTransaction
  rw [bind_assoc]
  refine Journal.ends_await rfl ?_
  rw [bind_assoc]
  refine Journal.ends_await rfl ?_
  refine h _ _ _ ?_ fun n => hkeeps (n + 1 + 1)
  exact (order?_perform rfl _ _ _).trans ((hkeeps _ _).trans
    ((order?_perform rfl _ _ _).trans ((hkeeps _ _).trans hrow)))

/-- Where `createOrder` resolves, its reports say that the order is pending, also where it has
cancelled it. -/
theorem ends_createOrder (objects : Objects) (db : Database) (h : Untouched turns) :
    (objects.createOrder userId totalAmount).Ends Journal.answers
      (Resolved (Reported totalAmount)) ({ db, sent := [] }, turns) := by
  rw [Objects.createOrder_eq]
  refine Journal.ends_await rfl ?_
  have hrow : (perform .createOrder (turns 0).choice
      (.insertOrder { userId, totalAmount, status := .PENDING }) ((turns 0).others db)).2.order?
        (turns 0).choice.uuid = some (pendingOrder userId (numeric totalAmount)
          (turns 0).choice.uuid) :=
    order?_saveOrder_self ((turns 0).others db) (pendingOrder userId totalAmount _)
  split
  · rename_i hle
    unfold startFailedOrderTransaction
    rw [bind_assoc]
    refine Journal.ends_startTransaction h hrow fun transactionId db turns' hrow hkeeps => ?_
    rw [bind_assoc]
    refine Journal.ends_await rfl ?_
    rw [bind_assoc]
    refine Journal.ends_await rfl ?_
    -- the copy has been saved, and the notification is made of the first object
    rw [bind_assoc]
    have hcancelled := order?_saveOrder_self ((turns' 0).others db)
      { pendingOrder userId totalAmount (turns 0).choice.uuid with status := .CANCELLED }
    refine Journal.ends_publish (hkeeps 2) ((hkeeps 1 _).trans hcancelled) fun db sent hrow hsent => ?_
    rintro response ⟨⟩
    refine ⟨rfl, ?_, fun event hevent => ?_⟩
    · rw [if_pos hle]
      exact congrArg (Option.map _) hrow
    · rcases hsent event hevent with hnone | rfl
      · cases hnone
      · exact finalStatus_notification _ _ _ _
  · rename_i hlt
    unfold startOrderTransaction
    refine Journal.ends_startTransaction h hrow fun transactionId db turns' hrow hkeeps => ?_
    rintro response ⟨⟩
    refine ⟨rfl, ?_, nofun⟩
    rw [if_neg hlt]
    exact congrArg (Option.map _) hrow

/-- As long as nobody else has changed the row, the response and the notification tell its status
exactly for the orders that are not cancelled at once. -/
theorem reports_agree_iff (objects : Objects) (db : Database) (h : Untouched turns)
    {response : OrderResponse} {s' : Journal} {turns' : Nat → Turn}
    (hresolved : (objects.createOrder userId totalAmount).eval Journal.answers
      ({ db, sent := [] }, turns) = (some response, s', turns')) :
    Agrees response s' ↔ 0 < totalAmount := by
  have hends : Prog.Ends Journal.answers (Resolved (Reported totalAmount))
      (objects.createOrder userId totalAmount) ({ db, sent := [] }, turns) :=
    ends_createOrder objects db h
  unfold Prog.Ends at hends
  rw [hresolved] at hends
  obtain ⟨hpayload, hrow, hnotified⟩ := hends response rfl
  constructor
  · intro ha
    by_contra hle
    have hstatus := ha.payload
    rw [hrow, hpayload, if_pos (not_lt.mp hle)] at hstatus
    cases hstatus
  · intro hlt
    rw [if_neg (not_le.mpr hlt)] at hrow
    refine ⟨hrow.trans (congrArg some hpayload.symm), fun event hevent => ?_⟩
    obtain ⟨row, hfound, hstatus⟩ := Option.map_eq_some_iff.mp hrow
    rw [hnotified event hevent, hfound, Option.map_some, hstatus]

end Runs

/-! ### An order that is cancelled at once -/

/-- A method that holds no object yet. -/
def noObjects : Objects where
  entity _ := { userId := "", totalAmount := 0, status := .PENDING, id := "" }
  next := 0

/-- Nobody else does anything, and no call fails. -/
def undisturbed (_ : Nat) : Turn := { choice := { uuid := "order" } }

theorem reports_agree_iff_positive :
    ∃ response s' turns', (noObjects.createOrder "user" 10).eval Journal.answers
        ({ db := ⟨∅, [], []⟩, sent := [] }, undisturbed) = (some response, s', turns') ∧
      Agrees response s' := by
  have huntouched : Untouched undisturbed := fun _ _ => rfl
  have hrun : (noObjects.createOrder "user" 10).eval Journal.answers
      ({ db := ⟨∅, [], []⟩, sent := [] }, undisturbed) = (some _, _, _) := rfl
  exact ⟨_, _, _, hrun, (reports_agree_iff noObjects _ huntouched hrun).mpr (by norm_num)⟩

/-- The row of the order is cancelled, and both reports say that it is pending. -/
theorem cancelled_order_pending :
    ∃ response s' turns', (noObjects.createOrder "user" 0).eval Journal.answers
        ({ db := ⟨∅, [], []⟩, sent := [] }, undisturbed) = (some response, s', turns') ∧
      Untouched undisturbed ∧ response.payload.status = .PENDING ∧
      (s'.db.order? response.payload.id).map (·.status) = some .CANCELLED ∧
      s'.sent.map finalStatus = [some (.str OrderStatus.PENDING.value)] ∧
      ¬Agrees response s' := by
  refine ⟨_, _, _, rfl, fun _ _ => rfl, rfl, rfl, rfl, fun ha => ?_⟩
  cases ha.payload

end InvoiceHub.Services
