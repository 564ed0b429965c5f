import InvoiceHub.Transaction.Cluster
import InvoiceHub.Services.OrderService
import InvoiceHub.Services.InvoiceService

/-!
# The platform

The order service and the invoice service, each with its transaction coordinator and the
Redis of that coordinator, the two tables, and Kafka.  Every message that was published can be
handed to each consumer group that subscribes to its topic, in any order and any number of
times; which runs a theorem is about is its policy.
-/

namespace InvoiceHub

open Effects Transaction

/-- The parties that publish. -/
inductive Source where
  | orderCoordinator
  | invoiceCoordinator
  | services
  deriving DecidableEq

/-- A message that was handed to a consumer group. -/
structure Delivery where
  group : GroupIds
  source : Source
  /-- Its place among the messages of `source`. -/
  index : Nat
  deriving DecidableEq

/-- The handlers that are subscribed to topics. -/
inductive Handler where
  | coordinator (clientId : ClientIds) (subject : Subjects)
  | handleUpdateOrderStatus
  | handleTransactionInvoiceGeneration
  | handleUserNotification
  deriving DecidableEq

/-- The topics `initialize` of the coordinator subscribes to. -/
def coordinatorTopics : List Subjects :=
  [.TRANSACTION_STEP_COMPLETED, .TRANSACTION_STEP_FAILED, .TRANSACTION_COMPENSATION_START,
    .TRANSACTION_COMPENSATION_COMPLETED, .TRANSACTION_COMPLETED, .TRANSACTION_TIMEOUT]

/-- The subscriptions of the two services. -/
def subscription : GroupIds → Subjects → Option Handler
  | .ORDER_SERVICE_TRANSACTION_GROUP, subject =>
    if subject ∈ coordinatorTopics then some (.coordinator .ORDER_SERVICE subject)
    else if subject = .ORDER_APPROVAL_STEP_UPDATE_ORDER_STATUS then some .handleUpdateOrderStatus
    else none
  | .INVOICE_SERVICE_APP_GROUP, subject =>
    if subject = .ORDER_APPROVAL_STEP_INVOICE_GENERATE then some .handleTransactionInvoiceGeneration
    else none
  | .INVOICE_SERVICE_TRANSACTION_GROUP, subject =>
    if subject ∈ coordinatorTopics then some (.coordinator .INVOICE_SERVICE subject)
    else if subject = .TRANSACTION_USER_NOTIFICATION then some .handleUserNotification
    else none

/-- The state of the platform.  No code reads `delivered` and `placed`. -/
structure Platform where
  /-- The coordinator of the order service, with its Redis. -/
  order : Cluster
  /-- The coordinator of the invoice service, with its Redis. -/
  invoice : Cluster
  /-- The tables and the running methods of both services. -/
  services : Pool Services.Database Services.Service Services.Call Services.Call.Res
  delivered : List Delivery
  /-- The orders as `createOrder` made them. -/
  placed : List Services.Order

namespace Platform

/-- The messages of a history, oldest first. -/
def messages (history : List Entry) : List EventMessage :=
  history.filterMap fun
    | .published p => some p.event
    | _ => none

/-- The messages of a party, oldest first. -/
def published (s : Platform) : Source → List EventMessage
  | .orderCoordinator => messages s.order.world.history
  | .invoiceCoordinator => messages s.invoice.world.history
  | .services => s.services.world.published

/-- The status of the record of `t` in the store of a coordinator. -/
def recordStatus (s : Cluster) (t : String) : Option DistributedTransactionStatus :=
  (s.world.redis.lookup (transactionKey (some t))).map (·.status)

/-- Nothing stored, nothing running. -/
def initial : Platform where
  order := Cluster.initial
  invoice := Cluster.initial
  services := { world := { orders := ∅, invoices := [], published := [] }, tasks := [] }
  delivered := []
  placed := []

/-- What a running coordinator or service does next. -/
inductive Label where
  /-- A user calls `createOrder`. -/
  | createOrder (userId : String) (totalAmount : Rat)
  /-- Kafka hands the message at `index` of `source`, one on the topic `subject`, to a group. -/
  | deliver (group : GroupIds) (subject : Subjects) (source : Source) (index : Nat)
  /-- A step of the coordinator of the order service. -/
  | order (label : Cluster.Label)
  /-- A step of the coordinator of the invoice service. -/
  | invoice (label : Cluster.Label)
  /-- The awaited call of a service method is answered. -/
  | advance (task : Nat) (choice : Services.Choice)
  /-- The awaited call of a service method is rejected. -/
  | reject (task : Nat)
  /-- The process running a service method stops. -/
  | abandon (task : Nat)

/-- The steps of a coordinator that are not brought about from outside. -/
def internal : Cluster.Label → Bool
  | .start .. => false
  | .deliver .. => false
  | _ => true

/-- All that matters of a generated id besides that it is new. -/
def isUuid (text : String) : Bool := text != "" && text != "undefined"

theorem eq_some_of_transactionKey {id : Option String} {t : String} (hu : isUuid t = true)
    (hid : transactionKey id = transactionKey (some t)) : id = some t := by
  have hget := transactionKey_eq_iff.mp hid
  cases id with
  | some u => exact congrArg some hget
  | none =>
    subst hget
    exact absurd hu (by decide)

/-- A service starts a method. -/
def serve (s : Platform) (service : Services.Service) (method : Services.Async Unit) : Platform :=
  { s with services := Pool.begin Services.background s.services service method }

/-- The handler of a subscription gets a message. -/
def receive (s : Platform) (message : JsonObject) : Handler → Option Platform
  | .coordinator clientId subject =>
    let label := Cluster.Label.deliver clientId subject (TransactionEvent.ofMessage message)
    if clientId = .ORDER_SERVICE then (s.order.fire label).map fun order => { s with order }
    else (s.invoice.fire label).map fun invoice => { s with invoice }
  | .handleUpdateOrderStatus =>
    some (s.serve .handleUpdateOrderStatus (Services.handleUpdateOrderStatus message))
  | .handleTransactionInvoiceGeneration =>
    some (s.serve .handleTransactionInvoiceGeneration
      (Services.handleTransactionInvoiceGeneration message))
  | .handleUserNotification =>
    some (s.serve .handleUserNotification (Services.handleUserNotification message))

/-- What the call of a service asks of the coordinator of the order service and of the table of
orders; `none` where it cannot be answered yet, or not with the id that was drawn. -/
def coordinate (s : Platform) (choice : Services.Choice) : Services.Call → Option Cluster
  | .startTransaction options =>
    if isUuid choice.uuid then s.order.fire (.start options choice.uuid choice.date) else none
  | .started transactionId =>
    if s.order.tasks.any fun task => match task.tag with
      | .startTransaction t => t == transactionId
      | _ => false
    then none
    else some s.order
  | .insertOrder _ =>
    if isUuid choice.uuid && (s.services.world.order? choice.uuid).isNone then some s.order
    else none
  | _ => some s.order

/-- The order that the answer to a call creates. -/
def placedBy (choice : Services.Choice) : Services.Call → List Services.Order
  | .insertOrder data => [{ data with id := choice.uuid }]
  | _ => []

/-- One step. -/
def fire (s : Platform) : Label → Option Platform
  | .createOrder userId totalAmount =>
    some (s.serve .createOrder (Services.createOrder userId totalAmount))
  | .deliver group subject source index =>
    match subscription group subject, (s.published source)[index]? with
    | some handler, some event =>
      if event.topicName = subject.value then
        (s.receive event.message handler).map fun s =>
          { s with delivered := s.delivered ++ [⟨group, source, index⟩] }
      else none
    | _, _ => none
  | .order label =>
    if internal label then (s.order.fire label).map fun order => { s with order } else none
  | .invoice label =>
    if internal label then (s.invoice.fire label).map fun invoice => { s with invoice } else none
  | .advance task choice =>
    match s.services.tasks[task]? with
    | some ⟨_, .call op _ _⟩ => do
      let order ← s.coordinate choice op
      let services ← Pool.advance Services.background Services.perform s.services task choice
      some { s with order, services, placed := s.placed ++ placedBy choice op }
    | _ => none
  | .reject task =>
    (Pool.reject Services.background s.services task).map fun services => { s with services }
  | .abandon task => (Pool.abandon s.services task).map fun services => { s with services }

/-- The platform as a machine. -/
def machine : Machine Platform Label := ⟨initial, fire⟩

/-- Which labels may occur in a state. -/
abbrev Policy := machine.Policy

/-- The states of the runs under a policy. -/
abbrev Reachable (policy : Policy) : Platform → Prop := machine.Reachable policy

/-- Fire labels one after the other, each where the policy allows it. -/
abbrev run (policy : Policy) (labels : List Label) : Option Platform :=
  machine.run policy initial labels

/-! ## Quiescence -/

/-- The subscriptions as a list. -/
def subscriptions : List (GroupIds × Subjects) :=
  List.flatten
    [coordinatorTopics.map fun subject => (.ORDER_SERVICE_TRANSACTION_GROUP, subject),
      coordinatorTopics.map fun subject => (.INVOICE_SERVICE_TRANSACTION_GROUP, subject),
      [(.ORDER_SERVICE_TRANSACTION_GROUP, .ORDER_APPROVAL_STEP_UPDATE_ORDER_STATUS),
        (.INVOICE_SERVICE_APP_GROUP, .ORDER_APPROVAL_STEP_INVOICE_GENERATE),
        (.INVOICE_SERVICE_TRANSACTION_GROUP, .TRANSACTION_USER_NOTIFICATION)]]

theorem mem_subscriptions {group : GroupIds} {subject : Subjects} {handler : Handler}
    (h : subscription group subject = some handler) : (group, subject) ∈ subscriptions := by
  cases group <;> cases subject <;> first | (cases h; done) | decide

/-- No message is still undelivered to a group that subscribes to its topic, or being handled. -/
def quiescent (s : Platform) : Bool :=
  s.order.tasks.isEmpty && s.invoice.tasks.isEmpty && s.services.tasks.isEmpty &&
    [Source.orderCoordinator, .invoiceCoordinator, .services].all fun source =>
      (s.published source).zipIdx.all fun (event, index) =>
        subscriptions.all fun (group, subject) =>
          event.topicName != subject.value || decide (⟨group, source, index⟩ ∈ s.delivered)

theorem mem_delivered_of_quiescent {s : Platform} (h : s.quiescent = true) {source : Source}
    {index : Nat} {event : EventMessage} {group : GroupIds} {subject : Subjects} {handler : Handler}
    (hget : (s.published source)[index]? = some event)
    (hs : subscription group subject = some handler) (ht : event.topicName = subject.value) :
    ⟨group, source, index⟩ ∈ s.delivered := by
  have hall := (Bool.and_eq_true_iff.mp h).2
  have hsource := List.all_eq_true.mp hall source (by cases source <;> decide)
  have hevent := List.all_eq_true.mp hsource (event, index) (List.mk_mem_zipIdx_iff_getElem?.mpr hget)
  have hdue := List.all_eq_true.mp hevent _ (mem_subscriptions hs)
  simpa [ht] using hdue

end Platform

/-! ## A run with a compensation -/

/-- The order `a` is updated, times out and is compensated. -/
def compensatedOrder : List Platform.Label := List.flatten
  [[.createOrder "u" 10, .advance 0 { uuid := "a" }, .advance 0 { uuid := "t" }],
    List.replicate 4 (.order (.advance 0 0)),
    [.advance 0 {}, .deliver .ORDER_SERVICE_TRANSACTION_GROUP
      .ORDER_APPROVAL_STEP_UPDATE_ORDER_STATUS .orderCoordinator 0],
    List.replicate 3 (.advance 0 {}),
    [.deliver .ORDER_SERVICE_TRANSACTION_GROUP .TRANSACTION_STEP_COMPLETED .services 0],
    List.replicate 7 (.order (.advance 0 0)),
    [.order .checkTimeouts],
    List.replicate 4 (.order (.advance 0 1000000)),
    [.deliver .ORDER_SERVICE_TRANSACTION_GROUP .TRANSACTION_TIMEOUT .orderCoordinator 2],
    List.replicate 7 (.order (.advance 0 0)),
    [.deliver .ORDER_SERVICE_TRANSACTION_GROUP .TRANSACTION_COMPENSATION_START
      .orderCoordinator 4],
    List.replicate 6 (.order (.advance 0 0))]

end InvoiceHub
