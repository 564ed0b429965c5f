import InvoiceHub.Kafka.Infrastructure
import InvoiceHub.Loader.Shared

/-!
# Who asks and who answers

`OrderService.getById` and `InvoiceService.getById` ask the auth service for a user and the order
service for an order.  The services only share what is published: a message can be handed to those
who consume its topic any number of times, late, in any order or never, and services may run as
several processes.
-/

namespace InvoiceHub.Fetch

open Effects Cache Loader
open Services (OrderData Invoice)

/-! ## Texts -/

/-- `JSON.stringify` and `JSON.parse` on the texts of requests; `none` where it throws. -/
structure Texts where
  stringify : JsonObject → String
  parse : String → Option Json
  parse_stringify : ∀ field ∈ ["userId", "orderId"], ∀ text : String,
    parse (stringify (JsonObject.put ∅ field (some (.str text)))) =
      some (JsonObject.put ∅ field (some (.str text))).toJson

/-! ## Topics -/

/-- What is fetched from another service. -/
inductive Fetched where
  | user
  | order
  deriving DecidableEq

namespace Fetched

/-- `FETCH_USER_REQUEST` and `FETCH_ORDER_REQUEST`. -/
def requestTopic : Fetched → String
  | user => "fetch-user-request"
  | order => "fetch-order-request"

/-- `FETCH_USER_RESPONSE` and `FETCH_ORDER_RESPONSE`. -/
def responseTopic : Fetched → String
  | user => "fetch-user-response"
  | order => "fetch-order-response"

/-- The reference that a request carries. -/
def field : Fetched → String
  | user => "userId"
  | order => "orderId"

end Fetched

/-- What the `getById` of a service fetches, in the order of its requests. -/
def fetches : Service → List Fetched
  | .OrderService => [.user]
  | .InvoiceService => [.user, .order]

/-- The group in which a service reads the responses. -/
def groupId : Service → Fetched → String
  | .OrderService, _ => "order-user-fetch-group"
  | .InvoiceService, .user => "invoice-user-fetch-group"
  | .InvoiceService, .order => "invoice-order-fetch-group"

/-- `buildKafkaRequestOptionsHelper`. -/
def buildKafkaRequestOptionsHelper (texts : Texts) (service : Service) (dto : JsonObject) :
    List Kafka.KafkaRequestOptions :=
  (fetches service).map fun fetched =>
    { requestTopic := fetched.requestTopic
      message := texts.stringify (JsonObject.put ∅ fetched.field (dto.lookup fetched.field))
      responseTopic := fetched.responseTopic
      groupId := some (groupId service fetched) }

/-! ## Users -/

/-- The properties of `UserDto`. -/
def UserDto : List String := ["id", "role"]

/-- The properties of `RoleDto`. -/
def RoleDto : List String := ["name"]

/-- `value || {}`, where a value is an object. -/
def objectOf : Option Json → JsonObject
  | some (.obj fields) => (fields.map fun (name, value) => ⟨name, value⟩).toAList
  | _ => ∅

/-- `processRelations` of a user whose role was found with it. -/
def processRelations (item : JsonObject) : JsonObject :=
  JsonObject.put ∅ "role" (some (plainToInstance RoleDto (objectOf (item.lookup "role"))).toJson)

/-- The DTO that `USER_DATA_LOADER` makes of a row. -/
def userDto (item : JsonObject) : JsonObject :=
  plainToInstance UserDto (item.spread (processRelations item))

/-! ## Answers -/

/-- Where a running `getBy` stands. -/
inductive Answering where
  /-- It awaits `load`. -/
  | loading (promise : Nat)
  /-- It publishes the DTO. -/
  | publishing (dto : JsonObject)

/-- A running `getBy`, with the correlation id that it returns. -/
structure Handler where
  correlationId : Option Json
  stage : Answering

/-- The text a request is published as. -/
def requestMessage (correlationId message : String) : JsonObject :=
  (JsonObject.put ∅ "correlationId" (some (.str correlationId))).put "message" (some (.str message))

/-- What `getBy` reads off a message: the correlation id and the id it loads; `none` where it
throws, and where the id is none a row can have. -/
def parseRequest (texts : Texts) (fetched : Fetched) : Json → Option (Option Json × String)
  | .obj fields => do
    let request ← texts.parse (← Json.str? (fields.lookup "message"))
    match request with
    | .obj properties =>
      return (fields.lookup "correlationId", ← Json.str? (properties.lookup fetched.field))
    | _ => none
  | _ => none

/-- What it publishes: `{ correlationId, message: dto }`. -/
def responseMessage (correlationId : Option Json) (dto : JsonObject) : JsonObject :=
  (JsonObject.put ∅ "correlationId" correlationId).put "message" (some dto.toJson)

/-! ## Payloads -/

/-- `{ ...orderDto, user }` and `{ ...invoiceDto, order, user }`, of what was fetched. -/
def payloadOf : Service → JsonObject → List (Option Json) → JsonObject
  | .OrderService, dto, values => dto.put "user" values[0]?.join
  | .InvoiceService, dto, values => (dto.put "order" values[1]?.join).put "user" values[0]?.join

/-! ## Those who ask -/

/-- The promise of a request is rejected. -/
def isRejected : Kafka.Promise → Bool
  | .rejected _ => true
  | _ => false

/-- A process of a service with a `getById`: its table, its loader with the calls of `getById`,
its `KafkaInfrastructure`, which call of `requestResponse` a `getById` awaits, and what was
returned. -/
structure Asking where
  table : Table := {}
  calls : Calls := { loader := .new, calls := [] }
  kafka : Kafka.Infrastructure := {}
  awaited : List (Nat × Nat) := []
  payloads : List (Nat × JsonObject) := []

namespace Asking

variable (a : Asking) (texts : Texts) (service : Service)

/-- A `getById` is called. -/
def getById (id : String) : Asking :=
  { a with calls := { a.calls with calls := a.calls.calls ++ [{ id }] } }

/-- A call begins to load, or a batch is answered. -/
def load : Loader.Label → Option Asking
  | .begin call => (a.calls.fire service a.table.rows (.begin call)).map fun calls => { a with calls }
  | .settle promise =>
    (a.calls.fire service a.table.rows (.settle promise)).map fun calls => { a with calls }
  | .fail promise error =>
    (a.calls.fire service a.table.rows (.fail promise error)).map fun calls => { a with calls }
  | _ => none

/-- A call goes on with its DTO: it loads it again, or sends its requests, which draw the
`correlationIds`. -/
def resume (call : Nat) (correlationIds : List String) : Option Asking := do
  let calls ← a.calls.fire service a.table.rows (.resume call)
  match calls.calls[call]? with
  | some ⟨_, .requested promise, _, _⟩ =>
    match calls.loader.promise? promise with
    | some (.resolved dto) =>
      let kafka ← a.kafka.fire
        (.requestResponse (buildKafkaRequestOptionsHelper texts service dto) correlationIds)
      return { a with calls, kafka, awaited := a.awaited ++ [(call, a.kafka.calls.length)] }
    | _ => none
  | _ => if correlationIds = [] then return { a with calls } else none

/-- The requests of a call are answered: it returns its payload. -/
def answer (call : Nat) : Option Asking := do
  let awaited ← a.awaited.lookup call
  let values ← a.kafka.results (← a.kafka.calls[awaited]?)
  let calls ← a.calls.fire service a.table.rows (.answer call)
  match calls.calls[call]? with
  | some ⟨_, .returned promise, _, _⟩ =>
    match calls.loader.promise? promise with
    | some (.resolved dto) =>
      return { a with calls, payloads := a.payloads ++ [(call, payloadOf service dto values)] }
    | _ => none
  | _ => none

/-- A request of a call is rejected, and so is `Promise.all`. -/
def reject (call : Nat) : Option Asking := do
  let awaited ← a.awaited.lookup call
  let requests ← a.kafka.calls[awaited]?
  if requests.promises.any fun i => (a.kafka.requests[i]?).any (isRejected ·.promise) then
    let calls ← a.calls.fire service a.table.rows (.reject call)
    return { a with calls }
  else none

/-- A step of `KafkaInfrastructure` besides requests and messages. -/
def drive : Kafka.Label → Option Asking
  | .connected => (a.kafka.fire .connected).map fun kafka => { a with kafka }
  | .answer i answer => (a.kafka.fire (.answer i answer)).map fun kafka => { a with kafka }
  | .timeout i => (a.kafka.fire (.timeout i)).map fun kafka => { a with kafka }
  | _ => none

/-- A consumer gets a message. -/
def receive (groupId topic : String) (value : Json) : Option Asking :=
  (a.kafka.fire (.message groupId topic (some (some value)))).map fun kafka => { a with kafka }

/-- The message that the executor of request `i` is publishing. -/
def publishing (i : Nat) : Option (String × JsonObject) :=
  match a.kafka.requests[i]? with
  | some ⟨_, _, _, _, .publish topicName message⟩ => some (topicName, message)
  | _ => none

end Asking

/-! ## The network -/

/-- The services and all that was published, oldest first. -/
structure Network where
  asking : Service → Asking := fun _ => {}
  /-- `USER_DATA_LOADER` of the auth service. -/
  userLoader : DataLoader String JsonObject String := .new
  handlers : Fetched → List Handler := fun _ => []
  log : List (String × JsonObject) := []
  /-- The correlation ids that were drawn, here or elsewhere. -/
  correlationIds : List String := []

/-- What may happen next. -/
inductive Label where
  | insertOrder (id : String) (data : OrderData)
  | updateOrderStatus (id : String) (targetStatus : OrderStatus)
  | insertInvoice (invoice : Invoice)
  | getById (service : Service) (id : String)
  | load (service : Service) (label : Loader.Label)
  | resume (service : Service) (call : Nat) (correlationIds : List String)
  | answer (service : Service) (call : Nat)
  | reject (service : Service) (call : Nat)
  | drive (service : Service) (label : Kafka.Label)
  /-- What request `i` publishes reaches the log. -/
  | publish (service : Service) (i : Nat)
  /-- A consumer of a service gets the message at `index`. -/
  | receive (service : Service) (groupId : String) (index : Nat)
  /-- Another process publishes a request. -/
  | elsewhere (fetched : Fetched) (correlationId message : String)
  /-- `getBy` gets the message at `index`. -/
  | handle (fetched : Fetched) (index : Nat)
  | settleUser (promise : Nat)
  | failUser (promise : Nat) (error : String)
  /-- The DTO that a `getBy` awaits is there: `JSON.stringify` makes it a text. -/
  | stringify (fetched : Fetched) (handler : Nat)
  /-- What a `getBy` publishes reaches the log. -/
  | respond (fetched : Fetched) (handler : Nat)
  /-- A `getBy` ends, or its process stops. -/
  | drop (fetched : Fetched) (handler : Nat)

namespace Network

variable (s : Network)

def withAsking (service : Service) (a : Asking) : Network :=
  { s with asking := Function.update s.asking service a }

/-- The loader that a `getBy` asks; the order service has one for `getBy` and `getById`. -/
def loader : Fetched → DataLoader String JsonObject String
  | .user => s.userLoader
  | .order => (s.asking .OrderService).calls.loader

def withLoader (loader : DataLoader String JsonObject String) : Fetched → Network
  | .user => { s with userLoader := loader }
  | .order => s.withAsking .OrderService
      { s.asking .OrderService with calls := { (s.asking .OrderService).calls with loader } }

def withHandlers (fetched : Fetched) (handlers : List Handler) : Network :=
  { s with handlers := Function.update s.handlers fetched handlers }

/-- A row is written. -/
def write (service : Service) (id : String) (row : JsonObject) : Network :=
  s.withAsking service
    { s.asking service with table := (s.asking service).table.write id row }

/-- What a label does where it is enabled; rows of `users` are not written by any service. -/
def fire (texts : Texts) (users : Rows) (s : Network) : Label → Option Network
  | .insertOrder id data =>
    let rows := (s.asking .OrderService).table.rows
    if (rows.lookup id).isNone ∧ data.userId ≠ "" then
      some (s.write .OrderService id (orderRow id data))
    else none
  | .updateOrderStatus id targetStatus =>
    let rows := (s.asking .OrderService).table.rows
    (rows.lookup id).map fun row =>
      s.write .OrderService id (row.put "status" (some (.str targetStatus.value)))
  | .insertInvoice invoice =>
    let rows := (s.asking .InvoiceService).table.rows
    if (rows.lookup invoice.id).isNone ∧ invoice.userId ≠ "" ∧ invoice.orderId ≠ "" then
      some (s.write .InvoiceService invoice.id (invoiceRow invoice))
    else none
  | .getById service id => some (s.withAsking service ((s.asking service).getById id))
  | .load service label => ((s.asking service).load service label).map (s.withAsking service)
  | .resume service call correlationIds =>
    if ∀ id ∈ correlationIds, id ∉ s.correlationIds then
      ((s.asking service).resume texts service call correlationIds).map fun a =>
        { s.withAsking service a with correlationIds := s.correlationIds ++ correlationIds }
    else none
  | .answer service call => ((s.asking service).answer service call).map (s.withAsking service)
  | .reject service call => ((s.asking service).reject service call).map (s.withAsking service)
  | .drive service label => ((s.asking service).drive label).map (s.withAsking service)
  | .publish service i =>
    ((s.asking service).publishing i).map fun record => { s with log := s.log ++ [record] }
  | .receive service groupId index => do
    let (topic, message) ← s.log[index]?
    ((s.asking service).receive groupId topic message.toJson).map (s.withAsking service)
  | .elsewhere fetched correlationId message =>
    if correlationId ∈ s.correlationIds then none
    else some { s with
      log := s.log ++ [(fetched.requestTopic, requestMessage correlationId message)]
      correlationIds := s.correlationIds ++ [correlationId] }
  | .handle fetched index => do
    let (topic, message) ← s.log[index]?
    if topic = fetched.requestTopic then
      let (correlationId, id) ← parseRequest texts fetched message.toJson
      let (promise, loader) := (s.loader fetched).load id
      return (s.withLoader loader fetched).withHandlers fetched
        (s.handlers fetched ++ [⟨correlationId, .loading promise⟩])
    else none
  | .settleUser promise =>
    match s.userLoader.loads[promise]? with
    | some (key, .pending) =>
      match users.lookup key with
      | some row => some { s with userLoader := s.userLoader.settle promise (.ok (userDto row)) }
      | none => some { s with
          userLoader := (s.userLoader.settle promise (.error "not found")).clear key }
    | _ => none
  | .failUser promise error =>
    match s.userLoader.loads[promise]? with
    | some (key, .pending) => some { s with
        userLoader := (s.userLoader.settle promise (.error error)).clear key }
    | _ => none
  | .stringify fetched handler =>
    match (s.handlers fetched)[handler]? with
    | some ⟨correlationId, .loading promise⟩ =>
      match (s.loader fetched).promise? promise with
      | some (.resolved dto) => some (s.withHandlers fetched
          ((s.handlers fetched).set handler ⟨correlationId, .publishing dto⟩))
      | _ => none
    | _ => none
  | .respond fetched handler =>
    match (s.handlers fetched)[handler]? with
    | some ⟨correlationId, .publishing dto⟩ => some { s with
        log := s.log ++ [(fetched.responseTopic, responseMessage correlationId dto)] }
    | _ => none
  | .drop fetched handler =>
    some (s.withHandlers fetched ((s.handlers fetched).eraseIdx handler))

/-- The network as a machine: no rows yet besides those of `users`. -/
def machine (texts : Texts) (users : Rows) : Machine Network Label where
  initial := {}
  fire := fire texts users

end Network

end InvoiceHub.Fetch
