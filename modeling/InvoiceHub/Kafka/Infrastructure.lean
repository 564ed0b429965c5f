import InvoiceHub.Domain.Json
import InvoiceHub.Effects.Run

/-!
# Requests over Kafka

`requestResponse` of `KafkaInfrastructure`, with the consumers it subscribes.  A method runs
undisturbed up to its next `await`; a step of the machine is one such stretch, the firing of a
timer, or a message that a consumer gets.  What Kafka answers, and when, is a label of the run.
-/

namespace InvoiceHub.Kafka

open Effects

/-! ## Data -/

/-- `KafkaRequestOptions`. -/
structure KafkaRequestOptions where
  requestTopic : String
  message : String
  responseTopic : String
  groupId : Option String := none
  timeoutMs : Nat := 10000
  deriving DecidableEq

/-- `GroupIds.BASE_GROUP`. -/
def BASE_GROUP : String := "invoice_hub_group"

/-- `KafkaConsumerInfrastructure`.  A topic's handler hands the message to `handleResponse`; it is
told from others by the request that has made it. -/
structure Consumer where
  subscribedTopics : List String := []
  topicHandlers : AList fun _ : String => Nat := ∅
  isConsumerRunning : Bool := false

/-- The promise of a request; the value is `undefined` where the response has no `message`. -/
inductive Promise where
  | pending
  | fulfilled (value : Option Json)
  | rejected (error : String)

namespace Promise

/-- `resolve`; a promise settles once. -/
def resolve (value : Option Json) : Promise → Promise
  | pending => fulfilled value
  | settled => settled

/-- `reject`. -/
def reject (error : String) : Promise → Promise
  | pending => rejected error
  | settled => settled

/-- What `Promise.all` collects. -/
def value? : Promise → Option (Option Json)
  | fulfilled value => some value
  | _ => none

end Promise

/-- What the executor of a request awaits. -/
inductive Awaits where
  /-- A method that has thrown before its first `await`. -/
  | thrown (error : String)
  /-- `publish({ topicName, message: JSON.stringify(message) })`. -/
  | publish (topicName : String) (message : JsonObject)
  | topicExists
  | createTopic
  /-- `connect` of the consumer of a group; the next three are inside its `subscribe`. -/
  | connect (groupId : String)
  | stopConsumer (groupId : String)
  | subscribe (groupId : String)
  | run (groupId : String)
  | nothing

/-- A call of `processRequest`: what its closures have captured, whether its timer is set, and
where its executor stands. -/
structure Request where
  args : KafkaRequestOptions
  correlationId : String
  timeout : Bool
  promise : Promise
  awaits : Awaits

/-- A call of `requestResponse`, with the requests whose promises it has passed to
`Promise.all`. -/
structure Call where
  args : List KafkaRequestOptions
  promises : List Nat

/-- What has happened, as far as a request may depend on it. -/
inductive Event where
  | requested (correlationId : String) (args : KafkaRequestOptions)
  /-- `handleResponse` gets a message with these properties. -/
  | response (correlationId : String) (message : Option Json)
  /-- The timer of a request fires. -/
  | timeout (correlationId : String)
  /-- Publishing or subscribing fails. -/
  | failure (correlationId : String) (error : String)

/-- `KafkaInfrastructure`; a response handler is known by its request. -/
structure Infrastructure where
  isInitialized : Bool := false
  consumer : Consumer := {}
  responseHandlers : AList fun _ : String => Nat := ∅
  consumerInstances : AList fun _ : String => Consumer := ∅
  requests : List Request := []
  calls : List Call := []
  history : List Event := []

/-! ## Methods -/

namespace Consumer

/-- `isSubscribedTo`. -/
def isSubscribedTo (c : Consumer) (topicName : String) : Bool :=
  topicName ∈ c.subscribedTopics

/-- `subscribe`, up to its first `await`. -/
def subscribe (c : Consumer) (groupId topicName : String) (handler : Nat) : Consumer × Awaits :=
  if c.isSubscribedTo topicName then
    ({ c with topicHandlers := c.topicHandlers.insert topicName handler }, .nothing)
  else
    ({ c with
        topicHandlers := c.topicHandlers.insert topicName handler
        subscribedTopics := c.subscribedTopics ++ [topicName] },
      if c.isConsumerRunning then .stopConsumer groupId else .subscribe groupId)

end Consumer

namespace Infrastructure

variable (s : Infrastructure)

/-- The event is written down. -/
def note (e : Event) : Infrastructure := { s with history := s.history ++ [e] }

/-- `processRequest`, up to its first `await`. -/
def processRequest (args : KafkaRequestOptions) (correlationId : String) : Infrastructure :=
  { s with
    responseHandlers := s.responseHandlers.insert correlationId s.requests.length
    requests := s.requests ++
      [{ args, correlationId
         timeout := true
         promise := .pending
         awaits :=
          if s.isInitialized then
            .publish args.requestTopic
              ((JsonObject.put ∅ "correlationId" (some (.str correlationId))).put "message"
                (some (.str args.message)))
          else .thrown "Kafka is not initialized" }]
    history := s.history ++ [.requested correlationId args] }

/-- `args.map(async (arg) => this.processRequest(arg))`. -/
def processRequests : List (KafkaRequestOptions × String) → Infrastructure → Infrastructure
  | [], s => s
  | (args, correlationId) :: rest, s => processRequests rest (s.processRequest args correlationId)

/-- `requestResponse`; `correlationIds` are what the executors draw. -/
def requestResponse (args : List KafkaRequestOptions) (correlationIds : List String) :
    Infrastructure :=
  let s' := processRequests (args.zip correlationIds) s
  { s' with
    calls := s'.calls ++ [{ args, promises := List.range' s.requests.length args.length }] }

/-- The results of a call of `requestResponse`, where `Promise.all` is fulfilled. -/
def results (call : Call) : Option (List (Option Json)) :=
  call.promises.mapM fun i => s.requests[i]?.bind (·.promise.value?)

/-- The executor of request `i` goes on to another `await`. -/
def goOn (i : Nat) (r : Request) (awaits : Awaits) : Infrastructure :=
  { s with requests := s.requests.set i { r with awaits } }

/-- The `catch` of the executor. -/
def catchError (i : Nat) (r : Request) (error : String) : Infrastructure :=
  { s with
    requests := s.requests.set i
      { r with promise := r.promise.reject ("Request failed: " ++ error), awaits := .nothing }
    history := s.history ++ [.failure r.correlationId error] }

/-- The consumer of a group is changed. -/
def withConsumer (groupId : String) (c : Consumer) : Infrastructure :=
  { s with consumerInstances := s.consumerInstances.insert groupId c }

/-- `consumerInstance.subscribe(args)`, up to its first `await`. -/
def subscribeConsumer (i : Nat) (r : Request) (groupId : String) : Infrastructure :=
  match s.consumerInstances.lookup groupId with
  | none => s.catchError i r "Cannot read properties of undefined (reading 'subscribe')"
  | some c =>
    let (c, awaits) := c.subscribe groupId r.args.responseTopic i
    (s.withConsumer groupId c).goOn i r awaits

/-- `subscribe`, from where the topic exists. -/
def subscribeTopic (i : Nat) (r : Request) : Infrastructure :=
  let groupId := r.args.groupId.getD BASE_GROUP
  match s.consumerInstances.lookup groupId with
  | none => (s.withConsumer groupId {}).goOn i r (.connect groupId)
  | some _ => s.subscribeConsumer i r groupId

/-- What the executor of request `i` awaits is answered, and the executor goes on to the next
`await`. -/
def resume (i : Nat) (r : Request) (answer : Except String Bool) : Infrastructure :=
  match r.awaits, answer with
  | .nothing, _ => s
  | .thrown error, _ => s.catchError i r error
  | .publish _ _, .error error => s.catchError i r error
  | .publish _ _, .ok _ =>
    if s.consumer.isSubscribedTo r.args.responseTopic then s.goOn i r .nothing
    else if s.isInitialized then s.goOn i r .topicExists
    else s.goOn i r (.thrown "Kafka is not initialized")
  | .topicExists, .ok true => s.subscribeTopic i r
  -- `topicExists` catches what `listTopics` throws
  | .topicExists, _ => s.goOn i r .createTopic
  | .createTopic, _ => s.subscribeTopic i r
  | .connect _, .error error => s.catchError i r error
  | .connect groupId, .ok _ => s.subscribeConsumer i r groupId
  -- `stopConsumer` catches what `stop` throws
  | .stopConsumer groupId, _ =>
    match s.consumerInstances.lookup groupId with
    | none => s
    | some c =>
      (s.withConsumer groupId { c with isConsumerRunning := false }).goOn i r (.subscribe groupId)
  | .subscribe _, .error error => s.catchError i r error
  | .subscribe groupId, .ok _ =>
    match s.consumerInstances.lookup groupId with
    | none => s
    | some c =>
      if c.isConsumerRunning then s.goOn i r .nothing
      else (s.withConsumer groupId { c with isConsumerRunning := true }).goOn i r (.run groupId)
  | .run groupId, .error error =>
    match s.consumerInstances.lookup groupId with
    | none => s
    | some c =>
      (s.withConsumer groupId { c with isConsumerRunning := false }).catchError i r error
  | .run _, .ok _ => s.goOn i r .nothing

/-- The callback of `setTimeout`. -/
def fireTimeout (i : Nat) (r : Request) : Infrastructure :=
  { s with
    responseHandlers := s.responseHandlers.erase r.correlationId
    requests := s.requests.set i
      { r with timeout := false, promise := r.promise.reject "Kafka response timeout" }
    history := s.history ++ [.timeout r.correlationId] }

/-- The handler in `responseHandlers` that request `i` has made. -/
def responseHandler (i : Nat) (response : Option Json) : Infrastructure :=
  match s.requests[i]? with
  | none => s
  | some r =>
    { s with
      responseHandlers := s.responseHandlers.erase r.correlationId
      requests := s.requests.set i
        { r with timeout := false, promise := r.promise.resolve response } }

/-- `const { correlationId, message } = JSON.parse(responseMessage)`; `none` where it throws. -/
def parseResponse : Option Json → Option (Option Json × Option Json)
  | none => none
  | some .null => none
  | some (.obj fields) => some (fields.lookup "correlationId", fields.lookup "message")
  | some _ => some (none, none)

/-- `handleResponse`; the message is `none` where it is no JSON text. -/
def handleResponse (responseMessage : Option Json) : Infrastructure :=
  match parseResponse responseMessage with
  | none => s
  | some (correlationId, response) =>
    match Json.str? correlationId with
    | none => s
    | some correlationId =>
      let s := s.note (.response correlationId response)
      match s.responseHandlers.lookup correlationId with
      | none => s
      | some i => s.responseHandler i response

/-- `eachMessage` of the consumer of a group; `value` is `none` where it is `null`. -/
def eachMessage (c : Consumer) (topic : String) (value : Option (Option Json)) : Infrastructure :=
  match value, c.topicHandlers.lookup topic with
  | some messageValue, some _ => s.handleResponse messageValue
  | _, _ => s

end Infrastructure

/-! ## Runs -/

/-- A step of a run. -/
inductive Label where
  /-- `initialize` has connected. -/
  | connected
  | requestResponse (args : List KafkaRequestOptions) (correlationIds : List String)
  /-- What the executor of request `i` awaits is answered. -/
  | answer (i : Nat) (answer : Except String Bool)
  | timeout (i : Nat)
  /-- The consumer of a group gets a message. -/
  | message (groupId topic : String) (value : Option (Option Json))

/-- What a label does where it is enabled; no correlation id is drawn twice. -/
def Infrastructure.fire (s : Infrastructure) : Label → Option Infrastructure
  | .connected => some { s with isInitialized := true }
  | .requestResponse args correlationIds =>
    if correlationIds.length = args.length ∧
        (s.requests.map (·.correlationId) ++ correlationIds).Nodup then
      some (s.requestResponse args correlationIds)
    else none
  | .answer i answer => do
    let r ← s.requests[i]?
    return s.resume i r answer
  | .timeout i => do
    let r ← s.requests[i]?
    if r.timeout then return s.fireTimeout i r else none
  | .message groupId topic value => do
    let c ← s.consumerInstances.lookup groupId
    return s.eachMessage c topic value

/-- One `KafkaInfrastructure`. -/
def machine : Machine Infrastructure Label where
  initial := {}
  fire := Infrastructure.fire

end InvoiceHub.Kafka
