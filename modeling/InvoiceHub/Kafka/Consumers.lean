import InvoiceHub.Kafka.Infrastructure

/-!
# The consumers of a process

`initialize`, `subscribe`, `requestResponse` and `disconnect` of `KafkaInfrastructure`, down to the
Kafka consumers they connect, subscribe and run.  Calls interleave at their `await`s; what Kafka
answers, and when, is a label of the run.  What becomes of a response is not in this model.
-/

namespace InvoiceHub.Kafka.Consumers

open Effects

/-! ## One consumer -/

/-- A consumer of Kafka itself. -/
structure KafkaConsumer where
  connected : Bool := false
  topics : List String := []
  running : Bool := false
  deriving DecidableEq

/-- A message handler. -/
inductive Handler where
  /-- What a caller of `subscribe` has passed. -/
  | given (name : String)
  /-- `(message) => this.handleResponse({ responseMessage: message })`. -/
  | handleResponse
  deriving DecidableEq

/-- `KafkaConsumerInfrastructure`. -/
structure KafkaConsumerInfrastructure where
  groupId : String
  consumer : KafkaConsumer := {}
  subscribedTopics : List String := []
  topicHandlers : AList fun _ : String => Handler := ∅
  isConsumerRunning : Bool := false

/-- What `subscribe` of a consumer awaits. -/
inductive ConsumerAwaits where
  | stop
  | subscribe
  | run
  deriving DecidableEq

/-- Where a call stands after a stretch up to its next `await`. -/
inductive Next where
  | awaits (awaits : ConsumerAwaits)
  | returned
  | thrown (error : String)
  deriving DecidableEq

namespace KafkaConsumerInfrastructure

variable (c : KafkaConsumerInfrastructure)

/-- `isSubscribedTo`. -/
def isSubscribedTo (topicName : String) : Bool :=
  topicName ∈ c.subscribedTopics

/-- `subscribe`, up to its first `await`. -/
def subscribe (topicName : String) (handler : Handler) : KafkaConsumerInfrastructure × Next :=
  if c.isSubscribedTo topicName then
    ({ c with topicHandlers := c.topicHandlers.insert topicName handler }, .returned)
  else
    ({ c with
        topicHandlers := c.topicHandlers.insert topicName handler
        subscribedTopics := c.subscribedTopics ++ [topicName] },
      if c.isConsumerRunning then .awaits .stop else .awaits .subscribe)

/-- `subscribe` goes on when Kafka has answered. -/
def resume (topicName : String) :
    ConsumerAwaits → Except String Unit → KafkaConsumerInfrastructure × Next
  | .stop, .ok _ =>
    ({ c with isConsumerRunning := false, consumer := { c.consumer with running := false } },
      .awaits .subscribe)
  -- `stopConsumer` catches what `stop` throws
  | .stop, .error _ => ({ c with isConsumerRunning := false }, .awaits .subscribe)
  | .subscribe, .ok _ =>
    let c := { c with consumer := { c.consumer with topics := c.consumer.topics ++ [topicName] } }
    if c.isConsumerRunning then (c, .returned)
    else ({ c with isConsumerRunning := true }, .awaits .run)
  | .subscribe, .error error => (c, .thrown error)
  | .run, .ok _ => ({ c with consumer := { c.consumer with running := true } }, .returned)
  | .run, .error error => ({ c with isConsumerRunning := false }, .thrown error)

/-- `connect`, answered. -/
def connected : KafkaConsumerInfrastructure :=
  { c with consumer := { c.consumer with connected := true } }

/-- `stopConsumer`, answered; it catches what `stop` throws. -/
def stopped (answer : Except String Unit) : KafkaConsumerInfrastructure :=
  { c with
    isConsumerRunning := false
    consumer := { c.consumer with running := c.consumer.running && answer matches .error _ } }

/-- `disconnect`, between `stopConsumer` and `consumer.disconnect`. -/
def clear : KafkaConsumerInfrastructure :=
  { c with subscribedTopics := [], topicHandlers := ∅ }

/-- `consumer.disconnect`, answered. -/
def disconnected : KafkaConsumerInfrastructure :=
  { c with consumer := { c.consumer with connected := false, running := false } }

theorem resume_connected (topicName : String) (awaits : ConsumerAwaits)
    (answer : Except String Unit) :
    (c.resume topicName awaits answer).1.consumer.connected = c.consumer.connected := by
  cases awaits <;> cases answer <;> simp only [resume]
  split <;> rfl

/-- `subscribe` of Kafka adds a topic, and nothing else changes what is subscribed to. -/
theorem topics_resume (topicName : String) (awaits : ConsumerAwaits)
    (answer : Except String Unit) :
    (c.resume topicName awaits answer).1.consumer.topics = c.consumer.topics ++
      if awaits = .subscribe ∧ answer.toBool = true then [topicName] else [] := by
  cases awaits <;> cases answer <;> simp [resume, Except.toBool]
  split <;> rfl

end KafkaConsumerInfrastructure

/-! ## Calls -/

/-- `KafkaSubscriberOptions`. -/
structure KafkaSubscriberOptions where
  topicName : String
  handler : Handler
  groupId : Option String := none
  deriving DecidableEq

/-- `args.options?.groupId ?? GroupIds.BASE_GROUP`. -/
def KafkaSubscriberOptions.group (args : KafkaSubscriberOptions) : String :=
  args.groupId.getD BASE_GROUP

/-- What `processRequest` passes to `subscribe`. -/
def responseSubscription (args : KafkaRequestOptions) : KafkaSubscriberOptions where
  topicName := args.responseTopic
  handler := .handleResponse
  groupId := args.groupId

/-- What the `Promise.all` of `initialize` and `disconnect` waits for. -/
inductive Client where
  | producer
  | consumer
  | admin
  /-- `disconnect` of the consumer, in its `stopConsumer`. -/
  | stopConsumer
  deriving DecidableEq

/-- What a call awaits. -/
inductive Awaits where
  /-- The promises of `initialize` that are pending, and the first error; the call has thrown that
  error already. -/
  | connectAll (pending : List Client) (rejected : Option String)
  | disconnectAll (pending : List Client) (rejected : Option String)
  /-- `producer.createTopic`, then `producer.publish`, in `publish` of a request. -/
  | requestTopic (args : KafkaRequestOptions)
  | publish (args : KafkaRequestOptions)
  | topicExists (args : KafkaSubscriberOptions)
  | createTopic (args : KafkaSubscriberOptions)
  /-- `connect` of a consumer that `subscribe` has created. -/
  | connect (i : Nat) (args : KafkaSubscriberOptions)
  | consumer (i : Nat) (awaits : ConsumerAwaits) (args : KafkaSubscriberOptions)
  | returned
  | thrown (error : String)
  deriving DecidableEq

/-- The methods that are called. -/
inductive Method where
  | initializeKafka
  | subscribe
  /-- `processRequest`, of a `requestResponse`. -/
  | processRequest
  | disconnect
  deriving DecidableEq

/-- What the caller sees of an error. -/
def Method.rethrown : Method → String → String
  | processRequest, error => "Request failed: " ++ error
  | _, error => error

/-- A call. -/
structure Call where
  method : Method
  awaits : Awaits
  deriving DecidableEq

/-- What has happened to the consumers that `subscribe` has created. -/
inductive Event where
  | connected (groupId : String)
  /-- A call of the method has subscribed created consumer `i`. -/
  | subscribed (method : Method) (i : Nat) (topicName : String)
  /-- The handler of a topic is invoked. -/
  | handled (topicName : String) (handler : Handler)
  deriving DecidableEq

/-- `KafkaInfrastructure`; `consumerInstances` refers to the consumers `subscribe` has created. -/
structure KafkaInfrastructure where
  isInitialized : Bool := false
  consumer : KafkaConsumerInfrastructure
  created : List KafkaConsumerInfrastructure := []
  consumerInstances : AList fun _ : String => Nat := ∅
  calls : List Call := []
  history : List Event := []

namespace KafkaInfrastructure

variable (s : KafkaInfrastructure)

/-- Every consumer of the process. -/
def consumers : List KafkaConsumerInfrastructure :=
  s.consumer :: s.created

/-- A call is made, and stands where its first stretch has left it. -/
def call (method : Method) (awaits : Awaits) : KafkaInfrastructure :=
  { s with calls := s.calls ++ [⟨method, awaits⟩] }

/-- Call `k` goes on to another `await`. -/
def goOn (k : Nat) (method : Method) (awaits : Awaits) : KafkaInfrastructure :=
  { s with calls := s.calls.set k ⟨method, awaits⟩ }

/-- Call `k` throws. -/
def failWith (k : Nat) (method : Method) (error : String) : KafkaInfrastructure :=
  s.goOn k method (.thrown (method.rethrown error))

/-- The event is written down. -/
def note (e : Event) : KafkaInfrastructure :=
  { s with history := s.history ++ [e] }

/-- A created consumer is changed. -/
def withConsumer (i : Nat) (c : KafkaConsumerInfrastructure) : KafkaInfrastructure :=
  { s with created := s.created.set i c }

/-! ## Methods -/

/-- `initialize`. -/
def initializeKafka : KafkaInfrastructure :=
  s.call .initializeKafka
    (if s.isInitialized then .returned else .connectAll [.producer, .consumer, .admin] none)

/-- `subscribe`. -/
def subscribe (args : KafkaSubscriberOptions) : KafkaInfrastructure :=
  s.call .subscribe (if s.isInitialized then .topicExists args else .thrown "Kafka is not initialized")

/-- `processRequest`. -/
def processRequest (args : KafkaRequestOptions) : KafkaInfrastructure :=
  s.call .processRequest
    (if s.isInitialized then .requestTopic args
     else .thrown (Method.processRequest.rethrown "Kafka is not initialized"))

/-- `requestResponse`. -/
def requestResponse (args : List KafkaRequestOptions) : KafkaInfrastructure :=
  args.foldl processRequest s

/-- `disconnect`. -/
def disconnect : KafkaInfrastructure :=
  if s.isInitialized then
    let s := { s with consumerInstances := ∅ }
    if s.consumer.isConsumerRunning then
      s.call .disconnect (.disconnectAll [.producer, .stopConsumer, .admin] none)
    else
      let s := { s with consumer := s.consumer.clear }
      s.call .disconnect (.disconnectAll [.producer, .consumer, .admin] none)
  else s.call .disconnect .returned

/-- Call `k` stands where `subscribe` of its consumer stands. -/
def follow (k : Nat) (method : Method) (i : Nat) (args : KafkaSubscriberOptions) :
    Next → KafkaInfrastructure
  | .awaits awaits => s.goOn k method (.consumer i awaits args)
  | .returned => s.goOn k method .returned
  | .thrown error => s.failWith k method error

/-- `consumerInstance.subscribe(args)`. -/
def subscribeConsumer (k : Nat) (method : Method) (args : KafkaSubscriberOptions) :
    KafkaInfrastructure :=
  match s.consumerInstances.lookup args.group with
  | none => s.failWith k method "Cannot read properties of undefined (reading 'subscribe')"
  | some i =>
    match s.created[i]? with
    | none => s
    | some c =>
      let (c, next) := c.subscribe args.topicName args.handler
      (s.withConsumer i c).follow k method i args next

/-- `consumerInstances.set(groupId, new KafkaConsumerInfrastructure(this.kafka, groupId))`. -/
def create (groupId : String) : KafkaInfrastructure :=
  { s with
    created := s.created ++ [{ groupId }]
    consumerInstances := s.consumerInstances.insert groupId s.created.length }

/-- `subscribe`, from where the topic exists. -/
def subscribeTopic (k : Nat) (method : Method) (args : KafkaSubscriberOptions) :
    KafkaInfrastructure :=
  match s.consumerInstances.lookup args.group with
  | none => (s.create args.group).goOn k method (.connect s.created.length args)
  | some _ => s.subscribeConsumer k method args

/-- What call `k` awaits is answered, and the call goes on to its next `await`. -/
def resume (k : Nat) (method : Method) : Awaits → Except String Bool → Option KafkaInfrastructure
  -- `createTopic` catches what it throws
  | .requestTopic args, _ => some (s.goOn k method (.publish args))
  | .publish _, .error error => some (s.failWith k method error)
  | .publish args, .ok _ =>
    if s.consumer.isSubscribedTo args.responseTopic then some (s.goOn k method .returned)
    else if s.isInitialized then
      some (s.goOn k method (.topicExists (responseSubscription args)))
    else some (s.failWith k method "Kafka is not initialized")
  | .topicExists args, .ok true => some (s.subscribeTopic k method args)
  -- `topicExists` catches what `listTopics` throws
  | .topicExists args, _ => some (s.goOn k method (.createTopic args))
  | .createTopic args, _ => some (s.subscribeTopic k method args)
  | .connect _ _, .error error => some (s.failWith k method error)
  | .connect i args, .ok _ => do
    let c ← s.created[i]?
    return ((s.withConsumer i c.connected).note (.connected c.groupId)).subscribeConsumer k method
      args
  | .consumer i awaits args, answer => do
    let c ← s.created[i]?
    let (c', next) := c.resume args.topicName awaits (answer.map fun _ => ())
    let s := (s.withConsumer i c').follow k method i args next
    match awaits, answer with
    | .subscribe, .ok _ => return s.note (.subscribed method i args.topicName)
    | _, _ => return s
  | .connectAll _ _, _ | .disconnectAll _ _, _ | .returned, _ | .thrown _, _ => none

/-- Where a call stands when one of its promises has settled. -/
def settled (all : List Client → Option String → Awaits) (pending : List Client)
    (rejected : Option String) : Awaits :=
  if pending = [] then rejected.elim .returned .thrown else all pending rejected

/-- One of the promises of `initialize` or `disconnect` settles. -/
def settle (k : Nat) (method : Method) (client : Client) :
    Awaits → Except String Unit → Option KafkaInfrastructure
  | .connectAll pending rejected, answer =>
    if client ∈ pending then
      let pending := pending.erase client
      match answer with
      | .error error =>
        some (s.goOn k method (settled .connectAll pending (rejected <|> some error)))
      | .ok _ =>
        let s := if client = .consumer then { s with consumer := s.consumer.connected } else s
        let s := if pending = [] ∧ rejected = none then { s with isInitialized := true } else s
        some (s.goOn k method (settled .connectAll pending rejected))
    else none
  | .disconnectAll pending rejected, answer =>
    if client ∈ pending then
      let pending := pending.erase client
      match client, answer with
      | .stopConsumer, answer =>
        let s := { s with consumer := (s.consumer.stopped answer).clear }
        some (s.goOn k method (.disconnectAll (pending ++ [.consumer]) rejected))
      | _, .error error =>
        some (s.goOn k method (settled .disconnectAll pending (rejected <|> some error)))
      | client, .ok _ =>
        let s := if client = .consumer then { s with consumer := s.consumer.disconnected } else s
        let s := if pending = [] ∧ rejected = none then { s with isInitialized := false } else s
        some (s.goOn k method (settled .disconnectAll pending rejected))
    else none
  | _, _ => none

/-- `eachMessage` of consumer `c`. -/
def eachMessage (c : KafkaConsumerInfrastructure) (topicName : String) : KafkaInfrastructure :=
  match c.topicHandlers.lookup topicName with
  | none => s
  | some handler => s.note (.handled topicName handler)

end KafkaInfrastructure

/-! ## One answer -/

/-- Whether the call is in the `Promise.all` of `initialize` or `disconnect`. -/
def Awaits.isAll : Awaits → Bool
  | .connectAll _ _ | .disconnectAll _ _ => true
  | _ => false

/-- Whether the call awaits the `connect` of a created consumer. -/
def Awaits.isConnect : Awaits → Bool
  | .connect _ _ => true
  | _ => false

namespace KafkaInfrastructure

variable {s s' : KafkaInfrastructure} {k : Nat} {method : Method}

theorem lookup_create {groupId groupId' : String} {i : Nat} :
    (s.create groupId).consumerInstances.lookup groupId' = some i ↔
      groupId' = groupId ∧ i = s.created.length ∨
        groupId' ≠ groupId ∧ s.consumerInstances.lookup groupId' = some i := by
  rcases eq_or_ne groupId' groupId with rfl | hne
  · rw [create, AList.lookup_insert, Option.some_inj]
    exact ⟨fun hi => .inl ⟨rfl, hi.symm⟩,
      fun h => h.elim (fun hi => hi.2.symm) fun hi => absurd rfl hi.1⟩
  · rw [create, AList.lookup_insert_ne hne]
    exact ⟨fun hi => .inr ⟨hne, hi⟩, fun h => h.elim (fun hi => absurd hi.1 hne) And.right⟩

theorem created_follow (s : KafkaInfrastructure) (k : Nat) (method : Method) (i : Nat)
    (args : KafkaSubscriberOptions) (next : Next) :
    (s.follow k method i args next).created = s.created := by
  cases next <;> rfl

/-- What one answer to call `k` keeps is what each of the changes it is made of keeps. -/
structure Keeps (k : Nat) (method : Method) (I : KafkaInfrastructure → Prop) : Prop where
  goOn : ∀ {s awaits}, I s → awaits.isAll = false → awaits.isConnect = false →
    I (s.goOn k method awaits)
  create : ∀ {s args}, I s → s.consumerInstances.lookup args.group = none →
    I ((s.create args.group).goOn k method (.connect s.created.length args))
  withConsumer : ∀ {s i c c'}, I s → s.created[i]? = some c →
    c'.consumer.connected = c.consumer.connected → c.consumer.topics ⊆ c'.consumer.topics →
    I (s.withConsumer i c')
  connected : ∀ {s i c}, I s → s.created[i]? = some c →
    I ((s.withConsumer i c.connected).note (.connected c.groupId))
  subscribed : ∀ {s i c topicName}, I s → s.created[i]? = some c →
    topicName ∈ c.consumer.topics → I (s.note (.subscribed method i topicName))

namespace Keeps

variable {I : KafkaInfrastructure → Prop} (h : Keeps k method I)

include h

theorem failWith (hs : I s) (error : String) : I (s.failWith k method error) :=
  h.goOn hs rfl rfl

theorem follow (hs : I s) (i : Nat) (args : KafkaSubscriberOptions) (next : Next) :
    I (s.follow k method i args next) := by
  cases next with
  | thrown error => exact h.failWith hs error
  | _ => exact h.goOn hs rfl rfl

theorem subscribeConsumer (hs : I s) (args : KafkaSubscriberOptions) :
    I (s.subscribeConsumer k method args) := by
  unfold KafkaInfrastructure.subscribeConsumer
  split
  · exact h.failWith hs _
  · split
    · exact hs
    · rename_i c hc
      have hconsumer : (c.subscribe args.topicName args.handler).1.consumer = c.consumer := by
        unfold KafkaConsumerInfrastructure.subscribe
        split <;> rfl
      exact h.follow (h.withConsumer hs hc (congrArg _ hconsumer)
        (by rw [hconsumer]; exact List.Subset.refl _)) _ _ _

theorem subscribeTopic (hs : I s) (args : KafkaSubscriberOptions) :
    I (s.subscribeTopic k method args) := by
  unfold KafkaInfrastructure.subscribeTopic
  split
  · rename_i hnone
    exact h.create hs hnone
  · exact h.subscribeConsumer hs args

theorem resume (hs : I s) {awaits : Awaits} {answer : Except String Bool}
    (hs' : s.resume k method awaits answer = some s') : I s' := by
  unfold KafkaInfrastructure.resume at hs'
  split at hs'
  · cases hs'
    exact h.goOn hs rfl rfl
  · cases hs'
    exact h.failWith hs _
  · split at hs'
    · cases hs'
      exact h.goOn hs rfl rfl
    · split at hs'
      · cases hs'
        exact h.goOn hs rfl rfl
      · cases hs'
        exact h.failWith hs _
  · cases hs'
    exact h.subscribeTopic hs _
  · cases hs'
    exact h.goOn hs rfl rfl
  · cases hs'
    exact h.subscribeTopic hs _
  · cases hs'
    exact h.failWith hs _
  · obtain ⟨c, hc, hs'⟩ := Option.bind_eq_some_iff.mp hs'
    cases hs'
    exact h.subscribeConsumer (h.connected hs hc) _
  · rename_i i awaits args
    obtain ⟨c, hc, hs'⟩ := Option.bind_eq_some_iff.mp hs'
    have htopics := c.topics_resume args.topicName awaits (answer.map fun _ => ())
    have hresumed := h.follow (h.withConsumer hs hc
      (c.resume_connected args.topicName awaits (answer.map fun _ => ()))
      (by rw [htopics]; exact List.subset_append_left _ _)) i args
      (c.resume args.topicName awaits (answer.map fun _ => ())).2
    dsimp only at hs'
    split at hs'
    · cases hs'
      refine h.subscribed hresumed (c := (c.resume args.topicName .subscribe (.ok ())).1) ?_ ?_
      · rw [created_follow]
        exact List.getElem?_set_self (List.getElem?_eq_some_iff.mp hc).1
      · exact htopics ▸ List.mem_append_right _ (List.mem_singleton_self _)
    · cases hs'
      exact hresumed
  all_goals cases hs'

end Keeps

/-- An answer to call `k` changes no other call, nor the consumer of the process. -/
theorem resume_frame {awaits : Awaits} {answer : Except String Bool}
    (hk : s.calls[k]? = some ⟨method, awaits⟩)
    (hs' : s.resume k method awaits answer = some s') :
    s'.consumer = s.consumer ∧ s'.isInitialized = s.isInitialized ∧
      ∃ awaits', awaits'.isAll = false ∧ s'.calls = s.calls.set k ⟨method, awaits'⟩ := by
  have hkeeps : Keeps k method fun s' => s'.consumer = s.consumer ∧
      s'.isInitialized = s.isInitialized ∧
      ∃ awaits', awaits'.isAll = false ∧ s'.calls = s.calls.set k ⟨method, awaits'⟩ := by
    have hgoOn : ∀ {calls : List Call} (awaits : Awaits), awaits.isAll = false →
        (∃ awaits', awaits'.isAll = false ∧ calls = s.calls.set k ⟨method, awaits'⟩) →
        ∃ awaits', awaits'.isAll = false ∧
          calls.set k ⟨method, awaits⟩ = s.calls.set k ⟨method, awaits'⟩ := by
      rintro _ awaits hawaits ⟨awaits', -, rfl⟩
      exact ⟨awaits, hawaits, List.set_set _⟩
    refine ⟨?_, ?_, fun h _ _ _ => h, fun h _ => h, fun h _ _ => h⟩
    · rintro s'' awaits ⟨hbase, hinit, hcalls⟩ hall -
      exact ⟨hbase, hinit, hgoOn awaits hall hcalls⟩
    · rintro s'' args ⟨hbase, hinit, hcalls⟩ -
      exact ⟨hbase, hinit, hgoOn _ rfl hcalls⟩
  refine hkeeps.resume ⟨rfl, rfl, awaits, ?_, ?_⟩ hs'
  · cases awaits <;> first | rfl | cases hs'
  · obtain ⟨hlt, hget⟩ := List.getElem?_eq_some_iff.mp hk
    rw [← hget, List.set_getElem_self]

end KafkaInfrastructure

/-! ## Runs -/

/-- A step of a run. -/
inductive Label where
  | initializeKafka
  | subscribe (args : KafkaSubscriberOptions)
  | requestResponse (args : List KafkaRequestOptions)
  | disconnect
  /-- What call `k` awaits is answered. -/
  | answer (k : Nat) (answer : Except String Bool)
  /-- A promise in the `Promise.all` of call `k` settles. -/
  | settle (k : Nat) (client : Client) (answer : Except String Unit)
  /-- A consumer gets a message. -/
  | message (i : Nat) (topicName : String)
  deriving DecidableEq

/-- What a label does where it is enabled; a consumer gets messages while it is connected and
runs. -/
def KafkaInfrastructure.fire (s : KafkaInfrastructure) : Label → Option KafkaInfrastructure
  | .initializeKafka => some s.initializeKafka
  | .subscribe args => some (s.subscribe args)
  | .requestResponse args => some (s.requestResponse args)
  | .disconnect => some s.disconnect
  | .answer k answer => do
    let c ← s.calls[k]?
    s.resume k c.method c.awaits answer
  | .settle k client answer => do
    let c ← s.calls[k]?
    s.settle k c.method client c.awaits answer
  | .message i topicName => do
    let c ← s.consumers[i]?
    if c.consumer.connected ∧ c.consumer.running then return s.eachMessage c topicName else none

/-- One `KafkaInfrastructure`, made with the group of the process. -/
def machine (groupId : String) : Machine KafkaInfrastructure Label where
  initial := { consumer := { groupId } }
  fire := KafkaInfrastructure.fire

/-! ## Every other step -/

/-- Where a call stands that is new, or in a `Promise.all`, or has settled. -/
def Call.starts : Call → Bool
  | ⟨.subscribe, .topicExists _⟩ => true
  | ⟨_, .publish _⟩ | ⟨_, .topicExists _⟩ | ⟨_, .createTopic _⟩ | ⟨_, .connect _ _⟩ |
      ⟨_, .consumer _ _ _⟩ => false
  | _ => true

theorem Call.isConnect_of_starts {call : Call} (h : call.starts = true) :
    call.awaits.isConnect = false := by
  obtain ⟨method, awaits⟩ := call
  cases awaits <;> first | rfl | (cases method <;> cases h)

/-- The event is the invocation of a handler. -/
def Event.isHandled : Event → Bool
  | .handled _ _ => true
  | _ => false

namespace KafkaInfrastructure

theorem of_mem_call {s : KafkaInfrastructure} {method : Method} {awaits : Awaits} {j : Nat}
    {call : Call} (hj : (s.call method awaits).calls[j]? = some call) :
    s.calls[j]? = some call ∨ call = ⟨method, awaits⟩ := by
  unfold KafkaInfrastructure.call at hj
  rw [List.getElem?_append] at hj
  split at hj
  · exact .inl hj
  · exact .inr (List.mem_singleton.mp (List.mem_of_getElem? hj))

theorem of_mem_goOn {s : KafkaInfrastructure} {k : Nat} {method : Method} {awaits : Awaits}
    {j : Nat} {call : Call} (hj : (s.goOn k method awaits).calls[j]? = some call) :
    s.calls[j]? = some call ∨ call = ⟨method, awaits⟩ := by
  unfold goOn at hj
  rw [List.getElem?_set] at hj
  split at hj
  · split at hj
    · exact .inr (Option.some.inj hj).symm
    · cases hj
  · exact .inl hj

/-- What a step that answers no call leaves alone. -/
structure Beside (s s' : KafkaInfrastructure) : Prop where
  created : s'.created = s.created
  instances : s'.consumerInstances = s.consumerInstances
  topics : s'.consumer.consumer.topics = s.consumer.consumer.topics
  calls : ∀ (j : Nat) (call : Call), s'.calls[j]? = some call →
    s.calls[j]? = some call ∨ call.starts = true
  events : ∀ e : Event, e.isHandled = false → (e ∈ s'.history ↔ e ∈ s.history)

namespace Beside

variable {s s' s'' : KafkaInfrastructure}

theorem refl (s : KafkaInfrastructure) : s.Beside s :=
  ⟨rfl, rfl, rfl, fun _ _ => .inl, fun _ _ => Iff.rfl⟩

theorem trans (h : s.Beside s') (h' : s'.Beside s'') : s.Beside s'' where
  created := h'.created.trans h.created
  instances := h'.instances.trans h.instances
  topics := h'.topics.trans h.topics
  calls j call hj := (h'.calls j call hj).elim (h.calls j call) .inr
  events e he := (h'.events e he).trans (h.events e he)

theorem call (s : KafkaInfrastructure) (method : Method) {awaits : Awaits}
    (hstarts : Call.starts ⟨method, awaits⟩ = true) : s.Beside (s.call method awaits) where
  created := rfl
  instances := rfl
  topics := rfl
  calls _ _ hj := by
    rcases of_mem_call hj with hj | rfl
    · exact .inl hj
    · exact .inr hstarts
  events _ _ := Iff.rfl

theorem goOn (s : KafkaInfrastructure) (k : Nat) (method : Method) {awaits : Awaits}
    (hstarts : Call.starts ⟨method, awaits⟩ = true) : s.Beside (s.goOn k method awaits) where
  created := rfl
  instances := rfl
  topics := rfl
  calls _ _ hj := by
    rcases of_mem_goOn hj with hj | rfl
    · exact .inl hj
    · exact .inr hstarts
  events _ _ := Iff.rfl

theorem base (s : KafkaInfrastructure) (isInitialized : Bool) {c : KafkaConsumerInfrastructure}
    (hc : c.consumer.topics = s.consumer.consumer.topics) :
    s.Beside { s with isInitialized := isInitialized, consumer := c } :=
  ⟨rfl, rfl, hc, fun _ _ => .inl, fun _ _ => Iff.rfl⟩

theorem requestResponse (args : List KafkaRequestOptions) :
    ∀ s : KafkaInfrastructure, s.Beside (s.requestResponse args) := by
  induction args with
  | nil => exact refl
  | cons args rest ih =>
    intro s
    refine (call s .processRequest ?_).trans (ih _)
    split <;> rfl

theorem settle {k : Nat} {method : Method} {client : Client} {awaits : Awaits}
    {answer : Except String Unit} (hs' : s.settle k method client awaits answer = some s') :
    s.Beside s' := by
  have hsettled : ∀ (s : KafkaInfrastructure) (all : List Client → Option String → Awaits)
      (pending : List Client) (rejected : Option String),
      (all = .connectAll ∨ all = .disconnectAll) →
      s.Beside (s.goOn k method (settled all pending rejected)) := by
    intro s all pending rejected hall
    refine goOn s k method ?_
    unfold settled
    split
    · cases rejected <;> cases method <;> rfl
    · rcases hall with rfl | rfl <;> cases method <;> rfl
  unfold KafkaInfrastructure.settle at hs'
  split at hs'
  · split at hs'
    · split at hs'
      · cases hs'
        exact hsettled s _ _ _ (.inl rfl)
      · cases hs'
        refine Beside.trans ?_ (hsettled _ _ _ _ (.inl rfl))
        split <;> split <;> exact base s _ rfl
    · cases hs'
  · split at hs'
    · dsimp only at hs'
      split at hs'
      · cases hs'
        refine (base s s.isInitialized ?_).trans (goOn _ k method ?_)
        · rfl
        · cases method <;> rfl
      · cases hs'
        exact hsettled s _ _ _ (.inr rfl)
      · cases hs'
        refine Beside.trans ?_ (hsettled _ _ _ _ (.inr rfl))
        split <;> split <;> exact base s _ rfl
    · cases hs'
  · cases hs'

/-- Every step but an answer and `disconnect`. -/
theorem fire {label : Label} (hs' : s.fire label = some s') (hdisconnect : label ≠ .disconnect)
    (hanswer : ∀ k answer, label ≠ .answer k answer) : s.Beside s' := by
  cases label with
  | initializeKafka =>
    cases hs'
    refine call s .initializeKafka ?_
    split <;> rfl
  | subscribe args =>
    cases hs'
    refine call s .subscribe ?_
    split <;> rfl
  | requestResponse args =>
    cases hs'
    exact requestResponse args s
  | disconnect => exact absurd rfl hdisconnect
  | answer k answer => exact absurd rfl (hanswer k answer)
  | settle k client answer =>
    obtain ⟨call, -, hs'⟩ := Option.bind_eq_some_iff.mp hs'
    exact settle hs'
  | message i topicName =>
    obtain ⟨c, -, hs'⟩ := Option.bind_eq_some_iff.mp hs'
    split at hs'
    · cases hs'
      unfold eachMessage
      split
      · exact refl s
      · refine ⟨rfl, rfl, rfl, fun _ _ => .inl, fun e he => ⟨fun h => ?_, List.mem_append_left _⟩⟩
        rcases List.mem_append.mp h with h | h
        · exact h
        · rw [List.mem_singleton.mp h] at he
          cases he
    · cases hs'

end Beside

/-- `disconnect` of a connected process disconnects its consumer, and forgets the others. -/
theorem disconnect_eq {s : KafkaInfrastructure} (h : s.isInitialized = true) :
    ∃ c pending, s.disconnect =
        ({ s with consumerInstances := ∅, consumer := c } : KafkaInfrastructure).call .disconnect
          (.disconnectAll pending none) ∧
      c.consumer = s.consumer.consumer ∧ (.consumer ∈ pending ∨ .stopConsumer ∈ pending) := by
  unfold disconnect
  rw [if_pos h]
  dsimp only
  split
  · exact ⟨s.consumer, _, rfl, rfl, .inr (by decide)⟩
  · exact ⟨s.consumer.clear, _, rfl, rfl, .inl (by decide)⟩

/-- What an answer keeps, and every step beside, is kept by every step but `disconnect`. -/
theorem keeps_fire {s s' : KafkaInfrastructure} {I : KafkaInfrastructure → Prop}
    (hkeeps : ∀ k method, Keeps k method I)
    (hbeside : ∀ s s' : KafkaInfrastructure, I s → s.Beside s' → I s') {label : Label} (hs : I s)
    (hs' : s.fire label = some s') (hdisconnect : label = .disconnect → I s') : I s' := by
  by_cases hlabel : label = .disconnect
  · exact hdisconnect hlabel
  · cases label with
    | answer k answer =>
      obtain ⟨call, -, hs'⟩ := Option.bind_eq_some_iff.mp hs'
      exact (hkeeps k call.method).resume hs hs'
    | _ => exact hbeside s s' hs (Beside.fire hs' hlabel fun _ _ => Label.noConfusion)

end KafkaInfrastructure

end InvoiceHub.Kafka.Consumers
