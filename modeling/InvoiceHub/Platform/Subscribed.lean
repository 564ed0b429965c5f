import InvoiceHub.Platform.Platform
import InvoiceHub.Fetch.Network
import InvoiceHub.Kafka.Startup

/-!
# The handlers stay subscribed

The subscriptions of the platform are what `start` of each service asks for, and from when the
service listens each of them is in place: the requests of `getById`, which subscribe at any time,
do so in groups of their own.
-/

namespace InvoiceHub

open Effects Kafka.Consumers

/-- `events.enum.ts`. -/
def GroupIds.value : GroupIds → String
  | ORDER_SERVICE_TRANSACTION_GROUP => "order-service-transaction-group"
  | INVOICE_SERVICE_APP_GROUP => "invoice-service-app-group"
  | INVOICE_SERVICE_TRANSACTION_GROUP => "invoice-service-transaction-group"

/-- The service that reads in a group. -/
def GroupIds.clientId : GroupIds → ClientIds
  | ORDER_SERVICE_TRANSACTION_GROUP => .ORDER_SERVICE
  | INVOICE_SERVICE_APP_GROUP | INVOICE_SERVICE_TRANSACTION_GROUP => .INVOICE_SERVICE

/-- The method of the coordinator that handles a topic. -/
def coordinatorHandler : Subjects → String
  | .TRANSACTION_STEP_COMPLETED => "handleTransactionStepCompleted"
  | .TRANSACTION_STEP_FAILED => "handleTransactionStepFailed"
  | .TRANSACTION_COMPENSATION_START => "handleTransactionCompensationStart"
  | .TRANSACTION_COMPENSATION_COMPLETED => "handleTransactionCompensationCompleted"
  | .TRANSACTION_COMPLETED => "handleTransactionCompleted"
  | .TRANSACTION_TIMEOUT => "handleTransactionTimeout"
  | _ => ""

/-- The method that a handler is. -/
def Handler.method : Handler → String
  | coordinator _ subject => coordinatorHandler subject
  | handleUpdateOrderStatus => "handleUpdateOrderStatus"
  | handleTransactionInvoiceGeneration => "handleTransactionInvoiceGeneration"
  | handleUserNotification => "handleUserNotification"

/-- What `kafka.subscribe` is called with. -/
def subscriberOptions (group : GroupIds) (subject : Subjects) (method : String) :
    KafkaSubscriberOptions :=
  { topicName := subject.value, handler := .given method, groupId := some group.value }

/-- `initialize` of the coordinator. -/
def initializeCoordinator (group : GroupIds) : List KafkaSubscriberOptions :=
  coordinatorTopics.map fun subject => subscriberOptions group subject (coordinatorHandler subject)

/-- `initialize` of `OrderKafkaSubscriber`. -/
def initializeOrderKafkaSubscriber : List KafkaSubscriberOptions :=
  [{ topicName := Fetch.Fetched.order.requestTopic, handler := .given "handleFetchOrderRequest",
     groupId := some "order-user-fetch-group" },
   subscriberOptions .ORDER_SERVICE_TRANSACTION_GROUP .ORDER_APPROVAL_STEP_UPDATE_ORDER_STATUS
    "handleUpdateOrderStatus"]

/-- `initialize` of `InvoiceKafkaSubscriber`. -/
def initializeInvoiceKafkaSubscriber : List KafkaSubscriberOptions :=
  [subscriberOptions .INVOICE_SERVICE_APP_GROUP .ORDER_APPROVAL_STEP_INVOICE_GENERATE
    "handleTransactionInvoiceGeneration",
   subscriberOptions .INVOICE_SERVICE_TRANSACTION_GROUP .TRANSACTION_USER_NOTIFICATION
    "handleUserNotification"]

/-- `initialize` of `UserKafkaSubscriber`. -/
def initializeUserKafkaSubscriber : List KafkaSubscriberOptions :=
  [{ topicName := Fetch.Fetched.user.requestTopic, handler := .given "handleFetchUserRequest",
     groupId := some "auth-service-group" }]

/-- The subscriptions of a service, in the order of its `serviceKeys`; a service is initialized
once. -/
def configureKafkaServices : ClientIds → List KafkaSubscriberOptions
  | .ORDER_SERVICE =>
    initializeCoordinator .ORDER_SERVICE_TRANSACTION_GROUP ++ initializeOrderKafkaSubscriber
  | .INVOICE_SERVICE =>
    initializeInvoiceKafkaSubscriber ++ initializeCoordinator .INVOICE_SERVICE_TRANSACTION_GROUP
  | .AUTH_SERVICE => initializeUserKafkaSubscriber
  | .API_GATEWAY => []

/-- The groups in which `getById` of a service reads what it fetches. -/
def fetchesIn : ClientIds → String → Bool
  | .ORDER_SERVICE, group =>
    (Fetch.fetches .OrderService).any (Fetch.groupId .OrderService · = group)
  | .INVOICE_SERVICE, group =>
    (Fetch.fetches .InvoiceService).any (Fetch.groupId .InvoiceService · = group)
  | _, _ => false

theorem nodup_configureKafkaServices (clientId : ClientIds) :
    ((configureKafkaServices clientId).map fun args => (args.group, args.topicName)).Nodup := by
  cases clientId <;> decide

/-- What the platform hands to a handler is subscribed when its service starts. -/
theorem mem_configureKafkaServices {group : GroupIds} {subject : Subjects} {handler : Handler}
    (h : subscription group subject = some handler) :
    subscriberOptions group subject handler.method ∈ configureKafkaServices group.clientId := by
  cases group <;> cases subject <;> first | (cases h; done) | (cases h; decide)

theorem fetchesIn_value (group : GroupIds) : fetchesIn group.clientId group.value = false := by
  cases group <;> decide

/-- From when a service listens, whatever Kafka does and whatever is fetched: each handler of the
platform is subscribed to its topic in its group, and the consumer of the group is connected and
runs; so is every other handler, but for those in the groups in which the service fetches. -/
theorem handlers_stay_subscribed {clientId : ClientIds} {groupId : String}
    {s : KafkaInfrastructure}
    (hs : (machine groupId).Reachable (KafkaInfrastructure.startup
      (configureKafkaServices clientId) (fetchesIn clientId)) s)
    (hl : s.listening (configureKafkaServices clientId) = true) :
    (∀ args ∈ configureKafkaServices clientId, fetchesIn clientId args.group = false →
      s.InPlace args) ∧
    ∀ group subject handler, group.clientId = clientId →
      subscription group subject = some handler →
        s.InPlace (subscriberOptions group subject handler.method) := by
  have hserving :=
    KafkaInfrastructure.serving_reachable (nodup_configureKafkaServices clientId) hs hl
  refine ⟨hserving.inPlace, ?_⟩
  rintro group subject handler rfl hsubscription
  exact hserving.inPlace _ (mem_configureKafkaServices hsubscription) (fetchesIn_value group)

/-! ## A run -/

/-- A user is fetched. -/
def fetchUser : Kafka.KafkaRequestOptions where
  requestTopic := Fetch.Fetched.user.requestTopic
  message := "user"
  responseTopic := Fetch.Fetched.user.responseTopic
  groupId := some (Fetch.groupId .OrderService .user)

/-- The order service starts; then Kafka fails to subscribe to the response of a request. -/
def fetchFails : List Label :=
  [.initializeKafka, .settle 0 .producer (.ok ()), .settle 0 .consumer (.ok ()),
    .settle 0 .admin (.ok ())] ++
  ((configureKafkaServices .ORDER_SERVICE).zipIdx 1).flatMap (fun (args, k) =>
    .subscribe args :: List.replicate 4 (.answer k (.ok true))) ++
  .requestResponse [fetchUser] :: List.replicate 4 (.answer 9 (.ok true)) ++
  [.answer 9 (.error "no broker")]

/-- The consumer of a group does not run. -/
def isStopped (s : KafkaInfrastructure) (group : String) : Bool :=
  ((s.consumerInstances.lookup group).bind (s.created[·]?)).any (!·.consumer.running)

theorem handlers_stay_subscribed_fetchFails :
    ∃ s, (machine "order-service-group").run (KafkaInfrastructure.startup
        (configureKafkaServices .ORDER_SERVICE) (fetchesIn .ORDER_SERVICE))
        (machine "order-service-group").initial fetchFails = some s ∧
      isStopped s "order-user-fetch-group" = true ∧
      s.InPlace (subscriberOptions .ORDER_SERVICE_TRANSACTION_GROUP
        .ORDER_APPROVAL_STEP_UPDATE_ORDER_STATUS "handleUpdateOrderStatus") := by
  have hrun : ((machine "order-service-group").run (KafkaInfrastructure.startup
      (configureKafkaServices .ORDER_SERVICE) (fetchesIn .ORDER_SERVICE))
      (machine "order-service-group").initial fetchFails).any (fun s =>
        isStopped s "order-user-fetch-group" &&
          s.listening (configureKafkaServices .ORDER_SERVICE)) = true := by
    decide +kernel
  obtain ⟨s, hs, h⟩ := (Option.any_eq_true _ _).mp hrun
  obtain ⟨hstopped, hlistening⟩ := Bool.and_eq_true_iff.mp h
  exact ⟨s, hs, hstopped, (handlers_stay_subscribed (Machine.run_steps fetchFails hs) hlistening).2
    .ORDER_SERVICE_TRANSACTION_GROUP .ORDER_APPROVAL_STEP_UPDATE_ORDER_STATUS
    .handleUpdateOrderStatus rfl rfl⟩

end InvoiceHub
