import InvoiceHub.Effects.Pool
import InvoiceHub.Domain.Transaction

/-!
# What the coordinator awaits

The calls of `TransactionCoordinatorInfrastructure`: Redis `get`, `set` and `keys`, the
Kafka `publish` of `EventPublisherDecorator`, and the clock.  `Redis` is the part of the
store under the coordinator's key prefix.
-/

namespace InvoiceHub

open Effects

/-- The methods that carry `EventPublisherDecorator`. -/
inductive Publisher where
  | handleProgressTransaction
  | handleStartCompensation
  | handleCompleteTransaction
  | handleCompensationStep
  | handleExecuteCompensation
  | handleStartTimeoutChecker
  | handleSendUserNotification
  | handleUpdateOrderStatusPublisher
  | handleTransactionInvoiceGenerationPublisher
  | handleTransactionUserNotification
  deriving DecidableEq

/-- The publishers whose publication is awaited where the coordinator calls them. -/
def Publisher.awaited : Publisher → Bool
  | handleCompensationStep => false
  | handleStartTimeoutChecker => false
  | _ => true

/-- A message with the decorated method that returned it and the transaction that method was
called for.  Consumers see the message only. -/
structure Publication where
  publisher : Publisher
  transactionId : Option String
  event : EventMessage

namespace Transaction

/-- The awaited calls. -/
inductive Call where
  | get (key : String)
  | set (key : String) (value : SerializedTransaction)
  | getKeysByPattern
  | publish (publication : Publication)
  | now

/-- Their answers. -/
abbrev Call.Res : Call → Type
  | get _ => Option SerializedTransaction
  | set _ _ => Unit
  | getKeysByPattern => List String
  | publish _ => Unit
  | now => Date

/-- A method of the coordinator. -/
abbrev Async := Prog Call Call.Res

/-- `redis.get`. -/
abbrev redisGet (key : String) : Async (Option SerializedTransaction) := Prog.await (Call.get key)

/-- `redis.set`. -/
abbrev redisSet (key : String) (value : SerializedTransaction) : Async Unit :=
  Prog.await (Call.set key value)

/-- `await kafka.publish`. -/
abbrev publish (publication : Publication) : Async Unit := Prog.await (Call.publish publication)

/-- A decorated method called without `await`. -/
abbrev publishUnawaited (publication : Publication) : Async Unit :=
  Prog.start (Call.publish publication)

/-- `new Date()`. -/
abbrev newDate : Async Date := Prog.await Call.now

/-- The records in Redis. -/
abbrev Redis := AList fun _ : String => SerializedTransaction

/-- `transactionPrefix`. -/
def transactionPrefix : String := "global:transaction:"

/-- The key of a transaction; a template literal prints a missing id as `undefined`. -/
def transactionKey (transactionId : Option String) : String :=
  transactionPrefix ++ transactionId.getD "undefined"

@[simp] theorem transactionKey_some_inj {t u : String} :
    transactionKey (some t) = transactionKey (some u) ↔ t = u := by
  simp [transactionKey]

theorem transactionKey_eq_iff {i j : Option String} :
    transactionKey i = transactionKey j ↔ i.getD "undefined" = j.getD "undefined" := by
  simp [transactionKey]

/-- `EventPublisherDecorator`: publish what the method returned, if it is a message. -/
def eventPublisher (publisher : Publisher) (transactionId : Option String)
    (method : Async (Option EventMessage)) : Async Unit := do
  match ← method with
  | some event => publish ⟨publisher, transactionId, event⟩
  | none => return ()

end Transaction

end InvoiceHub
