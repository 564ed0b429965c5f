import InvoiceHub.Domain.Json
import InvoiceHub.Domain.Enums

/-!
# Saga records and events

The types of `distributed-transaction.interface.ts`, the text a record is stored as, and
`isSerializedTransaction` and `deserializeTransaction` that read it back.
-/

namespace InvoiceHub

/-- A `Date`: milliseconds since the epoch. -/
abbrev Date := Nat

namespace Date

/-- Year, month and day of a day count since the epoch, in eras of 400 years. -/
def civil (days : Nat) : Nat × Nat × Nat :=
  let z := days + 719468
  let era := z / 146097
  let doe := z % 146097
  let yoe := (doe - doe / 1460 + doe / 36524 - doe / 146096) / 365
  let doy := doe - (365 * yoe + yoe / 4 - yoe / 100)
  let mp := (5 * doy + 2) / 153
  let day := doy - (153 * mp + 2) / 5 + 1
  let month := if mp < 10 then mp + 3 else mp - 9
  (yoe + era * 400 + (if month ≤ 2 then 1 else 0), month, day)

private def pad (width n : Nat) : String :=
  let digits := toString n
  "".pushn '0' (width - digits.length) ++ digits

/-- `toISOString`. -/
def toISOString (date : Date) : String :=
  let (year, month, day) := civil (date / 86400000)
  let ms := date % 86400000
  let fullYear := if year ≤ 9999 then pad 4 year else "+" ++ pad 6 year
  fullYear ++ "-" ++ pad 2 month ++ "-" ++ pad 2 day ++ "T" ++ pad 2 (ms / 3600000) ++ ":" ++
    pad 2 (ms / 60000 % 60) ++ ":" ++ pad 2 (ms / 1000 % 60) ++ "." ++ pad 3 (ms % 1000) ++ "Z"

example : toISOString 1740857466779 = "2025-03-01T19:31:06.779Z" ∧
    toISOString 253402300800000 = "+010000-01-01T00:00:00.000Z" := by decide +kernel

end Date

/-- `TransactionStep`. -/
structure TransactionStep where
  name : String
  service : ClientIds
  status : ProcessStepStatus
  error : Option String := none
  startedAt : Option Date := none
  completedAt : Option Date := none
  deriving DecidableEq

/-- A step, as it was declared. -/
def TransactionStep.declared (step : TransactionStep) : String × ClientIds :=
  (step.name, step.service)

/-- `DistributedTransaction`: a record as the coordinator works with it. -/
structure DistributedTransaction where
  transactionId : String
  processType : ProcessType
  status : DistributedTransactionStatus
  startedAt : Date
  completedAt : Option Date := none
  currentStep : Nat
  initiatedBy : String
  payload : JsonObject
  steps : List TransactionStep
  error : Option String := none

/-- `SerializedTransaction`: a record as it lies in Redis.  Dates are kept as dates: the ISO
text and `new Date` are inverse on them.  A record written from an event that lacks its
`transactionId` lacks it too. -/
structure SerializedTransaction where
  transactionId : Option String
  processType : String
  status : DistributedTransactionStatus
  startedAt : Date
  completedAt : Option Date := none
  currentStep : Nat
  initiatedBy : String
  payload : JsonObject
  steps : List TransactionStep
  error : Option String := none

/-- `TransactionEvent` and `CompensationEvent`, as far as the coordinator reads them.  The
handlers cast the parsed message to these types unchecked, so any field may be missing. -/
structure TransactionEvent where
  transactionId : Option String
  processType : Option String := none
  stepName : Option String := none
  error : Option String := none
  deriving DecidableEq

/-- `TransactionOptions`: what a saga is started with. -/
structure TransactionOptions where
  processType : ProcessType
  steps : List (String × ClientIds)
  payload : JsonObject
  initiatedBy : String

/-- A JSON text with the topic it is published on (`EventMessage`). -/
structure EventMessage where
  topicName : String
  message : JsonObject

/-- `JSON.parse(messageStr) as TransactionEvent`. -/
def TransactionEvent.ofMessage (message : JsonObject) : TransactionEvent where
  transactionId := Json.str? (message.lookup "transactionId")
  processType := Json.str? (message.lookup "processType")
  stepName := Json.str? (message.lookup "stepName")
  error := Json.str? (message.lookup "error")

/-! ## Serialization -/

/-- The object that `storeTransactionState` stringifies. -/
def DistributedTransaction.serialize (transaction : DistributedTransaction) :
    SerializedTransaction :=
  { transaction with
    transactionId := some transaction.transactionId
    processType := transaction.processType.value }

/-- `isSerializedTransaction`: of the fields it checks, only `transactionId` can be missing
from a text the coordinator wrote. -/
def isSerializedTransaction (serialized : SerializedTransaction) : Bool :=
  serialized.transactionId.isSome

/-- `deserializeTransaction`, called where `isSerializedTransaction` holds; it throws on an
unknown process type. -/
def deserializeTransaction (serialized : SerializedTransaction) : Option DistributedTransaction :=
  match serialized.transactionId, toProcessType serialized.processType with
  | some transactionId, some processType =>
    some { serialized with transactionId := transactionId, processType := processType }
  | _, _ => none

/-- What `getTransactionByKey` makes of a stored text: a record, or nothing when the guard
refuses it or the conversion throws. -/
def SerializedTransaction.read (serialized : SerializedTransaction) :
    Option DistributedTransaction :=
  if isSerializedTransaction serialized then deserializeTransaction serialized else none

@[simp] theorem DistributedTransaction.read_serialize (transaction : DistributedTransaction) :
    transaction.serialize.read = some transaction := by
  simp [SerializedTransaction.read, isSerializedTransaction, deserializeTransaction, serialize]

theorem serialize_inj {r r' : DistributedTransaction} (h : r.serialize = r'.serialize) :
    r = r' := by
  have hread := congrArg SerializedTransaction.read h
  simpa using hread

/-- A stored record that reads back is what its transaction serializes to. -/
theorem SerializedTransaction.eq_serialize {serialized : SerializedTransaction}
    {transaction : DistributedTransaction} (h : serialized.read = some transaction) :
    serialized = transaction.serialize := by
  unfold read isSerializedTransaction deserializeTransaction at h
  split at h
  · split at h
    · rename_i id p hid hp
      cases h
      have hv : p.value = serialized.processType := by
        simpa using List.find?_some hp
      cases serialized
      simp only [DistributedTransaction.serialize] at hid hv ⊢
      rw [hid, hv]
    · cases h
  · cases h

/-- What is found under a key is unreadable, or what a transaction serializes to. -/
theorem read_cases (content : Option SerializedTransaction) :
    content.bind SerializedTransaction.read = none ∨
    ∃ transaction, content.bind SerializedTransaction.read = some transaction ∧
      content = some transaction.serialize := by
  cases hr : content.bind SerializedTransaction.read with
  | none => exact .inl rfl
  | some transaction =>
    obtain ⟨serialized, rfl, hv⟩ := Option.bind_eq_some_iff.mp hr
    exact .inr ⟨transaction, rfl, congrArg some (SerializedTransaction.eq_serialize hv)⟩

end InvoiceHub
