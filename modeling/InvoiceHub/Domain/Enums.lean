/-!
# Topics, clients and statuses

The enumerations of `common/src/domain/enums`, with the strings they stand for.
-/

namespace InvoiceHub

/-- `events.enum.ts`, the topics of the saga. -/
inductive Subjects where
  | TRANSACTION_STEP_COMPLETED
  | TRANSACTION_STEP_FAILED
  | TRANSACTION_COMPENSATION_START
  | TRANSACTION_COMPENSATION_COMPLETED
  | TRANSACTION_COMPLETED
  | TRANSACTION_TIMEOUT
  | TRANSACTION_USER_NOTIFICATION
  | ORDER_APPROVAL_STEP_INVOICE_GENERATE
  | ORDER_APPROVAL_STEP_UPDATE_ORDER_STATUS
  deriving DecidableEq

/-- The name of the topic in Kafka. -/
def Subjects.value : Subjects → String
  | TRANSACTION_STEP_COMPLETED => "transaction_step_completed"
  | TRANSACTION_STEP_FAILED => "transaction_step_failed"
  | TRANSACTION_COMPENSATION_START => "transaction_compensation_start"
  | TRANSACTION_COMPENSATION_COMPLETED => "transaction_compensation_completed"
  | TRANSACTION_COMPLETED => "transaction_completed"
  | TRANSACTION_TIMEOUT => "transaction_timeout"
  | TRANSACTION_USER_NOTIFICATION => "transaction_user_notification"
  | ORDER_APPROVAL_STEP_INVOICE_GENERATE => "order_approval_step_invoice_generate"
  | ORDER_APPROVAL_STEP_UPDATE_ORDER_STATUS => "order_approval_step_update_order_status"

/-- Different subjects are different topics. -/
theorem Subjects.value_injective : Function.Injective Subjects.value := by
  intro a b h
  revert h
  cases a <;> cases b <;> first | (intro _; rfl) | (intro h; exact absurd h (by decide))

@[simp] theorem Subjects.value_inj {a b : Subjects} : a.value = b.value ↔ a = b :=
  Subjects.value_injective.eq_iff

/-- The consumer groups of the order and invoice services. -/
inductive GroupIds where
  | ORDER_SERVICE_TRANSACTION_GROUP
  | INVOICE_SERVICE_APP_GROUP
  | INVOICE_SERVICE_TRANSACTION_GROUP
  deriving DecidableEq

/-- The processes a coordinator can run in. -/
inductive ClientIds where
  | API_GATEWAY
  | AUTH_SERVICE
  | INVOICE_SERVICE
  | ORDER_SERVICE
  deriving DecidableEq

def ClientIds.value : ClientIds → String
  | API_GATEWAY => "Api Gateway"
  | AUTH_SERVICE => "Auth Service"
  | INVOICE_SERVICE => "Invoice Service"
  | ORDER_SERVICE => "Order Service"

/-- `distributed-transaction.enum.ts`. -/
inductive DistributedTransactionStatus where
  | STARTED
  | IN_PROGRESS
  | COMPLETED
  | FAILED
  | COMPENSATING
  | COMPENSATED
  | TIMED_OUT
  deriving DecidableEq

def DistributedTransactionStatus.value : DistributedTransactionStatus → String
  | STARTED => "STARTED"
  | IN_PROGRESS => "IN_PROGRESS"
  | COMPLETED => "COMPLETED"
  | FAILED => "FAILED"
  | COMPENSATING => "COMPENSATING"
  | COMPENSATED => "COMPENSATED"
  | TIMED_OUT => "TIMED_OUT"

inductive ProcessStepStatus where
  | PENDING
  | COMPLETED
  | FAILED
  | COMPENSATED
  | SKIPPED
  deriving DecidableEq

def ProcessStepStatus.value : ProcessStepStatus → String
  | PENDING => "PENDING"
  | COMPLETED => "COMPLETED"
  | FAILED => "FAILED"
  | COMPENSATED => "COMPENSATED"
  | SKIPPED => "SKIPPED"

inductive ProcessType where
  | ORDER_APPROVAL
  | ORDER_CANCELLATION
  deriving DecidableEq

def ProcessType.value : ProcessType → String
  | ORDER_APPROVAL => "ORDER_APPROVAL"
  | ORDER_CANCELLATION => "ORDER_CANCELLATION"

/-- `toProcessType`; an unknown text throws, which is `none` here. -/
def toProcessType (value : String) : Option ProcessType :=
  [ProcessType.ORDER_APPROVAL, .ORDER_CANCELLATION].find? (·.value == value)

@[simp] theorem toProcessType_value (p : ProcessType) : toProcessType p.value = some p := by
  cases p <;> decide

/-- `status.enum.ts`. -/
inductive OrderStatus where
  | PENDING
  | COMPLETED
  | CANCELLED
  deriving DecidableEq

def OrderStatus.value : OrderStatus → String
  | PENDING => "PENDING"
  | COMPLETED => "COMPLETED"
  | CANCELLED => "CANCELLED"

/-- The member an `OrderStatus` text stands for. -/
def OrderStatus.ofValue (text : String) : Option OrderStatus :=
  [OrderStatus.PENDING, .COMPLETED, .CANCELLED].find? (·.value == text)

@[simp] theorem OrderStatus.ofValue_value (s : OrderStatus) : ofValue s.value = some s := by
  cases s <;> decide

inductive InvoiceStatus where
  | PENDING
  | PAID
  | CANCELLED
  | OVERDUE
  deriving DecidableEq

def InvoiceStatus.value : InvoiceStatus → String
  | PENDING => "pending"
  | PAID => "paid"
  | CANCELLED => "cancelled"
  | OVERDUE => "overdue"

end InvoiceHub
