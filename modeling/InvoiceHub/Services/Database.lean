import InvoiceHub.Transaction.Calls
import Mathlib.Data.Rat.Floor

/-!
# What the services await

The tables `orders` and `invoices`, and the calls of the order and invoice services: TypeORM
`save` and `findOneOrFail`, `startTransaction` of the coordinator, and the Kafka `publish` of
`EventPublisherDecorator`.  The decorators that drop cached lists from Redis touch no record
of the coordinator and are left out.
-/

namespace InvoiceHub.Services

open Effects

/-! ## Tables -/

/-- The value of a `DECIMAL(10,2)` column: two decimals, ties away from zero. -/
def numeric (q : Rat) : Rat :=
  (if 0 ≤ q then ⌊q * 100 + 1 / 2⌋ else ⌈q * 100 - 1 / 2⌉ : Int) / 100

/-- What a query returns for a `DECIMAL(10,2)` column: the text of the number. -/
def numericText (q : Rat) : String :=
  let cents := (numeric q * 100).num
  (if cents < 0 then "-" else "") ++ toString (cents.natAbs / 100) ++ "." ++
    (if cents.natAbs % 100 < 10 then "0" else "") ++ toString (cents.natAbs % 100)

example : numericText 10 = "10.00" ∧ numericText (-21 / 20) = "-1.05" := by decide +kernel

/-- The columns of `orders` besides the key. -/
structure OrderData where
  userId : String
  totalAmount : Rat
  status : OrderStatus
  deriving DecidableEq

/-- `Order`. -/
structure Order extends OrderData where
  id : String
  deriving DecidableEq

/-- The columns of `invoices` besides the key. -/
structure InvoiceData where
  orderId : String
  userId : String
  title : String
  amount : Rat
  description : String
  status : InvoiceStatus
  pdfUrl : String
  deriving DecidableEq

/-- `Invoice`. -/
structure Invoice extends InvoiceData where
  id : String
  deriving DecidableEq

/-- The tables of the two services, and what the services have published, oldest first. -/
structure Database where
  orders : AList fun _ : String => OrderData
  invoices : List Invoice
  published : List EventMessage

/-- The row of an order. -/
def Database.order? (db : Database) (id : String) : Option Order :=
  (db.orders.lookup id).map fun data => { data with id }

/-- What the world leaves open when a call is answered: the clock, the id that is generated,
and the row that is found where none is asked for. -/
structure Choice where
  date : Date := 0
  uuid : String := ""
  row : Nat := 0

/-- `findOneOrFail({ where: { id } })`: with `id` undefined the condition is dropped and some row
is found; `none` where there is no row. -/
def Database.findOne (db : Database) (choice : Choice) : Option String → Option Order
  | some id => db.order? id
  | none => do
    let ⟨id, data⟩ ← db.orders.entries[choice.row % db.orders.entries.length]?
    return { data with id }

/-- `save` of an order: the row of its id is replaced, or inserted. -/
def Database.saveOrder (db : Database) (order : Order) : Database :=
  { db with
    orders := db.orders.insert order.id
      { order.toOrderData with totalAmount := numeric order.totalAmount } }

/-- `save` of an invoice without an id: a row is inserted. -/
def Database.saveInvoice (db : Database) (invoice : Invoice) : Database :=
  { db with invoices := db.invoices ++ [{ invoice with amount := numeric invoice.amount }] }

/-! ## Calls -/

/-- The awaited calls. -/
inductive Call where
  /-- `save` of an entity of `create`, which has no id yet: a body names no column of its own. -/
  | insertOrder (data : OrderData)
  | findOneOrFail (id : Option String)
  | saveOrder (order : Order)
  | saveInvoice (data : InvoiceData)
  /-- `startTransaction` up to its first write. -/
  | startTransaction (options : TransactionOptions)
  /-- The rest of `startTransaction`. -/
  | started (transactionId : String)
  | publish (event : EventMessage)
  | now

/-- Their answers; an entity is answered with the values it was given, not those of its row. -/
abbrev Call.Res : Call → Type
  | insertOrder _ => Order
  | findOneOrFail _ => Option Order
  | saveOrder _ => Unit
  | saveInvoice _ => Invoice
  | startTransaction _ => String
  | started _ => Unit
  | publish _ => Unit
  | now => Date

/-- A method of a service. -/
abbrev Async := Prog Call Call.Res

/-- `EventPublisherDecorator` on a method that is called without `await`. -/
abbrev publishUnawaited (event : EventMessage) : Async Unit := Prog.start (Call.publish event)

/-- `new Date()`. -/
abbrev newDate : Async Date := Prog.await Call.now

/-- `await coordinator.startTransaction(options)`. -/
def startTransaction (options : TransactionOptions) : Async String := do
  let transactionId ← Prog.await (Call.startTransaction options)
  Prog.await (Call.started transactionId)
  return transactionId

/-- `findOneOrFail`: it throws where no row is found. -/
def findOneOrFail (id : Option String) : Async Order := do
  let some order ← Prog.await (Call.findOneOrFail id) | Prog.throw
  return order

/-- What a service task runs for. -/
inductive Service where
  | createOrder
  | handleUpdateOrderStatus
  | handleTransactionInvoiceGeneration
  | handleUserNotification
  /-- A decorated method that is not awaited. -/
  | publisher
  deriving DecidableEq

/-- The service of a call that is started without being awaited. -/
def background (_ : Service) (_ : Call) : Service := .publisher

/-- What a call does to the tables; the coordinator's part of a start is not among it. -/
def perform : Perform Database Choice Service Call Call.Res := fun _ choice op db =>
  match op with
  | .insertOrder data =>
    let order : Order := { data with id := choice.uuid }
    (order, db.saveOrder order)
  | .findOneOrFail id => (db.findOne choice id, db)
  | .saveOrder order => ((), db.saveOrder order)
  | .saveInvoice data =>
    let invoice : Invoice := { data with id := choice.uuid }
    (invoice, db.saveInvoice invoice)
  | .startTransaction _ => (choice.uuid, db)
  | .started _ => ((), db)
  | .publish event => ((), { db with published := db.published ++ [event] })
  | .now => (choice.date, db)

/-! ## Rows -/

@[simp] theorem order?_saveOrder_self (db : Database) (order : Order) :
    (db.saveOrder order).order? order.id =
      some { order with totalAmount := numeric order.totalAmount } := by
  simp [Database.order?, Database.saveOrder]

theorem order?_saveOrder_of_ne (db : Database) {order : Order} {id : String} (h : id ≠ order.id) :
    (db.saveOrder order).order? id = db.order? id := by
  simp [Database.order?, Database.saveOrder, AList.lookup_insert_ne h]

@[simp] theorem order?_saveInvoice (db : Database) (invoice : Invoice) (id : String) :
    (db.saveInvoice invoice).order? id = db.order? id := rfl

/-- A row that is found is the row of its id. -/
theorem Database.order?_of_findOne {db : Database} {choice : Choice} {id : Option String}
    {order : Order} (h : db.findOne choice id = some order) : db.order? order.id = some order := by
  cases id with
  | some id =>
    obtain ⟨data, hdata, rfl⟩ := Option.map_eq_some_iff.mp h
    simpa [order?] using hdata
  | none =>
    obtain ⟨⟨id, data⟩, hget, hrow⟩ := Option.bind_eq_some_iff.mp h
    cases hrow
    have hmem : ⟨id, data⟩ ∈ db.orders.entries := List.mem_of_getElem? hget
    have hlookup : db.orders.lookup id = some data := AList.mem_lookup_iff.mpr hmem
    simp [order?, hlookup]

/-- The row of an id is found by the id. -/
theorem Database.id_of_findOne {db : Database} {choice : Choice} {id : String} {order : Order}
    (h : db.findOne choice (some id) = some order) : order.id = id := by
  obtain ⟨data, _, rfl⟩ := Option.map_eq_some_iff.mp h
  rfl

theorem numeric_hundredths (n : Int) : numeric (n / 100) = n / 100 := by
  have hn : (n / 100 : Rat) * 100 = n := div_mul_cancel₀ _ (by norm_num)
  have hround : (if 0 ≤ (n / 100 : Rat) then ⌊(n / 100 : Rat) * 100 + 1 / 2⌋
      else ⌈(n / 100 : Rat) * 100 - 1 / 2⌉) = n := by
    rw [hn]
    split
    · rw [Int.floor_eq_iff]
      constructor <;> linarith
    · rw [Int.ceil_eq_iff]
      constructor <;> linarith
  unfold numeric
  rw [hround]

/-- A column keeps the values it holds. -/
@[simp] theorem numeric_numeric (q : Rat) : numeric (numeric q) = numeric q :=
  numeric_hundredths _

example : numeric (25 / 1000) = 3 / 100 ∧ numeric (-25 / 1000) = -3 / 100 := by decide +kernel

end InvoiceHub.Services
