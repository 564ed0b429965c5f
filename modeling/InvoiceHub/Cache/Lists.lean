import InvoiceHub.Cache.Redis
import InvoiceHub.Effects.Eval
import InvoiceHub.Services.InvoiceService
import InvoiceHub.Services.OrderService

/-!
# The lists of the order and the invoice service

`queryResults`, the `get` methods with their decorators, and the methods that write.  TypeORM and
the tables behind it are a parameter, and so is MD5.
-/

namespace InvoiceHub.Cache

open Effects Services

/-! ## queryResults -/

/-- `GetQueryResultsArgs`; properties keep their order. -/
structure GetQueryResultsArgs where
  page : Option Rat := none
  limit : Option Rat := none
  filters : Option (List (String × Json)) := none
  order : Option (List (String × String)) := none

/-- What `queryResults` asks of the query builder. -/
structure QueryBuilder where
  /-- The condition, with its parameters. -/
  condition : Option (String × List (String × Json))
  addOrderBy : String × String
  take : Rat
  skip : Rat

/-- The query builder of `queryResults`; the join of a `relatedEntity`, which only the list of users
passes, is left out. Numbers are exact here, where a double would round `offset`. -/
def queryBuilder (query : GetQueryResultsArgs) : QueryBuilder :=
  let page := query.page.getD 1
  let limit := query.limit.getD 10
  let filters := query.filters.getD []
  let (orderField, orderDirection) := ((query.order.getD []).head?).getD ("createdAt", "DESC")
  let offset := (page - 1) * limit
  { condition :=
      if filters ≠ [] then
        some (" AND ".intercalate (filters.map fun (key, _) => "entity." ++ key ++ " = :" ++ key),
          filters)
      else none
    addOrderBy := ("entity." ++ orderField, orderDirection)
    take := limit
    skip := offset }

/-- TypeORM, over what a service stores. -/
structure Orm (Db : Type) where
  /-- `getManyAndCount` of the repository. -/
  getManyAndCount : QueryBuilder → Db → List JsonObject × Rat
  perform : Choice → (op : Services.Call) → Db → Services.Call.Res op × Db

namespace Orm

variable {Db Db' : Type}

/-- The database of a service, where there is another one. -/
def fst (orm : Orm Db) : Orm (Db × Db') where
  getManyAndCount query db := orm.getManyAndCount query db.1
  perform choice op db := ((orm.perform choice op db.1).1, (orm.perform choice op db.1).2, db.2)

/-- The other database. -/
def snd (orm : Orm Db') : Orm (Db × Db') where
  getManyAndCount query db := orm.getManyAndCount query db.2
  perform choice op db := ((orm.perform choice op db.2).1, db.1, (orm.perform choice op db.2).2)

end Orm

/-- `plainToInstance` with `excludeExtraneousValues`: the properties that the DTO exposes. -/
def plainToInstance (exposed : List String) (item : JsonObject) : JsonObject :=
  exposed.foldl (fun dto name => dto.put name (item.lookup name)) ∅

/-- The properties of `OrderDto`. -/
def OrderDto : List String := ["id", "userId", "totalAmount", "status"]

/-- The properties of `InvoiceDto`. -/
def InvoiceDto : List String :=
  ["id", "orderId", "userId", "title", "amount", "description", "status"]

/-- `get`, undecorated: `{ payloads, total, result }`. -/
def get {Db : Type} (orm : Orm Db) (dtoClass : List String) (query : GetQueryResultsArgs) (db : Db) :
    Json :=
  let (items, total) := orm.getManyAndCount (queryBuilder query) db
  .obj [("payloads", .arr (items.map fun item => (plainToInstance dtoClass item).toJson)),
    ("total", .num total), ("result", .str "success")]

/-! ## The lists -/

section Lists

variable {Db : Type} (orm : Orm Db) (md5 : GetQueryResultsArgs → String)
  (queries : Set GetQueryResultsArgs)

/-- `REDIS_DEFAULT_CACHE_TTL`, where the environment does not say otherwise. -/
def REDIS_DEFAULT_CACHE_TTL : Nat := 3600

/-- `REDIS_ORDER_LIST` on the methods of the order service, for the queries that are asked. -/
def orderList : CachedList queries Services.Call Db Choice Services.Call.Res where
  keyTemplate := "order:get:list"
  ttl := REDIS_DEFAULT_CACHE_TTL
  md5 query := md5 query
  fetch query := get orm OrderDto query
  perform := orm.perform

/-- `REDIS_INVOICE_LIST` on the methods of the invoice service. -/
def invoiceList : CachedList queries Services.Call Db Choice Services.Call.Res where
  keyTemplate := "invoice:get:list"
  ttl := REDIS_DEFAULT_CACHE_TTL
  md5 query := md5 query
  fetch query := get orm InvoiceDto query
  perform := orm.perform

end Lists

/-! ## Lists that fit on a page -/

/-- A row of `orders`. -/
def orderRow (id : String) (data : OrderData) : JsonObject :=
  (((JsonObject.put ∅ "id" (some (.str id))).put "userId" (some (.str data.userId))).put
    "totalAmount" (some (.str (numericText data.totalAmount)))).put "status" (some (.str data.status.value))

/-- A row of `invoices`. -/
def invoiceRow (invoice : Invoice) : JsonObject :=
  ((((((JsonObject.put ∅ "id" (some (.str invoice.id))).put
    "orderId" (some (.str invoice.orderId))).put "userId" (some (.str invoice.userId))).put
    "title" (some (.str invoice.title))).put
    "amount" (some (.str (numericText invoice.amount)))).put
    "description" (some (.str invoice.description))).put "status" (some (.str invoice.status.value))

/-- The repository of the orders, for queries without filters while all rows fit on a page. -/
def orderRepository : Orm Database where
  getManyAndCount _ db := (db.orders.entries.map fun row => orderRow row.1 row.2,
    db.orders.entries.length)
  perform := Services.perform .createOrder

/-- The repository of the invoices. -/
def invoiceRepository : Orm Database where
  getManyAndCount _ db := (db.invoices.map invoiceRow, db.invoices.length)
  perform := Services.perform .handleTransactionInvoiceGeneration

/-- The query without arguments. -/
def anyRow : GetQueryResultsArgs := {}

/-- One query is asked, so MD5 does not matter. -/
def hashed (_ : GetQueryResultsArgs) : String := "99914b932bd37a50b98c5e7c90ae93b7"

def emptyTables : Database := ⟨∅, [], []⟩

/-- The statuses of what a response lists. -/
def statuses : Json → List (Option String)
  | .obj fields =>
    match fields.lookup "payloads" with
    | some (.arr items) => items.map fun
      | .obj fields => Json.str? (fields.lookup "status")
      | _ => none
    | _ => []
  | _ => []

end InvoiceHub.Cache
