import InvoiceHub.Loader.Batch
import InvoiceHub.Loader.Settled

/-!
# The orders read through the shared loader

`OrderService.getById` and `OrderKafkaSubscriber.getBy` ask `ORDER_DATA_LOADER` for a loader of
the same entity, DTO and field, so both read through one loader, which lives as long as the
process.  `getById` deletes `userId` from the DTO that the loader keeps, and nothing that writes
an order clears it.
-/

namespace InvoiceHub.Loader

open Services Cache

/-! ## The table -/

/-- The table `orders`; `user_id` is a `uuid` that is not null. -/
structure Orders where
  rows : AList fun _ : String => OrderData
  userId_ne : ∀ id data, rows.lookup id = some data → data.userId ≠ ""

namespace Orders

/-- The rows, as entities. -/
def entities (orders : Orders) : List Order :=
  orders.rows.entries.map fun entry => { entry.2 with id := entry.1 }

/-- `ORDER_DATA_LOADER`'s repository. -/
def repository (orders : Orders) : Repository Order orderDtoLoaderById.field where
  rows := orders.entities
  unique := by
    have hkeys : orders.entities.map orderDtoLoaderById.field = orders.rows.keys := by
      rw [entities, List.map_map]
      rfl
    rw [hkeys]
    exact orders.rows.keys_nodup
  find values := orders.entities.filter fun row => orderDtoLoaderById.field row ∈ values
  find_perm _ := .rfl

/-- The batch function of the loader. -/
def batch (orders : Orders) (ids : List String) :
    Except NotFoundError (List (Except NotFoundError JsonObject)) :=
  orderDtoLoaderById.batch orders.repository ids

/-- `updateOrderStatus`: `findOneOrFail`, then `save`, which writes the status. -/
def updateOrderStatus (orders : Orders) (orderId : String) (targetStatus : OrderStatus) : Orders :=
  match h : orders.rows.lookup orderId with
  | none => orders
  | some order =>
    { rows := orders.rows.insert orderId { order with status := targetStatus }
      userId_ne := by
        intro id data hdata
        by_cases hid : id = orderId
        · subst hid
          rw [AList.lookup_insert] at hdata
          cases hdata
          exact orders.userId_ne id order h
        · rw [AList.lookup_insert_ne hid] at hdata
          exact orders.userId_ne id data hdata }

end Orders

/-- The DTO of a row. -/
def orderDto (id : String) (data : OrderData) : JsonObject :=
  plainToInstance OrderDto (orderRow id data)

/-! ## The service -/

/-- The order service: its table and its loader. -/
structure OrderService where
  orders : Orders
  loader : DataLoader String JsonObject NotFoundError

/-- `getById`; `user` is what the user service answers, `none` where the request is rejected.  The
result is `none` where the recursion goes deeper than `fuel`; a payload is missing where the call
throws. -/
def getById (user : Option Json) (id : String) :
    Nat → OrderService → Option (Option JsonObject × OrderService)
  | 0, _ => none
  | fuel + 1, s =>
    let (promise, loader) := s.loader.loadNow s.orders.batch id
    match loader.promise? promise with
    | some (.resolved orderDto) =>
      if Json.truthy (orderDto.lookup "userId") then
        match user with
        | none => some (none, { s with loader })
        | some user =>
          some (some (JsonObject.put (orderDto.erase "userId") "user" (some user)),
            { s with loader := loader.modify promise fun orderDto => orderDto.erase "userId" })
      else getById user id fuel { s with loader := loader.clear id }
    | _ => some (none, { s with loader })

/-- `getBy`: the message of the response. -/
def getBy (id : String) (s : OrderService) : Option JsonObject × OrderService :=
  let (promise, loader) := s.loader.loadNow s.orders.batch id
  ((loader.promise? promise).bind Load.value?, { s with loader })

/-- What the service is asked to do. -/
inductive Request where
  | getById (id : String) (user : Option Json)
  | fetchOrder (id : String)
  | updateOrderStatus (orderId : String) (targetStatus : OrderStatus)

/-- What the service reports of an order. -/
inductive Reply where
  | payload (id : String) (payload : JsonObject)
  | fetchOrderResponse (id : String) (message : JsonObject)

/-- A request is handled. -/
def handle (fuel : Nat) (s : OrderService) : Request → Option (Option Reply × OrderService)
  | .getById id user =>
    (getById user id fuel s).map fun (payload, s) => (payload.map (Reply.payload id), s)
  | .fetchOrder id =>
    let (message, s) := getBy id s
    some (message.map (Reply.fetchOrderResponse id), s)
  | .updateOrderStatus orderId targetStatus =>
    some (none, { s with orders := s.orders.updateOrderStatus orderId targetStatus })

/-! ## What the replies should say -/

/-- The DTO has the status and the amount of the row. -/
structure Fresh (data : OrderData) (dto : JsonObject) : Prop where
  status : dto.lookup "status" = some (.str data.status.value)
  totalAmount : dto.lookup "totalAmount" = some (.str (numericText data.totalAmount))

/-- The reply agrees with the row of its order; a response names the user as well. -/
def Right (orders : Orders) : Reply → Prop
  | .payload id payload => ∃ data, orders.rows.lookup id = some data ∧ Fresh data payload
  | .fetchOrderResponse id message => ∃ data, orders.rows.lookup id = some data ∧
    Fresh data message ∧ message.lookup "userId" = some (.str data.userId)

/-- Every request is handled, and whatever is replied agrees with the rows. -/
def AllRight (fuel : Nat) : OrderService → List Request → Prop
  | _, [] => True
  | s, request :: requests => ∃ reply s', handle fuel s request = some (reply, s') ∧
    (∀ sent ∈ reply, Right s'.orders sent) ∧ AllRight fuel s' requests

/-! ## What the past of an order leaves behind -/

/-- How an order was read since the last `getById` of it that was answered. -/
inductive Seen where
  /-- It was never read. -/
  | never
  /-- The first read since then found this status. -/
  | since (status : OrderStatus)
  /-- It was not read since then. -/
  | answered

/-- The order is read by a `getById`, which reads it again after an answered one. -/
def Seen.readById (current : OrderStatus) : Seen → Seen
  | .since status => .since status
  | _ => .since current

/-- The order is read by a `FETCH_ORDER_REQUEST`. -/
def Seen.fetch (current : OrderStatus) : Seen → Seen
  | .never => .since current
  | seen => seen

/-- The past, with one more request. -/
def seenAfter (orders : Orders) (seen : String → Seen) : Request → String → Seen
  | .getById id user =>
    match orders.rows.lookup id, user with
    | none, _ => seen
    | some _, some _ => Function.update seen id .answered
    | some data, none => Function.update seen id ((seen id).readById data.status)
  | .fetchOrder id =>
    match orders.rows.lookup id with
    | none => seen
    | some data => Function.update seen id ((seen id).fetch data.status)
  | .updateOrderStatus _ _ => seen

/-- The table after a request. -/
def ordersAfter (orders : Orders) : Request → Orders
  | .updateOrderStatus orderId targetStatus => orders.updateOrderStatus orderId targetStatus
  | _ => orders

/-- The order has the status it had when it was first read. -/
def Unchanged (seen : Seen) (data : OrderData) : Prop := ∀ status, seen = .since status →
  status = data.status

/-- A read that is answered finds the order as it was first read, and an order is not fetched
right after an answered `getById`. -/
def Allowed (orders : Orders) (seen : String → Seen) : Request → Prop
  | .getById id (some _) => ∀ data, orders.rows.lookup id = some data → Unchanged (seen id) data
  | .getById _ none => True
  | .fetchOrder id => ∀ data, orders.rows.lookup id = some data →
    seen id ≠ .answered ∧ Unchanged (seen id) data
  | .updateOrderStatus _ _ => True

/-- All requests are allowed by what came before them. -/
def Careful : Orders → (String → Seen) → List Request → Prop
  | _, _, [] => True
  | orders, seen, request :: requests => Allowed orders seen request ∧
    Careful (ordersAfter orders request) (seenAfter orders seen request) requests

/-! ## The batch of one order -/

theorem lookup_orderDto (id : String) (data : OrderData) :
    (orderDto id data).lookup "userId" = some (.str data.userId) ∧
      (orderDto id data).lookup "status" = some (.str data.status.value) ∧
      (orderDto id data).lookup "totalAmount" = some (.str (numericText data.totalAmount)) := by
  simp [orderDto, plainToInstance, OrderDto, orderRow, JsonObject.lookup_put]

namespace Orders

variable {orders : Orders} {id : String}

/-- An order has a row in the repository if it has one in the table. -/
theorem hasRow_iff :
    orderDtoLoaderById.HasRow orders.repository id ↔ (orders.rows.lookup id).isSome := by
  constructor
  · rintro ⟨row, hrow, rfl⟩
    obtain ⟨entry, hentry, rfl⟩ := List.mem_map.mp hrow
    exact Option.isSome_iff_exists.mpr ⟨entry.2, AList.mem_lookup_iff.mpr hentry⟩
  · intro h
    obtain ⟨data, hdata⟩ := Option.isSome_iff_exists.mp h
    exact ⟨{ data with id }, List.mem_map.mpr ⟨⟨id, data⟩, AList.mem_lookup_iff.mp hdata, rfl⟩, rfl⟩

theorem rowOf_eq {data : OrderData} (h : orders.rows.lookup id = some data) :
    orderDtoLoaderById.rowOf orders.repository id = .ok (orderDto id data) := by
  unfold EntityDataLoaderParams.rowOf
  cases hrow : orders.repository.rows.find? fun row => orderDtoLoaderById.field row = id with
  | none =>
    obtain ⟨row, hmem, hid⟩ := hasRow_iff.mpr (Option.isSome_iff_exists.mpr ⟨data, h⟩)
    exact absurd (decide_eq_true hid) (List.find?_eq_none.mp hrow row hmem)
  | some row =>
    have hid : orderDtoLoaderById.field row = id := by simpa using List.find?_some hrow
    obtain ⟨entry, hentry, rfl⟩ := List.mem_map.mp (List.mem_of_find?_eq_some hrow)
    have hentry : orders.rows.lookup entry.1 = some entry.2 := AList.mem_lookup_iff.mpr hentry
    have hid : entry.1 = id := hid
    rw [hid, h] at hentry
    cases hentry
    subst hid
    rfl

theorem batch_some {data : OrderData} (h : orders.rows.lookup id = some data) :
    orders.batch [id] = .ok [.ok (orderDto id data)] := by
  rw [batch, EntityDataLoaderParams.batch_ok, List.map_cons, List.map_nil, rowOf_eq h]
  intro value hvalue
  rw [List.mem_singleton.mp hvalue]
  exact hasRow_iff.mpr (Option.isSome_iff_exists.mpr ⟨data, h⟩)

theorem batch_none (h : orders.rows.lookup id = none) :
    ∃ error, orders.batch [id] = .error error := by
  have hmiss : ∃ value ∈ [id], ¬ orderDtoLoaderById.HasRow orders.repository value :=
    ⟨id, List.mem_cons_self, by rw [hasRow_iff, h]; exact Bool.false_ne_true⟩
  obtain ⟨value, -, -, hbatch⟩ := EntityDataLoaderParams.batch_error orders.repository hmiss
  exact ⟨_, hbatch⟩

theorem lookup_updateOrderStatus (targetStatus : OrderStatus) (id' : String) :
    (orders.updateOrderStatus id targetStatus).rows.lookup id' =
      if id' = id then (orders.rows.lookup id).map fun data => { data with status := targetStatus }
      else orders.rows.lookup id' := by
  unfold updateOrderStatus
  split
  · rename_i h
    split
    · rename_i hid
      rw [hid, h]
      rfl
    · rfl
  · rename_i data h
    split
    · rename_i hid
      rw [hid, AList.lookup_insert, h]
      rfl
    · rename_i hid
      exact AList.lookup_insert_ne hid

end Orders

/-! ## What a read does to the loader -/

section Reads

variable {s : OrderService} {id : String} {data : OrderData}

/-- An order that exists is loaded as it is cached, or as its row is. -/
theorem loadNow_row (h : s.loader.Settled) (hrow : s.orders.rows.lookup id = some data) :
    (s.loader.loadNow s.orders.batch id).2.Settled ∧
      (s.loader.loadNow s.orders.batch id).2.promise? (s.loader.loadNow s.orders.batch id).1 =
        some (.resolved ((s.loader.cached id).getD (orderDto id data))) ∧
      (s.loader.loadNow s.orders.batch id).2.cache.lookup id =
        some (s.loader.loadNow s.orders.batch id).1 ∧
      ∀ id', (s.loader.loadNow s.orders.batch id).2.cached id' =
        if id' = id then some ((s.loader.cached id).getD (orderDto id data))
        else s.loader.cached id' := by
  cases hc : s.loader.cached id with
  | none =>
    simpa only [Option.getD_none] using h.loadNow_ok hc (Orders.batch_some hrow)
  | some dto =>
    obtain ⟨promise, hload, hp, hpromise⟩ := h.loadNow_cached s.orders.batch rfl hc
    rw [hload]
    refine ⟨h, hpromise, hp, fun id' => ?_⟩
    split
    · rename_i hid
      rw [hid, hc]
      rfl
    · rfl

/-- An order that does not exist is not cached. -/
theorem loadNow_missing (h : s.loader.Settled) (hrow : s.orders.rows.lookup id = none)
    (hc : s.loader.cached id = none) :
    ∃ error, (s.loader.loadNow s.orders.batch id).2.promise?
        (s.loader.loadNow s.orders.batch id).1 = some (.rejected error) ∧
      (s.loader.loadNow s.orders.batch id).2.Settled ∧
      ∀ id', (s.loader.loadNow s.orders.batch id).2.cached id' = s.loader.cached id' := by
  obtain ⟨error, hbatch⟩ := Orders.batch_none hrow
  obtain ⟨hs, hp, hcached⟩ := h.loadNow_error hc hbatch
  exact ⟨error, hp, hs, hcached⟩

/-- `getById` of a DTO that names its user: it is what is returned, and it loses its user. -/
theorem getById_whole (user : Option Json) (fuel : Nat) (h : s.loader.Settled)
    (hrow : s.orders.rows.lookup id = some data)
    (hw : Json.truthy (((s.loader.cached id).getD (orderDto id data)).lookup "userId") = true) :
    ∃ s', getById user id (fuel + 1) s = some (user.map fun user =>
        JsonObject.put (((s.loader.cached id).getD (orderDto id data)).erase "userId") "user"
          (some user), s') ∧
      s'.orders = s.orders ∧ s'.loader.Settled ∧
      ∀ id', s'.loader.cached id' =
        if id' = id then some (if user.isSome then
          ((s.loader.cached id).getD (orderDto id data)).erase "userId"
          else (s.loader.cached id).getD (orderDto id data))
        else s.loader.cached id' := by
  obtain ⟨hs, hp, hlookup, hcached⟩ := loadNow_row h hrow
  rw [getById]
  dsimp only
  rw [hp]
  dsimp only
  rw [if_pos hw]
  cases user with
  | none => exact ⟨_, rfl, rfl, hs, hcached⟩
  | some user =>
    obtain ⟨hs', hcached'⟩ := hs.modify hlookup fun orderDto => orderDto.erase "userId"
    refine ⟨_, rfl, rfl, hs', fun id' => ?_⟩
    refine (hcached' id').trans ?_
    rw [hcached, hcached, if_pos rfl]
    split <;> rfl

/-- One that does not is read again. -/
theorem getById_stripped (user : Option Json) (fuel : Nat) (h : s.loader.Settled)
    (hrow : s.orders.rows.lookup id = some data) {dto : JsonObject}
    (hc : s.loader.cached id = some dto) (hn : dto.lookup "userId" = none) :
    ∃ s', getById user id (fuel + 2) s = getById user id (fuel + 1) s' ∧
      s'.orders = s.orders ∧ s'.loader.Settled ∧
      ∀ id', s'.loader.cached id' = if id' = id then none else s.loader.cached id' := by
  obtain ⟨hs, hp, hlookup, hcached⟩ := loadNow_row h hrow
  obtain ⟨hs', hcached'⟩ := hs.clear id
  refine ⟨{ s with loader := (s.loader.loadNow s.orders.batch id).2.clear id }, ?_, rfl, hs',
    fun id' => ?_⟩
  · rw [getById]
    dsimp only
    rw [hp, hc]
    dsimp only [Option.getD_some]
    rw [hn]
    rfl
  · refine (hcached' id').trans ?_
    split
    · rfl
    · rename_i hid
      rw [hcached, if_neg hid]

end Reads

/-! ## The loader shows the past -/

/-- The status a read by `getById` finds. -/
def Seen.status (current : OrderStatus) : Seen → OrderStatus
  | .since status => status
  | _ => current

/-- What is cached of an order with this past. -/
def Seen.Shows (id : String) (data : OrderData) (cached : Option JsonObject) : Seen → Prop
  | .never => cached = none
  | .since status => cached = some (orderDto id { data with status })
  | .answered => ∃ dto, cached = some dto ∧ dto.lookup "userId" = none

/-- The loader holds what the past of each order has left in it. -/
structure Simulates (s : OrderService) (seen : String → Seen) : Prop where
  settled : s.loader.Settled
  known : ∀ id data, s.orders.rows.lookup id = some data →
    (seen id).Shows id data (s.loader.cached id)
  unknown : ∀ id, s.orders.rows.lookup id = none → s.loader.cached id = none

theorem simulates_new (orders : Orders) :
    Simulates ⟨orders, .new⟩ fun _ => .never where
  settled := DataLoader.settled_new
  known _ _ _ := rfl
  unknown _ _ := rfl

theorem unchanged_iff {seen : Seen} {data : OrderData} :
    Unchanged seen data ↔ seen.status data.status = data.status := by
  cases seen with
  | since status =>
    constructor
    · exact fun h => h status rfl
    · rintro h _ ⟨⟩
      exact h
  | never =>
    refine iff_of_true ?_ rfl
    rintro _ ⟨⟩
  | answered =>
    refine iff_of_true ?_ rfl
    rintro _ ⟨⟩

theorem OrderStatus.value_inj {a b : OrderStatus} : a.value = b.value ↔ a = b := by
  constructor
  · intro h
    have hof := congrArg OrderStatus.ofValue h
    simpa using hof
  · exact congrArg OrderStatus.value

section Simulates

variable {s s' : OrderService} {seen seen' : String → Seen} {id : String} {data : OrderData}

/-- Only what is cached of one order has changed. -/
theorem Simulates.update (h : Simulates s seen) (horders : s'.orders = s.orders)
    (hrow : s.orders.rows.lookup id = some data) (hs : s'.loader.Settled) {next : Seen}
    {cached : Option JsonObject} (hnext : next.Shows id data cached)
    (hcached : ∀ id', s'.loader.cached id' = if id' = id then cached else s.loader.cached id') :
    Simulates s' (Function.update seen id next) where
  settled := hs
  known := by
    intro id' data' hrow'
    rw [horders] at hrow'
    rw [hcached]
    by_cases hid : id' = id
    · subst hid
      rw [hrow] at hrow'
      cases hrow'
      rw [if_pos rfl, Function.update_self]
      exact hnext
    · rw [if_neg hid, Function.update_of_ne hid]
      exact h.known id' data' hrow'
  unknown := by
    intro id' hrow'
    rw [horders] at hrow'
    have hid : id' ≠ id := by
      rintro rfl
      rw [hrow] at hrow'
      cases hrow'
    rw [hcached, if_neg hid]
    exact h.unknown id' hrow'

/-- Nothing that is cached has changed. -/
theorem Simulates.same (h : Simulates s seen) (horders : s'.orders = s.orders)
    (hs : s'.loader.Settled) (hcached : ∀ id', s'.loader.cached id' = s.loader.cached id') :
    Simulates s' seen where
  settled := hs
  known := by
    intro id data hrow
    rw [horders] at hrow
    rw [hcached]
    exact h.known id data hrow
  unknown := by
    intro id hrow
    rw [horders] at hrow
    rw [hcached]
    exact h.unknown id hrow

theorem truthy_userId (data : OrderData) (id : String) (h : data.userId ≠ "") :
    Json.truthy ((orderDto id data).lookup "userId") = true := by
  rw [(lookup_orderDto id data).1]
  simpa [Json.truthy] using h

/-- `getById` of an order that exists ends, with the status of the first read. -/
theorem Simulates.getById (h : Simulates s seen) (hrow : s.orders.rows.lookup id = some data)
    (user : Option Json) (fuel : Nat) :
    ∃ s', Loader.getById user id (fuel + 2) s = some (user.map fun user =>
        JsonObject.put ((orderDto id { data with status := (seen id).status data.status }).erase
          "userId") "user" (some user), s') ∧
      s'.orders = s.orders ∧ s'.loader.Settled ∧
      ∀ id', s'.loader.cached id' =
        if id' = id then some (if user.isSome then
          (orderDto id { data with status := (seen id).status data.status }).erase "userId"
          else orderDto id { data with status := (seen id).status data.status })
        else s.loader.cached id' := by
  have hne := s.orders.userId_ne id data hrow
  have hshows := h.known id data hrow
  cases hseen : seen id with
  | never =>
    rw [hseen] at hshows
    have hc : s.loader.cached id = none := hshows
    have hwhole := getById_whole user (fuel + 1) h.settled hrow
      (by rw [hc]; exact truthy_userId data id hne)
    rwa [hc] at hwhole
  | since status =>
    rw [hseen] at hshows
    have hc : s.loader.cached id = some (orderDto id { data with status }) := hshows
    have hwhole := getById_whole user (fuel + 1) h.settled hrow
      (by rw [hc]; exact truthy_userId { data with status } id hne)
    rwa [hc] at hwhole
  | answered =>
    rw [hseen] at hshows
    obtain ⟨dto, hc, hn⟩ := hshows
    obtain ⟨cleared, hclear, horders, hsettled, hcleared⟩ :=
      getById_stripped user fuel h.settled hrow hc hn
    have hnone : cleared.loader.cached id = none := by rw [hcleared, if_pos rfl]
    obtain ⟨s', hs', horders', hsettled', hcached'⟩ := getById_whole user fuel hsettled
      (horders ▸ hrow) (by rw [hnone]; exact truthy_userId data id hne)
    rw [hnone] at hs' hcached'
    refine ⟨s', hclear.trans hs', horders'.trans horders, hsettled', fun id' => ?_⟩
    rw [hcached', hcleared]
    split <;> rfl

theorem fresh_iff (data : OrderData) {dto : JsonObject} {status : OrderStatus}
    (hstatus : dto.lookup "status" = some (.str status.value))
    (hamount : dto.lookup "totalAmount" = some (.str (numericText data.totalAmount))) :
    Fresh data dto ↔ status = data.status := by
  constructor
  · intro h
    have heq := h.status
    rw [hstatus] at heq
    exact OrderStatus.value_inj.mp (Json.str.inj (Option.some.inj heq))
  · rintro rfl
    exact ⟨hstatus, hamount⟩

/-- What the payload says besides the user is what the DTO said. -/
theorem lookup_put_erase (dto : JsonObject) (user : Json) {key : String} (h : key ≠ "user")
    (h' : key ≠ "userId") :
    (JsonObject.put (dto.erase "userId") "user" (some user)).lookup key = dto.lookup key := by
  rw [JsonObject.lookup_put_of_ne _ _ h]
  exact AList.lookup_erase_ne h'

/-- What is cached does not follow the status of the row. -/
theorem Seen.Shows.update_status {seen : Seen} {cached : Option JsonObject}
    (h : seen.Shows id data cached) (status : OrderStatus) :
    seen.Shows id { data with status } cached := by
  cases seen <;> exact h

/-- A `getById` goes on from what the past has left, and returns what agrees with the row if the
order is unchanged. -/
theorem Simulates.handle_getById (h : Simulates s seen) (id : String) (user : Option Json)
    (fuel : Nat) :
    ∃ reply s', handle (fuel + 2) s (.getById id user) = some (reply, s') ∧
      s'.orders = s.orders ∧ Simulates s' (seenAfter s.orders seen (.getById id user)) ∧
      ((∀ sent ∈ reply, Right s'.orders sent) ↔ Allowed s.orders seen (.getById id user)) := by
  cases hrow : s.orders.rows.lookup id with
  | none =>
    obtain ⟨error, hp, hs, hcached⟩ := loadNow_missing h.settled hrow (h.unknown id hrow)
    refine ⟨none, { s with loader := (s.loader.loadNow s.orders.batch id).2 }, ?_, rfl, ?_, ?_⟩
    · rw [handle, Loader.getById]
      dsimp only
      rw [hp]
      rfl
    · simp only [seenAfter, hrow]
      exact h.same rfl hs hcached
    · refine iff_of_true (by simp) ?_
      cases user with
      | none => exact trivial
      | some user => exact fun data hdata => by rw [hrow] at hdata; cases hdata
  | some data =>
    obtain ⟨s', hs', horders, hsettled, hcached⟩ := h.getById hrow user fuel
    refine ⟨_, s', by rw [handle, hs']; rfl, horders, ?_, ?_⟩
    · cases user with
      | none =>
        simp only [seenAfter, hrow]
        refine h.update horders hrow hsettled ?_ hcached
        cases seen id <;> rfl
      | some user =>
        simp only [seenAfter, hrow]
        refine h.update horders hrow hsettled ⟨_, rfl, ?_⟩ hcached
        exact AList.lookup_erase _ _
    · cases user with
      | none => exact iff_of_true (by simp) trivial
      | some user =>
        have hlookup := lookup_orderDto id { data with status := (seen id).status data.status }
        have hfresh := fresh_iff data
          ((lookup_put_erase _ user (by decide) (by decide)).trans hlookup.2.1)
          ((lookup_put_erase _ user (by decide) (by decide)).trans hlookup.2.2)
        rw [horders]
        constructor
        · intro hright data' hrow'
          rw [hrow] at hrow'
          cases hrow'
          obtain ⟨data', hrow', hsent⟩ := hright _ rfl
          rw [hrow] at hrow'
          cases hrow'
          exact unchanged_iff.mpr (hfresh.mp hsent)
        · rintro hallowed _ ⟨⟩
          exact ⟨data, hrow, hfresh.mpr (unchanged_iff.mp (hallowed data hrow))⟩

/-- A DTO that was not stripped names the user, and has the status it was loaded with. -/
theorem names_orderDto (id : String) (status : OrderStatus) :
    (Fresh data (orderDto id { data with status }) ∧
      (orderDto id { data with status }).lookup "userId" = some (.str data.userId)) ↔
      status = data.status := by
  obtain ⟨huser, hstatus, hamount⟩ := lookup_orderDto id { data with status }
  have hfresh : Fresh data (orderDto id { data with status }) ↔ status = data.status :=
    fresh_iff data hstatus hamount
  rw [hfresh, and_iff_left huser]

theorem right_response {orders : Orders} (hrow : orders.rows.lookup id = some data)
    (dto : JsonObject) :
    (∀ sent ∈ some (Reply.fetchOrderResponse id dto), Right orders sent) ↔
      Fresh data dto ∧ dto.lookup "userId" = some (.str data.userId) := by
  constructor
  · intro hsent
    obtain ⟨data', hrow', hfresh⟩ := hsent _ rfl
    rw [hrow] at hrow'
    cases hrow'
    exact hfresh
  · rintro hfresh _ ⟨⟩
    exact ⟨data, hrow, hfresh⟩

theorem allowed_fetchOrder {orders : Orders} (hrow : orders.rows.lookup id = some data) :
    Allowed orders seen (.fetchOrder id) ↔ seen id ≠ .answered ∧ Unchanged (seen id) data := by
  constructor
  · exact fun ha => ha data hrow
  · intro ha data' hrow'
    rw [hrow] at hrow'
    cases hrow'
    exact ha

/-- A response carries what the past has left, which names the user if no `getById` was answered. -/
theorem Simulates.handle_fetchOrder (h : Simulates s seen) (id : String) (fuel : Nat) :
    ∃ reply s', handle fuel s (.fetchOrder id) = some (reply, s') ∧
      s'.orders = s.orders ∧ Simulates s' (seenAfter s.orders seen (.fetchOrder id)) ∧
      ((∀ sent ∈ reply, Right s'.orders sent) ↔ Allowed s.orders seen (.fetchOrder id)) := by
  refine ⟨_, _, rfl, rfl, ?_, ?_⟩
  · cases hrow : s.orders.rows.lookup id with
    | none =>
      obtain ⟨error, -, hs, hcached⟩ := loadNow_missing h.settled hrow (h.unknown id hrow)
      simp only [seenAfter, hrow]
      exact h.same rfl hs hcached
    | some data =>
      obtain ⟨hs, -, -, hcached⟩ := loadNow_row h.settled hrow
      have hshows := h.known id data hrow
      simp only [seenAfter, hrow]
      refine h.update (by rfl) hrow hs ?_ hcached
      cases hseen : seen id with
      | never =>
        rw [hseen] at hshows
        rw [show s.loader.cached id = none from hshows]
        rfl
      | since status =>
        rw [hseen] at hshows
        rw [show s.loader.cached id = some (orderDto id { data with status }) from hshows]
        rfl
      | answered =>
        rw [hseen] at hshows
        obtain ⟨dto, hc, hn⟩ := hshows
        rw [hc]
        exact ⟨dto, rfl, hn⟩
  · change (∀ sent ∈ ((((s.loader.loadNow s.orders.batch id).2.promise?
      (s.loader.loadNow s.orders.batch id).1).bind Load.value?).map
        (Reply.fetchOrderResponse id)), Right s.orders sent) ↔ _
    cases hrow : s.orders.rows.lookup id with
    | none =>
      obtain ⟨error, hp, -, -⟩ := loadNow_missing h.settled hrow (h.unknown id hrow)
      rw [hp]
      exact iff_of_true (by simp [Load.value?]) fun data hdata => by rw [hrow] at hdata; cases hdata
    | some data =>
      obtain ⟨-, hp, -, -⟩ := loadNow_row h.settled hrow
      rw [hp]
      have hshows := h.known id data hrow
      refine (right_response hrow _).trans (Iff.trans ?_ (allowed_fetchOrder hrow).symm)
      cases hseen : seen id with
      | never =>
        rw [hseen] at hshows
        rw [show s.loader.cached id = none from hshows]
        refine iff_of_true ((names_orderDto id data.status).mpr rfl) ⟨by rintro ⟨⟩, ?_⟩
        exact unchanged_iff.mpr rfl
      | since status =>
        rw [hseen] at hshows
        rw [show s.loader.cached id = some (orderDto id { data with status }) from hshows]
        refine (names_orderDto id status).trans ?_
        rw [unchanged_iff]
        refine ⟨fun heq => ⟨by rintro ⟨⟩, heq⟩, And.right⟩
      | answered =>
        rw [hseen] at hshows
        obtain ⟨dto, hc, hn⟩ := hshows
        rw [hc]
        refine iff_of_false ?_ fun ha => ha.1 rfl
        rintro ⟨-, huser⟩
        rw [Option.getD_some, hn] at huser
        cases huser

/-- Whatever is asked, it is handled, and the reply agrees with the row if it is allowed. -/
theorem Simulates.handle (h : Simulates s seen) (request : Request) (fuel : Nat) :
    ∃ reply s', Loader.handle (fuel + 2) s request = some (reply, s') ∧
      s'.orders = ordersAfter s.orders request ∧
      Simulates s' (seenAfter s.orders seen request) ∧
      ((∀ sent ∈ reply, Right s'.orders sent) ↔ Allowed s.orders seen request) := by
  cases request with
  | getById id user => exact h.handle_getById id user fuel
  | fetchOrder id => exact h.handle_fetchOrder id (fuel + 2)
  | updateOrderStatus orderId targetStatus =>
    refine ⟨none, _, rfl, rfl, ⟨h.settled, ?_, ?_⟩, iff_of_true (by simp) trivial⟩
    · intro id data hrow
      have hrow : (s.orders.updateOrderStatus orderId targetStatus).rows.lookup id = some data :=
        hrow
      rw [Orders.lookup_updateOrderStatus] at hrow
      by_cases hid : id = orderId
      · subst hid
        rw [if_pos rfl] at hrow
        obtain ⟨data', hrow', rfl⟩ := Option.map_eq_some_iff.mp hrow
        exact (h.known id data' hrow').update_status targetStatus
      · rw [if_neg hid] at hrow
        exact h.known id data hrow
    · intro id hrow
      have hrow : (s.orders.updateOrderStatus orderId targetStatus).rows.lookup id = none := hrow
      rw [Orders.lookup_updateOrderStatus] at hrow
      by_cases hid : id = orderId
      · subst hid
        rw [if_pos rfl] at hrow
        exact h.unknown id (Option.map_eq_none_iff.mp hrow)
      · rw [if_neg hid] at hrow
        exact h.unknown id hrow

/-- From any state that shows the past: all replies are right if and only if all requests are
allowed. -/
theorem Simulates.allRight_iff (h : Simulates s seen) (requests : List Request) (fuel : Nat) :
    AllRight (fuel + 2) s requests ↔ Careful s.orders seen requests := by
  induction requests generalizing s seen with
  | nil => exact Iff.rfl
  | cons request requests ih =>
    obtain ⟨reply, s', hs', horders, hsim, hright⟩ := h.handle request fuel
    constructor
    · rintro ⟨reply', next, hnext, hsent, hrest⟩
      rw [hs'] at hnext
      cases hnext
      exact ⟨hright.mp hsent, horders ▸ (ih hsim).mp hrest⟩
    · rintro ⟨hallowed, hrest⟩
      exact ⟨reply, s', hs', hright.mpr hallowed, (ih hsim).mpr (horders ▸ hrest)⟩

end Simulates

/-- What the order service reports agrees with the rows if and only if no order is fetched right
after an answered `getById` of it, and every read that is answered finds the order with the status
it had at the first read since then. -/
theorem allRight_iff_careful (orders : Orders) (requests : List Request) (fuel : Nat) :
    AllRight (fuel + 2) ⟨orders, .new⟩ requests ↔ Careful orders (fun _ => .never) requests :=
  (simulates_new orders).allRight_iff requests fuel

/-- A pending order. -/
def pendingOrder : Orders where
  rows := AList.singleton "o1" { userId := "u1", totalAmount := 10, status := .PENDING }
  userId_ne := by
    intro id data h
    have hmem := AList.mem_lookup_iff.mp h
    cases List.mem_singleton.mp hmem
    decide

/-- A response that leaves out the user. -/
def omitsUser : Option Reply → Bool
  | some (.fetchOrderResponse _ message) => (message.lookup "userId").isNone
  | _ => false

/-- After an answered `getById` the response to a `FETCH_ORDER_REQUEST` names no user. -/
theorem fetched_without_user :
    ¬∀ (orders : Orders) (requests : List Request) (fuel : Nat),
      AllRight (fuel + 2) ⟨orders, .new⟩ requests := by
  intro h
  obtain ⟨reply, s, hs, -, reply', s', hs', hright, -⟩ :=
    h pendingOrder [.getById "o1" (some .null), .fetchOrder "o1"] 0
  have homits : ((handle 2 ⟨pendingOrder, .new⟩ (.getById "o1" (some .null))).bind fun first =>
      (handle 2 first.2 (.fetchOrder "o1")).map fun second => omitsUser second.1) = some true := by
    decide
  rw [hs, Option.bind_some, hs'] at homits
  cases reply' with
  | none => cases homits
  | some sent =>
    cases sent with
    | payload id payload => cases homits
    | fetchOrderResponse id message =>
      obtain ⟨data, -, -, huser⟩ := hright _ rfl
      have hnone : (message.lookup "userId").isNone = true := Option.some.inj homits
      rw [huser] at hnone
      cases hnone

end InvoiceHub.Loader
