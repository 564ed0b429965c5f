import InvoiceHub.Fetch.Answers
import InvoiceHub.Kafka.Handlers

/-!
# What a service that asks relies on

What a `getById` has sent are the references of its row, and what `handleResponse` has heard
answers a request that was published.  Each part of such a process keeps this, whatever it does.
-/

namespace InvoiceHub.Fetch

open Effects Cache Loader

/-! ## The invariant -/

/-- The response with a correlation id answers what was published with it. -/
def Replied (texts : Texts) (users : Rows) (orders : Table) (log : List (String × JsonObject)) (c : String)
    (message : Option Json) : Prop :=
  ∃ fetched id dto, message = some dto.toJson ∧ Asked texts log fetched c id ∧
    Answers users orders fetched id dto

/-- What holds of a process that asks, where `log` was published. -/
structure AskingOk (texts : Texts) (users : Rows) (orders : Table) (log : List (String × JsonObject))
    (service : Service) (a : Asking) : Prop where
  loader : Holds (Shows service a.table) a.calls.loader
  placed : Placed a.calls
  filled : Filled service a.table.rows
  kafka : Kafka.Sound a.kafka
  handled : Kafka.Handled a.kafka
  publishing : Kafka.Publishing a.kafka
  topics : ∀ args c, (args, c) ∈ a.kafka.asked → ∃ fetched : Fetched,
    args.requestTopic = fetched.requestTopic ∧ args.responseTopic = fetched.responseTopic
  heard : ∀ c message, .response c message ∈ a.kafka.history →
    Replied texts users orders log c message
  awaited : ∀ i k, (i, k) ∈ a.awaited → ∃ c row call, a.calls.calls[i]? = some c ∧
    a.table.rows.lookup c.id = some row ∧ a.kafka.calls[k]? = some call ∧
    call.args = buildKafkaRequestOptionsHelper texts service row
  payloads : ∀ i payload, (i, payload) ∈ a.payloads → ∃ c, a.calls.calls[i]? = some c ∧
    Joined users orders service a.table c.id payload

section Asking

variable {texts : Texts} {users : Rows} {orders orders' : Table}
  {log log' : List (String × JsonObject)} {service : Service} {a a' : Asking}

theorem askingOk_initial : AskingOk texts users orders log service {} where
  loader := holds_new
  placed _ hc := nomatch hc
  filled _ _ hrow := nomatch hrow
  kafka := Kafka.sound_reachable .refl
  handled := Kafka.handled_initial
  publishing := Kafka.publishing_initial
  topics _ _ hmem := nomatch hmem
  heard _ _ hmem := nomatch hmem
  awaited _ _ hmem := nomatch hmem
  payloads _ _ hmem := nomatch hmem

/-- More is published, and orders are written. -/
theorem AskingOk.grows (h : AskingOk texts users orders log service a)
    (added : List (String × JsonObject)) (ho : Extends orders orders') :
    AskingOk texts users orders' (log ++ added) service a :=
  { h with
    heard := by
      intro c message hmem
      obtain ⟨fetched, id, dto, hmessage, hasked, hanswers⟩ := h.heard c message hmem
      exact ⟨fetched, id, dto, hmessage, hasked.append added, hanswers.extends ho⟩
    payloads := by
      intro i payload hmem
      obtain ⟨c, hc, hjoined⟩ := h.payloads i payload hmem
      exact ⟨c, hc, hjoined.extends ho (.refl _)⟩ }

/-- The table is written. -/
theorem AskingOk.write (h : AskingOk texts users orders log service a) {table : Table}
    (he : Extends a.table table) (hf : Filled service table.rows) :
    AskingOk texts users orders log service { a with table } :=
  { h with
    loader := h.loader.imp fun id dto hshows => shows_extends hshows he
    filled := hf
    awaited := by
      intro i k hmem
      obtain ⟨c, row, call, hc, hrow, hcall, hargs⟩ := h.awaited i k hmem
      obtain ⟨row', hrow', hsame⟩ := he.rows c.id row hrow
      refine ⟨c, row', call, hc, hrow', hcall,
        hargs.trans (List.map_congr_left fun fetched _ => ?_)⟩
      rw [hsame fetched.field (by cases fetched <;> decide)]
    payloads := by
      intro i payload hmem
      obtain ⟨c, hc, hjoined⟩ := h.payloads i payload hmem
      exact ⟨c, hc, hjoined.extends (.refl _) he⟩ }

/-! ## Calls of getById -/

/-- Calls keep their places and their ids. -/
def IdsKept (calls calls' : List Loader.Call) : Prop :=
  ∀ (i : Nat) c, calls[i]? = some c → ∃ c', calls'[i]? = some c' ∧ c'.id = c.id

/-- What is done to the calls and their loader. -/
theorem AskingOk.withCalls (h : AskingOk texts users orders log service a) {calls : Calls}
    (hl : Holds (Shows service a.table) calls.loader) (hp : Placed calls)
    (hi : IdsKept a.calls.calls calls.calls) :
    AskingOk texts users orders log service { a with calls } :=
  { h with
    loader := hl
    placed := hp
    awaited := by
      intro i k hmem
      obtain ⟨c, row, call, hc, hrow, hcall, hargs⟩ := h.awaited i k hmem
      obtain ⟨c', hc', hid⟩ := hi i c hc
      exact ⟨c', row, call, hc', hid ▸ hrow, hcall, hargs⟩
    payloads := by
      intro i payload hmem
      obtain ⟨c, hc, hjoined⟩ := h.payloads i payload hmem
      obtain ⟨c', hc', hid⟩ := hi i c hc
      exact ⟨c', hc', hid ▸ hjoined⟩ }

theorem AskingOk.getById (h : AskingOk texts users orders log service a) (id : String) :
    AskingOk texts users orders log service (a.getById id) := by
  refine h.withCalls h.loader ?_ ?_
  · intro c hc promise hp
    rcases List.mem_append.mp hc with hc | hc
    · exact h.placed c hc promise hp
    · cases List.mem_singleton.mp hc
      cases hp
  · intro i c hc
    have hlt := (List.getElem?_eq_some_iff.mp hc).1
    exact ⟨c, (List.getElem?_append_left hlt).trans hc, rfl⟩

theorem idsKept_fire (h : AskingOk texts users orders log service a) {label : Loader.Label}
    {calls : Calls} (hf : a.calls.fire service a.table.rows label = some calls) :
    IdsKept a.calls.calls calls.calls := by
  intro j c hc
  rcases Calls.fire_calls h.loader h.placed hf with heq | ⟨i, old, new, hold, heq, hid, -⟩
  · exact ⟨c, heq ▸ hc, rfl⟩
  · rw [heq]
    by_cases hj : j = i
    · subst hj
      rw [hold] at hc
      cases hc
      exact ⟨new, List.getElem?_set_self (List.getElem?_eq_some_iff.mp hold).1, hid⟩
    · exact ⟨c, (List.getElem?_set_ne (Ne.symm hj)).trans hc, rfl⟩

/-- A step of the calls of `getById`. -/
theorem AskingOk.calls_fire (h : AskingOk texts users orders log service a)
    {label : Loader.Label} {calls : Calls} (hf : a.calls.fire service a.table.rows label = some calls) :
    AskingOk texts users orders log service { a with calls } :=
  h.withCalls (holds_of_touches (Calls.fire_touches hf) h.loader).1
    (h.placed.fire h.loader hf) (idsKept_fire h hf)

/-- What others do to the loader. -/
theorem AskingOk.withLoader (h : AskingOk texts users orders log service a)
    {loader : DataLoader String JsonObject String}
    (ht : Touches (Shows service a.table) a.calls.loader loader) :
    AskingOk texts users orders log service { a with calls := { a.calls with loader } } :=
  h.withCalls (ht.holds h.loader) (h.placed.keysKept (ht.keysKept h.loader))
    fun _ c hc => ⟨c, hc, rfl⟩

/-! ## Requests and responses -/

/-- A step of `KafkaInfrastructure` that asks on the topics of requests, and hears what answers a
request. -/
theorem AskingOk.kafka_fire (h : AskingOk texts users orders log service a) {label : Kafka.Label}
    {kafka : Kafka.Infrastructure} (hf : a.kafka.fire label = some kafka)
    (ha : ∀ args c, (args, c) ∈ label.asks → ∃ fetched : Fetched,
      args.requestTopic = fetched.requestTopic ∧ args.responseTopic = fetched.responseTopic)
    (hm : ∀ groupId topic value c message, label = .message groupId topic (some value) →
      Kafka.Consumes a.kafka topic →
      Kafka.Infrastructure.parseResponse value = some (some (.str c), message) →
        Replied texts users orders log c message) :
    AskingOk texts users orders log service { a with kafka } := by
  have htells := h.kafka.tells hf
  exact { h with
    kafka := h.kafka.fire hf
    handled := h.handled.fire h.kafka hf
    publishing := h.publishing.fire h.kafka hf
    topics := by
      intro args c hmem
      have hmem : (args, c) ∈ kafka.asked := hmem
      rw [htells.asked] at hmem
      rcases List.mem_append.mp hmem with hmem | hmem
      · exact h.topics args c hmem
      · exact ha args c hmem
    heard := by
      intro c message hmem
      rcases htells.heard c message hmem with hmem | ⟨groupId, topic, value, rfl, hc, hparse⟩
      · exact h.heard c message hmem
      · exact hm groupId topic value c message rfl hc hparse
    awaited := by
      intro i k hmem
      obtain ⟨c, row, call, hc, hrow, hcall, hargs⟩ := h.awaited i k hmem
      refine ⟨c, row, call, hc, hrow, ?_, hargs⟩
      have hlt := (List.getElem?_eq_some_iff.mp hcall).1
      rw [htells.calls, List.getElem?_append_left hlt, hcall] }

/-- What a request asks is on the topics of what is fetched. -/
theorem topics_of_build {dto : JsonObject} {ids : List String} {args : Kafka.KafkaRequestOptions}
    {c : String}
    (hmem : (args, c) ∈ (buildKafkaRequestOptionsHelper texts service dto).zip ids) :
    ∃ fetched : Fetched, args.requestTopic = fetched.requestTopic ∧
      args.responseTopic = fetched.responseTopic := by
  obtain ⟨fetched, -, rfl⟩ := List.mem_map.mp (List.of_mem_zip hmem).1
  exact ⟨fetched, rfl, rfl⟩

/-- A call that has sent its requests found all references in its DTO. -/
theorem requested_of_resume {calls : Calls} {i promise : Nat} {id : String} {reloads : List Nat}
    {sent : List (String × JsonObject)}
    (hf : a.calls.fire service a.table.rows (.resume i) = some calls)
    (hc : calls.calls[i]? = some ⟨id, .requested promise, reloads, sent⟩) :
    calls.loader = a.calls.loader ∧ ∃ dto, a.calls.loader.promise? promise = some (.resolved dto) ∧
      service.complete dto = true := by
  dsimp only [Calls.fire] at hf
  split at hf
  · rename_i id' promise' reloads' sent' hget
    have hself : ∀ c : Loader.Call, (a.calls.calls.set i c)[i]? = some c :=
      fun c => List.getElem?_set_self (List.getElem?_eq_some_iff.mp hget).1
    split at hf
    · rename_i dto hdto
      split at hf
      · rename_i hcomplete
        cases hf
        have heq := Option.some_inj.mp ((hself _).symm.trans hc)
        cases heq
        exact ⟨rfl, dto, hdto, hcomplete⟩
      · cases hf
        cases Option.some_inj.mp ((hself _).symm.trans hc)
    · cases hf
      cases Option.some_inj.mp ((hself _).symm.trans hc)
    · cases hf
  · cases hf

/-- A complete DTO has the references of its row. -/
theorem references_of_complete {id : String} {dto : JsonObject} {table : Table}
    (hs : Shows service table id dto) (hc : service.complete dto = true) :
    ∃ row, table.rows.lookup id = some row ∧
      ∀ fetched ∈ fetches service, dto.lookup fetched.field = row.lookup fetched.field := by
  obtain ⟨version, ⟨-, row, hrow, hversion⟩, hfields⟩ := hs
  refine ⟨row, hrow, fun fetched hmem => ?_⟩
  have href : (fetched.requestTopic, fetched.field) ∈ service.references := by
    rw [references_eq]
    exact List.mem_map_of_mem hmem
  rcases hfields fetched.field (Service.exposes href) with hsame | ⟨-, hnone⟩
  · rw [hsame, hversion fetched.field (by cases fetched <;> decide)]
  · have htruthy : Json.truthy (dto.lookup fetched.field) = true :=
      List.all_eq_true.mp hc _ href
    rw [hnone] at htruthy
    cases htruthy

/-- A call goes on with its DTO. -/
theorem AskingOk.resume (h : AskingOk texts users orders log service a) {call : Nat}
    {correlationIds : List String}
    (hf : a.resume texts service call correlationIds = some a') :
    AskingOk texts users orders log service a' := by
  obtain ⟨calls, hcalls, hf⟩ := Option.bind_eq_some_iff.mp hf
  have hok := h.calls_fire hcalls
  split at hf
  · rename_i id promise reloads sent hget
    split at hf
    · rename_i dto hdto
      obtain ⟨kafka, hkafka, hf⟩ := Option.bind_eq_some_iff.mp hf
      cases hf
      have hnext := hok.kafka_fire hkafka (fun args c hmem => topics_of_build hmem)
        (fun groupId topic value c message hlabel => nomatch hlabel)
      obtain ⟨hloader, dto', hdto', hcomplete⟩ := requested_of_resume hcalls hget
      rw [hloader, hdto'] at hdto
      cases hdto
      have hkey := hok.placed _ (List.mem_of_getElem? hget) promise rfl
      have hshows : Shows service a.table id dto := by
        refine hok.loader.value hkey ?_
        rw [show ({ a with calls } : Asking).calls.loader = a.calls.loader from hloader]
        exact hdto'
      obtain ⟨row, hrow, hrefs⟩ := references_of_complete hshows hcomplete
      exact { hnext with
        awaited := by
          intro i k hmem
          rcases List.mem_append.mp hmem with hmem | hmem
          · exact hnext.awaited i k hmem
          · cases List.mem_singleton.mp hmem
            have hlast : kafka.calls[a.kafka.calls.length]? = some
                { args := buildKafkaRequestOptionsHelper texts service dto
                  promises := List.range' a.kafka.requests.length
                    (buildKafkaRequestOptionsHelper texts service dto).length } := by
              rw [(hok.kafka.tells hkafka).calls,
                List.getElem?_append_right (Nat.le_refl _), Nat.sub_self]
              rfl
            have hargs : buildKafkaRequestOptionsHelper texts service dto =
                buildKafkaRequestOptionsHelper texts service row :=
              List.map_congr_left fun fetched hmem => by rw [hrefs fetched hmem]
            exact ⟨_, row, _, hget, hrow, hlast, hargs⟩ }
    · cases hf
  · split at hf
    · cases hf
      exact hok
    · cases hf

theorem AskingOk.load (h : AskingOk texts users orders log service a) {label : Loader.Label}
    (hf : a.load service label = some a') : AskingOk texts users orders log service a' := by
  cases label with
  | begin call =>
    obtain ⟨calls, hcalls, rfl⟩ := Option.map_eq_some_iff.mp hf
    exact h.calls_fire hcalls
  | settle promise =>
    obtain ⟨calls, hcalls, rfl⟩ := Option.map_eq_some_iff.mp hf
    exact h.calls_fire hcalls
  | fail promise error =>
    obtain ⟨calls, hcalls, rfl⟩ := Option.map_eq_some_iff.mp hf
    exact h.calls_fire hcalls
  | _ => cases hf

theorem AskingOk.drive (h : AskingOk texts users orders log service a) {label : Kafka.Label}
    (hf : a.drive label = some a') : AskingOk texts users orders log service a' := by
  cases label with
  | connected =>
    have hf : (a.kafka.fire .connected).map (fun kafka => { a with kafka }) = some a' := hf
    obtain ⟨kafka, hkafka, rfl⟩ := Option.map_eq_some_iff.mp hf
    exact h.kafka_fire hkafka (fun _ _ hmem => nomatch hmem) (fun _ _ _ _ _ hl => nomatch hl)
  | answer i answer =>
    obtain ⟨kafka, hkafka, rfl⟩ := Option.map_eq_some_iff.mp hf
    exact h.kafka_fire hkafka (fun _ _ hmem => nomatch hmem) (fun _ _ _ _ _ hl => nomatch hl)
  | timeout i =>
    obtain ⟨kafka, hkafka, rfl⟩ := Option.map_eq_some_iff.mp hf
    exact h.kafka_fire hkafka (fun _ _ hmem => nomatch hmem) (fun _ _ _ _ _ hl => nomatch hl)
  | _ => cases hf

end Asking

end InvoiceHub.Fetch
