import InvoiceHub.Fetch.Joined

/-!
# Payloads

Every step of the network keeps its invariant (`Ok.fire`), so payloads are joined as the references
say in every run.
-/

namespace InvoiceHub.Fetch

open Effects Cache Loader
open Services (OrderData Invoice)

section Network

variable {texts : Texts} {users : Rows} {s s' : Network} {service : Service} {a : Asking}
  {fetched : Fetched}

@[simp] theorem handlers_withLoader {loader : DataLoader String JsonObject String} :
    (s.withLoader loader fetched).handlers = s.handlers := by
  cases fetched <;> rfl

@[simp] theorem log_withLoader {loader : DataLoader String JsonObject String} :
    (s.withLoader loader fetched).log = s.log := by
  cases fetched <;> rfl

@[simp] theorem loader_withLoader {loader : DataLoader String JsonObject String} :
    (s.withLoader loader fetched).loader fetched = loader := by
  cases fetched <;> rfl

/-! ## Steps -/

/-- A process is resumed: what it asks draws correlation ids of its own. -/
theorem Ok.resume (h : Ok texts users s) {call : Nat} {correlationIds : List String}
    (hnew : ∀ id ∈ correlationIds, id ∉ s.correlationIds)
    (hf : (s.asking service).resume texts service call correlationIds = some a) :
    Ok texts users { s.withAsking service a with
      correlationIds := s.correlationIds ++ correlationIds } := by
  have hok := (h.asking service).resume hf
  obtain ⟨added, hasked, hadded, hrows, hkept⟩ : ∃ added,
      a.kafka.asked = (s.asking service).kafka.asked ++ added ∧
      (∀ args c, (args, c) ∈ added → c ∈ correlationIds) ∧
      a.table = (s.asking service).table ∧
      KeysKept (s.asking service).calls.loader a.calls.loader := by
    obtain ⟨calls, hcalls, hf⟩ := Option.bind_eq_some_iff.mp hf
    have hkept := (holds_of_touches (Calls.fire_touches hcalls) (h.asking service).loader).2
    split at hf
    · split at hf
      · obtain ⟨kafka, hkafka, hf⟩ := Option.bind_eq_some_iff.mp hf
        cases hf
        exact ⟨_, ((h.asking service).kafka.tells hkafka).asked,
          fun args c hmem => (List.of_mem_zip hmem).2, rfl, hkept⟩
      · cases hf
    · split at hf
      · cases hf
        refine ⟨[], (List.append_nil _).symm, ?_, rfl, hkept⟩
        intro args c hmem
        cases hmem
      · cases hf
  have hcases : ∀ service' args c,
      (args, c) ∈ ((s.withAsking service a).asking service').kafka.asked →
        (args, c) ∈ (s.asking service').kafka.asked ∨ service' = service ∧ c ∈ correlationIds := by
    intro service' args c hmem
    by_cases hs : service' = service
    · subst hs
      rw [asking_withAsking_self, hasked] at hmem
      exact (List.mem_append.mp hmem).imp_right fun hmem => ⟨rfl, hadded args c hmem⟩
    · rw [asking_withAsking_of_ne hs] at hmem
      exact .inl hmem
  have hrows : Extends (s.asking service).table a.table := hrows ▸ .refl _
  have horders := orders_withAsking hrows
  exact {
    asking := by
      intro service'
      by_cases hs : service' = service
      · subst hs
        have hgrown := hok.grows [] horders
        rw [List.append_nil] at hgrown
        change AskingOk texts users _ s.log service' ((s.withAsking service' a).asking service')
        rw [asking_withAsking_self]
        exact hgrown
      · have hgrown := (h.asking service').grows [] horders
        rw [List.append_nil] at hgrown
        change AskingOk texts users _ s.log service' ((s.withAsking service a).asking service')
        rw [asking_withAsking_of_ne hs]
        exact hgrown
    userLoader := h.userLoader
    drawn := by
      intro service' args c hmem
      rcases hcases service' args c hmem with hmem | ⟨-, hmem⟩
      · exact List.mem_append_left _ (h.drawn service' args c hmem)
      · exact List.mem_append_right _ hmem
    apart := by
      intro service₁ service₂ args args' c hmem hmem'
      rcases hcases _ _ _ hmem with hmem | ⟨rfl, hc⟩
      · rcases hcases _ _ _ hmem' with hmem' | ⟨-, hc⟩
        · exact h.apart _ _ _ _ _ hmem hmem'
        · exact absurd (h.drawn _ _ _ hmem) (hnew c hc)
      · rcases hcases _ _ _ hmem' with hmem' | ⟨rfl, -⟩
        · exact absurd (h.drawn _ _ _ hmem') (hnew c hc)
        · rfl
    log := by
      intro record hmem
      refine (h.log record hmem).grows horders (List.append_nil _).symm
        (fun c hc => List.mem_append_left _ hc) fun service' args c hc hmem => ?_
      rcases hcases service' args c hmem with hmem | ⟨-, hnew'⟩
      · exact hmem
      · exact absurd hc (hnew c hnew')
    handlers := by
      intro fetched handler hmem
      exact (h.handlers fetched handler hmem).grows (loader_withAsking hkept fetched) horders
        (List.append_nil _).symm }

/-- What an executor publishes is its request. -/
theorem Ok.publish (h : Ok texts users s) {i : Nat} {record : String × JsonObject}
    (hp : (s.asking service).publishing i = some record) :
    Ok texts users { s with log := s.log ++ [record] } := by
  have hok := h.asking service
  unfold Asking.publishing at hp
  split at hp
  · rename_i args c timeout promise topicName message hget
    cases hp
    have hmem := List.mem_of_getElem? hget
    obtain ⟨htopicName, htext⟩ := hok.publishing _ hmem topicName message rfl
    dsimp only at htopicName htext
    rw [htopicName, htext]
    have hasked : (args, c) ∈ (s.asking service).kafka.asked := List.mem_map.mpr ⟨_, hmem, rfl⟩
    obtain ⟨fetched, htopic, -⟩ := hok.topics args c hasked
    refine h.append_record ⟨fun fetched' _ => ?_, fun fetched' ht => ?_⟩
    · refine ⟨c, args.message, rfl, h.drawn service args c hasked, fun service' args' hmem' => ?_⟩
      obtain rfl := h.args_unique hmem' hasked
      exact ⟨rfl, rfl⟩
    · exact absurd (htopic.symm.trans ht) (Fetched.requestTopic_ne_responseTopic _ _)
  · cases hp

/-- A request that comes from elsewhere has a correlation id of its own. -/
theorem Ok.elsewhere (h : Ok texts users s) {c : String} (hc : c ∉ s.correlationIds)
    (text : String) :
    Ok texts users { s with
      log := s.log ++ [(fetched.requestTopic, requestMessage c text)]
      correlationIds := s.correlationIds ++ [c] } := by
  refine h.append ⟨fun fetched' _ => ?_, fun fetched' ht => ?_⟩
  · refine ⟨c, text, rfl, List.mem_append_right _ (List.mem_singleton.mpr rfl), ?_⟩
    intro service args hmem
    exact absurd (h.drawn service args c hmem) hc
  · exact absurd ht (Fetched.requestTopic_ne_responseTopic _ _)

/-- What a consumer gets on a topic of responses answers what was published. -/
theorem Ok.receive (h : Ok texts users s) {index : Nat} {topic groupId : String}
    {message : JsonObject} (hlog : s.log[index]? = some (topic, message))
    (hf : (s.asking service).receive groupId topic message.toJson = some a) :
    Ok texts users (s.withAsking service a) := by
  have hok := h.asking service
  obtain ⟨kafka, hkafka, rfl⟩ := Option.map_eq_some_iff.mp hf
  have hasked := (hok.kafka.tells hkafka).asked
  refine h.moves (hok.kafka_fire hkafka (fun _ _ hmem => nomatch hmem) ?_) rfl
    (hasked.trans (List.append_nil _)) (keysKept_refl _)
  rintro groupId' topic' value c response ⟨⟩ ⟨groupId'', consumer, i, hconsumer, hhandler⟩ hparse
  obtain ⟨args, c', hget, rfl⟩ := hok.handled groupId'' consumer topic i hconsumer hhandler
  obtain ⟨fetched, -, hresponse⟩ := hok.topics args c' (List.mem_of_getElem? hget)
  obtain ⟨c'', hid, hreplied⟩ :=
    (h.log _ (List.mem_of_getElem? hlog)).response fetched hresponse
  rw [parseResponse_toJson] at hparse
  obtain ⟨hcorrelation, rfl⟩ := Prod.mk.injEq .. ▸ Option.some_inj.mp hparse
  rw [hid] at hcorrelation
  cases hcorrelation
  exact hreplied

/-- `getBy` gets a request. -/
theorem Ok.handle (h : Ok texts users s) {index : Nat} {message : JsonObject}
    (hlog : s.log[index]? = some (fetched.requestTopic, message))
    {correlationId : Option Json} {id : String}
    (hparse : parseRequest texts fetched message.toJson = some (correlationId, id)) :
    Ok texts users ((s.withLoader ((s.loader fetched).load id).2 fetched).withHandlers fetched
      (s.handlers fetched ++ [⟨correlationId, .loading ((s.loader fetched).load id).1⟩])) := by
  have hmem := List.mem_of_getElem? hlog
  obtain ⟨c, text, rfl, -, -⟩ := (h.log _ hmem).request fetched rfl
  obtain rfl := parseRequest_requestMessage hparse
  have hloaded := h.withLoader fetched (.load id)
  refine hloaded.withHandlers fun handler hh => ?_
  rcases List.mem_append.mp hh with hh | hh
  · refine hloaded.handlers fetched handler ?_
    rwa [handlers_withLoader]
  · cases List.mem_singleton.mp hh
    refine ⟨c, id, rfl, ⟨text, ?_, hparse⟩, ?_, ?_⟩
    · rwa [log_withLoader]
    · rintro promise ⟨⟩
      rw [loader_withLoader]
      exact (h.loader fetched).promise id
    · rintro dto ⟨⟩

/-- What a `getBy` awaits is there. -/
theorem Ok.stringify (h : Ok texts users s) {handler : Nat} {correlationId : Option Json}
    {promise : Nat} {dto : JsonObject}
    (hh : (s.handlers fetched)[handler]? = some ⟨correlationId, .loading promise⟩)
    (hdto : (s.loader fetched).promise? promise = some (.resolved dto)) :
    Ok texts users (s.withHandlers fetched
      ((s.handlers fetched).set handler ⟨correlationId, .publishing dto⟩)) := by
  refine h.withHandlers fun handler' hmem => ?_
  rcases List.mem_or_eq_of_mem_set hmem with hmem | rfl
  · exact h.handlers fetched handler' hmem
  · obtain ⟨c, id, hid, hasked, hloading, -⟩ :=
      (h.handlers fetched _ (List.mem_of_getElem? hh)).request
    refine ⟨c, id, hid, hasked, ?_, ?_⟩
    · rintro promise' ⟨⟩
    · rintro dto' ⟨⟩
      exact (h.loader fetched).value (hloading promise rfl) hdto

/-- What a `getBy` publishes answers its request. -/
theorem Ok.respond (h : Ok texts users s) {correlationId : Option Json} {dto : JsonObject}
    (hmem : ⟨correlationId, .publishing dto⟩ ∈ s.handlers fetched) :
    Ok texts users { s with
      log := s.log ++ [(fetched.responseTopic, responseMessage correlationId dto)] } := by
  obtain ⟨c, id, hid, hasked, -, hpublishing⟩ := (h.handlers fetched _ hmem).request
  obtain ⟨hcorrelation, hmessage⟩ := lookup_responseMessage correlationId dto
  refine h.append_record ⟨fun fetched' ht => ?_, fun fetched' ht => ?_⟩
  · exact absurd ht.symm (Fetched.requestTopic_ne_responseTopic _ _)
  · exact ⟨c, hcorrelation.trans hid, fetched, id, dto, hmessage, hasked.append _,
      hpublishing dto rfl⟩

/-- The auth service answers a batch. -/
theorem Ok.settleUser (h : Ok texts users s) {promise : Nat}
    (hf : Network.fire texts users s (.settleUser promise) = some s') : Ok texts users s' := by
  dsimp only [Network.fire] at hf
  split at hf
  · rename_i key hget
    split at hf
    · rename_i row hrow
      cases hf
      exact h.withLoader .user (.resolve hget ⟨row, hrow, rfl⟩)
    · cases hf
      exact (h.withLoader .user (.reject promise _)).withLoader .user (.clear key)
  · cases hf

theorem Ok.failUser (h : Ok texts users s) {promise : Nat} {error : String}
    (hf : Network.fire texts users s (.failUser promise error) = some s') :
    Ok texts users s' := by
  dsimp only [Network.fire] at hf
  split at hf
  · rename_i key hget
    cases hf
    exact (h.withLoader .user (.reject promise error)).withLoader .user (.clear key)
  · cases hf

/-! ## Tables -/

theorem Ok.insertOrder (h : Ok texts users s) {id : String} {data : OrderData}
    (hf : Network.fire texts users s (.insertOrder id data) = some s') : Ok texts users s' := by
  dsimp only [Network.fire] at hf
  split at hf
  · rename_i hnew
    cases hf
    have hnone := Option.isNone_iff_eq_none.mp hnew.1
    refine h.write (extends_write fun old hold => ?_) ((h.asking _).filled.insert ?_ ?_)
    · rw [hnone] at hold
      cases hold
    · simp [orderRow, JsonObject.lookup_put]
    · intro fetched hmem
      cases List.mem_singleton.mp hmem
      exact ⟨data.userId, by simp [orderRow, Fetched.field, JsonObject.lookup_put]⟩
  · cases hf

theorem Ok.updateOrderStatus (h : Ok texts users s) {id : String} {targetStatus : OrderStatus}
    (hf : Network.fire texts users s (.updateOrderStatus id targetStatus) = some s') :
    Ok texts users s' := by
  obtain ⟨row, hrow, rfl⟩ := Option.map_eq_some_iff.mp hf
  have hkeep : ∀ field, field ≠ "status" →
      (row.put "status" (some (.str targetStatus.value))).lookup field = row.lookup field :=
    fun field hne => JsonObject.lookup_put_of_ne _ _ hne
  obtain ⟨hid, hrefs⟩ := (h.asking .OrderService).filled id row hrow
  refine h.write (extends_write fun old hold => ?_) ((h.asking _).filled.insert ?_ ?_)
  · rw [hrow] at hold
    cases hold
    exact hkeep
  · rw [hkeep _ (by decide), hid]
  · intro fetched hmem
    obtain ⟨ref, href⟩ := hrefs fetched hmem
    exact ⟨ref, by rw [hkeep _ (by cases fetched <;> decide), href]⟩

theorem Ok.insertInvoice (h : Ok texts users s) {invoice : Invoice}
    (hf : Network.fire texts users s (.insertInvoice invoice) = some s') : Ok texts users s' := by
  dsimp only [Network.fire] at hf
  split at hf
  · rename_i hnew
    cases hf
    have hnone := Option.isNone_iff_eq_none.mp hnew.1
    refine h.write (extends_write fun old hold => ?_) ((h.asking _).filled.insert ?_ ?_)
    · rw [hnone] at hold
      cases hold
    · simp [invoiceRow, JsonObject.lookup_put]
    · intro fetched hmem
      cases fetched with
      | user => exact ⟨invoice.userId, by simp [invoiceRow, Fetched.field, JsonObject.lookup_put]⟩
      | order => exact ⟨invoice.orderId, by simp [invoiceRow, Fetched.field, JsonObject.lookup_put]⟩
  · cases hf

/-! ## Calls of getById -/

theorem Ok.getById (h : Ok texts users s) (service : Service) (id : String) :
    Ok texts users (s.withAsking service ((s.asking service).getById id)) :=
  h.moves ((h.asking service).getById id) rfl rfl (keysKept_refl _)

/-- A step of the calls of `getById` that neither asks nor returns. -/
theorem Ok.calls (h : Ok texts users s) {label : Loader.Label} {calls : Calls}
    (hf : (s.asking service).calls.fire service (s.asking service).table.rows label = some calls) :
    Ok texts users (s.withAsking service { s.asking service with calls }) :=
  h.moves ((h.asking service).calls_fire hf) rfl rfl
    (holds_of_touches (Calls.fire_touches hf) (h.asking service).loader).2

theorem Ok.load (h : Ok texts users s) {label : Loader.Label}
    (hf : (s.asking service).load service label = some a) :
    Ok texts users (s.withAsking service a) := by
  cases label with
  | begin call =>
    obtain ⟨calls, hcalls, rfl⟩ := Option.map_eq_some_iff.mp hf
    exact h.calls hcalls
  | settle promise =>
    obtain ⟨calls, hcalls, rfl⟩ := Option.map_eq_some_iff.mp hf
    exact h.calls hcalls
  | fail promise error =>
    obtain ⟨calls, hcalls, rfl⟩ := Option.map_eq_some_iff.mp hf
    exact h.calls hcalls
  | _ => cases hf

/-- A step of `KafkaInfrastructure` that neither asks nor gets a message. -/
theorem Ok.kafka (h : Ok texts users s) {label : Kafka.Label} {kafka : Kafka.Infrastructure}
    (hf : (s.asking service).kafka.fire label = some kafka) (ha : label.asks = [])
    (hm : ∀ groupId topic value, label ≠ .message groupId topic value) :
    Ok texts users (s.withAsking service { s.asking service with kafka }) := by
  have hok := h.asking service
  have hasked := (hok.kafka.tells hf).asked
  rw [ha, List.append_nil] at hasked
  refine h.moves (hok.kafka_fire hf (fun args c hmem => ?_) fun groupId topic _ _ _ hl => ?_) rfl
    hasked (keysKept_refl _)
  · rw [ha] at hmem
    cases hmem
  · exact absurd hl (hm groupId topic _)

theorem Ok.drive (h : Ok texts users s) {label : Kafka.Label}
    (hf : (s.asking service).drive label = some a) : Ok texts users (s.withAsking service a) := by
  cases label with
  | connected =>
    have hf : ((s.asking service).kafka.fire .connected).map
      (fun kafka => { s.asking service with kafka }) = some a := hf
    obtain ⟨kafka, hkafka, rfl⟩ := Option.map_eq_some_iff.mp hf
    exact h.kafka hkafka rfl (fun _ _ _ heq => by cases heq)
  | answer i answer =>
    obtain ⟨kafka, hkafka, rfl⟩ := Option.map_eq_some_iff.mp hf
    exact h.kafka hkafka rfl (fun _ _ _ heq => by cases heq)
  | timeout i =>
    obtain ⟨kafka, hkafka, rfl⟩ := Option.map_eq_some_iff.mp hf
    exact h.kafka hkafka rfl (fun _ _ _ heq => by cases heq)
  | _ => cases hf

/-! ## Runs -/

theorem Ok.fire (h : Ok texts users s) {label : Label}
    (hf : Network.fire texts users s label = some s') : Ok texts users s' := by
  cases label with
  | insertOrder id data => exact h.insertOrder hf
  | updateOrderStatus id targetStatus => exact h.updateOrderStatus hf
  | insertInvoice invoice => exact h.insertInvoice hf
  | getById service id =>
    cases hf
    exact h.getById service id
  | load service label =>
    obtain ⟨a, ha, rfl⟩ := Option.map_eq_some_iff.mp hf
    exact h.load ha
  | resume service call correlationIds =>
    dsimp only [Network.fire] at hf
    split at hf
    · rename_i hnew
      obtain ⟨a, ha, rfl⟩ := Option.map_eq_some_iff.mp hf
      exact h.resume hnew ha
    · cases hf
  | answer service call =>
    obtain ⟨a, ha, rfl⟩ := Option.map_eq_some_iff.mp hf
    exact h.answer ha
  | reject service call =>
    obtain ⟨a, ha, rfl⟩ := Option.map_eq_some_iff.mp hf
    obtain ⟨awaited, -, ha⟩ := Option.bind_eq_some_iff.mp ha
    obtain ⟨requests, -, ha⟩ := Option.bind_eq_some_iff.mp ha
    split at ha
    · obtain ⟨calls, hcalls, ha⟩ := Option.bind_eq_some_iff.mp ha
      cases ha
      exact h.calls hcalls
    · cases ha
  | drive service label =>
    obtain ⟨a, ha, rfl⟩ := Option.map_eq_some_iff.mp hf
    exact h.drive ha
  | publish service i =>
    obtain ⟨record, hrecord, rfl⟩ := Option.map_eq_some_iff.mp hf
    exact h.publish hrecord
  | receive service groupId index =>
    obtain ⟨⟨topic, message⟩, hlog, hf⟩ := Option.bind_eq_some_iff.mp hf
    obtain ⟨a, ha, rfl⟩ := Option.map_eq_some_iff.mp hf
    exact h.receive hlog ha
  | elsewhere fetched correlationId message =>
    dsimp only [Network.fire] at hf
    split at hf
    · cases hf
    · rename_i hnew
      cases hf
      exact h.elsewhere hnew message
  | handle fetched index =>
    obtain ⟨⟨topic, message⟩, hlog, hf⟩ := Option.bind_eq_some_iff.mp hf
    dsimp only at hf
    split at hf
    · rename_i htopic
      subst htopic
      obtain ⟨⟨correlationId, id⟩, hparse, hf⟩ := Option.bind_eq_some_iff.mp hf
      cases hf
      exact h.handle hlog hparse
    · cases hf
  | settleUser promise => exact h.settleUser hf
  | failUser promise error => exact h.failUser hf
  | stringify fetched handler =>
    dsimp only [Network.fire] at hf
    split at hf
    · rename_i correlationId promise hh
      split at hf
      · rename_i dto hdto
        cases hf
        exact h.stringify hh hdto
      · cases hf
    · cases hf
  | respond fetched handler =>
    dsimp only [Network.fire] at hf
    split at hf
    · rename_i correlationId dto hh
      cases hf
      exact h.respond (List.mem_of_getElem? hh)
    · cases hf
  | drop fetched handler =>
    cases hf
    exact h.withHandlers fun handler' hmem =>
      h.handlers fetched handler' (List.mem_of_mem_eraseIdx hmem)

theorem ok_reachable
    (hs : (Network.machine texts users).Reachable (fun _ _ => true) s) : Ok texts users s :=
  hs.induction ok_initial fun _ _ _ hok ⟨_, _, hf⟩ => hok.fire hf

/-- Whatever is delayed, lost, delivered again or to several, and however calls share loaders and
what they were resolved with: what `getById` returns joins the row of its id with the DTOs of the
rows that this row refers to. -/
theorem payloads_joined {i : Nat} {payload : JsonObject}
    (hs : (Network.machine texts users).Reachable (fun _ _ => true) s)
    (hmem : (i, payload) ∈ (s.asking service).payloads) :
    ∃ c, (s.asking service).calls.calls[i]? = some c ∧
      Joined users s.orders service (s.asking service).table c.id payload :=
  ((ok_reachable hs).asking service).payloads i payload hmem

end Network

/-! ## A run -/

/-- The text of an object with one property, up to the value of the property. -/
def opening (field : String) : List Char := ("\x7b\"" ++ field ++ "\":\"").toList

/-- The value that ends a text which opens so. -/
def closed? (field : String) (text : List Char) : Option Json :=
  if opening field <+: text then
    some (JsonObject.put ∅ field
      (some (.str (.ofList (text.drop (opening field).length).dropLast.dropLast)))).toJson
  else none

/-- `JSON.stringify` and `JSON.parse` of the requests whose references need no escapes. -/
def plainTexts : Texts where
  stringify o :=
    match o.lookup "userId", o.lookup "orderId" with
    | some (.str ref), _ => .ofList (opening "userId" ++ ref.toList ++ ['"', '\x7d'])
    | _, some (.str ref) => .ofList (opening "orderId" ++ ref.toList ++ ['"', '\x7d'])
    | _, _ => "\x7b\x7d"
  parse text := closed? "userId" text.toList <|> closed? "orderId" text.toList
  parse_stringify := by
    have hself : ∀ (field text : String),
        closed? field (opening field ++ text.toList ++ ['"', '\x7d']) =
          some (JsonObject.put ∅ field (some (.str text))).toJson := by
      intro field text
      rw [closed?, List.append_assoc, if_pos (List.prefix_append ..), List.drop_left]
      simp [List.dropLast_append_of_ne_nil, String.ofList_toList]
    have hother : ∀ text : List Char, closed? "userId" (opening "orderId" ++ text) = none := by
      intro text
      refine if_neg fun hprefix => ?_
      have htake := List.prefix_append (opening "orderId") text
      exact absurd (List.prefix_of_prefix_length_le hprefix htake (by decide)) (by decide)
    intro field hmem text
    rcases List.mem_pair.mp hmem with rfl | rfl
    · simp only [JsonObject.lookup_put_self, String.toList_ofList, hself]
      rfl
    · have huser : (JsonObject.put ∅ "orderId" (some (.str text))).lookup "userId" = none :=
        JsonObject.lookup_put_of_ne _ _ (by decide)
      simp only [huser, JsonObject.lookup_put_self, String.toList_ofList]
      rw [List.append_assoc, hother, ← List.append_assoc, hself]
      rfl

/-- The table of one user. -/
def oneUser : Rows :=
  AList.singleton "u1" (((JsonObject.put ∅ "id" (some (.str "u1"))).put "password"
    (some (.str "hash"))).put "role" (some (.obj [("id", .str "r1"), ("name", .str "admin")])))

/-- The invoice of an order is fetched.  The order service gets its request first, and answers it
twice. -/
def invoiceFetched : List Label :=
  [.insertOrder "o1" ⟨"u1", 10, .COMPLETED⟩,
   .insertInvoice
    { id := "i1", orderId := "o1", userId := "u1", title := "Invoice for Order #o1", amount := 10
      description := "Order invoice", status := .PAID, pdfUrl := "" },
   .drive .InvoiceService .connected, .getById .InvoiceService "i1",
   .load .InvoiceService (.begin 0), .load .InvoiceService (.settle 0),
   .resume .InvoiceService 0 ["x", "y"], .publish .InvoiceService 0, .publish .InvoiceService 1] ++
  (List.range 2).flatMap
    (fun i => List.replicate 5 (.drive .InvoiceService (.answer i (.ok true)))) ++
  [.handle .order 1, .handle .user 0, .load .OrderService (.settle 0), .settleUser 0,
   .stringify .order 0, .stringify .user 0, .respond .order 0, .respond .order 0, .respond .user 0,
   .receive .InvoiceService "invoice-order-fetch-group" 2,
   .receive .InvoiceService "invoice-order-fetch-group" 3,
   .receive .InvoiceService "invoice-user-fetch-group" 4,
   .answer .InvoiceService 0]

theorem payloads_joined_invoiceFetched :
    ∃ s : Network, (Network.machine plainTexts oneUser).run (fun _ _ => true)
        (Network.machine plainTexts oneUser).initial invoiceFetched = some s ∧
      ∃ payload, (0, payload) ∈ (s.asking .InvoiceService).payloads ∧
        ∃ c, (s.asking .InvoiceService).calls.calls[0]? = some c ∧
          Joined oneUser s.orders .InvoiceService (s.asking .InvoiceService).table c.id payload := by
  have hrun : ((Network.machine plainTexts oneUser).run (fun _ _ => true)
      (Network.machine plainTexts oneUser).initial invoiceFetched).any (fun s =>
        (s.asking .InvoiceService).payloads.any fun entry => entry.1 = 0) = true := by
    decide +kernel
  obtain ⟨s, hs, hpayloads⟩ := (Option.any_eq_true _ _).mp hrun
  obtain ⟨⟨i, payload⟩, hmem, hi⟩ := List.any_eq_true.mp hpayloads
  cases of_decide_eq_true hi
  exact ⟨s, hs, payload, hmem, payloads_joined (Machine.run_steps invoiceFetched hs) hmem⟩

end InvoiceHub.Fetch
