import InvoiceHub.Fetch.Asking

/-!
# What getById returns

However requests and responses are delayed, lost, repeated or mixed up, and however calls share
their loaders: a payload of `getById` joins the row of its id with the DTOs of the rows that this
row refers to.
-/

namespace InvoiceHub.Fetch

open Effects Cache Loader

/-! ## The invariant -/

/-- The table of the orders. -/
abbrev Network.orders (s : Network) : Table := (s.asking .OrderService).table

/-- A record of the log is a request with a correlation id of its own, or answers one. -/
structure RecordOk (texts : Texts) (users : Rows) (s : Network) (record : String × JsonObject) :
    Prop where
  request : ∀ fetched : Fetched, record.1 = fetched.requestTopic → ∃ c text,
    record.2 = requestMessage c text ∧ c ∈ s.correlationIds ∧
    ∀ service args, (args, c) ∈ (s.asking service).kafka.asked →
      args.requestTopic = record.1 ∧ args.message = text
  response : ∀ fetched : Fetched, record.1 = fetched.responseTopic → ∃ c,
    record.2.lookup "correlationId" = some (.str c) ∧
    Replied texts users s.orders s.log c (record.2.lookup "message")

/-- A running `getBy` works on a request. -/
structure HandlerOk (texts : Texts) (users : Rows) (s : Network) (fetched : Fetched) (h : Handler) :
    Prop where
  request : ∃ c id, h.correlationId = some (.str c) ∧ Asked texts s.log fetched c id ∧
    (∀ promise, h.stage = .loading promise →
      ∃ load, (s.loader fetched).loads[promise]? = some (id, load)) ∧
    ∀ dto, h.stage = .publishing dto → Answers users s.orders fetched id dto

/-- What holds of the network. -/
structure Ok (texts : Texts) (users : Rows) (s : Network) : Prop where
  asking : ∀ service, AskingOk texts users s.orders s.log service (s.asking service)
  userLoader : Holds (Answers users {} .user) s.userLoader
  drawn : ∀ service args c, (args, c) ∈ (s.asking service).kafka.asked → c ∈ s.correlationIds
  apart : ∀ service service' args args' c, (args, c) ∈ (s.asking service).kafka.asked →
    (args', c) ∈ (s.asking service').kafka.asked → service = service'
  log : ∀ record ∈ s.log, RecordOk texts users s record
  handlers : ∀ fetched, ∀ h ∈ s.handlers fetched, HandlerOk texts users s fetched h

section Network

variable {texts : Texts} {users : Rows} {s s' : Network} {service : Service} {a : Asking}
  {fetched : Fetched}

theorem ok_initial : Ok texts users {} where
  asking _ := askingOk_initial
  userLoader := holds_new
  drawn _ _ _ hmem := nomatch hmem
  apart _ _ _ _ _ hmem := nomatch hmem
  log _ hmem := nomatch hmem
  handlers _ _ hmem := nomatch hmem

@[simp] theorem asking_withAsking_self : (s.withAsking service a).asking service = a :=
  Function.update_self ..

theorem asking_withAsking_of_ne {service' : Service} (h : service' ≠ service) :
    (s.withAsking service a).asking service' = s.asking service' :=
  Function.update_of_ne h ..

/-- What a loader of the network resolves answers its key. -/
theorem Ok.loader (h : Ok texts users s) (fetched : Fetched) :
    Holds (Answers users s.orders fetched) (s.loader fetched) := by
  cases fetched with
  | user => exact h.userLoader
  | order => exact (h.asking .OrderService).loader

/-- One correlation id, one request. -/
theorem Ok.args_unique (h : Ok texts users s) {service' : Service}
    {args args' : Kafka.KafkaRequestOptions} {c : String}
    (hmem : (args, c) ∈ (s.asking service).kafka.asked)
    (hmem' : (args', c) ∈ (s.asking service').kafka.asked) : args = args' := by
  obtain rfl := h.apart _ _ _ _ _ hmem hmem'
  exact (h.asking service).kafka.args_unique hmem hmem'

/-! ## One service moves -/

/-- A service goes on without a new request. -/
structure Quiet (a a' : Asking) : Prop where
  asked : a'.kafka.asked = a.kafka.asked
  rows : Extends a.table a'.table
  keys : KeysKept a.calls.loader a'.calls.loader

theorem keysKept_refl (l : DataLoader String JsonObject String) : KeysKept l l :=
  fun _ _ load h => ⟨load, h⟩

theorem loader_withAsking (hk : KeysKept (s.asking service).calls.loader a.calls.loader)
    (fetched : Fetched) :
    KeysKept (s.loader fetched) ((s.withAsking service a).loader fetched) := by
  cases fetched with
  | user => exact keysKept_refl _
  | order =>
    cases service with
    | OrderService => exact hk
    | InvoiceService => exact keysKept_refl _

theorem orders_withAsking (hr : Extends (s.asking service).table a.table) :
    Extends s.orders (s.withAsking service a).orders := by
  cases service with
  | OrderService => exact hr
  | InvoiceService => exact .refl _

theorem asked_withAsking (ha : a.kafka.asked = (s.asking service).kafka.asked)
    (service' : Service) :
    ((s.withAsking service a).asking service').kafka.asked = (s.asking service').kafka.asked := by
  by_cases hs : service' = service
  · subst hs
    rw [asking_withAsking_self, ha]
  · rw [asking_withAsking_of_ne hs]

theorem HandlerOk.grows {h : Handler} (hh : HandlerOk texts users s fetched h)
    (hk : KeysKept (s.loader fetched) (s'.loader fetched)) (ho : Extends s.orders s'.orders)
    {added : List (String × JsonObject)} (hl : s'.log = s.log ++ added) :
    HandlerOk texts users s' fetched h := by
  obtain ⟨c, id, hid, hasked, hloading, hpublishing⟩ := hh.request
  refine ⟨c, id, hid, hl ▸ hasked.append added, fun promise hp => ?_, fun dto hp => ?_⟩
  · obtain ⟨load, hload⟩ := hloading promise hp
    exact hk promise id load hload
  · exact (hpublishing dto hp).extends ho

theorem Replied.grows {orders orders' : Table} {log : List (String × JsonObject)} {c : String}
    {message : Option Json} (h : Replied texts users orders log c message)
    (added : List (String × JsonObject)) (ho : Extends orders orders') :
    Replied texts users orders' (log ++ added) c message := by
  obtain ⟨fetched, id, dto, hmessage, hasked, hanswers⟩ := h
  exact ⟨fetched, id, dto, hmessage, hasked.append added, hanswers.extends ho⟩

/-- The services go on, and something is published. -/
theorem RecordOk.grows {record : String × JsonObject} (h : RecordOk texts users s record)
    (ho : Extends s.orders s'.orders) {added : List (String × JsonObject)}
    (hl : s'.log = s.log ++ added) (hi : ∀ c ∈ s.correlationIds, c ∈ s'.correlationIds)
    (ha : ∀ service args c, c ∈ s.correlationIds → (args, c) ∈ (s'.asking service).kafka.asked →
      (args, c) ∈ (s.asking service).kafka.asked) : RecordOk texts users s' record where
  request fetched ht := by
    obtain ⟨c, text, hmessage, hc, hargs⟩ := h.request fetched ht
    exact ⟨c, text, hmessage, hi c hc, fun service args hmem =>
      hargs service args (ha service args c hc hmem)⟩
  response fetched ht := by
    obtain ⟨c, hc, hreplied⟩ := h.response fetched ht
    exact ⟨c, hc, hl ▸ hreplied.grows added ho⟩

theorem Ok.withAsking (h : Ok texts users s)
    (hok : AskingOk texts users (s.withAsking service a).orders s.log service a)
    (hq : Quiet (s.asking service) a) : Ok texts users (s.withAsking service a) where
  asking := by
    intro service'
    by_cases hs : service' = service
    · subst hs
      rw [asking_withAsking_self]
      exact hok
    · rw [asking_withAsking_of_ne hs]
      have hgrown := (h.asking service').grows [] (orders_withAsking hq.rows)
      rw [List.append_nil] at hgrown
      exact hgrown
  userLoader := h.userLoader
  drawn := by
    intro service' args c hmem
    rw [asked_withAsking hq.asked] at hmem
    exact h.drawn service' args c hmem
  apart := by
    intro service₁ service₂ args args' c hmem hmem'
    rw [asked_withAsking hq.asked] at hmem hmem'
    exact h.apart service₁ service₂ args args' c hmem hmem'
  log := by
    intro record hmem
    refine (h.log record hmem).grows (orders_withAsking hq.rows) (List.append_nil _).symm
      (fun c hc => hc) fun service' args c _ hmem => ?_
    rwa [asked_withAsking hq.asked] at hmem
  handlers := by
    intro fetched handler hmem
    exact (h.handlers fetched handler hmem).grows (loader_withAsking hq.keys fetched)
      (orders_withAsking hq.rows) (List.append_nil _).symm

/-- A service goes on, and its table stays. -/
theorem Ok.moves (h : Ok texts users s)
    (hok : AskingOk texts users s.orders s.log service a) (hr : a.table = (s.asking service).table)
    (ha : a.kafka.asked = (s.asking service).kafka.asked)
    (hk : KeysKept (s.asking service).calls.loader a.calls.loader) :
    Ok texts users (s.withAsking service a) := by
  refine h.withAsking ?_ ⟨ha, hr ▸ .refl _, hk⟩
  have horders : (s.withAsking service a).orders = s.orders := by
    cases service with
    | OrderService => exact hr
    | InvoiceService => rfl
  rw [horders]
  exact hok

/-- A row is written. -/
theorem Ok.write (h : Ok texts users s) {id : String} {row : JsonObject}
    (he : Extends (s.asking service).table ((s.asking service).table.write id row))
    (hf : Filled service ((s.asking service).table.rows.insert id row)) :
    Ok texts users (s.write service id row) := by
  refine h.withAsking ?_ ⟨rfl, he, keysKept_refl _⟩
  have hgrown := (h.asking service).grows [] (orders_withAsking (s := s)
    (a := { s.asking service with table := (s.asking service).table.write id row }) he)
  rw [List.append_nil] at hgrown
  exact hgrown.write he hf

/-! ## Something is published -/

theorem Ok.append (h : Ok texts users s) {record : String × JsonObject} {ids : List String}
    (hr : RecordOk texts users
      { s with log := s.log ++ [record], correlationIds := s.correlationIds ++ ids } record) :
    Ok texts users
      { s with log := s.log ++ [record], correlationIds := s.correlationIds ++ ids } where
  asking service := (h.asking service).grows [record] (.refl _)
  userLoader := h.userLoader
  drawn service args c hmem := List.mem_append_left _ (h.drawn service args c hmem)
  apart := h.apart
  log := by
    intro record' hmem
    rcases List.mem_append.mp hmem with hmem | hmem
    · exact (h.log record' hmem).grows (.refl _) rfl (fun c hc => List.mem_append_left _ hc)
        fun _ _ _ _ hmem => hmem
    · rw [List.mem_singleton.mp hmem]
      exact hr
  handlers fetched handler hmem :=
    (h.handlers fetched handler hmem).grows (keysKept_refl _) (.refl _) rfl

theorem Ok.append_record (h : Ok texts users s) {record : String × JsonObject}
    (hr : RecordOk texts users { s with log := s.log ++ [record] } record) :
    Ok texts users { s with log := s.log ++ [record] } := by
  have hids : ({ s with log := s.log ++ [record] } : Network) =
      { s with log := s.log ++ [record], correlationIds := s.correlationIds ++ [] } := by
    rw [List.append_nil]
  rw [hids] at hr ⊢
  exact h.append hr

/-! ## Handlers -/

theorem Ok.withHandlers (h : Ok texts users s) {handlers : List Handler}
    (hh : ∀ handler ∈ handlers, HandlerOk texts users s fetched handler) :
    Ok texts users (s.withHandlers fetched handlers) where
  asking := h.asking
  userLoader := h.userLoader
  drawn := h.drawn
  apart := h.apart
  log := by
    intro record hmem
    exact (h.log record hmem).grows (.refl _) (List.append_nil _).symm (fun _ hc => hc)
      fun _ _ _ _ hmem => hmem
  handlers := by
    intro fetched' handler hmem
    have hmem : handler ∈ Function.update s.handlers fetched handlers fetched' := hmem
    have hkeep : HandlerOk texts users s fetched' handler →
        HandlerOk texts users (s.withHandlers fetched handlers) fetched' handler :=
      fun hok => hok.grows (keysKept_refl _) (.refl _) (List.append_nil _).symm
    by_cases hf : fetched' = fetched
    · subst hf
      rw [Function.update_self] at hmem
      exact hkeep (hh handler hmem)
    · rw [Function.update_of_ne hf] at hmem
      exact hkeep (h.handlers fetched' handler hmem)

/-- Someone does something to the loader that a `getBy` asks. -/
theorem Ok.withLoader (h : Ok texts users s) (fetched : Fetched)
    {loader : DataLoader String JsonObject String}
    (ht : Touches (Answers users s.orders fetched) (s.loader fetched) loader) :
    Ok texts users (s.withLoader loader fetched) := by
  cases fetched with
  | user =>
    refine ⟨h.asking, ht.holds h.userLoader, h.drawn, h.apart, ?_, ?_⟩
    · intro record hmem
      exact (h.log record hmem).grows (.refl _) (List.append_nil _).symm (fun _ hc => hc)
        fun _ _ _ _ hmem => hmem
    · intro fetched handler hmem
      refine (h.handlers fetched handler hmem).grows ?_ (.refl _) (List.append_nil _).symm
      cases fetched with
      | user => exact ht.keysKept h.userLoader
      | order => exact keysKept_refl _
  | order =>
    exact h.moves ((h.asking .OrderService).withLoader ht) rfl rfl
      (ht.keysKept (h.asking .OrderService).loader)

/-! ## What is returned -/

/-- A call that has returned has stripped its DTO. -/
theorem returned_of_answer {calls calls' : Calls} {rows : Rows} {i promise : Nat} {id : String}
    {reloads : List Nat} {sent : List (String × JsonObject)} {dto : JsonObject}
    (hf : calls.fire service rows (.answer i) = some calls')
    (hc : calls'.calls[i]? = some ⟨id, .returned promise, reloads, sent⟩)
    (hdto : calls'.loader.promise? promise = some (.resolved dto)) :
    ∃ whole, dto = service.strip whole := by
  dsimp only [Calls.fire] at hf
  split at hf
  · rename_i id' promise' reloads' sent' hget
    cases hf
    have hself : (calls.calls.set i ⟨id', .returned promise', reloads', sent'⟩)[i]? =
        some ⟨id', .returned promise', reloads', sent'⟩ :=
      List.getElem?_set_self (List.getElem?_eq_some_iff.mp hget).1
    cases Option.some_inj.mp (hself.symm.trans hc)
    have hdto : (calls.loader.modify promise service.strip).promise? promise =
      some (.resolved dto) := hdto
    rw [DataLoader.promise?, getElem?_modify, if_pos rfl, Option.map_map] at hdto
    obtain ⟨⟨key, load⟩, -, heq⟩ := Option.map_eq_some_iff.mp hdto
    cases load with
    | resolved whole =>
      cases heq
      exact ⟨whole, rfl⟩
    | pending => cases heq
    | rejected error => cases heq
  · cases hf

theorem lookup_payloadOf {dto : JsonObject} {values : List (Option Json)} {j : Nat}
    (hj : (fetches service)[j]? = some fetched) :
    (payloadOf service dto values).lookup fetched.property = values[j]?.join := by
  cases service with
  | OrderService =>
    cases j with
    | zero =>
      cases hj
      exact JsonObject.lookup_put_self ..
    | succ j => cases hj
  | InvoiceService =>
    match j with
    | 0 =>
      cases hj
      exact JsonObject.lookup_put_self ..
    | 1 =>
      cases hj
      exact (JsonObject.lookup_put_of_ne _ _ (by decide)).trans (JsonObject.lookup_put_self ..)
    | j + 2 => cases hj

theorem lookup_payloadOf_of_ne {dto : JsonObject} {values : List (Option Json)} {key : String}
    (hu : key ≠ "user") (ho : key ≠ "order") :
    (payloadOf service dto values).lookup key = dto.lookup key := by
  cases service with
  | OrderService => exact JsonObject.lookup_put_of_ne _ _ hu
  | InvoiceService =>
    exact (JsonObject.lookup_put_of_ne _ _ hu).trans (JsonObject.lookup_put_of_ne _ _ ho)

theorem not_property_of_exposed {field : String} (h : field ∈ service.dtoClass) :
    field ≠ "user" ∧ field ≠ "order" := by
  constructor
  · rintro rfl
    revert h
    cases service <;> decide
  · rintro rfl
    revert h
    cases service <;> decide

theorem exposed_of_deleted {field : String} (h : field ∈ service.deleted) :
    field ∈ service.dtoClass := by
  cases service with
  | OrderService =>
    cases List.mem_singleton.mp h
    decide
  | InvoiceService => rcases List.mem_pair.mp h with rfl | rfl <;> decide

/-- What was heard as the response to a request that carries a reference answers it. -/
theorem Ok.answered (h : Ok texts users s) {c ref : String} {message : Option Json}
    {args : Kafka.KafkaRequestOptions} (hmem : (args, c) ∈ (s.asking service).kafka.asked)
    (htopic : args.requestTopic = fetched.requestTopic)
    (hmessage : args.message =
      texts.stringify (JsonObject.put ∅ fetched.field (some (.str ref))))
    (hheard : .response c message ∈ (s.asking service).kafka.history) :
    ∃ dto, message = some dto.toJson ∧ Answers users s.orders fetched ref dto := by
  obtain ⟨fetched', id, dto, hdto, ⟨text, hlog, hparse⟩, hanswers⟩ :=
    (h.asking service).heard c message hheard
  obtain ⟨c', text', heq, -, hargs⟩ := (h.log _ hlog).request fetched' rfl
  obtain ⟨rfl, rfl⟩ := requestMessage_inj heq
  obtain ⟨htopic', htext⟩ := hargs service args hmem
  obtain rfl := Fetched.requestTopic_injective (htopic.symm.trans htopic')
  rw [← htext, hmessage, parseRequest_stringify] at hparse
  cases hparse
  exact ⟨dto, hdto, hanswers⟩

/-- A payload joins the rows. -/
theorem Ok.answer (h : Ok texts users s) {call : Nat}
    (hf : (s.asking service).answer service call = some a) :
    Ok texts users (s.withAsking service a) := by
  obtain ⟨k, hk, hf⟩ := Option.bind_eq_some_iff.mp hf
  obtain ⟨kcall, hkcall, hf⟩ := Option.bind_eq_some_iff.mp hf
  obtain ⟨values, hvalues, hf⟩ := Option.bind_eq_some_iff.mp hf
  obtain ⟨calls, hcalls, hf⟩ := Option.bind_eq_some_iff.mp hf
  split at hf
  · rename_i id promise reloads sent hget
    split at hf
    · rename_i dto hdto
      cases hf
      have hold := h.asking service
      have hok := hold.calls_fire hcalls
      have hkept := (holds_of_touches (Calls.fire_touches hcalls) hold.loader).2
      have hjoined : Joined users s.orders service (s.asking service).table id
          (payloadOf service dto values) := by
        have hmem : (call, k) ∈ (s.asking service).awaited := by
          obtain ⟨before, after, heq, -⟩ := List.lookup_eq_some_iff.mp hk
          simp [heq]
        obtain ⟨c, row, kcall', hc, hrow, hkcall', hargs⟩ := hok.awaited call k hmem
        cases Option.some_inj.mp (hget.symm.trans hc)
        cases Option.some_inj.mp (hkcall.symm.trans hkcall')
        have hkey := hok.placed _ (List.mem_of_getElem? hget) promise rfl
        obtain ⟨version, hwas, hfields⟩ := hok.loader.value hkey hdto
        obtain ⟨whole, rfl⟩ := returned_of_answer hcalls hget hdto
        obtain ⟨hid, hrefs⟩ := hok.filled id row hrow
        refine ⟨⟨version, hwas, fun field hfield hdeleted => ?_⟩, fun field hdeleted => ?_,
          ⟨row, hrow, hid, fun fetched hfetched => ?_⟩⟩
        · obtain ⟨huser, horder⟩ := not_property_of_exposed hfield
          rw [lookup_payloadOf_of_ne huser horder]
          exact (hfields field hfield).resolve_right fun hd => hdeleted hd.1
        · obtain ⟨huser, horder⟩ := not_property_of_exposed (exposed_of_deleted hdeleted)
          rw [lookup_payloadOf_of_ne huser horder]
          exact lookup_strip_of_mem service whole hdeleted
        · obtain ⟨ref, href⟩ := hrefs fetched hfetched
          obtain ⟨j, hj⟩ := List.getElem?_of_mem hfetched
          have hjargs : kcall.args[j]? = some
              { requestTopic := fetched.requestTopic
                message := texts.stringify
                  (JsonObject.put ∅ fetched.field (row.lookup fetched.field))
                responseTopic := fetched.responseTopic
                groupId := some (groupId service fetched) } := by
            rw [hargs, buildKafkaRequestOptionsHelper, List.getElem?_map, hj]
            rfl
          obtain ⟨c, message, hresult, hasked, hheard⟩ :=
            hold.kafka.heard_of_results (List.mem_of_getElem? hkcall) hvalues hjargs
          obtain ⟨answer, rfl, hanswers⟩ := h.answered hasked rfl (by rw [href]) hheard
          refine ⟨ref, answer, href, ?_, hanswers⟩
          rw [lookup_payloadOf hj, hresult]
          rfl
      refine h.moves { hok with payloads := ?_ } rfl rfl hkept
      intro i payload hmem
      rcases List.mem_append.mp hmem with hmem | hmem
      · exact hok.payloads i payload hmem
      · cases List.mem_singleton.mp hmem
        exact ⟨_, hget, hjoined⟩
    · cases hf
  · cases hf

end Network

end InvoiceHub.Fetch
