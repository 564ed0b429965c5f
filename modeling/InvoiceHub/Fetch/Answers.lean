import InvoiceHub.Domain.RoundTrip
import InvoiceHub.Fetch.Network

/-!
# What an answer is

What a request asks for is read off what was published, and an answer to it is the DTO of the row
that it names.  Both stay true, whatever else is published and whichever rows are written
(`Asked.append`, `Answers.extends`, `Joined.extends`).
-/

namespace InvoiceHub.Fetch

open Effects Cache Loader

/-! ## Texts and topics -/

theorem references_eq (service : Service) :
    service.references = (fetches service).map fun fetched =>
      (fetched.requestTopic, fetched.field) := by
  cases service <;> rfl

theorem field_mem (fetched : Fetched) : fetched.field ∈ ["userId", "orderId"] := by
  cases fetched <;> decide

theorem Fetched.requestTopic_injective {f g : Fetched} (h : f.requestTopic = g.requestTopic) :
    f = g := by
  cases f <;> cases g <;> first | rfl | exact absurd h (by decide)

theorem Fetched.requestTopic_ne_responseTopic (f g : Fetched) :
    f.requestTopic ≠ g.responseTopic := by
  cases f <;> cases g <;> decide

theorem toJson_eq (o : JsonObject) :
    ∃ fields, o.toJson = .obj fields ∧ ∀ key, fields.lookup key = o.lookup key :=
  ⟨_, rfl, Serialization.property_toJson o⟩

/-- A consumer reads the correlation id and the message of what was published. -/
theorem parseResponse_toJson (o : JsonObject) :
    Kafka.Infrastructure.parseResponse (some o.toJson) =
      some (o.lookup "correlationId", o.lookup "message") := by
  obtain ⟨fields, hfields, hlookup⟩ := toJson_eq o
  rw [hfields, Kafka.Infrastructure.parseResponse, hlookup, hlookup]

theorem lookup_responseMessage (correlationId : Option Json) (dto : JsonObject) :
    (responseMessage correlationId dto).lookup "correlationId" = correlationId ∧
      (responseMessage correlationId dto).lookup "message" = some dto.toJson := by
  simp [responseMessage, JsonObject.lookup_put]

theorem requestMessage_inj {c c' text text' : String}
    (h : requestMessage c text = requestMessage c' text') : c = c' ∧ text = text' := by
  have hlookup : ∀ key, (requestMessage c text).lookup key = (requestMessage c' text').lookup key :=
    fun key => by rw [h]
  have hid := hlookup "correlationId"
  have hmessage := hlookup "message"
  simp only [requestMessage, JsonObject.lookup_put] at hid hmessage
  simpa using And.intro hid hmessage

section Requests

variable {texts : Texts} {fetched : Fetched}

/-- What `getBy` reads off a request carries the correlation id of the request. -/
theorem parseRequest_requestMessage {c text id : String} {correlationId : Option Json}
    (h : parseRequest texts fetched (requestMessage c text).toJson = some (correlationId, id)) :
    correlationId = some (.str c) := by
  obtain ⟨fields, hfields, hlookup⟩ := toJson_eq (requestMessage c text)
  rw [hfields] at h
  obtain ⟨text', -, h⟩ := Option.bind_eq_some_iff.mp h
  obtain ⟨request, -, h⟩ := Option.bind_eq_some_iff.mp h
  split at h
  · obtain ⟨id', -, h⟩ := Option.bind_eq_some_iff.mp h
    cases h
    rw [hlookup]
    simp [requestMessage, JsonObject.lookup_put]
  · cases h

/-- A request that carries a reference asks for it. -/
theorem parseRequest_stringify (c ref : String) :
    parseRequest texts fetched
      (requestMessage c
        (texts.stringify (JsonObject.put ∅ fetched.field (some (.str ref))))).toJson =
        some (some (.str c), ref) := by
  obtain ⟨fields, hfields, hlookup⟩ := toJson_eq
    (requestMessage c (texts.stringify (JsonObject.put ∅ fetched.field (some (.str ref)))))
  have hmessage : fields.lookup "message" =
      some (.str (texts.stringify (JsonObject.put ∅ fetched.field (some (.str ref))))) := by
    rw [hlookup]
    exact JsonObject.lookup_put_self ..
  have hid : fields.lookup "correlationId" = some (.str c) := by
    rw [hlookup]
    simp [requestMessage, JsonObject.lookup_put]
  obtain ⟨properties, hproperties, hfield⟩ :=
    toJson_eq (JsonObject.put ∅ fetched.field (some (.str ref)))
  rw [hfields, parseRequest, hmessage, hid]
  simp only [Json.str?_str, Option.bind_eq_bind, Option.bind_some, hproperties,
    texts.parse_stringify _ (field_mem fetched), hfield, JsonObject.lookup_put_self]
  rfl

end Requests

/-! ## Rows -/

/-- Rows stay, and only their status is written. -/
structure Extends (table table' : Table) : Prop where
  stored : ∀ entry ∈ table.stored, entry ∈ table'.stored
  rows : ∀ id row, table.rows.lookup id = some row → ∃ row', table'.rows.lookup id = some row' ∧
    ∀ field, field ≠ "status" → row'.lookup field = row.lookup field

/-- Rows carry their ids, and no reference of them is null. -/
def Filled (service : Service) (rows : Rows) : Prop :=
  ∀ id row, rows.lookup id = some row → row.lookup "id" = some (.str id) ∧
    ∀ fetched ∈ fetches service, ∃ ref, row.lookup fetched.field = some (.str ref)

section Rows

variable {service : Service} {rows : Rows} {table table' : Table} {id : String}

theorem Extends.refl (table : Table) : Extends table table :=
  ⟨fun _ hmem => hmem, fun _ row h => ⟨row, h, fun _ _ => rfl⟩⟩

/-- A row is inserted, or its status is written. -/
theorem extends_write {row : JsonObject}
    (h : ∀ old, table.rows.lookup id = some old →
      ∀ field, field ≠ "status" → row.lookup field = old.lookup field) :
    Extends table (table.write id row) := by
  refine ⟨fun entry hmem => List.mem_append_left _ hmem, fun id' old hold => ?_⟩
  by_cases hid : id' = id
  · subst hid
    exact ⟨row, AList.lookup_insert _, h old hold⟩
  · exact ⟨old, (AList.lookup_insert_ne hid).trans hold, fun _ _ => rfl⟩

theorem Filled.insert (h : Filled service rows) {row : JsonObject}
    (hid : row.lookup "id" = some (.str id))
    (href : ∀ fetched ∈ fetches service, ∃ ref, row.lookup fetched.field = some (.str ref)) :
    Filled service (rows.insert id row) := by
  intro id' row' hrow
  by_cases heq : id' = id
  · subst heq
    rw [AList.lookup_insert] at hrow
    cases hrow
    exact ⟨hid, href⟩
  · rw [AList.lookup_insert_ne heq] at hrow
    exact h id' row' hrow

theorem was_extends {version : JsonObject} (h : table.Was id version)
    (he : Extends table table') : table'.Was id version := by
  obtain ⟨hstored, row, hrow, hversion⟩ := h
  obtain ⟨row', hrow', hsame⟩ := he.rows id row hrow
  refine ⟨he.stored _ hstored, row', hrow', fun field hne => ?_⟩
  rw [hsame field hne, hversion field hne]

theorem shows_extends {dto : JsonObject} (h : Shows service table id dto)
    (he : Extends table table') : Shows service table' id dto := by
  obtain ⟨version, hwas, hfields⟩ := h
  exact ⟨version, was_extends hwas he, hfields⟩

end Rows

/-! ## Answers -/

/-- An answer about an id is the DTO of its row; that of an order may have lost its user. -/
def Answers (users : Rows) (orders : Table) : Fetched → String → JsonObject → Prop
  | .user, id, dto => ∃ row, users.lookup id = some row ∧ dto = userDto row
  | .order, id, dto => Shows .OrderService orders id dto

/-- A request with this correlation id was published, which asks for an id. -/
def Asked (texts : Texts) (log : List (String × JsonObject)) (fetched : Fetched) (c id : String) :
    Prop :=
  ∃ text, (fetched.requestTopic, requestMessage c text) ∈ log ∧
    parseRequest texts fetched (requestMessage c text).toJson = some (some (.str c), id)

/-- The property of a payload that holds what was fetched. -/
def Fetched.property : Fetched → String
  | user => "user"
  | order => "order"

/-- The payload is made of the row of its id, with a status that it had once, and of the rows that
this row refers to. -/
structure Joined (users : Rows) (orders : Table) (service : Service) (table : Table) (id : String)
    (payload : JsonObject) : Prop where
  columns : ∃ version, table.Was id version ∧ ∀ field ∈ service.dtoClass,
    field ∉ service.deleted → payload.lookup field = version.lookup field
  deleted : ∀ field ∈ service.deleted, payload.lookup field = none
  references : ∃ row, table.rows.lookup id = some row ∧ row.lookup "id" = some (.str id) ∧
    ∀ fetched ∈ fetches service, ∃ ref dto, row.lookup fetched.field = some (.str ref) ∧
      payload.lookup fetched.property = some dto.toJson ∧ Answers users orders fetched ref dto

section Answers

variable {users : Rows} {orders orders' table table' : Table} {service : Service} {id : String}

theorem Answers.extends {fetched : Fetched} {dto : JsonObject}
    (h : Answers users orders fetched id dto) (he : Extends orders orders') :
    Answers users orders' fetched id dto := by
  cases fetched with
  | user => exact h
  | order => exact shows_extends h he

theorem Asked.append {texts : Texts} {log : List (String × JsonObject)} {fetched : Fetched}
    {c : String} (h : Asked texts log fetched c id) (added : List (String × JsonObject)) :
    Asked texts (log ++ added) fetched c id := by
  obtain ⟨text, hmem, hparse⟩ := h
  exact ⟨text, List.mem_append_left _ hmem, hparse⟩

theorem Joined.extends {payload : JsonObject} (h : Joined users orders service table id payload)
    (ho : Extends orders orders') (ht : Extends table table') :
    Joined users orders' service table' id payload where
  columns := by
    obtain ⟨version, hwas, hfields⟩ := h.columns
    exact ⟨version, was_extends hwas ht, hfields⟩
  deleted := h.deleted
  references := by
    obtain ⟨row, hrow, hid, hfetched⟩ := h.references
    obtain ⟨row', hrow', hsame⟩ := ht.rows id row hrow
    refine ⟨row', hrow', (hsame _ (by decide)).trans hid, fun fetched hmem => ?_⟩
    obtain ⟨ref, dto, href, hproperty, hanswers⟩ := hfetched fetched hmem
    refine ⟨ref, dto, ?_, hproperty, hanswers.extends ho⟩
    rw [hsame _ (by cases fetched <;> decide), href]

end Answers

end InvoiceHub.Fetch
