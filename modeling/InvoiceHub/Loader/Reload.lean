import InvoiceHub.Cache.Lists
import InvoiceHub.Effects.Run
import InvoiceHub.Loader.DataLoader

/-!
# The reload of getById

`OrderService.getById` and `InvoiceService.getById` ask other services for what their DTO refers
to, and delete the references once they are answered.  The DTO is the one the loader has cached,
so a call may find that another one has stripped it: it clears the loader and calls itself.  Any
number of calls run at once, and what happens between two awaits of one of them is a step.
-/

namespace InvoiceHub.Loader

open Effects Services Cache

/-! ## The two services -/

/-- A service with a `getById`. -/
inductive Service where
  | OrderService
  | InvoiceService
  deriving DecidableEq

namespace Service

/-- What the DTO exposes. -/
def dtoClass : Service → List String
  | OrderService => OrderDto
  | InvoiceService => InvoiceDto

/-- `buildKafkaRequestOptionsHelper`: the topics of the requests, with the reference each one
asks for. -/
def references : Service → List (String × String)
  | OrderService => [("fetch-user-request", "userId")]
  | InvoiceService => [("fetch-user-request", "userId"), ("fetch-order-request", "orderId")]

/-- What is deleted from the DTO, in this order. -/
def deleted : Service → List String
  | OrderService => ["userId"]
  | InvoiceService => ["orderId", "userId"]

variable (service : Service)

/-- The requests about a DTO: `{ userId }` and `{ orderId }`. -/
def requests (dto : JsonObject) : List (String × JsonObject) :=
  service.references.map fun (topic, field) => (topic, JsonObject.put ∅ field (dto.lookup field))

/-- No reference of the DTO is missing. -/
def complete (dto : JsonObject) : Bool :=
  service.references.all fun (_, field) => Json.truthy (dto.lookup field)

/-- `delete`, of all references. -/
def strip (dto : JsonObject) : JsonObject :=
  service.deleted.foldl (fun dto field => dto.erase field) dto

end Service

/-! ## Calls -/

/-- Where a call stands. -/
inductive Stage where
  | called
  /-- It awaits `load`. -/
  | loading (promise : Nat)
  /-- It awaits `requestResponse`. -/
  | requested (promise : Nat)
  | returned (promise : Nat)
  | failed
  deriving DecidableEq

/-- The promise of the DTO that a call works with. -/
def Stage.promise? : Stage → Option Nat
  | loading promise => some promise
  | requested promise => some promise
  | returned promise => some promise
  | _ => none

/-- A call of `getById`, with the recursive calls it has made. -/
structure Call where
  id : String
  stage : Stage := .called
  /-- The promises whose DTO lacked a reference, each the reason of a recursive call. -/
  reloads : List Nat := []
  sent : List (String × JsonObject) := []

/-- The loader and the calls. -/
structure Calls where
  loader : DataLoader String JsonObject String
  calls : List Call

/-- The rows of the table. -/
abbrev Rows := AList fun _ : String => JsonObject

/-- What may happen next. -/
inductive Label where
  | begin (call : Nat)
  /-- The batch of a promise has read its row. -/
  | settle (promise : Nat)
  /-- The batch of a promise is rejected. -/
  | fail (promise : Nat) (error : String)
  | resume (call : Nat)
  /-- All requests of a call are answered. -/
  | answer (call : Nat)
  | reject (call : Nat)

namespace Calls

/-- A call has come to another stage. -/
def move (s : Calls) (i : Nat) (call : Call) : Calls := { s with calls := s.calls.set i call }

/-- A promise is rejected, and its key cleared. -/
def failLoad (s : Calls) (promise : Nat) (key error : String) : Calls :=
  { s with loader := (s.loader.settle promise (.error error)).clear key }

/-- One step. -/
def fire (service : Service) (rows : Rows) (s : Calls) : Label → Option Calls
  | .begin i =>
    match s.calls[i]? with
    | some ⟨id, .called, reloads, sent⟩ =>
      let (promise, loader) := s.loader.load id
      some (move { s with loader } i ⟨id, .loading promise, reloads, sent⟩)
    | _ => none
  | .settle promise =>
    match s.loader.loads[promise]? with
    | some (key, .pending) =>
      match rows.lookup key with
      | some row =>
        some { s with
          loader := s.loader.settle promise (.ok (plainToInstance service.dtoClass row)) }
      | none => some (s.failLoad promise key "not found")
    | _ => none
  | .fail promise error =>
    match s.loader.loads[promise]? with
    | some (key, .pending) => some (s.failLoad promise key error)
    | _ => none
  | .resume i =>
    match s.calls[i]? with
    | some ⟨id, .loading promise, reloads, sent⟩ =>
      match s.loader.promise? promise with
      | some (.resolved dto) =>
        if service.complete dto then
          some (s.move i ⟨id, .requested promise, reloads, sent ++ service.requests dto⟩)
        else
          let (reloaded, loader) := (s.loader.clear id).load id
          some (move { s with loader } i ⟨id, .loading reloaded, reloads ++ [promise], sent⟩)
      | some (.rejected _) => some (s.move i ⟨id, .failed, reloads, sent⟩)
      | _ => none
    | _ => none
  | .answer i =>
    match s.calls[i]? with
    | some ⟨id, .requested promise, reloads, sent⟩ =>
      some (move { s with loader := s.loader.modify promise service.strip } i
        ⟨id, .returned promise, reloads, sent⟩)
    | _ => none
  | .reject i =>
    match s.calls[i]? with
    | some ⟨id, .requested _, reloads, sent⟩ => some (s.move i ⟨id, .failed, reloads, sent⟩)
    | _ => none

/-- The calls for some ids, as a machine. -/
def machine (service : Service) (rows : Rows) (ids : List String) : Machine Calls Label where
  initial := { loader := .new, calls := ids.map fun id => { id } }
  fire := fire service rows

end Calls

/-! ## DTOs and rows -/

theorem lookup_plainToInstance (exposed : List String) (item : JsonObject) (key : String) :
    (plainToInstance exposed item).lookup key = if key ∈ exposed then item.lookup key else none := by
  have hfold : ∀ (names : List String) (dto : JsonObject),
      (names.foldl (fun dto name => dto.put name (item.lookup name)) dto).lookup key =
        if key ∈ names then item.lookup key else dto.lookup key := by
    intro names
    induction names with
    | nil => exact fun dto => rfl
    | cons name names ih =>
      intro dto
      rw [List.foldl_cons, ih, JsonObject.lookup_put]
      by_cases hkey : key = name
      · subst hkey
        simp
      · simp [hkey]
  exact hfold exposed ∅

namespace Service

variable {service : Service}

/-- References are exposed. -/
theorem exposes {topic field : String} (h : (topic, field) ∈ service.references) :
    field ∈ service.dtoClass := by
  cases service with
  | OrderService =>
    cases List.mem_singleton.mp h
    decide
  | InvoiceService =>
    rcases List.mem_pair.mp h with h | h <;> cases h <;> decide

/-- A reference that is still there is the one of before. -/
theorem lookup_strip (service : Service) (dto : JsonObject) (field : String) :
    (service.strip dto).lookup field = dto.lookup field ∨
      (service.strip dto).lookup field = none := by
  have hfold : ∀ (names : List String) (dto : JsonObject),
      (names.foldl (fun dto name => (dto.erase name : JsonObject)) dto).lookup field =
        dto.lookup field ∨
      (names.foldl (fun dto name => (dto.erase name : JsonObject)) dto).lookup field = none := by
    intro names
    induction names with
    | nil => exact fun dto => .inl rfl
    | cons name names ih =>
      intro dto
      rw [List.foldl_cons]
      by_cases hkey : field = name
      · subst hkey
        rcases ih (dto.erase field) with h | h
        · exact .inr (h.trans (AList.lookup_erase _ _))
        · exact .inr h
      · rcases ih (dto.erase name) with h | h
        · exact .inl (h.trans (AList.lookup_erase_ne hkey))
        · exact .inr h
  exact hfold service.deleted dto

end Service

/-- The row of an id is there, and none of its references is null. -/
def NotNull (service : Service) (rows : Rows) (id : String) : Prop :=
  ∃ row, rows.lookup id = some row ∧ ∀ topic field, (topic, field) ∈ service.references →
    ∃ text, row.lookup field = some (.str text) ∧ text ≠ ""

/-! ## The invariant -/

/-- A call has returned, and stripped the DTO of the promise. -/
def Returned (s : Calls) (promise : Nat) : Prop := ∃ c ∈ s.calls, c.stage = .returned promise

/-- A request about the row: it carries the row's own reference. -/
def Carries (service : Service) (row : JsonObject) (topic : String) (message : JsonObject) : Prop :=
  ∃ field text, (topic, field) ∈ service.references ∧ text ≠ "" ∧
    row.lookup field = some (.str text) ∧ message = JsonObject.put ∅ field (some (.str text))

/-- The DTO of a promise has the references of its row, but for those a call has deleted. -/
structure Object (service : Service) (rows : Rows) (s : Calls) (promise : Nat) (key : String)
    (dto : JsonObject) (row : JsonObject) : Prop where
  found : rows.lookup key = some row
  own : ∀ topic field, (topic, field) ∈ service.references →
    dto.lookup field = row.lookup field ∨ dto.lookup field = none
  whole : (∀ topic field, (topic, field) ∈ service.references →
    dto.lookup field = row.lookup field) ∨ Returned s promise

/-- What holds of a call: each of its reloads is owed to another call that has returned. -/
structure CallOk (service : Service) (rows : Rows) (s : Calls) (c : Call) : Prop where
  notNull : NotNull service rows c.id
  started : c.stage = .called → c.reloads = []
  own : ∀ promise, c.stage.promise? = some promise →
    ∃ load, s.loader.loads[promise]? = some (c.id, load)
  fresh : ∀ promise, c.stage.promise? = some promise → promise ∉ c.reloads
  nodup : c.reloads.Nodup
  known : ∀ promise ∈ c.reloads, ∃ entry, s.loader.loads[promise]? = some entry
  owed : ∀ promise ∈ c.reloads, Returned s promise
  sent : ∀ topic message, (topic, message) ∈ c.sent →
    ∃ row, rows.lookup c.id = some row ∧ Carries service row topic message

/-- What holds of all calls and of the loader. -/
structure Inv (service : Service) (rows : Rows) (s : Calls) : Prop where
  cached : ∀ key promise, s.loader.cache.lookup key = some promise →
    ∃ load, s.loader.loads[promise]? = some (key, load)
  object : ∀ (promise : Nat) key dto, s.loader.loads[promise]? = some (key, .resolved dto) →
    ∃ row, Object service rows s promise key dto row
  calls : ∀ c ∈ s.calls, CallOk service rows s c

/-- Promises keep their keys, and calls that have returned stay. -/
structure Grows (s s' : Calls) : Prop where
  keys : ∀ (promise : Nat) key load, s.loader.loads[promise]? = some (key, load) →
    ∃ load', s'.loader.loads[promise]? = some (key, load')
  returned : ∀ promise, Returned s promise → Returned s' promise

section Inv

variable {service : Service} {rows : Rows} {s s' : Calls} {c c' : Call} {i : Nat}

theorem Object.grows {promise : Nat} {key : String} {dto row : JsonObject}
    (h : Object service rows s promise key dto row) (hg : Grows s s') :
    Object service rows s' promise key dto row where
  found := h.found
  own := h.own
  whole := h.whole.imp id (hg.returned promise)

theorem CallOk.grows (h : CallOk service rows s c) (hg : Grows s s') :
    CallOk service rows s' c where
  notNull := h.notNull
  started := h.started
  own := by
    intro promise hp
    obtain ⟨load, hload⟩ := h.own promise hp
    exact hg.keys promise c.id load hload
  fresh := h.fresh
  nodup := h.nodup
  known := by
    intro promise hmem
    obtain ⟨⟨key, load⟩, hload⟩ := h.known promise hmem
    obtain ⟨load', hload'⟩ := hg.keys promise key load hload
    exact ⟨(key, load'), hload'⟩
  owed := fun promise hmem => hg.returned promise (h.owed promise hmem)
  sent := h.sent

/-- A call that has not returned moves; those that have stay where they are. -/
theorem returned_move {loader : DataLoader String JsonObject String} (hi : s.calls[i]? = some c)
    (hc : ∀ promise, c.stage ≠ .returned promise) {promise : Nat} (h : Returned s promise) :
    Returned (Calls.move { s with loader } i c') promise := by
  obtain ⟨other, hmem, hstage⟩ := h
  obtain ⟨j, hj⟩ := List.mem_iff_getElem?.mp hmem
  refine ⟨other, List.mem_iff_getElem?.mpr ⟨j, ?_⟩, hstage⟩
  have hij : i ≠ j := by
    rintro rfl
    rw [hi] at hj
    cases hj
    exact hc promise hstage
  change (s.calls.set i c')[j]? = some other
  rw [List.getElem?_set_ne hij, hj]

theorem mem_move {loader : DataLoader String JsonObject String} {other : Call}
    (h : other ∈ (Calls.move { s with loader } i c').calls) : other = c' ∨ other ∈ s.calls :=
  (List.mem_or_eq_of_mem_set h).symm

theorem moved_mem {loader : DataLoader String JsonObject String} (hi : s.calls[i]? = some c) :
    c' ∈ (Calls.move { s with loader } i c').calls := by
  obtain ⟨hlt, -⟩ := List.getElem?_eq_some_iff.mp hi
  exact List.mem_set hlt c'

/-- A step of one call keeps the invariant if the call and the loader do. -/
theorem Inv.move (h : Inv service rows s) {loader : DataLoader String JsonObject String}
    (hg : Grows s (Calls.move { s with loader } i c'))
    (hcached : ∀ key promise, loader.cache.lookup key = some promise →
      ∃ load, loader.loads[promise]? = some (key, load))
    (hobject : ∀ (promise : Nat) key dto, loader.loads[promise]? = some (key, .resolved dto) →
      ∃ row, Object service rows (Calls.move { s with loader } i c') promise key dto row)
    (hc : CallOk service rows (Calls.move { s with loader } i c') c') :
    Inv service rows (Calls.move { s with loader } i c') where
  cached := hcached
  object := hobject
  calls := by
    intro other hmem
    rcases mem_move hmem with rfl | hmem
    · exact hc
    · exact (h.calls other hmem).grows hg

/-! ## What happens to the loader -/

/-- A load returns the promise that is cached, or a new one. -/
theorem load_cases (l : DataLoader String JsonObject String) (key : String) :
    (l.cache.lookup key = some (l.load key).1 ∧ (l.load key).2 = l) ∨
      (l.cache.lookup key = none ∧ (l.load key).1 = l.loads.length ∧
        (l.load key).2.loads = l.loads ++ [(key, .pending)] ∧
        (l.load key).2.cache = l.cache.insert key l.loads.length) := by
  unfold DataLoader.load
  cases l.cache.lookup key with
  | some promise => exact .inl ⟨rfl, rfl⟩
  | none => exact .inr ⟨rfl, rfl, rfl, rfl⟩

/-- The promises of before, and what is cached, after a load. -/
theorem load_keeps {l : DataLoader String JsonObject String} (key : String)
    (hcached : ∀ key promise, l.cache.lookup key = some promise →
      ∃ load, l.loads[promise]? = some (key, load)) :
    (∀ (promise : Nat) entry, l.loads[promise]? = some entry →
      (l.load key).2.loads[promise]? = some entry) ∧
    (∀ (promise : Nat) key' dto, (l.load key).2.loads[promise]? = some (key', .resolved dto) →
      l.loads[promise]? = some (key', .resolved dto)) ∧
    (∀ key' promise, (l.load key).2.cache.lookup key' = some promise →
      ∃ load, (l.load key).2.loads[promise]? = some (key', load)) ∧
    ∃ load, (l.load key).2.loads[(l.load key).1]? = some (key, load) := by
  rcases load_cases l key with ⟨hp, hl⟩ | ⟨hn, hp, hloads, hcache⟩
  · rw [hl]
    exact ⟨fun _ _ h => h, fun _ _ _ h => h, hcached, hcached key _ hp⟩
  · have hnew : (l.load key).2.loads[l.loads.length]? = some (key, .pending) := by
      rw [hloads, List.getElem?_append_right (Nat.le_refl _), Nat.sub_self]
      rfl
    have hold : ∀ (promise : Nat) entry, l.loads[promise]? = some entry →
        (l.load key).2.loads[promise]? = some entry := by
      intro promise entry hget
      rw [hloads, List.getElem?_append_left (List.getElem?_eq_some_iff.mp hget).1, hget]
    refine ⟨hold, ?_, ?_, ⟨.pending, hp ▸ hnew⟩⟩
    · intro promise key' dto hget
      by_cases hlt : promise < l.loads.length
      · rwa [hloads, List.getElem?_append_left hlt] at hget
      · obtain ⟨hlt', -⟩ := List.getElem?_eq_some_iff.mp hget
        rw [hloads, List.length_append, List.length_singleton] at hlt'
        have heq : promise = l.loads.length := by omega
        rw [heq, hnew] at hget
        cases hget
    · intro key' promise hlookup
      rw [hcache] at hlookup
      by_cases hkey : key' = key
      · subst hkey
        rw [AList.lookup_insert] at hlookup
        cases hlookup
        exact ⟨.pending, hnew⟩
      · rw [AList.lookup_insert_ne hkey] at hlookup
        obtain ⟨load, hload⟩ := hcached key' promise hlookup
        exact ⟨load, hold promise _ hload⟩

theorem getElem?_settle (l : DataLoader String JsonObject String) (promise : Nat)
    (result : Except String JsonObject) (other : Nat) :
    (l.settle promise result).loads[other]? = if other = promise then
      l.loads[other]?.map fun entry => (entry.1, entry.2.settle result) else l.loads[other]? := by
  change (l.loads.modify promise _)[other]? = _
  rw [List.getElem?_modify]
  by_cases h : other = promise
  · rw [if_pos h]
    cases l.loads[other]? <;> simp [h]
  · rw [if_neg h]
    cases l.loads[other]? <;> simp [Ne.symm h]

theorem getElem?_modify (l : DataLoader String JsonObject String) (promise : Nat)
    (f : JsonObject → JsonObject) (other : Nat) :
    (l.modify promise f).loads[other]? = if other = promise then
      l.loads[other]?.map fun entry => (entry.1, entry.2.modify f) else l.loads[other]? := by
  change (l.loads.modify promise _)[other]? = _
  rw [List.getElem?_modify]
  by_cases h : other = promise
  · rw [if_pos h]
    cases l.loads[other]? <;> simp [h]
  · rw [if_neg h]
    cases l.loads[other]? <;> simp [Ne.symm h]

/-- A promise that is settled keeps its key. -/
theorem settle_keeps {l : DataLoader String JsonObject String} (promise : Nat)
    (result : Except String JsonObject) {other : Nat} {key : String}
    {load : Load JsonObject String} (h : l.loads[other]? = some (key, load)) :
    ∃ load', (l.settle promise result).loads[other]? = some (key, load') := by
  rw [getElem?_settle, h]
  split
  · exact ⟨load.settle result, rfl⟩
  · exact ⟨load, rfl⟩

theorem modify_keeps {l : DataLoader String JsonObject String} (promise : Nat)
    (f : JsonObject → JsonObject) {other : Nat} {key : String} {load : Load JsonObject String}
    (h : l.loads[other]? = some (key, load)) :
    ∃ load', (l.modify promise f).loads[other]? = some (key, load') := by
  rw [getElem?_modify, h]
  split
  · exact ⟨load.modify f, rfl⟩
  · exact ⟨load, rfl⟩

/-! ## Steps -/

/-- A batch that is rejected resolves nothing. -/
theorem Inv.failLoad (h : Inv service rows s) {promise : Nat} {key error : String}
    (hp : s.loader.loads[promise]? = some (key, .pending)) :
    Inv service rows (s.failLoad promise key error) := by
  have hg : Grows s (s.failLoad promise key error) :=
    ⟨fun other key' load hload => settle_keeps promise (.error error) hload, fun _ hr => hr⟩
  refine ⟨?_, ?_, fun c hc => (h.calls c hc).grows hg⟩
  · intro key' promise' hlookup
    have hlookup : (s.loader.cache.erase key).lookup key' = some promise' := hlookup
    by_cases hkey : key' = key
    · subst hkey
      rw [AList.lookup_erase] at hlookup
      cases hlookup
    · rw [AList.lookup_erase_ne hkey] at hlookup
      obtain ⟨load, hload⟩ := h.cached key' promise' hlookup
      exact hg.keys promise' key' load hload
  · intro other key' dto hdto
    have hdto : (s.loader.settle promise (.error error)).loads[other]? =
      some (key', .resolved dto) := hdto
    rw [getElem?_settle] at hdto
    split at hdto
    · rename_i heq
      rw [heq, hp] at hdto
      cases hdto
    · obtain ⟨row, hrow⟩ := h.object other key' dto hdto
      exact ⟨row, hrow.grows hg⟩

/-- A DTO that was just made has all its references. -/
theorem Inv.settle (h : Inv service rows s) {promise : Nat} {key : String} {row : JsonObject}
    (hp : s.loader.loads[promise]? = some (key, .pending)) (hrow : rows.lookup key = some row) :
    Inv service rows { s with
      loader := s.loader.settle promise (.ok (plainToInstance service.dtoClass row)) } := by
  have hg : Grows s { s with
      loader := s.loader.settle promise (.ok (plainToInstance service.dtoClass row)) } :=
    ⟨fun other key' load hload => settle_keeps promise _ hload, fun _ hr => hr⟩
  refine ⟨?_, ?_, fun c hc => (h.calls c hc).grows hg⟩
  · intro key' promise' hlookup
    obtain ⟨load, hload⟩ := h.cached key' promise' hlookup
    exact hg.keys promise' key' load hload
  · intro other key' dto hdto
    have hdto : (s.loader.settle promise (.ok (plainToInstance service.dtoClass row))).loads[other]? =
      some (key', .resolved dto) := hdto
    rw [getElem?_settle] at hdto
    split at hdto
    · rename_i heq
      rw [heq, hp] at hdto
      cases hdto
      have hown : ∀ topic field, (topic, field) ∈ service.references →
          (plainToInstance service.dtoClass row).lookup field = row.lookup field := by
        intro topic field hmem
        rw [lookup_plainToInstance, if_pos (Service.exposes hmem)]
      exact ⟨row, hrow, fun topic field hmem => .inl (hown topic field hmem), .inl hown⟩
    · obtain ⟨row', hrow'⟩ := h.object other key' dto hdto
      exact ⟨row', hrow'.grows hg⟩

/-- A call begins: it loads its DTO. -/
theorem Inv.begin (h : Inv service rows s) {id : String} {reloads : List Nat}
    {sent : List (String × JsonObject)} (hi : s.calls[i]? = some ⟨id, .called, reloads, sent⟩) :
    Inv service rows (Calls.move { s with loader := (s.loader.load id).2 } i
      ⟨id, .loading (s.loader.load id).1, reloads, sent⟩) := by
  have hc := h.calls _ (List.mem_of_getElem? hi)
  obtain ⟨hold, hnew, hcached, hown⟩ := load_keeps id h.cached
  have hg : Grows s (Calls.move { s with loader := (s.loader.load id).2 } i
      ⟨id, .loading (s.loader.load id).1, reloads, sent⟩) :=
    ⟨fun promise key load hload => ⟨load, hold promise _ hload⟩,
      fun promise hr => returned_move hi (by rintro _ ⟨⟩) hr⟩
  have hempty : reloads = [] := hc.started rfl
  refine h.move hg hcached ?_ ?_
  · intro promise key dto hdto
    obtain ⟨row, hrow⟩ := h.object promise key dto (hnew promise key dto hdto)
    exact ⟨row, hrow.grows hg⟩
  · exact {
      notNull := hc.notNull
      started := by rintro ⟨⟩
      own := by
        rintro _ ⟨⟩
        exact hown
      fresh := by
        rintro promise ⟨⟩
        rw [hempty]
        exact List.not_mem_nil
      nodup := hc.nodup
      known := (hc.grows hg).known
      owed := (hc.grows hg).owed
      sent := hc.sent }

/-- A call moves on without a change of the loader. -/
theorem Inv.stay (h : Inv service rows s) (hi : s.calls[i]? = some c)
    (hn : ∀ promise, c.stage ≠ .returned promise)
    (hc : Grows s (s.move i c') → CallOk service rows (s.move i c') c') :
    Inv service rows (s.move i c') := by
  have hg : Grows s (s.move i c') :=
    ⟨fun promise key load hload => ⟨load, hload⟩, fun promise hr => returned_move hi hn hr⟩
  refine h.move hg h.cached ?_ (hc hg)
  intro promise key dto hdto
  obtain ⟨row, hrow⟩ := h.object promise key dto hdto
  exact ⟨row, hrow.grows hg⟩

/-- A call fails. -/
theorem Inv.failed (h : Inv service rows s) {id : String} {stage : Stage} {reloads : List Nat}
    {sent : List (String × JsonObject)} (hi : s.calls[i]? = some ⟨id, stage, reloads, sent⟩)
    (hn : ∀ promise, stage ≠ .returned promise) :
    Inv service rows (s.move i ⟨id, .failed, reloads, sent⟩) := by
  have hc := h.calls _ (List.mem_of_getElem? hi)
  refine h.stay hi hn fun hg => ?_
  exact {
    notNull := hc.notNull
    started := by rintro ⟨⟩
    own := by rintro _ ⟨⟩
    fresh := by rintro _ ⟨⟩
    nodup := hc.nodup
    known := (hc.grows hg).known
    owed := (hc.grows hg).owed
    sent := hc.sent }

/-- The DTO of a call, once its promise is resolved. -/
theorem Inv.dto (h : Inv service rows s) {id : String} {promise : Nat} {reloads : List Nat}
    {sent : List (String × JsonObject)} {dto : JsonObject}
    (hi : s.calls[i]? = some ⟨id, .loading promise, reloads, sent⟩)
    (hp : s.loader.promise? promise = some (.resolved dto)) :
    ∃ row, Object service rows s promise id dto row ∧
      s.loader.loads[promise]? = some (id, .resolved dto) := by
  obtain ⟨load, hload⟩ := (h.calls _ (List.mem_of_getElem? hi)).own promise rfl
  rw [DataLoader.promise?, hload] at hp
  cases hp
  obtain ⟨row, hrow⟩ := h.object promise id dto hload
  exact ⟨row, hrow, hload⟩

/-- The requests about a DTO that is complete carry the references of the row. -/
theorem carries_requests {promise : Nat} {id : String} {dto row : JsonObject}
    (h : Object service rows s promise id dto row) (hn : NotNull service rows id)
    (hc : service.complete dto = true) {topic : String} {message : JsonObject}
    (hm : (topic, message) ∈ service.requests dto) : Carries service row topic message := by
  obtain ⟨⟨topic', field⟩, hmem, heq⟩ := List.mem_map.mp hm
  cases heq
  obtain ⟨row', hrow', hnot⟩ := hn
  rw [h.found] at hrow'
  cases hrow'
  obtain ⟨text, htext, hne⟩ := hnot topic field hmem
  have htruthy : Json.truthy (dto.lookup field) = true :=
    List.all_eq_true.mp hc (topic, field) hmem
  rcases h.own topic field hmem with hown | hnone
  · exact ⟨field, text, hmem, hne, htext, by rw [hown, htext]⟩
  · rw [hnone] at htruthy
    cases htruthy

/-- A DTO that lacks a reference has been stripped by a call that has returned. -/
theorem returned_of_incomplete {promise : Nat} {id : String} {dto row : JsonObject}
    (h : Object service rows s promise id dto row) (hn : NotNull service rows id)
    (hc : ¬service.complete dto = true) : Returned s promise := by
  refine h.whole.resolve_left fun hwhole => hc ?_
  obtain ⟨row', hrow', hnot⟩ := hn
  rw [h.found] at hrow'
  cases hrow'
  refine List.all_eq_true.mpr ?_
  rintro ⟨topic, field⟩ hmem
  obtain ⟨text, htext, hne⟩ := hnot topic field hmem
  dsimp only
  rw [hwhole topic field hmem, htext]
  simpa [Json.truthy] using hne

/-- A call whose DTO is complete sends its requests. -/
theorem Inv.request (h : Inv service rows s) {id : String} {promise : Nat} {reloads : List Nat}
    {sent : List (String × JsonObject)} {dto : JsonObject}
    (hi : s.calls[i]? = some ⟨id, .loading promise, reloads, sent⟩)
    (hp : s.loader.promise? promise = some (.resolved dto)) (hd : service.complete dto = true) :
    Inv service rows
      (s.move i ⟨id, .requested promise, reloads, sent ++ service.requests dto⟩) := by
  have hc := h.calls _ (List.mem_of_getElem? hi)
  obtain ⟨row, hobject, hload⟩ := h.dto hi hp
  refine h.stay hi (by rintro _ ⟨⟩) fun hg => ?_
  exact {
    notNull := hc.notNull
    started := by rintro ⟨⟩
    own := by
      rintro _ ⟨⟩
      exact ⟨_, hload⟩
    fresh := by
      rintro _ ⟨⟩
      exact hc.fresh promise rfl
    nodup := hc.nodup
    known := (hc.grows hg).known
    owed := (hc.grows hg).owed
    sent := by
      intro topic message hmem
      rcases List.mem_append.mp hmem with hmem | hmem
      · exact hc.sent topic message hmem
      · exact ⟨row, hobject.found, carries_requests hobject hc.notNull hd hmem⟩ }

/-- A call whose DTO was stripped owes its recursive call to the one that has stripped it, and gets
a promise that is new. -/
theorem Inv.reload (h : Inv service rows s) {id : String} {promise : Nat} {reloads : List Nat}
    {sent : List (String × JsonObject)} {dto : JsonObject}
    (hi : s.calls[i]? = some ⟨id, .loading promise, reloads, sent⟩)
    (hp : s.loader.promise? promise = some (.resolved dto)) (hd : ¬service.complete dto = true) :
    Inv service rows (Calls.move { s with loader := ((s.loader.clear id).load id).2 } i
      ⟨id, .loading ((s.loader.clear id).load id).1, reloads ++ [promise], sent⟩) := by
  have hc := h.calls _ (List.mem_of_getElem? hi)
  obtain ⟨row, hobject, hload⟩ := h.dto hi hp
  have hclear : ∀ key promise, (s.loader.clear id).cache.lookup key = some promise →
      ∃ load, (s.loader.clear id).loads[promise]? = some (key, load) := by
    intro key promise' hlookup
    have hlookup : (s.loader.cache.erase id).lookup key = some promise' := hlookup
    by_cases hkey : key = id
    · subst hkey
      rw [AList.lookup_erase] at hlookup
      cases hlookup
    · rw [AList.lookup_erase_ne hkey] at hlookup
      exact h.cached key promise' hlookup
  obtain ⟨hold, hnew, hcached, hown⟩ := load_keeps id hclear
  have hnext : ((s.loader.clear id).load id).1 = s.loader.loads.length := by
    rcases load_cases (s.loader.clear id) id with ⟨hlookup, -⟩ | ⟨-, hlength, -⟩
    · have hnone : (s.loader.clear id).cache.lookup id = none := AList.lookup_erase _ _
      rw [hnone] at hlookup
      cases hlookup
    · exact hlength
  have hg : Grows s (Calls.move { s with loader := ((s.loader.clear id).load id).2 } i
      ⟨id, .loading ((s.loader.clear id).load id).1, reloads ++ [promise], sent⟩) :=
    ⟨fun promise key load hload => ⟨load, hold promise _ hload⟩,
      fun promise hr => returned_move hi (by rintro _ ⟨⟩) hr⟩
  have hknown : ∀ p ∈ reloads ++ [promise], ∃ entry, s.loader.loads[p]? = some entry := by
    intro p hmem
    rcases List.mem_append.mp hmem with hmem | hmem
    · exact hc.known p hmem
    · rw [List.mem_singleton.mp hmem]
      exact ⟨_, hload⟩
  refine h.move hg hcached ?_ ?_
  · intro promise key dto hdto
    obtain ⟨row, hrow⟩ := h.object promise key dto (hnew promise key dto hdto)
    exact ⟨row, hrow.grows hg⟩
  · exact {
      notNull := hc.notNull
      started := by rintro ⟨⟩
      own := by
        rintro _ ⟨⟩
        exact hown
      fresh := by
        rintro _ ⟨⟩ hmem
        obtain ⟨entry, hentry⟩ := hknown _ hmem
        obtain ⟨hlt, -⟩ := List.getElem?_eq_some_iff.mp hentry
        omega
      nodup := by
        refine List.nodup_append.mpr ⟨hc.nodup, List.nodup_singleton _, ?_⟩
        rintro p hmem _ hlast rfl
        rw [List.mem_singleton.mp hlast] at hmem
        exact hc.fresh promise rfl hmem
      known := by
        intro p hmem
        obtain ⟨entry, hentry⟩ := hknown p hmem
        exact ⟨entry, hold p entry hentry⟩
      owed := by
        intro p hmem
        refine hg.returned p ?_
        rcases List.mem_append.mp hmem with hmem | hmem
        · exact hc.owed p hmem
        · rw [List.mem_singleton.mp hmem]
          exact returned_of_incomplete hobject hc.notNull hd
      sent := hc.sent }

/-- A call returns, and strips its DTO. -/
theorem Inv.answer (h : Inv service rows s) {id : String} {promise : Nat} {reloads : List Nat}
    {sent : List (String × JsonObject)}
    (hi : s.calls[i]? = some ⟨id, .requested promise, reloads, sent⟩) :
    Inv service rows (Calls.move { s with loader := s.loader.modify promise service.strip } i
      ⟨id, .returned promise, reloads, sent⟩) := by
  have hc := h.calls _ (List.mem_of_getElem? hi)
  have hg : Grows s (Calls.move { s with loader := s.loader.modify promise service.strip } i
      ⟨id, .returned promise, reloads, sent⟩) :=
    ⟨fun other key load hload => modify_keeps promise service.strip hload,
      fun p hr => returned_move hi (by rintro _ ⟨⟩) hr⟩
  refine h.move hg ?_ ?_ ?_
  · intro key promise' hlookup
    obtain ⟨load, hload⟩ := h.cached key promise' hlookup
    exact hg.keys promise' key load hload
  · intro other key dto hdto
    rw [getElem?_modify] at hdto
    split at hdto
    · rename_i heq
      subst heq
      obtain ⟨⟨key', load⟩, hload, heq⟩ := Option.map_eq_some_iff.mp hdto
      cases load with
      | pending => cases heq
      | rejected error => cases heq
      | resolved dto' =>
        cases heq
        obtain ⟨row, hrow⟩ := h.object other key' dto' hload
        refine ⟨row, hrow.found, fun topic field hmem => ?_,
          .inr ⟨_, moved_mem hi, rfl⟩⟩
        rcases Service.lookup_strip service dto' field with hs | hs
        · rw [hs]
          exact hrow.own topic field hmem
        · exact .inr hs
    · obtain ⟨row, hrow⟩ := h.object other key dto hdto
      exact ⟨row, hrow.grows hg⟩
  · exact {
      notNull := hc.notNull
      started := by rintro ⟨⟩
      own := by
        rintro _ ⟨⟩
        obtain ⟨load, hload⟩ := hc.own promise rfl
        exact hg.keys promise id load hload
      fresh := by
        rintro _ ⟨⟩
        exact hc.fresh promise rfl
      nodup := hc.nodup
      known := (hc.grows hg).known
      owed := (hc.grows hg).owed
      sent := hc.sent }

/-- Every step keeps the invariant. -/
theorem Inv.fire (h : Inv service rows s) {label : Label}
    (hf : s.fire service rows label = some s') : Inv service rows s' := by
  cases label with
  | begin i =>
    dsimp only [Calls.fire] at hf
    split at hf
    · rename_i hi
      cases hf
      exact h.begin hi
    · cases hf
  | settle promise =>
    dsimp only [Calls.fire] at hf
    split at hf
    · rename_i hp
      split at hf
      · rename_i hrow
        cases hf
        exact h.settle hp hrow
      · cases hf
        exact h.failLoad hp
    · cases hf
  | fail promise error =>
    dsimp only [Calls.fire] at hf
    split at hf
    · rename_i hp
      cases hf
      exact h.failLoad hp
    · cases hf
  | resume i =>
    dsimp only [Calls.fire] at hf
    split at hf
    · rename_i hi
      split at hf
      · rename_i hp
        split at hf
        · rename_i hd
          cases hf
          exact h.request hi hp hd
        · rename_i hd
          cases hf
          exact h.reload hi hp hd
      · cases hf
        exact h.failed hi (by rintro _ ⟨⟩)
      · cases hf
    · cases hf
  | answer i =>
    dsimp only [Calls.fire] at hf
    split at hf
    · rename_i hi
      cases hf
      exact h.answer hi
    · cases hf
  | reject i =>
    dsimp only [Calls.fire] at hf
    split at hf
    · rename_i hi
      cases hf
      exact h.failed hi (by rintro _ ⟨⟩)
    · cases hf

theorem inv_initial {ids : List String} (hrows : ∀ id ∈ ids, NotNull service rows id) :
    Inv service rows (Calls.machine service rows ids).initial where
  cached := by
    intro key promise h
    cases h
  object := by
    intro promise key dto h
    cases h
  calls := by
    intro c hmem
    obtain ⟨id, hid, rfl⟩ := List.mem_map.mp hmem
    exact {
      notNull := hrows id hid
      started := fun _ => rfl
      own := by rintro _ ⟨⟩
      fresh := by rintro _ ⟨⟩
      nodup := List.nodup_nil
      known := by
        intro promise h
        cases h
      owed := by
        intro promise h
        cases h
      sent := by
        intro topic message h
        cases h }

/-! ## The bound -/

/-- The promise whose DTO a call has stripped. -/
def Call.stripped (c : Call) : Option Nat :=
  match c.stage with
  | .returned promise => some promise
  | _ => none

theorem mem_stripped {promise : Nat} (h : Returned s promise) :
    promise ∈ s.calls.filterMap Call.stripped := by
  obtain ⟨c, hmem, hstage⟩ := h
  refine List.mem_filterMap.mpr ⟨c, hmem, ?_⟩
  rw [Call.stripped, hstage]

/-- Each recursive call of a call is owed to another one, and no two to the same. -/
theorem CallOk.reloads_length_lt (h : CallOk service rows s c) (hmem : c ∈ s.calls) :
    c.reloads.length < s.calls.length := by
  have hsub : ∀ promise ∈ c.reloads, promise ∈ s.calls.filterMap Call.stripped :=
    fun promise hp => mem_stripped (h.owed promise hp)
  cases hc : c.stripped with
  | none =>
    -- The call has stripped nothing, so it is not among those it owes to.
    have hle := (List.subperm_of_subset h.nodup hsub).length_le
    have hlt : (s.calls.filterMap Call.stripped).length < s.calls.length :=
      List.length_filterMap_lt_length_iff_exists.mpr ⟨c, hmem, hc⟩
    omega
  | some promise =>
    have hstage : c.stage = .returned promise := by
      unfold Call.stripped at hc
      split at hc
      · rename_i hstage
        cases hc
        exact hstage
      · cases hc
    have hnodup : (promise :: c.reloads).Nodup :=
      List.nodup_cons.mpr ⟨h.fresh promise (by rw [hstage]; rfl), h.nodup⟩
    have hle := (List.subperm_of_subset hnodup fun p hp => by
      rcases List.mem_cons.mp hp with rfl | hp
      · exact mem_stripped ⟨c, hmem, hstage⟩
      · exact hsub p hp).length_le
    have hle' := List.length_filterMap_le Call.stripped s.calls
    rw [List.length_cons] at hle
    omega

/-- No call is added. -/
theorem length_fire {label : Label} (hf : s.fire service rows label = some s') :
    s'.calls.length = s.calls.length := by
  cases label with
  | begin i =>
    dsimp only [Calls.fire] at hf
    split at hf
    · cases hf
      exact List.length_set
    · cases hf
  | settle promise =>
    dsimp only [Calls.fire] at hf
    split at hf
    · split at hf <;> cases hf <;> rfl
    · cases hf
  | fail promise error =>
    dsimp only [Calls.fire] at hf
    split at hf
    · cases hf
      rfl
    · cases hf
  | resume i =>
    dsimp only [Calls.fire] at hf
    split at hf
    · split at hf
      · split at hf <;> cases hf <;> exact List.length_set
      · cases hf
        exact List.length_set
      · cases hf
    · cases hf
  | answer i =>
    dsimp only [Calls.fire] at hf
    split at hf
    · cases hf
      exact List.length_set
    · cases hf
  | reject i =>
    dsimp only [Calls.fire] at hf
    split at hf
    · cases hf
      exact List.length_set
    · cases hf

/-- Whatever the interleaving, a call makes fewer recursive calls than there are calls, and each
request it sends carries the own reference of its row. -/
theorem reloads_end {ids : List String} (hrows : ∀ id ∈ ids, NotNull service rows id)
    (h : (Calls.machine service rows ids).Reachable (fun _ _ => true) s) :
    ∀ c ∈ s.calls, c.reloads.length < ids.length ∧
      ∀ topic message, (topic, message) ∈ c.sent →
        ∃ row, rows.lookup c.id = some row ∧ Carries service row topic message := by
  have hinv : Inv service rows s ∧ s.calls.length = ids.length :=
    h.induction (P := fun s => Inv service rows s ∧ s.calls.length = ids.length)
      ⟨inv_initial hrows, List.length_map _⟩ fun s s' _ hi ⟨label, _, hf⟩ => by
        have hf : s.fire service rows label = some s' := hf
        exact ⟨hi.1.fire hf, (length_fire hf).trans hi.2⟩
  intro c hmem
  have hc := hinv.1.calls c hmem
  exact ⟨hinv.2 ▸ hc.reloads_length_lt hmem, hc.sent⟩

end Inv

/-- The table of one invoice. -/
def oneInvoice : Rows :=
  AList.singleton "i1" (invoiceRow
    { id := "i1", orderId := "o1", userId := "u1", title := "Invoice for Order #o1", amount := 10
      description := "Order invoice", status := .PENDING, pdfUrl := "" })

/-- Two calls load the invoice; one is answered before the other goes on, which loads it again. -/
def twoCalls : List Label :=
  [.begin 0, .begin 1, .settle 0, .resume 0, .answer 0, .resume 1, .settle 1, .resume 1]

theorem fires_twoCalls : ((Calls.machine .InvoiceService oneInvoice ["i1", "i1"]).run
    (fun _ _ => true) (Calls.machine .InvoiceService oneInvoice ["i1", "i1"]).initial
      twoCalls).isSome = true := by
  decide

theorem notNull_oneInvoice : ∀ id ∈ ["i1", "i1"], NotNull .InvoiceService oneInvoice id := by
  intro id hid
  obtain rfl : id = "i1" := by simpa using hid
  refine ⟨_, rfl, ?_⟩
  intro topic field hmem
  rcases List.mem_pair.mp hmem with h | h
  · cases h
    exact ⟨"u1", rfl, by decide⟩
  · cases h
    exact ⟨"o1", rfl, by decide⟩

/-- One of the two calls makes one recursive call. -/
theorem reloads_end_twoCalls :
    ∃ c ∈ (((Calls.machine .InvoiceService oneInvoice ["i1", "i1"]).run (fun _ _ => true)
        (Calls.machine .InvoiceService oneInvoice ["i1", "i1"]).initial twoCalls).get
          fires_twoCalls).calls,
      0 < c.reloads.length ∧ c.reloads.length < 2 ∧ ∀ topic message, (topic, message) ∈ c.sent →
        ∃ row, oneInvoice.lookup c.id = some row ∧ Carries .InvoiceService row topic message := by
  have hends := reloads_end notNull_oneInvoice (Machine.reachable_run twoCalls fires_twoCalls)
  obtain ⟨c, hc, hreloads⟩ : ∃ c ∈ (((Calls.machine .InvoiceService oneInvoice ["i1", "i1"]).run
      (fun _ _ => true) (Calls.machine .InvoiceService oneInvoice ["i1", "i1"]).initial
        twoCalls).get fires_twoCalls).calls, 0 < c.reloads.length := by decide
  exact ⟨c, hc, hreloads, hends c hc⟩

end InvoiceHub.Loader
