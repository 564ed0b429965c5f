import InvoiceHub.Loader.Reload

/-!
# A loader that is shared

`OrderService` and `OrderKafkaSubscriber` hold the same loader, and so do all calls of one
`getById`.  What each of them does to it keeps the keys of its promises, and what a key is
resolved with stays the DTO of its row, but for what `getById` has deleted.
-/

namespace InvoiceHub.Loader

open Effects Services Cache

/-! ## Those who share a loader -/

/-- What is done to a loader; `P` holds of the DTOs that keys are resolved with. -/
inductive Touches (P : String → JsonObject → Prop) (l : DataLoader String JsonObject String) :
    DataLoader String JsonObject String → Prop where
  | load (key : String) : Touches P l (l.load key).2
  | clear (key : String) : Touches P l (l.clear key)
  | resolve {promise : Nat} {key : String} {dto : JsonObject} :
      l.loads[promise]? = some (key, .pending) → P key dto →
      Touches P l (l.settle promise (.ok dto))
  | reject (promise : Nat) (error : String) : Touches P l (l.settle promise (.error error))
  | modify (promise : Nat) (f : JsonObject → JsonObject) : (∀ key dto, P key dto → P key (f dto)) →
      Touches P l (l.modify promise f)

/-- Promises are cached under their keys, and resolved as `P` says. -/
structure Holds (P : String → JsonObject → Prop) (l : DataLoader String JsonObject String) :
    Prop where
  cached : ∀ key promise, l.cache.lookup key = some promise →
    ∃ load, l.loads[promise]? = some (key, load)
  resolved : ∀ (promise : Nat) key dto, l.loads[promise]? = some (key, .resolved dto) → P key dto

/-- A promise keeps its key. -/
def KeysKept (l l' : DataLoader String JsonObject String) : Prop :=
  ∀ (promise : Nat) key load, l.loads[promise]? = some (key, load) →
    ∃ load', l'.loads[promise]? = some (key, load')

section Touches

variable {P Q : String → JsonObject → Prop} {l l' : DataLoader String JsonObject String}

theorem holds_new : Holds P .new := by
  constructor
  · intro key promise h
    cases h
  · intro promise key dto h
    cases h

theorem Holds.imp (h : Holds P l) (hpq : ∀ key dto, P key dto → Q key dto) : Holds Q l :=
  ⟨h.cached, fun promise key dto hget => hpq key dto (h.resolved promise key dto hget)⟩

theorem Touches.keysKept (ht : Touches P l l') (h : Holds P l) : KeysKept l l' := by
  intro promise key load hget
  cases ht with
  | load key' => exact ⟨load, (load_keeps key' h.cached).1 promise _ hget⟩
  | clear key' => exact ⟨load, hget⟩
  | resolve _ _ => exact settle_keeps _ _ hget
  | reject promise' error => exact settle_keeps _ _ hget
  | modify promise' f _ => exact modify_keeps _ _ hget

/-- What everyone does keeps what all rely on. -/
theorem Touches.holds (ht : Touches P l l') (h : Holds P l) : Holds P l' := by
  have hkept := ht.keysKept h
  cases ht with
  | load key =>
    obtain ⟨-, hnew, hcached, -⟩ := load_keeps key h.cached
    exact ⟨hcached, fun promise key' dto hget => h.resolved promise key' dto (hnew _ _ _ hget)⟩
  | clear key =>
    refine ⟨fun key' promise hlookup => ?_, h.resolved⟩
    have hlookup : (l.cache.erase key).lookup key' = some promise := hlookup
    by_cases hkey : key' = key
    · subst hkey
      rw [AList.lookup_erase] at hlookup
      cases hlookup
    · rw [AList.lookup_erase_ne hkey] at hlookup
      exact h.cached key' promise hlookup
  | @resolve promise key dto hp hdto =>
    refine ⟨fun key' promise' hlookup => ?_, fun other key' dto' hget => ?_⟩
    · obtain ⟨load, hload⟩ := h.cached key' promise' hlookup
      exact hkept promise' key' load hload
    · rw [getElem?_settle] at hget
      split at hget
      · rename_i heq
        rw [heq, hp] at hget
        cases hget
        exact hdto
      · exact h.resolved other key' dto' hget
  | reject promise error =>
    refine ⟨fun key' promise' hlookup => ?_, fun other key' dto' hget => ?_⟩
    · obtain ⟨load, hload⟩ := h.cached key' promise' hlookup
      exact hkept promise' key' load hload
    · rw [getElem?_settle] at hget
      split at hget
      · obtain ⟨⟨key, load⟩, hload, heq⟩ := Option.map_eq_some_iff.mp hget
        cases load with
        | resolved dto =>
          cases heq
          exact h.resolved other _ _ hload
        | pending => cases heq
        | rejected error => cases heq
      · exact h.resolved other key' dto' hget
  | modify promise f hf =>
    refine ⟨fun key' promise' hlookup => ?_, fun other key' dto' hget => ?_⟩
    · obtain ⟨load, hload⟩ := h.cached key' promise' hlookup
      exact hkept promise' key' load hload
    · rw [getElem?_modify] at hget
      split at hget
      · obtain ⟨⟨key, load⟩, hload, heq⟩ := Option.map_eq_some_iff.mp hget
        cases load with
        | resolved dto =>
          cases heq
          exact hf _ _ (h.resolved other _ _ hload)
        | pending => cases heq
        | rejected error => cases heq
      · exact h.resolved other key' dto' hget

/-- So does all that is done in a row. -/
theorem holds_of_touches (ht : Relation.ReflTransGen (Touches P) l l') (h : Holds P l) :
    Holds P l' ∧ KeysKept l l' := by
  induction ht with
  | refl => exact ⟨h, fun _ _ load hget => ⟨load, hget⟩⟩
  | tail _ ht ih =>
    obtain ⟨hmid, hkept⟩ := ih
    refine ⟨ht.holds hmid, fun promise key load hget => ?_⟩
    obtain ⟨load', hget'⟩ := hkept promise key load hget
    exact ht.keysKept hmid promise key load' hget'

/-- The promise of a load carries its key. -/
theorem Holds.promise (h : Holds P l) (key : String) :
    ∃ load, (l.load key).2.loads[(l.load key).1]? = some (key, load) :=
  (load_keeps key h.cached).2.2.2

/-- What a promise that carries a key is resolved with. -/
theorem Holds.value (h : Holds P l) {promise : Nat} {key : String} {dto : JsonObject}
    (hkey : ∃ load, l.loads[promise]? = some (key, load))
    (hp : l.promise? promise = some (.resolved dto)) : P key dto := by
  obtain ⟨load, hload⟩ := hkey
  rw [DataLoader.promise?, hload] at hp
  cases hp
  exact h.resolved promise key dto hload

end Touches

/-! ## The calls of getById -/

/-- The rows of a table, and all that were ever stored in it, each with its id, which nobody
reads. -/
structure Table where
  rows : Rows := ∅
  stored : List (String × JsonObject) := []
  current : ∀ id row, rows.lookup id = some row → (id, row) ∈ stored := by
    intro id row h
    cases h

namespace Table

/-- A row is stored. -/
def write (table : Table) (id : String) (row : JsonObject) : Table where
  rows := table.rows.insert id row
  stored := table.stored ++ [(id, row)]
  current := by
    intro id' row' h
    by_cases hid : id' = id
    · subst hid
      rw [AList.lookup_insert] at h
      cases h
      exact List.mem_append_right _ List.mem_cons_self
    · rw [AList.lookup_insert_ne hid] at h
      exact List.mem_append_left _ (table.current id' row' h)

/-- The row as it was stored once; only its status may have changed since. -/
def Was (table : Table) (id : String) (version : JsonObject) : Prop :=
  (id, version) ∈ table.stored ∧ ∃ row, table.rows.lookup id = some row ∧
    ∀ field, field ≠ "status" → row.lookup field = version.lookup field

theorem was_current {table : Table} {id : String} {row : JsonObject}
    (h : table.rows.lookup id = some row) : table.Was id row :=
  ⟨table.current id row h, row, h, fun _ _ => rfl⟩

end Table

/-- What a DTO that is read shows: the columns of the row of its id as it was stored once.
References may have been deleted since. -/
def Shows (service : Service) (table : Table) (id : String) (dto : JsonObject) : Prop :=
  ∃ version, table.Was id version ∧ ∀ field ∈ service.dtoClass,
    dto.lookup field = version.lookup field ∨ field ∈ service.deleted ∧ dto.lookup field = none

/-- A call works with a promise that carries its id. -/
def Placed (s : Calls) : Prop :=
  ∀ c ∈ s.calls, ∀ promise, c.stage.promise? = some promise →
    ∃ load, s.loader.loads[promise]? = some (c.id, load)

section Calls

variable {service : Service} {table : Table} {s s' : Calls}

theorem lookup_strip_of_not_mem (service : Service) (dto : JsonObject) {field : String}
    (h : field ∉ service.deleted) : (service.strip dto).lookup field = dto.lookup field := by
  cases service with
  | OrderService =>
    exact AList.lookup_erase_ne fun heq => h (List.mem_singleton.mpr heq)
  | InvoiceService =>
    have hfields := not_or.mp fun heq => h (List.mem_pair.mpr heq)
    exact (AList.lookup_erase_ne hfields.2).trans (AList.lookup_erase_ne hfields.1)

theorem lookup_strip_of_mem (service : Service) (dto : JsonObject) {field : String}
    (h : field ∈ service.deleted) : (service.strip dto).lookup field = none := by
  cases service with
  | OrderService =>
    cases List.mem_singleton.mp h
    exact AList.lookup_erase _ _
  | InvoiceService =>
    rcases List.mem_pair.mp h with rfl | rfl
    · exact (AList.lookup_erase_ne (by decide)).trans (AList.lookup_erase _ _)
    · exact AList.lookup_erase _ _

/-- A stripped DTO shows what the whole one does. -/
theorem Shows.strip {id : String} {dto : JsonObject} (h : Shows service table id dto) :
    Shows service table id (service.strip dto) := by
  obtain ⟨version, hwas, hfields⟩ := h
  refine ⟨version, hwas, fun field hmem => ?_⟩
  by_cases hdeleted : field ∈ service.deleted
  · exact .inr ⟨hdeleted, lookup_strip_of_mem service dto hdeleted⟩
  · rw [lookup_strip_of_not_mem service dto hdeleted]
    exact hfields field hmem

theorem shows_plainToInstance {id : String} {row : JsonObject}
    (h : table.rows.lookup id = some row) :
    Shows service table id (plainToInstance service.dtoClass row) := by
  refine ⟨row, Table.was_current h, fun field hmem => .inl ?_⟩
  rw [lookup_plainToInstance, if_pos hmem]

/-- A batch that is rejected. -/
theorem touches_failLoad (P : String → JsonObject → Prop) (s : Calls) (promise : Nat)
    (key error : String) :
    Relation.ReflTransGen (Touches P) s.loader (s.failLoad promise key error).loader :=
  .tail (.single (.reject promise error)) (.clear key)

/-- A step of the calls of `getById` is among what may be done to their loader. -/
theorem Calls.fire_touches {label : Label} (hf : s.fire service table.rows label = some s') :
    Relation.ReflTransGen (Touches (Shows service table)) s.loader s'.loader := by
  cases label with
  | begin i =>
    dsimp only [Calls.fire] at hf
    split at hf
    · cases hf
      exact .single (.load _)
    · cases hf
  | settle promise =>
    dsimp only [Calls.fire] at hf
    split at hf
    · rename_i key hget
      split at hf
      · rename_i row hrow
        cases hf
        exact .single (.resolve hget (shows_plainToInstance hrow))
      · cases hf
        exact touches_failLoad _ s _ _ _
    · cases hf
  | fail promise error =>
    dsimp only [Calls.fire] at hf
    split at hf
    · cases hf
      exact touches_failLoad _ s _ _ _
    · cases hf
  | resume i =>
    dsimp only [Calls.fire] at hf
    split at hf
    · split at hf
      · split at hf
        · cases hf
          exact .refl
        · cases hf
          exact .tail (.single (.clear _)) (.load _)
      · cases hf
        exact .refl
      · cases hf
    · cases hf
  | answer i =>
    dsimp only [Calls.fire] at hf
    split at hf
    · cases hf
      exact .single (.modify _ _ fun _ _ h => h.strip)
    · cases hf
  | reject i =>
    dsimp only [Calls.fire] at hf
    split at hf
    · cases hf
      exact .refl
    · cases hf

/-- What a step does to the calls: one of them may go on, with a promise that carries its id. -/
theorem Calls.fire_calls (h : Holds (Shows service table) s.loader) (hp : Placed s) {label : Label}
    (hf : s.fire service table.rows label = some s') :
    s'.calls = s.calls ∨ ∃ (i : Nat) (c c' : Call), s.calls[i]? = some c ∧
      s'.calls = s.calls.set i c' ∧ c'.id = c.id ∧ ∀ promise, c'.stage.promise? = some promise →
        ∃ load, s'.loader.loads[promise]? = some (c.id, load) := by
  have hkept := (holds_of_touches (Calls.fire_touches hf) h).2
  cases label with
  | begin i =>
    dsimp only [Calls.fire] at hf
    split at hf
    · rename_i id reloads sent hget
      cases hf
      refine .inr ⟨i, _, _, hget, rfl, rfl, ?_⟩
      rintro promise ⟨⟩
      exact h.promise id
    · cases hf
  | settle promise =>
    dsimp only [Calls.fire] at hf
    split at hf
    · split at hf <;> cases hf <;> exact .inl rfl
    · cases hf
  | fail promise error =>
    dsimp only [Calls.fire] at hf
    split at hf
    · cases hf
      exact .inl rfl
    · cases hf
  | resume i =>
    dsimp only [Calls.fire] at hf
    split at hf
    · rename_i id promise reloads sent hget
      split at hf
      · split at hf
        · cases hf
          refine .inr ⟨i, _, _, hget, rfl, rfl, ?_⟩
          rintro promise ⟨⟩
          exact hp _ (List.mem_of_getElem? hget) _ rfl
        · cases hf
          refine .inr ⟨i, _, _, hget, rfl, rfl, ?_⟩
          rintro promise ⟨⟩
          exact ((Touches.clear id).holds h).promise id
      · cases hf
        refine .inr ⟨i, _, _, hget, rfl, rfl, ?_⟩
        rintro promise ⟨⟩
      · cases hf
    · cases hf
  | answer i =>
    dsimp only [Calls.fire] at hf
    split at hf
    · rename_i id promise reloads sent hget
      cases hf
      refine .inr ⟨i, _, _, hget, rfl, rfl, ?_⟩
      rintro promise ⟨⟩
      obtain ⟨load, hload⟩ := hp _ (List.mem_of_getElem? hget) _ rfl
      exact hkept _ _ _ hload
    · cases hf
  | reject i =>
    dsimp only [Calls.fire] at hf
    split at hf
    · rename_i id promise reloads sent hget
      cases hf
      refine .inr ⟨i, _, _, hget, rfl, rfl, ?_⟩
      rintro promise ⟨⟩
    · cases hf

/-- Whatever is done to the loader, calls keep their promises. -/
theorem Placed.keysKept {loader : DataLoader String JsonObject String} (hp : Placed s)
    (hk : KeysKept s.loader loader) : Placed { s with loader } := by
  intro c hc promise hpromise
  obtain ⟨load, hload⟩ := hp c hc promise hpromise
  exact hk promise c.id load hload

theorem Placed.fire (h : Holds (Shows service table) s.loader) (hp : Placed s) {label : Label}
    (hf : s.fire service table.rows label = some s') : Placed s' := by
  have hkept := (holds_of_touches (Calls.fire_touches hf) h).2
  have hold : ∀ c ∈ s.calls, ∀ promise, c.stage.promise? = some promise →
      ∃ load, s'.loader.loads[promise]? = some (c.id, load) := by
    intro c hc promise hpromise
    obtain ⟨load, hload⟩ := hp c hc promise hpromise
    exact hkept promise c.id load hload
  intro c hc
  rcases Calls.fire_calls h hp hf with hcalls | ⟨i, old, new, -, hcalls, hid, hnew⟩
  · exact hold c (hcalls ▸ hc)
  · rw [hcalls] at hc
    rcases List.mem_or_eq_of_mem_set hc with hc | rfl
    · exact hold c hc
    · rw [hid]
      exact hnew

end Calls

end InvoiceHub.Loader
