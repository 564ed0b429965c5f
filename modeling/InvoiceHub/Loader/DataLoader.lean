import Mathlib.Data.List.AList

/-!
# Loaders that batch and cache

The package `dataloader`, as far as the services rely on it.  `load` makes a promise for a key, or
returns the one cached under it, until the key is cleared.  A batch function is called with the keys
of the pending promises: one that throws rejects them all and has their keys cleared; one that
returns settles each by its own element.  What a promise was resolved with is one object, shared by
all who hold the promise.
-/

namespace InvoiceHub.Loader

/-- The promise of a load. -/
inductive Load (V E : Type) where
  | pending
  | resolved (value : V)
  | rejected (error : E)

namespace Load

variable {V E : Type}

/-- A promise is settled once. -/
def settle (result : Except E V) : Load V E → Load V E
  | pending =>
    match result with
    | .ok value => resolved value
    | .error error => rejected error
  | load => load

def isPending : Load V E → Bool
  | pending => true
  | _ => false

/-- What a load that has not failed resolved with. -/
def value? : Load V E → Option V
  | resolved value => some value
  | _ => none

/-- The object is changed in place. -/
def modify (f : V → V) : Load V E → Load V E
  | resolved value => resolved (f value)
  | load => load

end Load

/-- The promises a loader has made, each with its key, and the one that is cached under a key. -/
structure DataLoader (K V E : Type) [DecidableEq K] where
  loads : List (K × Load V E)
  cache : AList fun _ : K => Nat

namespace DataLoader

variable {K V E : Type} [DecidableEq K]

/-- A new loader. -/
def new : DataLoader K V E := ⟨[], ∅⟩

/-- `load`: the promise, and the loader that knows it. -/
def load (l : DataLoader K V E) (key : K) : Nat × DataLoader K V E :=
  match l.cache.lookup key with
  | some promise => (promise, l)
  | none => (l.loads.length,
    { loads := l.loads ++ [(key, .pending)], cache := l.cache.insert key l.loads.length })

/-- `clear`. -/
def clear (l : DataLoader K V E) (key : K) : DataLoader K V E :=
  { l with cache := l.cache.erase key }

/-- What has become of a promise. -/
def promise? (l : DataLoader K V E) (promise : Nat) : Option (Load V E) :=
  l.loads[promise]?.map Prod.snd

/-- A promise is settled. -/
def settle (l : DataLoader K V E) (promise : Nat) (result : Except E V) : DataLoader K V E :=
  { l with loads := l.loads.modify promise fun (key, load) => (key, load.settle result) }

/-- The object of a promise is changed. -/
def modify (l : DataLoader K V E) (promise : Nat) (f : V → V) : DataLoader K V E :=
  { l with loads := l.loads.modify promise fun (key, load) => (key, load.modify f) }

/-- The keys of a batch. -/
def keys (l : DataLoader K V E) : List K :=
  (l.loads.filter fun (_, load) => load.isPending).map Prod.fst

/-- Each pending promise gets its element. -/
def fill : List (K × Load V E) → List (Except E V) → List (K × Load V E)
  | (key, .pending) :: loads, result :: results =>
    (key, Load.pending.settle result) :: fill loads results
  | settled :: loads, results => settled :: fill loads results
  | [], _ => []

/-- The batch function is called. -/
def dispatch (l : DataLoader K V E) (batch : List K → Except E (List (Except E V))) :
    DataLoader K V E :=
  match batch l.keys with
  | .error error =>
    { loads := l.loads.map fun (key, load) => (key, load.settle (.error error))
      cache := l.keys.foldl (fun cache key => cache.erase key) l.cache }
  | .ok results => { l with loads := fill l.loads results }

/-- `load`, key by key: the promises in the order of the keys. -/
def loadEach (l : DataLoader K V E) : List K → List Nat × DataLoader K V E
  | [] => ([], l)
  | key :: keys =>
    let (promise, l) := l.load key
    let (promises, l) := l.loadEach keys
    (promise :: promises, l)

/-- What comes of loads that make up one batch of a new loader. -/
def loadTogether (batch : List K → Except E (List (Except E V))) (keys : List K) :
    List (Option (Load V E)) :=
  let (promises, l) := new.loadEach keys
  promises.map (l.dispatch batch).promise?

/-- Loads of one batch, as the package documents them: the batch function is called with the keys,
each of them at least once; one that throws rejects every load, and an element of what it returns
settles the loads of its own key. -/
def Batches (loadTogether : (List K → Except E (List (Except E V))) → List K →
    List (Option (Load V E))) : Prop :=
  ∀ batch keys, ∃ batched, (∀ key, key ∈ batched ↔ key ∈ keys) ∧
    (∀ g, batch batched = .ok (batched.map g) →
      loadTogether batch keys = keys.map fun key => some (Load.pending.settle (g key))) ∧
    (∀ error, batch batched = .error error →
      loadTogether batch keys = keys.map fun _ => some (.rejected error))

/-! ## Before the batch -/

/-- Nothing was dispatched yet, and every promise is cached. -/
structure Waiting (l : DataLoader K V E) : Prop where
  pending : ∀ key load, (key, load) ∈ l.loads → load = .pending
  cached : ∀ key promise, l.cache.lookup key = some promise →
    l.loads[promise]? = some (key, .pending)

theorem waiting_new : Waiting (new : DataLoader K V E) where
  pending := by
    intro key load h
    cases h
  cached := by
    intro key promise h
    cases h

/-- The promise of a load carries its key, and promises that were made before stay. -/
theorem Waiting.load {l : DataLoader K V E} (h : Waiting l) (key : K) :
    Waiting (l.load key).2 ∧
      (l.load key).2.loads[(l.load key).1]? = some (key, .pending) ∧
      (∃ added, (l.load key).2.loads = l.loads ++ added ∧ ∀ entry ∈ added, entry.1 = key) := by
  unfold DataLoader.load
  cases hc : l.cache.lookup key with
  | some promise => exact ⟨h, h.cached key promise hc, [], (List.append_nil _).symm, by simp⟩
  | none =>
    refine ⟨⟨?_, ?_⟩, ?_, [(key, .pending)], rfl, ?_⟩
    · intro key' load hmem
      rcases List.mem_append.mp hmem with hmem | hmem
      · exact h.pending key' load hmem
      · cases List.mem_singleton.mp hmem
        rfl
    · intro key' promise hlookup
      dsimp only at hlookup ⊢
      by_cases hkey : key' = key
      · subst hkey
        rw [AList.lookup_insert] at hlookup
        cases hlookup
        rw [List.getElem?_append_right (Nat.le_refl _), Nat.sub_self]
        rfl
      · rw [AList.lookup_insert_ne hkey] at hlookup
        have hget := h.cached key' promise hlookup
        obtain ⟨hlt, -⟩ := List.getElem?_eq_some_iff.mp hget
        rw [List.getElem?_append_left hlt, hget]
    · rw [List.getElem?_append_right (Nat.le_refl _), Nat.sub_self]
      rfl
    · intro entry hmem
      cases List.mem_singleton.mp hmem
      rfl

/-- The promises of `loadEach`, in the order of the keys. -/
theorem Waiting.loadEach {l : DataLoader K V E} (h : Waiting l) (keys : List K) :
    Waiting (l.loadEach keys).2 ∧
      List.Forall₂ (fun promise key => (l.loadEach keys).2.loads[promise]? = some (key, .pending))
        (l.loadEach keys).1 keys ∧
      (∃ added, (l.loadEach keys).2.loads = l.loads ++ added ∧ ∀ entry ∈ added, entry.1 ∈ keys) := by
  induction keys generalizing l with
  | nil => exact ⟨h, .nil, [], (List.append_nil _).symm, by simp⟩
  | cons key keys ih =>
    obtain ⟨hw, hget, first, hfirst, hkey⟩ := h.load key
    obtain ⟨hw', hall, rest, hrest, hkeys⟩ := ih hw
    refine ⟨hw', .cons ?_ hall, first ++ rest, ?_, ?_⟩
    · change ((l.load key).2.loadEach keys).2.loads[(l.load key).1]? = some (key, .pending)
      obtain ⟨hlt, -⟩ := List.getElem?_eq_some_iff.mp hget
      rw [hrest, List.getElem?_append_left hlt, hget]
    · change ((l.load key).2.loadEach keys).2.loads = _
      rw [hrest, hfirst, List.append_assoc]
    · intro entry hmem
      rcases List.mem_append.mp hmem with hmem | hmem
      · exact List.mem_cons.mpr (.inl (hkey entry hmem))
      · exact List.mem_cons_of_mem _ (hkeys entry hmem)

/-! ## After the batch -/

/-- The keys of a waiting loader are those of all its promises. -/
theorem Waiting.keys_eq {l : DataLoader K V E} (h : Waiting l) :
    l.keys = l.loads.map Prod.fst := by
  have hfilter : l.loads.filter (fun (_, load) => load.isPending) = l.loads := by
    refine List.filter_eq_self.mpr ?_
    rintro ⟨key, load⟩ hmem
    rw [h.pending key load hmem]
    rfl
  rw [keys, hfilter]

omit [DecidableEq K] in
theorem fill_map (loads : List (K × Load V E))
    (hp : ∀ key load, (key, load) ∈ loads → load = .pending) (g : K → Except E V) :
    fill loads ((loads.map Prod.fst).map g) =
      loads.map fun (key, load) => (key, load.settle (g key)) := by
  induction loads with
  | nil => rfl
  | cons entry loads ih =>
    obtain ⟨key, load⟩ := entry
    obtain rfl := hp key load List.mem_cons_self
    rw [List.map_cons, List.map_cons, List.map_cons, fill,
      ih fun key load hmem => hp key load (List.mem_cons_of_mem _ hmem)]

/-- A batch function that answers key by key settles the promises by their keys. -/
theorem Waiting.dispatch_ok {l : DataLoader K V E} (h : Waiting l) {g : K → Except E V}
    {batch : List K → Except E (List (Except E V))} (hb : batch l.keys = .ok (l.keys.map g)) :
    (l.dispatch batch).loads = l.loads.map fun (key, load) => (key, load.settle (g key)) := by
  rw [dispatch, hb, h.keys_eq]
  exact fill_map l.loads h.pending g

/-- One that throws rejects them all. -/
theorem dispatch_error {l : DataLoader K V E} {error : E}
    {batch : List K → Except E (List (Except E V))} (hb : batch l.keys = .error error) :
    (l.dispatch batch).loads = l.loads.map fun (key, load) => (key, load.settle (.error error)) := by
  rw [dispatch, hb]

omit [DecidableEq K] in
theorem exists_of_forall₂ {R : Nat → K → Prop} {promises : List Nat} {keys : List K}
    (h : List.Forall₂ R promises keys) {key : K} (hmem : key ∈ keys) :
    ∃ promise ∈ promises, R promise key := by
  induction h with
  | nil => cases hmem
  | cons hr _ ih =>
    rcases List.mem_cons.mp hmem with rfl | hmem
    · exact ⟨_, List.mem_cons_self, hr⟩
    · obtain ⟨promise, hp, hrel⟩ := ih hmem
      exact ⟨promise, List.mem_cons_of_mem _ hp, hrel⟩

/-- The loads of one batch: what the batch function makes of their keys is what they come to. -/
theorem batches_loadTogether : Batches (loadTogether (K := K) (V := V) (E := E)) := by
  intro batch keys
  obtain ⟨hw, hall, added, hadded, hkeys⟩ := waiting_new.loadEach (V := V) (E := E) keys
  -- Each promise becomes what its key is settled with.
  have hmap : ∀ r : K → Except E V,
      ((new.loadEach keys).2.dispatch batch).loads = (new.loadEach keys).2.loads.map
        (fun (key, load) => (key, load.settle (r key))) →
      loadTogether batch keys = keys.map fun key => some (Load.pending.settle (r key)) := by
    intro r hr
    refine List.forall₂_eq_eq_eq ▸ List.forall₂_map_left_iff.mpr
      (List.forall₂_map_right_iff.mpr (hall.imp fun promise key hget => ?_))
    rw [promise?, hr, List.getElem?_map, hget]
    rfl
  refine ⟨(new.loadEach keys).2.keys, ?_, fun g hg => hmap g (hw.dispatch_ok hg),
    fun error he => hmap (fun _ => .error error) (dispatch_error he)⟩
  intro key
  rw [hw.keys_eq]
  constructor
  · intro hmem
    obtain ⟨entry, hentry, rfl⟩ := List.mem_map.mp hmem
    rw [hadded] at hentry
    exact hkeys entry (by simpa [new] using hentry)
  · intro hmem
    obtain ⟨promise, -, hget⟩ := exists_of_forall₂ hall hmem
    exact List.mem_map.mpr ⟨_, List.mem_of_getElem? hget, rfl⟩

end DataLoader

end InvoiceHub.Loader
