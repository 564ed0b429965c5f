import InvoiceHub.Loader.DataLoader

/-!
# One load after the other

Where each batch is called before anything else happens, a loader is the map of what is cached
under its keys: what a load, `clear` and a change of an object in place make of that map.
-/

namespace InvoiceHub.Loader

namespace DataLoader

variable {K V E : Type} [DecidableEq K]

/-- What is cached under a key. -/
def cached (l : DataLoader K V E) (key : K) : Option V :=
  (l.cache.lookup key).bind fun promise => (l.promise? promise).bind Load.value?

/-- A load whose batch is called before anything else happens. -/
def loadNow (l : DataLoader K V E) (batch : List K → Except E (List (Except E V))) (key : K) :
    Nat × DataLoader K V E :=
  ((l.load key).1, (l.load key).2.dispatch batch)

/-- No load is pending, and what is cached has been loaded. -/
structure Settled (l : DataLoader K V E) : Prop where
  done : ∀ key load, (key, load) ∈ l.loads → load.isPending = false
  loaded : ∀ key promise, l.cache.lookup key = some promise →
    ∃ value, l.loads[promise]? = some (key, .resolved value)

theorem settled_new : Settled (new : DataLoader K V E) where
  done := by
    intro key load h
    cases h
  loaded := by
    intro key promise h
    cases h

theorem Settled.cached_eq {l : DataLoader K V E} (h : Settled l) {key : K} {promise : Nat}
    (hp : l.cache.lookup key = some promise) :
    ∃ value, l.promise? promise = some (.resolved value) ∧ l.cached key = some value := by
  obtain ⟨value, hv⟩ := h.loaded key promise hp
  have hpromise : l.promise? promise = some (.resolved value) := by
    rw [promise?, hv]
    rfl
  refine ⟨value, hpromise, ?_⟩
  rw [cached, hp, Option.bind_some, hpromise]
  rfl

theorem Settled.keys_eq {l : DataLoader K V E} (h : Settled l) : l.keys = [] := by
  rw [keys, List.map_eq_nil_iff, List.filter_eq_nil_iff]
  rintro ⟨key, load⟩ hmem
  simp [h.done key load hmem]

omit [DecidableEq K] in
theorem fill_cons_done (key : K) {load : Load V E} (h : load.isPending = false)
    (loads : List (K × Load V E)) (results : List (Except E V)) :
    fill ((key, load) :: loads) results = (key, load) :: fill loads results := by
  cases load with
  | pending => cases h
  | resolved value => cases results <;> rfl
  | rejected error => cases results <;> rfl

omit [DecidableEq K] in
theorem fill_done (loads : List (K × Load V E))
    (hd : ∀ key load, (key, load) ∈ loads → load.isPending = false) (rest : List (K × Load V E))
    (results : List (Except E V)) : fill (loads ++ rest) results = loads ++ fill rest results := by
  induction loads with
  | nil => rfl
  | cons entry loads ih =>
    obtain ⟨key, load⟩ := entry
    rw [List.cons_append, fill_cons_done key (hd key load List.mem_cons_self),
      ih fun key load hmem => hd key load (List.mem_cons_of_mem _ hmem), List.cons_append]

omit [DecidableEq K] in
theorem map_settle_done (loads : List (K × Load V E))
    (hd : ∀ key load, (key, load) ∈ loads → load.isPending = false) (result : Except E V) :
    (loads.map fun (key, load) => (key, load.settle result)) = loads := by
  refine (List.map_congr_left ?_).trans (List.map_id loads)
  rintro ⟨key, load⟩ hmem
  have hload := hd key load hmem
  cases load with
  | pending => cases hload
  | resolved value => rfl
  | rejected error => rfl

section LoadNow

variable {l : DataLoader K V E} {key : K} {batch : List K → Except E (List (Except E V))}

/-- A key that is cached is not loaded again. -/
theorem Settled.loadNow_cached (h : Settled l) (batch : List K → Except E (List (Except E V)))
    (hb : batch [] = .ok []) {value : V}
    (hv : l.cached key = some value) :
    ∃ promise, l.loadNow batch key = (promise, l) ∧ l.cache.lookup key = some promise ∧
      l.promise? promise = some (.resolved value) := by
  unfold cached at hv
  obtain ⟨promise, hp, hv⟩ := Option.bind_eq_some_iff.mp hv
  obtain ⟨value', hresolved, hcached⟩ := h.cached_eq hp
  rw [hresolved] at hv
  cases hv
  refine ⟨promise, ?_, hp, hresolved⟩
  have hload : l.load key = (promise, l) := by rw [load, hp]
  have hfill := fill_done l.loads h.done [] ([] : List (Except E V))
  rw [List.append_nil, fill, List.append_nil] at hfill
  rw [loadNow, hload, dispatch, h.keys_eq, hb]
  dsimp only
  rw [hfill]

/-- The loader once the batch of a new promise has been called. -/
theorem Settled.dispatch_new (h : Settled l) (hc : l.cache.lookup key = none) :
    (l.load key).1 = l.loads.length ∧ (l.load key).2.loads = l.loads ++ [(key, .pending)] ∧
      (l.load key).2.cache = l.cache.insert key l.loads.length ∧ (l.load key).2.keys = [key] := by
  have hload : l.load key = (l.loads.length,
      { loads := l.loads ++ [(key, .pending)], cache := l.cache.insert key l.loads.length }) := by
    rw [load, hc]
  rw [hload]
  refine ⟨rfl, rfl, rfl, ?_⟩
  have hkeys := h.keys_eq
  rw [keys, List.map_eq_nil_iff] at hkeys
  rw [keys, List.filter_append, hkeys]
  rfl

theorem Settled.lookup_of_cached_none (h : Settled l) (hn : l.cached key = none) :
    l.cache.lookup key = none := by
  cases hp : l.cache.lookup key with
  | none => rfl
  | some promise =>
    obtain ⟨value, -, hcached⟩ := h.cached_eq hp
    rw [hn] at hcached
    cases hcached

/-- A key that is not cached is loaded, and cached from then on. -/
theorem Settled.loadNow_ok (h : Settled l) (hn : l.cached key = none) {value : V}
    (hb : batch [key] = .ok [.ok value]) :
    Settled (l.loadNow batch key).2 ∧
      (l.loadNow batch key).2.promise? (l.loadNow batch key).1 = some (.resolved value) ∧
      (l.loadNow batch key).2.cache.lookup key = some (l.loadNow batch key).1 ∧
      ∀ key', (l.loadNow batch key).2.cached key' =
        if key' = key then some value else l.cached key' := by
  obtain ⟨hp, hloads, hcache, hkeys⟩ := h.dispatch_new (h.lookup_of_cached_none hn)
  have hloads' : (l.loadNow batch key).2.loads = l.loads ++ [(key, .resolved value)] := by
    rw [loadNow, dispatch, hkeys, hb, hloads]
    exact fill_done l.loads h.done _ _
  have hcache' : (l.loadNow batch key).2.cache = l.cache.insert key l.loads.length := by
    rw [loadNow, dispatch, hkeys, hb, hcache]
  have hget : (l.loadNow batch key).2.loads[l.loads.length]? = some (key, .resolved value) := by
    rw [hloads', List.getElem?_append_right (Nat.le_refl _), Nat.sub_self]
    rfl
  have hother : ∀ key' promise, key' ≠ key → l.cache.lookup key' = some promise →
      (l.loadNow batch key).2.loads[promise]? = l.loads[promise]? := by
    intro key' promise _ hlookup
    obtain ⟨value', hv⟩ := h.loaded key' promise hlookup
    rw [hloads', List.getElem?_append_left (List.getElem?_eq_some_iff.mp hv).1]
  refine ⟨⟨?_, ?_⟩, ?_, ?_, ?_⟩
  · intro key' load hmem
    rw [hloads', List.mem_append] at hmem
    rcases hmem with hmem | hmem
    · exact h.done key' load hmem
    · cases List.mem_singleton.mp hmem
      rfl
  · intro key' promise hlookup
    rw [hcache'] at hlookup
    by_cases hkey : key' = key
    · subst hkey
      rw [AList.lookup_insert] at hlookup
      cases hlookup
      exact ⟨value, hget⟩
    · rw [AList.lookup_insert_ne hkey] at hlookup
      rw [hother key' promise hkey hlookup]
      exact h.loaded key' promise hlookup
  · change ((l.loadNow batch key).2.loads[(l.load key).1]?.map Prod.snd) = _
    rw [hp, hget]
    rfl
  · change (l.loadNow batch key).2.cache.lookup key = some (l.load key).1
    rw [hcache', AList.lookup_insert, hp]
  · intro key'
    unfold cached promise?
    rw [hcache']
    split
    · rename_i hkey
      rw [hkey, AList.lookup_insert, Option.bind_some, hget]
      rfl
    · rename_i hkey
      rw [AList.lookup_insert_ne hkey]
      cases hlookup : l.cache.lookup key' with
      | none => rfl
      | some promise => rw [Option.bind_some, Option.bind_some, hother key' promise hkey hlookup]

/-- A load that fails leaves the cache as it was. -/
theorem Settled.loadNow_error (h : Settled l) (hn : l.cached key = none) {error : E}
    (hb : batch [key] = .error error) :
    Settled (l.loadNow batch key).2 ∧
      (l.loadNow batch key).2.promise? (l.loadNow batch key).1 = some (.rejected error) ∧
      ∀ key', (l.loadNow batch key).2.cached key' = l.cached key' := by
  have hnone := h.lookup_of_cached_none hn
  obtain ⟨hp, hloads, hcache, hkeys⟩ := h.dispatch_new hnone
  have hloads' : (l.loadNow batch key).2.loads = l.loads ++ [(key, .rejected error)] := by
    rw [loadNow, dispatch, hkeys, hb]
    dsimp only
    rw [hloads, List.map_append, map_settle_done l.loads h.done]
    rfl
  have hlookup' : ∀ key', (l.loadNow batch key).2.cache.lookup key' = l.cache.lookup key' := by
    intro key'
    rw [loadNow, dispatch, hkeys, hb]
    dsimp only [List.foldl_cons, List.foldl_nil]
    by_cases hkey : key' = key
    · subst hkey
      rw [AList.lookup_erase, hnone]
    · rw [AList.lookup_erase_ne hkey, hcache, AList.lookup_insert_ne hkey]
  have hother : ∀ key' promise, l.cache.lookup key' = some promise →
      (l.loadNow batch key).2.loads[promise]? = l.loads[promise]? := by
    intro key' promise hlookup
    obtain ⟨value', hv⟩ := h.loaded key' promise hlookup
    rw [hloads', List.getElem?_append_left (List.getElem?_eq_some_iff.mp hv).1]
  refine ⟨⟨?_, ?_⟩, ?_, ?_⟩
  · intro key' load hmem
    rw [hloads', List.mem_append] at hmem
    rcases hmem with hmem | hmem
    · exact h.done key' load hmem
    · cases List.mem_singleton.mp hmem
      rfl
  · intro key' promise hlookup
    rw [hlookup'] at hlookup
    rw [hother key' promise hlookup]
    exact h.loaded key' promise hlookup
  · change ((l.loadNow batch key).2.loads[(l.load key).1]?.map Prod.snd) = _
    rw [hp, hloads', List.getElem?_append_right (Nat.le_refl _), Nat.sub_self]
    rfl
  · intro key'
    unfold cached promise?
    rw [hlookup']
    cases hlookup : l.cache.lookup key' with
    | none => rfl
    | some promise => rw [Option.bind_some, Option.bind_some, hother key' promise hlookup]

/-- A key that is cleared is not cached. -/
theorem Settled.clear (h : Settled l) (key : K) :
    Settled (l.clear key) ∧
      ∀ key', (l.clear key).cached key' = if key' = key then none else l.cached key' := by
  have hlookup : ∀ key', (l.clear key).cache.lookup key' =
      if key' = key then none else l.cache.lookup key' := by
    intro key'
    change (l.cache.erase key).lookup key' = _
    split
    · rename_i hkey
      rw [hkey, AList.lookup_erase]
    · rename_i hkey
      rw [AList.lookup_erase_ne hkey]
  refine ⟨⟨h.done, ?_⟩, ?_⟩
  · intro key' promise hp
    rw [hlookup] at hp
    split at hp
    · cases hp
    · exact h.loaded key' promise hp
  · intro key'
    unfold cached
    rw [hlookup]
    split <;> rfl

/-- The object that is changed is the one cached under its key, and no other. -/
theorem Settled.modify (h : Settled l) {promise : Nat} (hp : l.cache.lookup key = some promise)
    (f : V → V) :
    Settled (l.modify promise f) ∧
      ∀ key', (l.modify promise f).cached key' =
        if key' = key then (l.cached key).map f else l.cached key' := by
  obtain ⟨value, hv⟩ := h.loaded key promise hp
  have hget : ∀ i, (l.modify promise f).loads[i]? =
      if i = promise then some (key, .resolved (f value)) else l.loads[i]? := by
    intro i
    change (l.loads.modify promise fun (key, load) => (key, load.modify f))[i]? = _
    rw [List.getElem?_modify]
    by_cases hi : i = promise
    · subst hi
      simp [hv, Load.modify]
    · simp [hi, Ne.symm hi]
  -- A promise carries its own key, so other keys have other promises.
  have hne : ∀ key' promise', key' ≠ key → l.cache.lookup key' = some promise' →
      promise' ≠ promise := by
    rintro key' promise' hkey hlookup rfl
    obtain ⟨value', hv'⟩ := h.loaded key' promise' hlookup
    rw [hv] at hv'
    cases hv'
    exact hkey rfl
  refine ⟨⟨?_, ?_⟩, ?_⟩
  · intro key' load hmem
    obtain ⟨i, hi⟩ := List.mem_iff_getElem?.mp hmem
    rw [hget] at hi
    split at hi
    · cases hi
      rfl
    · exact h.done key' load (List.mem_of_getElem? hi)
  · intro key' promise' hlookup
    have hlookup : l.cache.lookup key' = some promise' := hlookup
    rw [hget]
    by_cases hkey : key' = key
    · subst hkey
      rw [hp] at hlookup
      cases hlookup
      exact ⟨f value, if_pos rfl⟩
    · rw [if_neg (hne key' promise' hkey hlookup)]
      exact h.loaded key' promise' hlookup
  · intro key'
    unfold cached promise?
    change ((l.cache.lookup key').bind _) = _
    split
    · rename_i hkey
      rw [hkey, hp, Option.bind_some, Option.bind_some, hget, if_pos rfl, hv]
      rfl
    · rename_i hkey
      cases hlookup : l.cache.lookup key' with
      | none => rfl
      | some promise' =>
        rw [Option.bind_some, Option.bind_some, hget, if_neg (hne key' promise' hkey hlookup)]

end LoadNow

end DataLoader

end InvoiceHub.Loader
