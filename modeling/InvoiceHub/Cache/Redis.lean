import InvoiceHub.Domain.Json
import InvoiceHub.Effects.Pool

/-!
# Cached lists

`RedisDecorator` and `RedisCacheInvalidateDecorator`, over the part of Redis they use: the cached
results by key, and for each key template the set of keys that have been cached under it.  They
are generic in the method they decorate, so a list is given by what its service stores (`Db`), the
queries and their results, and the calls (`Op`) of the methods that write.
-/

namespace InvoiceHub.Cache

open Effects

variable {Query Op Db ι : Type} {Res : Op → Type} {α : Type}

/-! ## Calls -/

/-- What decorated methods await: methods of `RedisInfrastructure`, the undecorated `get`, and the
calls of a method that writes. -/
inductive Call (Query Op : Type) where
  | get (key : String)
  | set (key : String) (value : Json) (ttl : Nat)
  | getHashKeys (key : String)
  | setHashKeys (key cacheKey : String)
  | deleteKeys (keys : List String)
  | query (query : Query)
  | own (op : Op)

/-- Their answers.  A value is stored as its JSON text. -/
abbrev Call.Answer (Res : Op → Type) : Call Query Op → Type
  | get _ => Option Json
  | set _ _ _ => Unit
  | getHashKeys _ => List String
  | setHashKeys _ _ => Unit
  | deleteKeys _ => Unit
  | query _ => Json
  | own op => Res op

/-- A decorated method. -/
abbrev Async (Query : Type) {Op : Type} (Res : Op → Type) :=
  Prog (Call Query Op) (Call.Answer Res)

/-! ## Decorators -/

/-- `RedisDecorator`, for the arguments that `key` is made of. -/
def redisDecorator (keyTemplate key : String) (ttl : Nat) (originalMethod : Async Query Res Json) :
    Async Query Res Json := do
  match ← Prog.await (Call.get key) with
  | some cachedValue => return cachedValue
  | none =>
    let result ← originalMethod
    Prog.await (Call.set key result ttl)
    Prog.await (Call.setHashKeys keyTemplate key)
    return result

/-- `RedisCacheInvalidateDecorator`. -/
def redisCacheInvalidateDecorator (keyTemplate : String) (originalMethod : Async Query Res α) :
    Async Query Res α := do
  let keys ← Prog.await (Call.getHashKeys keyTemplate)
  if keys ≠ [] then
    Prog.await (Call.deleteKeys keys)
    originalMethod
  else
    originalMethod

/-! ## A list of a service -/

/-- The list of a service: the options of its decorators, the hash of a query, and what is not
decorated. -/
structure CachedList (Query Op Db ι : Type) (Res : Op → Type) where
  keyTemplate : String
  ttl : Nat
  /-- MD5 of `JSON.stringify(args)`, in hexadecimal. -/
  md5 : Query → String
  /-- The JSON of what the undecorated `get` returns. -/
  fetch : Query → Db → Json
  /-- What a call of a method that writes does. -/
  perform : ι → (op : Op) → Db → Res op × Db

/-- What a service stores, with its cache. -/
structure World (Db : Type) where
  db : Db
  strings : AList fun _ : String => Json
  hashKeys : AList fun _ : String => List String

namespace World

/-- The members of a set; one that does not exist is empty. -/
def members (w : World Db) (key : String) : List String := (w.hashKeys.lookup key).getD []

end World

namespace CachedList

variable (c : CachedList Query Op Db ι Res)

/-- `generateCacheKey`. -/
def key (query : Query) : String := c.keyTemplate ++ ":" ++ c.md5 query

theorem key_injective (h : Function.Injective c.md5) : Function.Injective c.key := by
  intro q q' hq
  exact h ((String.append_right_inj _).mp hq)

/-- `get`, with its decorator. -/
def read (query : Query) : Async Query Res Json :=
  redisDecorator c.keyTemplate (c.key query) c.ttl (Prog.await (Call.query query))

/-- A method that writes, with its decorator. -/
def write (originalMethod : Prog Op Res α) : Async Query Res α :=
  redisCacheInvalidateDecorator c.keyTemplate (originalMethod.mapOp Call.own fun _ r => r)

/-- What a call does. -/
def performCall (choice : ι) :
    (op : Call Query Op) → World Db → Call.Answer Res op × World Db
  | .get key, w => (w.strings.lookup key, w)
  | .set key value _, w => ((), { w with strings := w.strings.insert key value })
  | .getHashKeys key, w => (w.members key, w)
  | .setHashKeys key cacheKey, w =>
    ((), { w with hashKeys := w.hashKeys.insert key ((w.members key).insert cacheKey) })
  | .deleteKeys keys, w => ((), { w with strings := keys.foldl (fun m key => m.erase key) w.strings })
  | .query query, w => (c.fetch query w.db, w)
  | .own op, w => ((c.perform choice op w.db).1, { w with db := (c.perform choice op w.db).2 })

/-- Every cached result is that of its query on what is stored. -/
def Fresh (w : World Db) : Prop :=
  ∀ query value, w.strings.lookup (c.key query) = some value → value = c.fetch query w.db

end CachedList

/-- What is left of a map when keys are erased one after the other. -/
theorem lookup_foldl_erase (keys : List String) (m : AList fun _ : String => Json) (key : String) :
    (keys.foldl (fun m key => m.erase key) m).lookup key =
      if key ∈ keys then none else m.lookup key := by
  induction keys generalizing m with
  | nil => rfl
  | cons first rest ih =>
    rw [List.foldl_cons, ih]
    by_cases hrest : key ∈ rest
    · rw [if_pos hrest, if_pos (List.mem_cons_of_mem _ hrest)]
    · rw [if_neg hrest]
      by_cases hfirst : key = first
      · subst hfirst
        rw [if_pos (List.mem_cons_self ..), AList.lookup_erase]
      · rw [if_neg (by simp [hfirst, hrest]), AList.lookup_erase_ne hfirst]

section PerformCall

variable {c : CachedList Query Op Db ι Res} {choice : ι} {w : World Db}

theorem mem_members_setHashKeys {key cacheKey k : String} :
    k ∈ (c.performCall choice (.setHashKeys key cacheKey) w).2.members key ↔
      k = cacheKey ∨ k ∈ w.members key := by
  simp [CachedList.performCall, World.members, List.mem_insert_iff]

theorem lookup_deleteKeys (keys : List String) (key : String) :
    (c.performCall choice (.deleteKeys keys) w).2.strings.lookup key =
      if key ∈ keys then none else w.strings.lookup key :=
  lookup_foldl_erase keys w.strings key

end PerformCall

end InvoiceHub.Cache
