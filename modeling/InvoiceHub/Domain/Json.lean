import Mathlib.Data.List.AList

/-!
# JSON values and JavaScript objects

Kafka carries JSON texts.  `JSON.parse` inverts `JSON.stringify` on JSON values, so a
message is modelled by the value itself; what `JSON.stringify` drops (a property whose
value is `undefined`) is dropped when the object is built (`JsonObject.put`).
-/

namespace InvoiceHub

/-- A JSON value. -/
inductive Json where
  | null
  | bool (b : Bool)
  | num (q : Rat)
  | str (s : String)
  | arr (xs : List Json)
  | obj (fields : List (String × Json))

/-- A JavaScript object: every property has one value. -/
abbrev JsonObject := AList fun _ : String => Json

namespace Json

/-- `undefined`, `null`, `false`, `0` and `''` are falsy. -/
def truthy : Option Json → Bool
  | none => false
  | some null => false
  | some (bool b) => b
  | some (num q) => q != 0
  | some (str s) => s != ""
  | some (arr _) => true
  | some (obj _) => true

/-- A property read as a string; `none` when it is `undefined`. -/
def str? : Option Json → Option String
  | some (str s) => some s
  | _ => none

/-- A property read as a number; `none` when it is `undefined`. -/
def num? : Option Json → Option Rat
  | some (num q) => some q
  | _ => none

@[simp] theorem str?_none : str? none = none := rfl

@[simp] theorem str?_str (s : String) : str? (some (str s)) = some s := rfl

@[simp] theorem str?_map_str (o : Option String) : str? (o.map str) = o := by
  cases o <;> rfl

end Json

namespace JsonObject

/-- Set property `k`; setting it to `undefined` leaves nothing in the text. -/
def put (o : JsonObject) (k : String) (v : Option Json) : JsonObject :=
  match v with
  | some v => o.insert k v
  | none => o.erase k

/-- `{ ...o, ...payload }`: the properties of `payload` win. -/
def spread (o payload : JsonObject) : JsonObject := payload ∪ o

/-- The object as a value inside another one. -/
def toJson (o : JsonObject) : Json := .obj (o.entries.map fun e => (e.1, e.2))

theorem lookup_put (o : JsonObject) (k k' : String) (v : Option Json) :
    (o.put k v).lookup k' = if k' = k then v else o.lookup k' := by
  unfold put
  by_cases h : k' = k
  · subst h
    cases v <;> simp
  · cases v <;> simp [h, AList.lookup_insert_ne, AList.lookup_erase_ne]

@[simp] theorem lookup_put_self (o : JsonObject) (k : String) (v : Option Json) :
    (o.put k v).lookup k = v := by
  simp [lookup_put]

theorem lookup_put_of_ne (o : JsonObject) {k k' : String} (v : Option Json) (h : k' ≠ k) :
    (o.put k v).lookup k' = o.lookup k' := by
  simp [lookup_put, h]

/-- What was put under the erased property does not matter. -/
theorem erase_put_self (o : JsonObject) (k : String) (v : Option Json) :
    (o.put k v).erase k = o.erase k := by
  apply AList.ext
  cases v with
  | none => exact List.kerase_of_notMem_keys (List.notMem_keys_kerase k o.nodupKeys)
  | some v => exact List.kerase_cons_eq (s := (⟨k, v⟩ : Σ _ : String, Json)) rfl

theorem erase_put_of_ne (o : JsonObject) {k k' : String} (v : Option Json) (h : k ≠ k') :
    (o.put k v).erase k' = JsonObject.put (o.erase k') k v := by
  apply AList.ext
  cases v with
  | none => exact List.kerase_comm ..
  | some v =>
    refine (List.kerase_cons_ne (s := (⟨k, v⟩ : Σ _ : String, Json)) (Ne.symm h)).trans ?_
    exact congrArg (List.cons (⟨k, v⟩ : Σ _ : String, Json)) (List.kerase_comm ..)

/-- A property of the spread object. -/
theorem lookup_spread_of_mem (o : JsonObject) {payload : JsonObject} {k : String}
    (h : k ∈ payload) : (o.spread payload).lookup k = payload.lookup k :=
  AList.lookup_union_left h

theorem lookup_spread_of_not_mem (o : JsonObject) {payload : JsonObject} {k : String}
    (h : k ∉ payload) : (o.spread payload).lookup k = o.lookup k :=
  AList.lookup_union_right h

end JsonObject

/-- What is collected from the elements of an array, one by one. -/
theorem getElem?_mapM {α β : Type} {f : α → Option β} {l : List α} :
    ∀ {results : List β}, l.mapM f = some results →
      results.length = l.length ∧ ∀ j : Nat, results[j]? = l[j]?.bind f := by
  induction l with
  | nil =>
    intro results h
    obtain rfl : [] = results := Option.some_inj.mp h
    exact ⟨rfl, fun j => rfl⟩
  | cons a l ih =>
    intro results h
    rw [List.mapM_cons] at h
    obtain ⟨b, hb, h⟩ := Option.bind_eq_some_iff.mp h
    obtain ⟨rest, hrest, h⟩ := Option.bind_eq_some_iff.mp h
    obtain rfl : b :: rest = results := Option.some_inj.mp h
    obtain ⟨hlength, hget⟩ := ih hrest
    refine ⟨congrArg (· + 1) hlength, fun j => ?_⟩
    cases j with
    | zero => exact hb.symm
    | succ j => exact hget j

end InvoiceHub
