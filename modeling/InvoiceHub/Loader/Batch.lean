import InvoiceHub.Cache.Lists
import InvoiceHub.Loader.DataLoader

/-!
# getDataLoader

The batch function of `DataLoaderInfrastructure.getDataLoader`.  It throws `NotFoundError` from
within the `map` over the values of its batch, so one value without a row rejects the whole batch.
-/

namespace InvoiceHub.Loader

/-- `NotFoundError` of `routing-controllers`. -/
structure NotFoundError where
  message : String
  deriving DecidableEq

/-- A table whose column `field` is its key, behind TypeORM's `find`, which returns the rows with
`field` among some values in any order. -/
structure Repository (Entity : Type) (field : Entity → String) where
  rows : List Entity
  unique : (rows.map field).Nodup
  find : List String → List Entity
  find_perm : ∀ values, (find values).Perm (rows.filter fun row => field row ∈ values)

/-- What a loader is asked for: the names that errors mention, and `toDto`, which is
`plainToInstance` of a row with its relations. -/
structure EntityDataLoaderParams (Entity D : Type) where
  entityName : String
  fetchField : String
  field : Entity → String
  toDto : Entity → D

namespace EntityDataLoaderParams

variable {Entity D : Type} (params : EntityDataLoaderParams Entity D)

/-- The error about a value. -/
def notFound (value : String) : NotFoundError :=
  ⟨params.entityName ++ " with " ++ params.fetchField ++ " " ++ value ++ " not found"⟩

/-- The batch function of `getDataLoader`. -/
def batch (repository : Repository Entity params.field) (fetchValues : List String) :
    Except NotFoundError (List (Except NotFoundError D)) :=
  let data := repository.find fetchValues
  fetchValues.mapM fun value =>
    match data.find? fun item => params.field item = value with
    | none => throw (params.notFound value)
    | some item => pure (.ok (params.toDto item))

/-- The DTO of the row of a value, if it has one. -/
def rowOf (repository : Repository Entity params.field) (value : String) :
    Except NotFoundError D :=
  match repository.rows.find? fun row => params.field row = value with
  | none => .error (params.notFound value)
  | some row => .ok (params.toDto row)

/-- The value has a row. -/
def HasRow (repository : Repository Entity params.field) (value : String) : Prop :=
  ∃ row ∈ repository.rows, params.field row = value

theorem notFound_inj {value value' : String} :
    params.notFound value = params.notFound value' ↔ value = value' := by
  simp [notFound]

variable {params} {repository : Repository Entity params.field}

theorem rowOf_cases (repository : Repository Entity params.field) (value : String) :
    (params.HasRow repository value ∧ ∃ dto, params.rowOf repository value = .ok dto) ∨
      (¬params.HasRow repository value ∧
        params.rowOf repository value = .error (params.notFound value)) := by
  unfold rowOf
  cases hrow : repository.rows.find? fun row => params.field row = value with
  | none =>
    refine .inr ⟨?_, rfl⟩
    rintro ⟨row, hmem, hvalue⟩
    exact List.find?_eq_none.mp hrow row hmem (decide_eq_true hvalue)
  | some row =>
    exact .inl ⟨⟨row, List.mem_of_find?_eq_some hrow, by simpa using List.find?_some hrow⟩,
      params.toDto row, rfl⟩

/-- Rows of one key are one row. -/
theorem eq_of_field_eq {row row' : Entity} (h : row ∈ repository.rows)
    (h' : row' ∈ repository.rows) (heq : params.field row = params.field row') : row = row' :=
  List.inj_on_of_nodup_map repository.unique h h' heq

/-- In whatever order the rows come, each value finds its own. -/
theorem find?_find {values : List String} {value : String} (h : value ∈ values) :
    ((repository.find values).find? fun item => params.field item = value) =
      repository.rows.find? fun row => params.field row = value := by
  have hmem : ∀ row, row ∈ repository.find values ↔
      row ∈ repository.rows ∧ params.field row ∈ values := by
    intro row
    rw [(repository.find_perm values).mem_iff, List.mem_filter, decide_eq_true_iff]
  cases hrow : repository.rows.find? fun row => params.field row = value with
  | none =>
    refine List.find?_eq_none.mpr fun row hr => ?_
    exact List.find?_eq_none.mp hrow row ((hmem row).mp hr).1
  | some row =>
    have hr := List.mem_of_find?_eq_some hrow
    have hvalue : params.field row = value := by simpa using List.find?_some hrow
    cases hfound : (repository.find values).find? fun item => params.field item = value with
    | none =>
      refine absurd (decide_eq_true hvalue) (List.find?_eq_none.mp hfound row ?_)
      exact (hmem row).mpr ⟨hr, hvalue ▸ h⟩
    | some item =>
      have hitem := (hmem item).mp (List.mem_of_find?_eq_some hfound)
      have hvalue' : params.field item = value := by simpa using List.find?_some hfound
      rw [eq_of_field_eq hitem.1 hr (hvalue'.trans hvalue.symm)]

/-- The batch function throws what it throws for its first value without a row. -/
theorem batch_eq (values : List String) :
    params.batch repository values =
      values.mapM fun value => (params.rowOf repository value).map Except.ok := by
  have hmap : ∀ rest : List String, (∀ value ∈ rest, value ∈ values) →
      (rest.mapM fun value =>
        match (repository.find values).find? fun item => params.field item = value with
        | none => (throw (params.notFound value) : Except NotFoundError (Except NotFoundError D))
        | some item => pure (.ok (params.toDto item))) =
      rest.mapM fun value => (params.rowOf repository value).map Except.ok := by
    intro rest hrest
    induction rest with
    | nil => rfl
    | cons value rest ih =>
      rw [List.mapM_cons, List.mapM_cons, ih fun v hv => hrest v (List.mem_cons_of_mem _ hv),
        find?_find (hrest value List.mem_cons_self), rowOf]
      cases repository.rows.find? fun row => params.field row = value <;> rfl
  exact hmap values fun _ h => h

/-- Where every value has a row, each gets its DTO. -/
theorem batch_ok {values : List String} (h : ∀ value ∈ values, params.HasRow repository value) :
    params.batch repository values = .ok (values.map (params.rowOf repository)) := by
  rw [batch_eq]
  induction values with
  | nil => rfl
  | cons value values ih =>
    rw [List.mapM_cons, ih fun v hv => h v (List.mem_cons_of_mem _ hv), List.map_cons]
    rcases rowOf_cases repository value with ⟨-, dto, hdto⟩ | ⟨hn, -⟩
    · rw [hdto]
      rfl
    · exact absurd (h value List.mem_cons_self) hn

/-- A value without a row rejects all. -/
theorem batch_error (repository : Repository Entity params.field) {values : List String}
    (h : ∃ value ∈ values, ¬params.HasRow repository value) :
    ∃ value ∈ values, ¬params.HasRow repository value ∧
      params.batch repository values = .error (params.notFound value) := by
  rw [batch_eq]
  induction values with
  | nil =>
    obtain ⟨value, hmem, -⟩ := h
    cases hmem
  | cons value values ih =>
    rw [List.mapM_cons]
    rcases rowOf_cases repository value with ⟨hrow, dto, hdto⟩ | ⟨hn, herror⟩
    · obtain ⟨missing, hmem, hmissing⟩ := h
      rcases List.mem_cons.mp hmem with rfl | hmem
      · exact absurd hrow hmissing
      · obtain ⟨first, hfirst, hn, hbatch⟩ := ih ⟨missing, hmem, hmissing⟩
        refine ⟨first, List.mem_cons_of_mem _ hfirst, hn, ?_⟩
        rw [hdto, hbatch]
        rfl
    · refine ⟨value, List.mem_cons_self, hn, ?_⟩
      rw [herror]
      rfl

/-! ## Loads of one batch -/

/-- What is rejected with the error about `missing` alone is `missing`. -/
theorem eq_of_rejected {value missing : String}
    (h : Load.pending.settle (params.rowOf repository value) =
      .rejected (params.notFound missing)) : value = missing := by
  rcases rowOf_cases repository value with ⟨-, dto, hrow⟩ | ⟨-, hrow⟩
  · rw [hrow] at h
    cases h
  · rw [hrow] at h
    exact params.notFound_inj.mp (Load.rejected.inj h)

section Together

variable {loadTogether : (List String → Except NotFoundError (List (Except NotFoundError D))) →
    List String → List (Option (Load D NotFoundError))}
  (hbatches : DataLoader.Batches loadTogether)

include hbatches

/-- A value that is loaded alone comes to its own row, or to the error about it. -/
theorem loadTogether_single (value : String) :
    loadTogether (params.batch repository) [value] =
      [some (Load.pending.settle (params.rowOf repository value))] := by
  obtain ⟨batched, hmem, hok, herror⟩ := hbatches (params.batch repository) [value]
  have hvalue : ∀ v ∈ batched, v = value := fun v hv => List.mem_singleton.mp ((hmem v).mp hv)
  by_cases h : params.HasRow repository value
  · exact hok (params.rowOf repository) (batch_ok fun v hv => hvalue v hv ▸ h)
  · obtain ⟨v, hv, -, hbatch⟩ := batch_error repository ⟨value, (hmem value).mpr List.mem_cons_self, h⟩
    rw [herror _ hbatch, hvalue v hv]
    rcases rowOf_cases repository value with ⟨hrow, -⟩ | ⟨-, hrow⟩
    · exact absurd hrow h
    · rw [hrow]
      rfl

end Together

end EntityDataLoaderParams

/-! ## The loader of the orders -/

open Services Cache

/-- `orderDtoLoaderById`, of the order service as well as of its subscriber. -/
def orderDtoLoaderById : EntityDataLoaderParams Order JsonObject where
  entityName := "Order"
  fetchField := "id"
  field := Order.id
  toDto order := plainToInstance OrderDto (orderRow order.id order.toOrderData)

/-- A table of one order. -/
def oneOrder : Repository Order Order.id where
  rows := [{ id := "o1", userId := "u1", totalAmount := 10, status := .PENDING }]
  unique := by decide
  find values :=
    [{ id := "o1", userId := "u1", totalAmount := 10, status := .PENDING }].filter fun row =>
      row.id ∈ values
  find_perm _ := .rfl

end InvoiceHub.Loader
