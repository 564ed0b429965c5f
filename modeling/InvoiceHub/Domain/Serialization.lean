import InvoiceHub.Domain.Transaction

/-!
# Records as JSON texts

`storeTransactionState` and `getTransactionByKey` down to the objects: what is spread, what is
converted and what the guard looks at, property by property.  The objects of a record hold
whatever was put into them; `IsRecord` is the interface `DistributedTransaction`.

A JSON text is modelled by the value it parses to.  `toISOString` and `new Date` belong to the
runtime.
-/

namespace InvoiceHub.Serialization

/-! ## Objects -/

/-- A property of an object of a record. -/
inductive Property (D : Type) where
  | undefined
  | json (value : Json)
  /-- A `Date`; `none` is the invalid one. -/
  | date (value : Option D)

/-- An object with its properties. -/
abbrev Object (V : Type) := AList fun _ : String => V

/-- An element of `steps`. -/
abbrev Step (D : Type) := Object (Property D)

/-- A property of a transaction: `steps` is an array of objects. -/
inductive Member (D : Type) where
  | property (value : Property D)
  | steps (steps : List (Step D))

/-- A transaction as it is handed from method to method. -/
abbrev Record (D : Type) := Object (Member D)

/-- `step[key]`. -/
def Step.get {D : Type} (step : Step D) (key : String) : Property D :=
  (step.lookup key).getD .undefined

/-- `transaction[key]`. -/
def Record.get {D : Type} (transaction : Record D) (key : String) : Member D :=
  (transaction.lookup key).getD (.property .undefined)

/-- `{ ...step, startedAt, completedAt }`. -/
def Step.updated {D : Type} (step : Step D) (startedAt completedAt : Property D) : Step D :=
  (step.insert "startedAt" startedAt).insert "completedAt" completedAt

/-- `{ ...transaction, processType, startedAt, completedAt, steps }`. -/
def Record.updated {D : Type} (transaction : Record D) (processType : String)
    (startedAt completedAt : Property D) (steps : List (Step D)) : Record D :=
  (((transaction.insert "processType" (.property (.json (.str processType)))).insert
    "startedAt" (.property startedAt)).insert
    "completedAt" (.property completedAt)).insert
    "steps" (.steps steps)

/-- What the runtime converts dates and values with. -/
structure Runtime (D : Type) where
  /-- `new Date(time)`. -/
  ofTime : Nat → D
  toISOString : D → String
  /-- `new Date(value)`; `none` is the invalid date. -/
  newDate : Json → Option D
  /-- `String(value)`, of what is no string. -/
  text : Member D → String

/-- `new Date` inverts `toISOString`, which never returns an empty text. -/
structure Runtime.Lawful {D : Type} (runtime : Runtime D) : Prop where
  newDate_toISOString : ∀ date, runtime.newDate (.str (runtime.toISOString date)) = some date
  toISOString_ne : ∀ date, runtime.toISOString date ≠ ""

/-! ## JSON values -/

/-- `value[key]`; the keys that are read are no index of an array or a string. -/
def property (value : Json) (key : String) : Option Json :=
  match value with
  | .obj fields => fields.lookup key
  | _ => none

/-- The properties that `{ ...value }` copies; a string is taken by characters, of which one outside
the basic plane would be two code units. -/
def ownProperties : Json → List (String × Json)
  | .obj fields => fields
  | .arr values => values.zipIdx.map fun (value, i) => (toString i, value)
  | .str text => text.toList.zipIdx.map fun (c, i) => (toString i, .str (String.singleton c))
  | _ => []

/-- `typeof value`. -/
def typeof : Option Json → String
  | none => "undefined"
  | some .null => "object"
  | some (.bool _) => "boolean"
  | some (.num _) => "number"
  | some (.str _) => "string"
  | some (.arr _) => "object"
  | some (.obj _) => "object"

/-- `Array.isArray`. -/
def isArray : Option Json → Bool
  | some (.arr _) => true
  | _ => false

/-- `{ ...value }`. -/
def spread {V : Type} (member : Json → V) (value : Json) : Object V :=
  ((ownProperties value).map fun field => (⟨field.1, member field.2⟩ : Σ _ : String, V)).toAList

section Runtime

variable {D : Type} (runtime : Runtime D)

/-! ## JSON.stringify -/

/-- `undefined` is dropped, and an invalid date written as `null`. -/
def Property.stringify : Property D → Option Json
  | .undefined => none
  | .json value => some value
  | .date (some d) => some (.str (runtime.toISOString d))
  | .date none => some .null

/-- An object, by what its properties are written as. -/
def stringify {V : Type} (written : V → Option Json) (object : Object V) : Json :=
  .obj (object.entries.filterMap fun entry =>
    (written entry.2).map fun value => (entry.1, value))

def Member.stringify : Member D → Option Json
  | .property value => value.stringify runtime
  | .steps xs => some (.arr (xs.map (Serialization.stringify (Property.stringify runtime))))

@[simp] theorem Property.stringify_undefined :
    (undefined : Property D).stringify runtime = none := rfl

@[simp] theorem Property.stringify_json (value : Json) :
    (json value).stringify runtime = some value := rfl

@[simp] theorem Member.stringify_property (value : Property D) :
    (property value).stringify runtime = value.stringify runtime := rfl

@[simp] theorem Member.stringify_steps (xs : List (Step D)) :
    (steps xs).stringify runtime =
      some (.arr (xs.map (Serialization.stringify (Property.stringify runtime)))) := rfl

/-! ## storeTransactionState -/

/-- `value.toISOString()`; only a valid date has it. -/
def toISOString : Property D → Option (Property D)
  | .date (some date) => some (.json (.str (runtime.toISOString date)))
  | _ => none

/-- `value?.toISOString()`. -/
def toISOString? : Property D → Option (Property D)
  | .undefined => some .undefined
  | .json .null => some .undefined
  | value => toISOString runtime value

/-- `value` printed into a template literal. -/
def Member.text : Member D → String
  | .property .undefined => "undefined"
  | .property (.json (.str s)) => s
  | value => runtime.text value

/-- `value.toString()`. -/
def Member.toString? : Member D → Option String
  | .property .undefined => none
  | .property (.json .null) => none
  | value => some (value.text runtime)

/-- A property that is no array. -/
def Member.property? : Member D → Option (Property D)
  | .property value => some value
  | .steps _ => none

/-- The object of a step that is stringified. -/
def serializeStep (step : Step D) : Option (Step D) := do
  let startedAt ← toISOString? runtime (step.get "startedAt")
  let completedAt ← toISOString? runtime (step.get "completedAt")
  return step.updated startedAt completedAt

/-- `transaction.steps.map`. -/
def Member.mapSteps (f : Step D → Option (Step D)) : Member D → Option (List (Step D))
  | .steps xs => xs.mapM f
  | .property _ => none

/-- `serializedTransaction`. -/
def serializeTransaction (transaction : Record D) : Option (Record D) := do
  let processType ← (transaction.get "processType").toString? runtime
  let startedAt ← (transaction.get "startedAt").property?.bind (toISOString runtime)
  let completedAt ← (transaction.get "completedAt").property?.bind (toISOString? runtime)
  let steps ← (transaction.get "steps").mapSteps (serializeStep runtime)
  return transaction.updated processType startedAt completedAt steps

/-- The texts in Redis. -/
abbrev Texts := AList fun _ : String => Json

/-- `storeTransactionState`; `none` when it throws. -/
def storeTransactionState (prefixed : String → String) (redis : Texts) (transaction : Record D) :
    Option Texts := do
  let serializedTransaction ← serializeTransaction runtime transaction
  return redis.insert (prefixed ((transaction.get "transactionId").text runtime))
    (stringify (Member.stringify runtime) serializedTransaction)

/-! ## getTransactionState -/

/-- `isSerializedTransaction`. -/
def isSerializedTransaction (obj : Json) : Bool :=
  if !Json.truthy (some obj) || typeof (some obj) != "object" then false
  else
    typeof (property obj "transactionId") == "string" &&
    typeof (property obj "processType") == "string" &&
    typeof (property obj "status") == "string" &&
    typeof (property obj "startedAt") == "string" &&
    (typeof (property obj "completedAt") == "undefined" ||
      typeof (property obj "completedAt") == "string") &&
    typeof (property obj "currentStep") == "number" &&
    typeof (property obj "initiatedBy") == "string" &&
    typeof (property obj "payload") != "undefined" &&
    isArray (property obj "steps")

/-- `value ? new Date(value) : undefined`. -/
def newDate? (value : Option Json) : Property D :=
  if Json.truthy value then .date (value.bind runtime.newDate) else .undefined

/-- The object made of an element of `steps`; a property of `null` cannot be read. -/
def deserializeStep (step : Json) : Option (Step D) :=
  match step with
  | .null => none
  | _ => some (Step.updated (spread .json step) (newDate? runtime (property step "startedAt"))
      (newDate? runtime (property step "completedAt")))

/-- `deserializeTransaction`; `none` when it throws. -/
def deserializeTransaction (serialized : Json) : Option (Record D) := do
  let processType ← (Json.str? (property serialized "processType")).bind toProcessType
  let steps ← match property serialized "steps" with
    | some (.arr steps) => steps.mapM (deserializeStep runtime)
    | _ => none
  return Record.updated (spread (fun value => .property (.json value)) serialized)
    processType.value (.date ((property serialized "startedAt").bind runtime.newDate))
    (newDate? runtime (property serialized "completedAt")) steps

/-- `getTransactionByKey`. -/
def getTransactionByKey (redis : Texts) (key : String) : Option (Record D) :=
  match redis.lookup key with
  | none => none
  | some parsedData =>
    if isSerializedTransaction parsedData then deserializeTransaction runtime parsedData else none

/-- `getTransactionState`. -/
def getTransactionState (prefixed : String → String) (redis : Texts) (transactionId : String) :
    Option (Record D) :=
  getTransactionByKey runtime redis (prefixed transactionId)

end Runtime

/-! ## The interface -/

section Interface

variable {D : Type}

/-- A string. -/
def IsText (value : Property D) : Prop := ∃ text, value = .json (.str text)

/-- A JSON value, or nothing. -/
def IsPlain (value : Property D) : Prop := value = .undefined ∨ ∃ json, value = .json json

/-- A valid date, or nothing. -/
def IsDate? (value : Property D) : Prop := value = .undefined ∨ ∃ date, value = .date (some date)

/-- `TransactionStep`. -/
structure IsStep (step : Step D) : Prop where
  name : IsText (step.get "name")
  service : IsText (step.get "service")
  status : IsText (step.get "status")
  error : step.get "error" = .undefined ∨ IsText (step.get "error")
  startedAt : IsDate? (step.get "startedAt")
  completedAt : IsDate? (step.get "completedAt")
  others : ∀ key, key ∉ ["startedAt", "completedAt"] → IsPlain (step.get key)

/-- `DistributedTransaction`. -/
structure IsRecord (transaction : Record D) : Prop where
  transactionId : ∃ text, transaction.get "transactionId" = .property (.json (.str text))
  processType : ∃ type : ProcessType,
    transaction.get "processType" = .property (.json (.str type.value))
  status : ∃ text, transaction.get "status" = .property (.json (.str text))
  startedAt : ∃ date, transaction.get "startedAt" = .property (.date (some date))
  completedAt : ∃ value, transaction.get "completedAt" = .property value ∧ IsDate? value
  currentStep : ∃ number, transaction.get "currentStep" = .property (.json (.num number))
  initiatedBy : ∃ text, transaction.get "initiatedBy" = .property (.json (.str text))
  payload : ∃ json, transaction.get "payload" = .property (.json json)
  steps : ∃ steps, transaction.get "steps" = .steps steps ∧ ∀ step ∈ steps, IsStep step
  error : ∃ value, transaction.get "error" = .property value ∧ (value = .undefined ∨ IsText value)
  others : ∀ key, key ∉ ["startedAt", "completedAt", "steps"] →
    ∃ value, transaction.get key = .property value ∧ IsPlain value

/-- The same properties; one that is missing is `undefined`. -/
def Step.Equal (step step' : Step D) : Prop := ∀ key, step.get key = step'.get key

inductive Member.Equal : Member D → Member D → Prop where
  | property (value : Property D) : Equal (.property value) (.property value)
  | steps {steps steps' : List (Step D)} :
      List.Forall₂ Step.Equal steps steps' → Equal (.steps steps) (.steps steps')

/-- The same transaction. -/
def Record.Equal (transaction transaction' : Record D) : Prop :=
  ∀ key, (transaction.get key).Equal (transaction'.get key)

end Interface

/-! ## The guard -/

theorem typeof_eq_string {value : Option Json} :
    typeof value = "string" ↔ ∃ text, value = some (.str text) := by
  cases value with
  | none => simp [typeof]
  | some value => cases value <;> simp [typeof]

theorem typeof_eq_number {value : Option Json} :
    typeof value = "number" ↔ ∃ number, value = some (.num number) := by
  cases value with
  | none => simp [typeof]
  | some value => cases value <;> simp [typeof]

theorem typeof_eq_undefined {value : Option Json} : typeof value = "undefined" ↔ value = none := by
  cases value with
  | none => simp [typeof]
  | some value => cases value <;> simp [typeof]

theorem isArray_iff {value : Option Json} :
    isArray value = true ↔ ∃ values, value = some (.arr values) := by
  cases value with
  | none => simp [isArray]
  | some value => cases value <;> simp [isArray]

/-- What the guard looks at in an object. -/
structure Guarded (obj : Json) : Prop where
  transactionId : ∃ text, property obj "transactionId" = some (.str text)
  processType : ∃ text, property obj "processType" = some (.str text)
  status : ∃ text, property obj "status" = some (.str text)
  startedAt : ∃ text, property obj "startedAt" = some (.str text)
  completedAt : property obj "completedAt" = none ∨
    ∃ text, property obj "completedAt" = some (.str text)
  currentStep : ∃ number, property obj "currentStep" = some (.num number)
  initiatedBy : ∃ text, property obj "initiatedBy" = some (.str text)
  payload : property obj "payload" ≠ none
  steps : ∃ values, property obj "steps" = some (.arr values)

theorem isSerializedTransaction_iff {obj : Json} :
    isSerializedTransaction obj = true ↔ Guarded obj := by
  have hguarded : Guarded obj → ∃ fields, obj = .obj fields := by
    rintro ⟨⟨text, h⟩, -⟩
    cases obj with
    | obj fields => exact ⟨fields, rfl⟩
    | _ => cases h
  have hobject : isSerializedTransaction obj = true → ∃ fields, obj = .obj fields := by
    cases obj with
    | obj fields => exact fun _ => ⟨fields, rfl⟩
    | _ => simp [isSerializedTransaction, property, typeof]
  suffices h : ∀ fields, obj = .obj fields → (isSerializedTransaction obj = true ↔ Guarded obj) by
    constructor
    · intro hs
      obtain ⟨fields, hf⟩ := hobject hs
      exact (h fields hf).mp hs
    · intro hg
      obtain ⟨fields, hf⟩ := hguarded hg
      exact (h fields hf).mpr hg
  rintro fields rfl
  have htruthy : Json.truthy (some (.obj fields)) = true := rfl
  have htypeof : typeof (some (.obj fields)) = "object" := rfl
  simp only [isSerializedTransaction, htruthy, htypeof, Bool.not_true, Bool.false_or,
    bne_self_eq_false, Bool.false_eq_true, if_false, Bool.and_eq_true, Bool.or_eq_true, beq_iff_eq,
    bne_iff_ne, ne_eq, typeof_eq_string, typeof_eq_number, typeof_eq_undefined, isArray_iff,
    and_assoc]
  constructor
  · rintro ⟨h₁, h₂, h₃, h₄, h₅, h₆, h₇, h₈, h₉⟩
    exact ⟨h₁, h₂, h₃, h₄, h₅, h₆, h₇, h₈, h₉⟩
  · rintro ⟨h₁, h₂, h₃, h₄, h₅, h₆, h₇, h₈, h₉⟩
    exact ⟨h₁, h₂, h₃, h₄, h₅, h₆, h₇, h₈, h₉⟩

end InvoiceHub.Serialization
