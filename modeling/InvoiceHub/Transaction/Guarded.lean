import InvoiceHub.Transaction.Readable

/-!
# What the guard lets through

`isSerializedTransaction` promises a `SerializedTransaction` and looks at the outermost properties
only: not into the steps, not at the number in `currentStep`, and not whether a text is a date.
What else can be refused is a process type outside the enumeration and a step that is `null`.
-/

namespace InvoiceHub.Serialization

open Transaction

/-! ## The interface of the texts -/

section Interface

variable {D : Type} (runtime : Runtime D)

/-- A text that is a valid date, or nothing. -/
def Dated (value : Option Json) : Prop :=
  value = none ∨ ∃ text, value = some (.str text) ∧ (runtime.newDate (.str text)).isSome

/-- A text, or nothing. -/
def Textual (value : Option Json) : Prop := value = none ∨ ∃ text, value = some (.str text)

/-- An element of `steps` of `SerializedTransaction`. -/
structure ConformsStep (step : Json) : Prop where
  name : ∃ text, property step "name" = some (.str text)
  service : ∃ text, property step "service" = some (.str text)
  status : ∃ text, property step "status" = some (.str text)
  error : Textual (property step "error")
  startedAt : Dated runtime (property step "startedAt")
  completedAt : Dated runtime (property step "completedAt")

/-- `SerializedTransaction`, with valid dates and a step to be at, or none left. -/
structure Conforms (value : Json) : Prop where
  transactionId : ∃ text, property value "transactionId" = some (.str text)
  processType : ∃ text, property value "processType" = some (.str text)
  status : ∃ text, property value "status" = some (.str text)
  startedAt : ∃ text, property value "startedAt" = some (.str text) ∧
    (runtime.newDate (.str text)).isSome
  completedAt : Dated runtime (property value "completedAt")
  initiatedBy : ∃ text, property value "initiatedBy" = some (.str text)
  payload : ∃ fields, property value "payload" = some (.obj fields)
  steps : ∃ steps, property value "steps" = some (.arr steps) ∧
    (∀ step ∈ steps, ConformsStep runtime step) ∧
    ∃ n : Nat, property value "currentStep" = some (.num n) ∧ n ≤ steps.length
  error : Textual (property value "error")

/-- What the guard and the conversions look at. -/
structure Accepted (value : Json) : Prop where
  guarded : isSerializedTransaction value = true
  processType : ∃ type : ProcessType, property value "processType" = some (.str type.value)
  steps : ∀ steps, property value "steps" = some (.arr steps) → .null ∉ steps

/-- What they do not look at. -/
structure Sound (value : Json) : Prop where
  startedAt : ∀ text, property value "startedAt" = some (.str text) →
    (runtime.newDate (.str text)).isSome
  completedAt : ∀ text, property value "completedAt" = some (.str text) →
    (runtime.newDate (.str text)).isSome
  payload : ∃ fields, property value "payload" = some (.obj fields)
  currentStep : ∀ number steps, property value "currentStep" = some (.num number) →
    property value "steps" = some (.arr steps) → ∃ n : Nat, number = n ∧ n ≤ steps.length
  steps : ∀ steps, property value "steps" = some (.arr steps) →
    ∀ step ∈ steps, ConformsStep runtime step
  error : Textual (property value "error")

end Interface

section Guarded

variable {D : Type} {runtime : Runtime D} {value : Json}

/-- The interface is what is looked at and what is not. -/
theorem conforms_iff (hg : Guarded value) : Conforms runtime value ↔ Sound runtime value := by
  constructor
  · intro h
    refine ⟨?_, ?_, h.payload, ?_, ?_, h.error⟩
    · intro text htext
      obtain ⟨text', htext', hdate⟩ := h.startedAt
      cases htext.symm.trans htext'
      exact hdate
    · intro text htext
      rcases h.completedAt with hnone | ⟨text', htext', hdate⟩
      · cases htext.symm.trans hnone
      · cases htext.symm.trans htext'
        exact hdate
    · intro number steps hnumber hsteps
      obtain ⟨steps', hsteps', -, n, hn, hle⟩ := h.steps
      cases hsteps.symm.trans hsteps'
      cases hnumber.symm.trans hn
      exact ⟨n, rfl, hle⟩
    · intro steps hsteps
      obtain ⟨steps', hsteps', hall, -⟩ := h.steps
      cases hsteps.symm.trans hsteps'
      exact hall
  · intro h
    obtain ⟨startedAt, hstarted⟩ := hg.startedAt
    obtain ⟨number, hnumber⟩ := hg.currentStep
    obtain ⟨steps, hsteps⟩ := hg.steps
    obtain ⟨n, rfl, hle⟩ := h.currentStep number steps hnumber hsteps
    refine ⟨hg.transactionId, hg.processType, hg.status, ⟨startedAt, hstarted, h.startedAt _ hstarted⟩,
      ?_, hg.initiatedBy, h.payload, ⟨steps, hsteps, h.steps steps hsteps, n, hnumber, hle⟩, h.error⟩
    rcases hg.completedAt with hnone | ⟨text, htext⟩
    · exact .inl hnone
    · exact .inr ⟨text, htext, h.completedAt text htext⟩

/-! ## What is read -/

/-- The steps of a text are read unless one of them is `null`. -/
theorem mapM_deserializeStep (runtime : Runtime D) (steps : List Json) :
    (∃ read, steps.mapM (deserializeStep runtime) = some read) ↔ .null ∉ steps := by
  induction steps with
  | nil => exact ⟨fun _ => List.not_mem_nil, fun _ => ⟨[], rfl⟩⟩
  | cons step steps ih =>
    have hstep : (∃ read, deserializeStep runtime step = some read) ↔ Json.null ≠ step := by
      cases step <;> simp [deserializeStep]
    rw [List.mem_cons, not_or, ← ih, ← ne_eq, ← hstep, List.mapM_cons]
    constructor
    · rintro ⟨read, hread⟩
      obtain ⟨first, hfirst, hread⟩ := Option.bind_eq_some_iff.mp hread
      obtain ⟨rest, hrest, -⟩ := Option.bind_eq_some_iff.mp hread
      exact ⟨⟨first, hfirst⟩, rest, hrest⟩
    · rintro ⟨⟨first, hfirst⟩, rest, hrest⟩
      exact ⟨first :: rest, by rw [hfirst, hrest]; rfl⟩

/-- What is made of a text that passes the guard. -/
theorem deserializeTransaction_eq_some {transaction : Record D} :
    deserializeTransaction runtime value = some transaction ↔
      ∃ (type : ProcessType) (steps : List Json) (read : List (Step D)),
        property value "processType" = some (.str type.value) ∧
        property value "steps" = some (.arr steps) ∧
        steps.mapM (deserializeStep runtime) = some read ∧
        transaction = Record.updated (spread (fun value => .property (.json value)) value) type.value
          (.date ((property value "startedAt").bind runtime.newDate))
          (newDate? runtime (property value "completedAt")) read := by
  constructor
  · intro h
    obtain ⟨type, htype, h⟩ := Option.bind_eq_some_iff.mp h
    obtain ⟨text, htext, hfound⟩ := Option.bind_eq_some_iff.mp htype
    have hvalue : type.value = text := by simpa using List.find?_some hfound
    have hproperty : property value "processType" = some (.str text) := by
      cases hp : property value "processType" with
      | none => simp [hp] at htext
      | some json => cases json <;> simp_all [Json.str?]
    dsimp only at h
    split at h
    · rename_i steps hsteps
      obtain ⟨read, hread, h⟩ := Option.bind_eq_some_iff.mp h
      exact ⟨type, steps, read, by rw [hproperty, hvalue], hsteps, hread, (Option.some_inj.mp h).symm⟩
    · cases h
  · rintro ⟨type, steps, read, htype, hsteps, hread, rfl⟩
    simp [deserializeTransaction, htype, hsteps, hread]

/-- A text is read exactly if it is accepted. -/
theorem getTransactionByKey_iff {redis : Texts} {key : String} (hv : redis.lookup key = some value) :
    (∃ transaction, getTransactionByKey runtime redis key = some transaction) ↔ Accepted value := by
  unfold getTransactionByKey
  rw [hv]
  dsimp only
  constructor
  · rintro ⟨transaction, h⟩
    split at h
    · rename_i hguarded
      obtain ⟨type, steps, read, htype, hsteps, hread, -⟩ := deserializeTransaction_eq_some.mp h
      refine ⟨hguarded, ⟨type, htype⟩, fun steps' hsteps' => ?_⟩
      cases hsteps.symm.trans hsteps'
      exact (mapM_deserializeStep runtime steps).mp ⟨read, hread⟩
    · cases h
  · intro h
    obtain ⟨steps, hsteps⟩ := (isSerializedTransaction_iff.mp h.guarded).steps
    obtain ⟨type, htype⟩ := h.processType
    obtain ⟨read, hread⟩ := (mapM_deserializeStep runtime steps).mpr (h.steps steps hsteps)
    rw [if_pos h.guarded]
    exact ⟨_, deserializeTransaction_eq_some.mpr ⟨type, steps, read, htype, hsteps, hread, rfl⟩⟩

/-! ## What is read is a transaction -/

/-- A property that was spread is what it is in the text. -/
theorem get_spread_json (value : Json) (fields : List (String × Json)) (hf : value = .obj fields)
    (key : String) :
    Step.get (spread .json value : Step D) key = (property value key).elim .undefined .json := by
  subst hf
  rw [Step.get, lookup_spread]
  change ((fields.lookup key).map _).getD _ = (fields.lookup key).elim _ _
  cases fields.lookup key <;> rfl

theorem get_spread_property (value : Json) (fields : List (String × Json)) (hf : value = .obj fields)
    (key : String) :
    Record.get (spread (fun value => .property (.json value)) value : Record D) key =
      .property ((property value key).elim .undefined .json) := by
  subst hf
  rw [Record.get, lookup_spread]
  change ((fields.lookup key).map _).getD _ = Member.property ((fields.lookup key).elim _ _)
  cases fields.lookup key <;> rfl

theorem obj_of_property {key : String} {json : Json} (h : property value key = some json) :
    ∃ fields, value = .obj fields := by
  cases value with
  | obj fields => exact ⟨fields, rfl⟩
  | _ => cases h

theorem Textual.elim {value : Option Json} (h : Textual value) :
    (value.elim .undefined .json : Property D) = .undefined ∨
      IsText (value.elim .undefined .json : Property D) := by
  rcases h with rfl | ⟨text, rfl⟩
  · exact .inl rfl
  · exact .inr ⟨text, rfl⟩

theorem isPlain_elim (value : Option Json) : IsPlain (value.elim .undefined .json : Property D) := by
  cases value with
  | none => exact .inl rfl
  | some json => exact .inr ⟨json, rfl⟩

/-- A date that is read is valid. -/
theorem Dated.newDate? {value : Option Json} (h : Dated runtime value) :
    IsDate? (Serialization.newDate? runtime value) := by
  unfold Serialization.newDate?
  rcases h with rfl | ⟨text, rfl, hdate⟩
  · exact .inl rfl
  · split
    · obtain ⟨date, hdate⟩ := Option.isSome_iff_exists.mp hdate
      exact .inr ⟨date, by rw [Option.bind_some, hdate]⟩
    · exact .inl rfl

/-- A step of a text that conforms is read as a step. -/
theorem ConformsStep.isStep {step : Json} (h : ConformsStep runtime step) {read : Step D}
    (hread : deserializeStep runtime step = some read) : IsStep read := by
  obtain ⟨name, hname⟩ := h.name
  obtain ⟨service, hservice⟩ := h.service
  obtain ⟨status, hstatus⟩ := h.status
  obtain ⟨fields, rfl⟩ := obj_of_property hname
  cases hread
  refine ⟨⟨name, ?_⟩, ⟨service, ?_⟩, ⟨status, ?_⟩, ?_, ?_, ?_, fun key hkey => ?_⟩
  · simp [Step.get_updated, get_spread_json _ _ rfl, hname]
  · simp [Step.get_updated, get_spread_json _ _ rfl, hservice]
  · simp [Step.get_updated, get_spread_json _ _ rfl, hstatus]
  · simpa [Step.get_updated, get_spread_json _ _ rfl] using h.error.elim
  · simpa [Step.get_updated] using h.startedAt.newDate?
  · simpa [Step.get_updated] using h.completedAt.newDate?
  · simp only [List.mem_cons, List.not_mem_nil, or_false, not_or] at hkey
    rw [Step.get_updated, if_neg hkey.2, if_neg hkey.1, get_spread_json _ _ rfl]
    exact isPlain_elim _

/-- A text that conforms is read as a transaction. -/
theorem Conforms.isRecord (h : Conforms runtime value) {transaction : Record D}
    (hread : deserializeTransaction runtime value = some transaction) : IsRecord transaction := by
  obtain ⟨type, steps, read, htype, hsteps, hmap, rfl⟩ := deserializeTransaction_eq_some.mp hread
  obtain ⟨id, hid⟩ := h.transactionId
  obtain ⟨status, hstatus⟩ := h.status
  obtain ⟨startedAt, hstarted, hdate⟩ := h.startedAt
  obtain ⟨date, hdate⟩ := Option.isSome_iff_exists.mp hdate
  obtain ⟨initiatedBy, hinitiated⟩ := h.initiatedBy
  obtain ⟨payload, hpayload⟩ := h.payload
  obtain ⟨steps', hsteps', hall, n, hn, -⟩ := h.steps
  cases hsteps.symm.trans hsteps'
  obtain ⟨fields, hfields⟩ := obj_of_property hid
  have hget := get_spread_property (D := D) value fields hfields
  exact
    { transactionId := ⟨id, by simp [Record.get_updated, hget, hid]⟩
      processType := ⟨type, by simp [Record.get_updated]⟩
      status := ⟨status, by simp [Record.get_updated, hget, hstatus]⟩
      startedAt := ⟨date, by simp [Record.get_updated, hstarted, hdate]⟩
      completedAt := ⟨_, by simp [Record.get_updated], h.completedAt.newDate?⟩
      currentStep := ⟨n, by simp [Record.get_updated, hget, hn]⟩
      initiatedBy := ⟨initiatedBy, by simp [Record.get_updated, hget, hinitiated]⟩
      payload := ⟨.obj payload, by simp [Record.get_updated, hget, hpayload]⟩
      steps := by
        refine ⟨read, by simp [Record.get_updated], fun step hmem => ?_⟩
        obtain ⟨i, hi⟩ := List.mem_iff_getElem?.mp hmem
        rw [(getElem?_mapM hmap).2 i] at hi
        obtain ⟨json, hjson, hstep⟩ := Option.bind_eq_some_iff.mp hi
        exact (hall json (List.mem_of_getElem? hjson)).isStep hstep
      error := ⟨_, by simp [Record.get_updated, hget], h.error.elim⟩
      others := by
        intro key hkey
        simp only [List.mem_cons, List.not_mem_nil, or_false, not_or] at hkey
        rw [Record.get_updated, if_neg hkey.2.2, if_neg hkey.2.1, if_neg hkey.1]
        split
        · exact ⟨_, rfl, .inr ⟨_, rfl⟩⟩
        · exact ⟨_, hget key, isPlain_elim _⟩ }

/-! ## Soundness of the guard -/

/-- The transaction can be stored, and is found again as it was. -/
def ReadsBack (runtime : Runtime D) (transaction : Record D) : Prop :=
  ∀ redis : Texts, ∃ id stored read, transaction.get "transactionId" = .property (.json (.str id)) ∧
    storeTransactionState runtime (fun id => transactionKey (some id)) redis transaction =
      some stored ∧
    getTransactionState runtime (fun id => transactionKey (some id)) stored id = some read ∧
    read.Equal transaction

/-- A text that is read conforms to the interface, and its transaction can be stored and read back,
exactly if what neither the guard nor the conversions look at is as the interface says. -/
theorem guard_sound_iff (hl : runtime.Lawful) (value : Json) :
    (∀ redis key transaction, redis.lookup key = some value →
      getTransactionByKey runtime redis key = some transaction →
        Conforms runtime value ∧ ReadsBack runtime transaction) ↔
      (Accepted value → Sound runtime value) := by
  constructor
  · intro h ha
    have hlookup : (AList.insert "key" value (∅ : Texts)).lookup "key" = some value :=
      AList.lookup_insert _
    obtain ⟨transaction, hread⟩ := (getTransactionByKey_iff hlookup).mpr ha
    obtain ⟨hconforms, -⟩ := h _ _ transaction hlookup hread
    exact (conforms_iff (isSerializedTransaction_iff.mp ha.guarded)).mp hconforms
  · intro h redis key transaction hlookup hread
    have ha := (getTransactionByKey_iff hlookup).mp ⟨transaction, hread⟩
    have hconforms := (conforms_iff (isSerializedTransaction_iff.mp ha.guarded)).mpr (h ha)
    refine ⟨hconforms, fun redis => ?_⟩
    unfold getTransactionByKey at hread
    rw [hlookup] at hread
    dsimp only at hread
    rw [if_pos ha.guarded] at hread
    exact (hconforms.isRecord hread).getTransactionState hl _ redis

end Guarded

/-! ### Texts that should have been refused -/

/-- A text with one step; the rest is as in a transaction that is running. -/
def textWithStep (startedAt : String) (currentStep : Rat) (step : Json) : Json :=
  .obj [("transactionId", .str "t"), ("processType", .str ProcessType.ORDER_APPROVAL.value),
    ("status", .str DistributedTransactionStatus.IN_PROGRESS.value), ("startedAt", .str startedAt),
    ("currentStep", .num currentStep), ("initiatedBy", .str "user"), ("payload", .obj []),
    ("steps", .arr [step])]

/-- The step that `startTransaction` stores. -/
def pendingStep : Json :=
  .obj [("name", .str Subjects.ORDER_APPROVAL_STEP_UPDATE_ORDER_STATUS.value),
    ("service", .str ClientIds.ORDER_SERVICE.value), ("status", .str ProcessStepStatus.PENDING.value)]

/-- A store that holds the text. -/
abbrev storedText (value : Json) : Texts := AList.insert "key" value ∅

/-- A text with a valid date and a step of a transaction is read, conforms and reads back. -/
theorem guard_sound_pendingStep :
    ∃ transaction, getTransactionByKey isoRuntime
        (storedText (textWithStep "2025-03-01T19:31:06.779Z" 0 pendingStep)) "key" =
          some transaction ∧
      Conforms isoRuntime (textWithStep "2025-03-01T19:31:06.779Z" 0 pendingStep) ∧
      ReadsBack isoRuntime transaction := by
  refine ⟨_, rfl, (guard_sound_iff isoRuntime_lawful _).mpr (fun _ => ?_) (storedText _) "key" _
    (AList.lookup_insert _) rfl⟩
  refine ⟨?_, ?_, ⟨_, rfl⟩, ?_, ?_, .inl rfl⟩
  · rintro _ ⟨⟩
    rfl
  · rintro _ ⟨⟩
  · rintro _ _ ⟨⟩ ⟨⟩
    exact ⟨0, rfl, Nat.zero_le _⟩
  · rintro _ ⟨⟩ step hstep
    cases List.mem_singleton.mp hstep
    exact ⟨⟨_, rfl⟩, ⟨_, rfl⟩, ⟨_, rfl⟩, .inl rfl, .inl rfl, .inl rfl⟩

/-- A step that is no step is read, and so is a date that is none, with which the transaction cannot
be stored. -/
theorem guard_not_sound :
    (∃ transaction, getTransactionByKey isoRuntime
        (storedText (textWithStep "2025-03-01T19:31:06.779Z" 3 (.obj []))) "key" = some transaction ∧
      ¬Conforms isoRuntime (textWithStep "2025-03-01T19:31:06.779Z" 3 (.obj []))) ∧
    ∃ transaction, getTransactionByKey isoRuntime (storedText (textWithStep "soon" 0 pendingStep))
        "key" = some transaction ∧
      (∀ redis : Texts, storeTransactionState isoRuntime (fun id => transactionKey (some id)) redis
        transaction = none) ∧ ¬ReadsBack isoRuntime transaction := by
  constructor
  · refine ⟨_, rfl, fun h => ?_⟩
    obtain ⟨steps, hsteps, hall, -⟩ := h.steps
    cases hsteps
    obtain ⟨name, hname⟩ := (hall _ List.mem_cons_self).name
    cases hname
  · refine ⟨_, rfl, fun redis => rfl, fun h => ?_⟩
    obtain ⟨id, stored, read, -, hstored, -⟩ := h ∅
    cases hstored

end InvoiceHub.Serialization
