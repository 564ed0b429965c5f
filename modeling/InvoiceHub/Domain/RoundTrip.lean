import InvoiceHub.Domain.Serialization

/-!
# Texts read back

The text that `storeTransactionState` writes of a transaction passes the guard, and
`deserializeTransaction` makes of it a transaction with the same properties.
-/

namespace InvoiceHub.Serialization

/-! ## Properties of the objects -/

section Objects

variable {D : Type}

theorem Step.get_insert (step : Step D) (key key' : String) (value : Property D) :
    Step.get (step.insert key value) key' = if key' = key then value else step.get key' := by
  unfold Step.get
  split
  · rename_i h
    rw [h, AList.lookup_insert, Option.getD_some]
  · rename_i h
    rw [AList.lookup_insert_ne h]

theorem Record.get_insert (transaction : Record D) (key key' : String) (value : Member D) :
    Record.get (transaction.insert key value) key' =
      if key' = key then value else transaction.get key' := by
  unfold Record.get
  split
  · rename_i h
    rw [h, AList.lookup_insert, Option.getD_some]
  · rename_i h
    rw [AList.lookup_insert_ne h]

theorem Step.get_updated (step : Step D) (startedAt completedAt : Property D) (key : String) :
    Step.get (step.updated startedAt completedAt) key =
      if key = "completedAt" then completedAt
      else if key = "startedAt" then startedAt else step.get key := by
  rw [updated, get_insert, get_insert]

theorem Record.get_updated (transaction : Record D) (processType : String)
    (startedAt completedAt : Property D) (steps : List (Step D)) (key : String) :
    Record.get (transaction.updated processType startedAt completedAt steps) key =
      if key = "steps" then .steps steps
      else if key = "completedAt" then .property completedAt
      else if key = "startedAt" then .property startedAt
      else if key = "processType" then .property (.json (.str processType))
      else transaction.get key := by
  rw [updated, get_insert, get_insert, get_insert, get_insert]

/-- A text has the properties of its object that are written. -/
theorem property_stringify {V : Type} (written : V → Option Json) (object : Object V)
    (key : String) : property (stringify written object) key = (object.lookup key).bind written := by
  obtain ⟨entries, nodup⟩ := object
  change (entries.filterMap _).lookup key = (entries.dlookup key).bind written
  induction entries with
  | nil => rfl
  | cons entry entries ih =>
    obtain ⟨name, value⟩ := entry
    obtain ⟨hname, hentries⟩ := List.nodupKeys_cons.mp nodup
    by_cases h : key = name
    · subst h
      rw [List.dlookup_cons_eq, Option.bind_some]
      cases hv : written value with
      | some json => simp [hv]
      | none =>
        rw [List.filterMap_cons_none (by simp [hv]), ih hentries, List.dlookup_eq_none.mpr hname,
          Option.bind_none]
    · rw [List.dlookup_cons_ne _ _ h, ← ih hentries]
      cases hv : written value with
      | some json =>
        rw [List.filterMap_cons_some (b := (name, json)) (by simp [hv]), List.lookup_cons,
          beq_eq_false_iff_ne.mpr h]
      | none => rw [List.filterMap_cons_none (by simp [hv])]

/-- An object inside a value keeps its properties. -/
theorem property_toJson (object : JsonObject) (key : String) :
    property object.toJson key = object.lookup key := by
  have hwritten : object.toJson = stringify some object := by
    rw [JsonObject.toJson, stringify, ← List.filterMap_eq_map]
    rfl
  rw [hwritten, property_stringify]
  exact Option.bind_fun_some _

/-- The properties of the object a value is spread into. -/
theorem lookup_spread {V : Type} (member : Json → V) (value : Json) (key : String) :
    (spread member value).lookup key = ((ownProperties value).lookup key).map member := by
  rw [spread, AList.lookup_to_alist]
  induction ownProperties value with
  | nil => rfl
  | cons field fields ih =>
    rw [List.map_cons, List.lookup_cons]
    by_cases h : key = field.1
    · subst h
      simp
    · rw [List.dlookup_cons_ne _ _ h, ih, beq_eq_false_iff_ne.mpr h]

/-- What was written and spread again has the properties that were written. -/
theorem lookup_spread_stringify {V W : Type} (written : V → Option Json) (member : Json → W)
    (object : Object V) (key : String) :
    (spread member (stringify written object)).lookup key =
      ((object.lookup key).bind written).map member := by
  rw [← property_stringify]
  exact lookup_spread member _ key

end Objects

/-! ## Reading back -/

section ReadBack

variable {D : Type} {runtime : Runtime D}

theorem bind_stringify (step : Step D) (key : String) :
    (step.lookup key).bind (Property.stringify runtime) = (step.get key).stringify runtime := by
  unfold Step.get
  cases step.lookup key <;> rfl

theorem Record.bind_stringify (transaction : Record D) (key : String) :
    (transaction.lookup key).bind (Member.stringify runtime) =
      (transaction.get key).stringify runtime := by
  unfold Record.get
  cases transaction.lookup key <;> rfl

/-- The property of a step's text. -/
theorem property_step (step : Step D) (key : String) :
    property (stringify (Property.stringify runtime) step) key =
      (step.get key).stringify runtime := by
  rw [property_stringify, bind_stringify]

theorem property_record (transaction : Record D) (key : String) :
    property (stringify (Member.stringify runtime) transaction) key =
      (transaction.get key).stringify runtime := by
  rw [property_stringify, Record.bind_stringify]

/-- A JSON value comes back as it is, and what is dropped reads as `undefined`. -/
theorem IsPlain.get_spread {step : Step D} {key : String} (h : IsPlain (step.get key)) :
    Step.get (spread .json (stringify (Property.stringify runtime) step)) key = step.get key := by
  rw [Step.get, lookup_spread_stringify, bind_stringify]
  rcases h with h | ⟨json, h⟩ <;> rw [h] <;> rfl

theorem IsPlain.get_spread_record {transaction : Record D} {key : String} {value : Property D}
    (h : IsPlain value) (hvalue : transaction.get key = .property value) :
    Record.get (spread (fun value => .property (.json value))
      (stringify (Member.stringify runtime) transaction)) key = transaction.get key := by
  rw [Record.get, lookup_spread_stringify, Record.bind_stringify, hvalue]
  rcases h with rfl | ⟨json, rfl⟩ <;> rfl

/-- A date comes back from its text. -/
theorem IsDate?.read (hl : runtime.Lawful) {value : Property D} (h : IsDate? value) :
    ∃ written, toISOString? runtime value = some written ∧
      newDate? runtime (written.stringify runtime) = value := by
  rcases h with rfl | ⟨date, rfl⟩
  · exact ⟨.undefined, rfl, rfl⟩
  · refine ⟨_, rfl, ?_⟩
    simp [newDate?, Property.stringify, Json.truthy, hl.toISOString_ne, hl.newDate_toISOString]

/-- The text of a date is a string, if there is one. -/
theorem IsDate?.written {value written : Property D} (h : IsDate? value)
    (hw : toISOString? runtime value = some written) :
    written.stringify runtime = none ∨ ∃ text, written.stringify runtime = some (.str text) := by
  rcases h with rfl | ⟨date, rfl⟩
  · cases hw
    exact .inl rfl
  · cases hw
    exact .inr ⟨runtime.toISOString date, rfl⟩

/-- A step comes back from its text. -/
theorem IsStep.read (hl : runtime.Lawful) {step : Step D} (h : IsStep step) :
    ∃ written, serializeStep runtime step = some written ∧
      ∃ read, deserializeStep runtime (stringify (Property.stringify runtime) written) = some read ∧
        read.Equal step := by
  obtain ⟨startedAt, hs, hstarted⟩ := h.startedAt.read hl
  obtain ⟨completedAt, hc, hcompleted⟩ := h.completedAt.read hl
  refine ⟨step.updated startedAt completedAt, ?_, _, rfl, fun key => ?_⟩
  · rw [serializeStep, hs, hc]
    rfl
  rw [Step.get_updated, property_step, property_step, Step.get_updated, Step.get_updated]
  split
  · rename_i hkey
    rw [hkey]
    exact hcompleted
  split
  · rename_i hkey
    rw [hkey]
    exact hstarted
  · rename_i hc hs
    have hkey : Step.get (step.updated startedAt completedAt) key = step.get key := by
      rw [Step.get_updated, if_neg hc, if_neg hs]
    rw [← hkey]
    exact IsPlain.get_spread (hkey ▸ h.others key (by simp [hc, hs]))

/-- So do all steps of an array. -/
theorem read_steps (hl : runtime.Lawful) {steps : List (Step D)} (h : ∀ step ∈ steps, IsStep step) :
    ∃ written, steps.mapM (serializeStep runtime) = some written ∧
      ∃ read, (written.map (stringify (Property.stringify runtime))).mapM
          (deserializeStep runtime) = some read ∧ List.Forall₂ Step.Equal read steps := by
  induction steps with
  | nil => exact ⟨[], rfl, [], rfl, .nil⟩
  | cons step steps ih =>
    obtain ⟨written, hw, read, hr, heq⟩ := (h step List.mem_cons_self).read hl
    obtain ⟨rest, hrest, reads, hreads, hall⟩ :=
      ih fun step hmem => h step (List.mem_cons_of_mem _ hmem)
    refine ⟨written :: rest, by rw [List.mapM_cons, hw, hrest]; rfl, read :: reads, ?_,
      .cons heq hall⟩
    rw [List.map_cons, List.mapM_cons, hr, hreads]
    rfl

/-- The guard accepts what was written of a transaction. -/
theorem IsRecord.guarded {transaction : Record D} (h : IsRecord transaction)
    (processType startedAt : String) {completedAt : Property D} (steps : List (Step D))
    (hc : completedAt.stringify runtime = none ∨
      ∃ text, completedAt.stringify runtime = some (.str text)) :
    Guarded (stringify (Member.stringify runtime)
      (transaction.updated processType (.json (.str startedAt)) completedAt steps)) := by
  obtain ⟨id, hid⟩ := h.transactionId
  obtain ⟨status, hstatus⟩ := h.status
  obtain ⟨number, hnumber⟩ := h.currentStep
  obtain ⟨initiatedBy, hinitiated⟩ := h.initiatedBy
  obtain ⟨payload, hpayload⟩ := h.payload
  exact {
    transactionId := ⟨id, by simp [property_record, Record.get_updated, hid]⟩
    processType := ⟨processType, by simp [property_record, Record.get_updated]⟩
    status := ⟨status, by simp [property_record, Record.get_updated, hstatus]⟩
    startedAt := ⟨startedAt, by simp [property_record, Record.get_updated]⟩
    completedAt := by simpa [property_record, Record.get_updated] using hc
    currentStep := ⟨number, by simp [property_record, Record.get_updated, hnumber]⟩
    initiatedBy := ⟨initiatedBy, by simp [property_record, Record.get_updated, hinitiated]⟩
    payload := by simp [property_record, Record.get_updated, hpayload]
    steps := ⟨_, by simp [property_record, Record.get_updated]; rfl⟩ }

/-- A transaction comes back from its text. -/
theorem IsRecord.read (hl : runtime.Lawful) {transaction : Record D} (h : IsRecord transaction) :
    ∃ written, serializeTransaction runtime transaction = some written ∧
      isSerializedTransaction (stringify (Member.stringify runtime) written) = true ∧
      ∃ read, deserializeTransaction runtime (stringify (Member.stringify runtime) written) =
        some read ∧ read.Equal transaction := by
  obtain ⟨type, htype⟩ := h.processType
  obtain ⟨date, hdate⟩ := h.startedAt
  obtain ⟨value, hvalue, hvalid⟩ := h.completedAt
  obtain ⟨steps, hsteps, hstep⟩ := h.steps
  obtain ⟨completedAt, hc, hcompleted⟩ := hvalid.read hl
  obtain ⟨written, hw, read, hr, heq⟩ := read_steps hl hstep
  let record := transaction.updated type.value (.json (.str (runtime.toISOString date)))
    completedAt written
  have hrecord : ∀ key, property (stringify (Member.stringify runtime) record) key =
      (record.get key).stringify runtime := property_record record
  refine ⟨record, ?_,
    isSerializedTransaction_iff.mpr (h.guarded _ _ _ (hvalid.written hc)), ?_⟩
  · simp [serializeTransaction, htype, hdate, hvalue, hsteps, Member.toString?, Member.text,
      Member.property?, Member.mapSteps, toISOString, hc, hw, record]
  · simp only [record, Record.get_updated] at hrecord
    refine ⟨_, by simp [deserializeTransaction, record, hrecord, hr]; rfl, fun key => ?_⟩
    rw [Record.get_updated]
    split
    · rename_i hkey
      rw [hkey, hsteps]
      exact .steps heq
    split
    · rename_i hkey
      rw [hkey, hvalue, hcompleted]
      exact .property value
    split
    · rename_i hkey
      rw [hkey, hdate, hl.newDate_toISOString]
      exact .property _
    split
    · rename_i hkey
      rw [hkey, htype]
      exact .property _
    · rename_i hsteps' hcompleted' hstarted' htype'
      obtain ⟨plain, hplain, hp⟩ := h.others key (by simp [hsteps', hcompleted', hstarted'])
      have hkey : record.get key = transaction.get key := by
        rw [Record.get_updated, if_neg hsteps', if_neg hcompleted', if_neg hstarted', if_neg htype']
      rw [hp.get_spread_record (hkey.trans hplain), hkey, hplain]
      exact .property plain

/-- What is stored is found under its id, the same as it was. -/
theorem IsRecord.getTransactionState (hl : runtime.Lawful) {transaction : Record D}
    (h : IsRecord transaction) (prefixed : String → String) (redis : Texts) :
    ∃ id stored read, transaction.get "transactionId" = .property (.json (.str id)) ∧
      storeTransactionState runtime prefixed redis transaction = some stored ∧
      getTransactionState runtime prefixed stored id = some read ∧ read.Equal transaction := by
  obtain ⟨id, hid⟩ := h.transactionId
  obtain ⟨written, hw, hguard, read, hr, heq⟩ := h.read hl
  refine ⟨id, redis.insert (prefixed id) (stringify (Member.stringify runtime) written), read, hid,
    ?_, ?_, heq⟩
  · rw [storeTransactionState, hw, hid]
    rfl
  · rw [Serialization.getTransactionState, getTransactionByKey, AList.lookup_insert]
    dsimp only
    rw [if_pos hguard, hr]

end ReadBack

/-! ## Typed records -/

section Typed

variable {D : Type} (runtime : Runtime D)

/-- A text that may be missing. -/
def optionalText (text : Option String) : Property D :=
  text.elim .undefined fun text => .json (.str text)

/-- A date that may be missing. -/
def optionalDate (date : Option Date) : Property D :=
  date.elim .undefined fun date => .date (some (runtime.ofTime date))

/-- The object of a step. -/
def ofStep (step : TransactionStep) : Step D :=
  let fields : Step D := ((((∅ : Step D).insert "name" (.json (.str step.name))).insert
    "service" (.json (.str step.service.value))).insert
    "status" (.json (.str step.status.value))).insert
    "error" (optionalText step.error)
  fields.updated (optionalDate runtime step.startedAt) (optionalDate runtime step.completedAt)

/-- The object of a transaction. -/
def ofTransaction (transaction : DistributedTransaction) : Record D :=
  let fields : Record D := ((((((∅ : Record D).insert
    "transactionId" (.property (.json (.str transaction.transactionId)))).insert
    "status" (.property (.json (.str transaction.status.value)))).insert
    "currentStep" (.property (.json (.num transaction.currentStep)))).insert
    "initiatedBy" (.property (.json (.str transaction.initiatedBy)))).insert
    "payload" (.property (.json transaction.payload.toJson))).insert
    "error" (.property (optionalText transaction.error))
  fields.updated transaction.processType.value (.date (some (runtime.ofTime transaction.startedAt)))
    (optionalDate runtime transaction.completedAt) (transaction.steps.map (ofStep runtime))

theorem optionalText_cases (text : Option String) :
    optionalText text = (.undefined : Property D) ∨ IsText (optionalText text : Property D) := by
  cases text with
  | none => exact .inl rfl
  | some text => exact .inr ⟨text, rfl⟩

theorem isPlain_optionalText (text : Option String) :
    IsPlain (optionalText text : Property D) :=
  (optionalText_cases text).imp id fun ⟨text, h⟩ => ⟨.str text, h⟩

theorem isDate_optionalDate (date : Option Date) : IsDate? (optionalDate runtime date) := by
  cases date with
  | none => exact .inl rfl
  | some date => exact .inr ⟨runtime.ofTime date, rfl⟩

@[simp] theorem Step.get_empty (key : String) : Step.get (∅ : Step D) key = .undefined := rfl

@[simp] theorem Record.get_empty (key : String) :
    Record.get (∅ : Record D) key = .property .undefined := rfl

theorem isStep_ofStep (step : TransactionStep) : IsStep (ofStep runtime step) where
  name := ⟨step.name, by
    simp [ofStep, Step.get_updated, Step.get_insert, -AList.insert_empty]⟩
  service := ⟨step.service.value, by simp [ofStep, Step.get_updated, Step.get_insert]⟩
  status := ⟨step.status.value, by simp [ofStep, Step.get_updated, Step.get_insert]⟩
  error := by
    simpa [ofStep, Step.get_updated, Step.get_insert] using optionalText_cases step.error
  startedAt := by
    simpa [ofStep, Step.get_updated] using isDate_optionalDate runtime step.startedAt
  completedAt := by
    simpa [ofStep, Step.get_updated] using isDate_optionalDate runtime step.completedAt
  others := by
    intro key hkey
    simp only [ofStep, Step.get_updated, Step.get_insert, Step.get_empty]
    simp only [List.mem_cons, List.not_mem_nil, or_false, not_or] at hkey
    rw [if_neg hkey.2, if_neg hkey.1]
    split_ifs
    · exact isPlain_optionalText step.error
    · exact .inr ⟨_, rfl⟩
    · exact .inr ⟨_, rfl⟩
    · exact .inr ⟨_, rfl⟩
    · exact .inl rfl

theorem get_transactionId (transaction : DistributedTransaction) :
    Record.get (ofTransaction runtime transaction) "transactionId" =
      .property (.json (.str transaction.transactionId)) := by
  simp [ofTransaction, Record.get_updated, Record.get_insert, -AList.insert_empty]

theorem isRecord_ofTransaction (transaction : DistributedTransaction) :
    IsRecord (ofTransaction runtime transaction) where
  transactionId := ⟨transaction.transactionId, get_transactionId runtime transaction⟩
  processType := ⟨transaction.processType, by simp [ofTransaction, Record.get_updated]⟩
  status := ⟨transaction.status.value, by
    simp [ofTransaction, Record.get_updated, Record.get_insert]⟩
  startedAt := ⟨runtime.ofTime transaction.startedAt, by
    simp [ofTransaction, Record.get_updated]⟩
  completedAt := ⟨optionalDate runtime transaction.completedAt, by
    simp [ofTransaction, Record.get_updated],
    isDate_optionalDate runtime transaction.completedAt⟩
  currentStep := ⟨transaction.currentStep, by
    simp [ofTransaction, Record.get_updated, Record.get_insert]⟩
  initiatedBy := ⟨transaction.initiatedBy, by
    simp [ofTransaction, Record.get_updated, Record.get_insert]⟩
  payload := ⟨transaction.payload.toJson, by
    simp [ofTransaction, Record.get_updated, Record.get_insert]⟩
  steps := by
    refine ⟨transaction.steps.map (ofStep runtime), by simp [ofTransaction, Record.get_updated], ?_⟩
    intro step hstep
    obtain ⟨declared, -, rfl⟩ := List.mem_map.mp hstep
    exact isStep_ofStep runtime declared
  error := ⟨optionalText transaction.error, by
    simp [ofTransaction, Record.get_updated, Record.get_insert],
    optionalText_cases transaction.error⟩
  others := by
    intro key hkey
    simp only [ofTransaction, Record.get_updated, Record.get_insert, Record.get_empty]
    simp only [List.mem_cons, List.not_mem_nil, or_false, not_or] at hkey
    rw [if_neg hkey.2.2, if_neg hkey.2.1, if_neg hkey.1]
    split_ifs
    · exact ⟨_, rfl, .inr ⟨_, rfl⟩⟩
    · exact ⟨_, rfl, isPlain_optionalText transaction.error⟩
    · exact ⟨_, rfl, .inr ⟨_, rfl⟩⟩
    · exact ⟨_, rfl, .inr ⟨_, rfl⟩⟩
    · exact ⟨_, rfl, .inr ⟨_, rfl⟩⟩
    · exact ⟨_, rfl, .inr ⟨_, rfl⟩⟩
    · exact ⟨_, rfl, .inr ⟨_, rfl⟩⟩
    · exact ⟨_, rfl, .inl rfl⟩

end Typed

end InvoiceHub.Serialization
