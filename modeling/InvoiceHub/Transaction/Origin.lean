import InvoiceHub.Transaction.Lawful

/-!
# Where records stem from

Every record that has steps stems from a start: its id, its payload and what was declared of
its steps are those that `startTransaction` was given.  So do the commands that are published
for it, forward or in compensation, however the handlers overlap.
-/

namespace InvoiceHub.Transaction

/-! ## Commands -/

/-- The command of the step `name`: the id of the transaction, its payload and the name. -/
structure Carries (t : String) (payload : JsonObject) (name : String) (command : EventMessage) :
    Prop where
  topic : command.topicName = name
  transactionId : command.message.lookup "transactionId" = some (.str t)
  stepName : command.message.lookup "stepName" = some (.str name)
  payload : ∀ key ∈ payload, command.message.lookup key = payload.lookup key

/-- What is published for the step `name`. -/
def stepCommand (t : String) (payload : JsonObject) (name : String) : EventMessage where
  topicName := name
  message := ((JsonObject.put ∅ "transactionId" (some (.str t))).spread payload).put "stepName"
    (some (.str name))

theorem carries_stepCommand (t : String) {payload : JsonObject} (name : String)
    (ht : "transactionId" ∉ payload) (hs : "stepName" ∉ payload) :
    Carries t payload name (stepCommand t payload name) where
  topic := rfl
  transactionId := by
    simp [stepCommand, JsonObject.lookup_put, JsonObject.lookup_spread_of_not_mem _ ht]
  stepName := by simp [stepCommand]
  payload := by
    intro key hkey
    have hne : key ≠ "stepName" := by
      rintro rfl
      exact hs hkey
    simp [stepCommand, JsonObject.lookup_put, hne, JsonObject.lookup_spread_of_mem _ hkey]

/-- What is published for the step `name` in compensation: the command inside another one. -/
def wrappedCommand (t : String) (payload : JsonObject) (name : String) : EventMessage where
  topicName := name
  message := (JsonObject.put ∅ "topicName" (some (.str name))).put "message"
    (some (stepCommand t payload name).message.toJson)

theorem forwardCommand_eq (r : DistributedTransaction) (step : TransactionStep) :
    forwardCommand r step = stepCommand r.transactionId r.payload step.name := rfl

theorem compensationCommand_eq (r : DistributedTransaction) (step : TransactionStep) :
    compensationCommand r step = wrappedCommand r.transactionId r.payload step.name := rfl

/-! ## The law of stemming -/

/-- A record with steps stems from one of the starts `C`. -/
def Stems (C : String → TransactionOptions → Prop) (value : SerializedTransaction) : Prop :=
  value.steps ≠ [] → ∃ t options, C t options ∧ value.transactionId = some t ∧
    value.payload = options.payload ∧ value.steps.map TransactionStep.declared = options.steps

theorem Transition.payload {r r' : DistributedTransaction} (h : Transition r r') :
    r'.payload = r.payload := by
  cases h <;> rfl

theorem Stems.transition {C : String → TransactionOptions → Prop} {r r' : DistributedTransaction}
    (h : Stems C r.serialize) (ht : Transition r r') : Stems C r'.serialize := by
  intro hne
  have hdeclared := ht.declared
  have hne' : r.steps ≠ [] := by
    intro hnil
    rw [hnil, List.map_nil, List.map_eq_nil_iff] at hdeclared
    exact hne hdeclared
  obtain ⟨t, options, hC, hid, hpayload, hsteps⟩ := h hne'
  refine ⟨t, options, hC, ?_, ht.payload.trans hpayload, hdeclared.trans hsteps⟩
  rw [← hid]
  exact congrArg some ht.transactionId

/-- The law that records with steps stem from one of the starts `C`. -/
def Law.stemming (C : String → TransactionOptions → Prop) : Law where
  holds key content := Law.keyedOnly.holds key content ∧
    ∀ value, content = some value → Stems C value
  keyed h := Law.keyedOnly.keyed h.1
  enacted := by
    rintro key r r' ⟨hk, h⟩ he
    refine ⟨Law.keyedOnly.enacted hk he, ?_⟩
    rintro _ ⟨⟩
    exact (h _ rfl).transition he.transition
  invented := by
    rintro key content value ⟨hk, _⟩ hn hi
    refine ⟨Law.keyedOnly.invented hk hn hi, ?_⟩
    rintro _ ⟨⟩ hne
    exact absurd hi.steps hne
  mention r := Stems C r.serialize
  mentioned h := h.2 _ rfl

theorem stems_newTransaction {C : String → TransactionOptions → Prop} {t : String}
    {options : TransactionOptions} (hC : C t options) (date : Date) :
    Stems C (newTransaction options t date).serialize := by
  intro _
  refine ⟨t, options, hC, rfl, rfl, ?_⟩
  simp [DistributedTransaction.serialize, newTransaction, TransactionStep.declared,
    Function.comp_def]

section Runs

variable {policy : Cluster.Policy} {s : Cluster} {C : String → TransactionOptions → Prop}

/-- All records of a run stem from the starts of the run. -/
theorem stemming_reachable (h : Cluster.Reachable policy s)
    (hC : ∀ t options, .created t options ∈ s.world.history → C t options) :
    Lawful (Law.stemming C) s ∧ Reported (Law.stemming C) s := by
  induction h with
  | refl => exact ⟨.initial fun key => ⟨nofun, nofun⟩, .initial⟩
  | tail hr hst ih =>
    obtain ⟨label, -, hf⟩ := hst
    obtain ⟨added, hh, -⟩ := Cluster.history_fire hf
    obtain ⟨hl, hrep⟩ := ih fun t options hmem =>
      hC t options (hh ▸ List.mem_append_left _ hmem)
    refine ⟨hl.fire hf Facts.cover_any ?_, hrep.fire hl hf⟩
    rintro options t date rfl
    refine ⟨fun _ hv => by cases hv; exact wellKeyed_serialize _, ?_⟩
    rintro _ ⟨⟩
    exact stems_newTransaction (hC t options (Cluster.created_start hf)) date

/-- The topics on which a coordinator publishes besides those of the steps. -/
def announcedTopics : List Subjects :=
  [.TRANSACTION_COMPLETED, .TRANSACTION_COMPENSATION_START, .TRANSACTION_COMPENSATION_COMPLETED,
    .TRANSACTION_USER_NOTIFICATION, .TRANSACTION_TIMEOUT]

/-- What is published on the topic of a step commands it for a transaction that was started with
such a step: forward, or wrapped for compensation. -/
theorem command_origin (h : Cluster.Reachable policy s) {p : Publication}
    (hp : .published p ∈ s.world.history) {subject : Subjects} (hs : subject ∉ announcedTopics)
    (ht : p.event.topicName = subject.value) :
    ∃ t options, .created t options ∈ s.world.history ∧
      subject.value ∈ options.steps.map Prod.fst ∧
      ((p.publisher = .handleProgressTransaction ∧
          transactionKey p.transactionId = transactionKey (some t) ∧
          p.event = stepCommand t options.payload subject.value) ∨
        (p.publisher = .handleCompensationStep ∧ p.transactionId = some t ∧
          p.event = wrappedCommand t options.payload subject.value)) := by
  have hstep : ∀ (r : DistributedTransaction) (step : TransactionStep),
      Stems (fun t options => .created t options ∈ s.world.history) r.serialize →
      step ∈ r.steps → step.name = subject.value →
      ∃ options, .created r.transactionId options ∈ s.world.history ∧
        r.payload = options.payload ∧ subject.value ∈ options.steps.map Prod.fst := by
    intro r step hr hmem hname
    obtain ⟨t, options, hC, hid, hpayload, hsteps⟩ := hr (List.ne_nil_of_mem hmem)
    cases hid
    refine ⟨options, hC, hpayload, ?_⟩
    rw [← hsteps, List.map_map, ← hname]
    exact List.mem_map_of_mem (f := Prod.fst ∘ TransactionStep.declared) hmem
  have hne : ∀ other ∈ announcedTopics, other.value ≠ subject.value := by
    intro other hother heq
    exact hs (Subjects.value_injective heq ▸ hother)
  rcases (stemming_reachable h fun _ _ hmem => hmem).2 p hp with ⟨r, id, hr, hid, ha, -⟩ |
    ⟨r, hr, hm, -⟩
  · cases ha with
    | command step _ hget =>
      obtain ⟨options, hC, hpayload, hmem⟩ :=
        hstep r step (hr.2 _ rfl) (List.mem_of_getElem? hget) ht
      refine ⟨r.transactionId, options, hC, hmem, .inl ⟨rfl, ?_, ?_⟩⟩
      · exact ((Law.stemming _).key_eq hr).symm
      · rw [forwardCommand_eq, hpayload, ← ht]
        rfl
    | completed => exact absurd ht (hne .TRANSACTION_COMPLETED (by decide))
    | compensationStart step _ =>
      exact absurd ht (hne .TRANSACTION_COMPENSATION_START (by decide))
    | compensated processType =>
      exact absurd ht (hne .TRANSACTION_COMPENSATION_COMPLETED (by decide))
    | notification errorMessage type date =>
      exact absurd ht (hne .TRANSACTION_USER_NOTIFICATION (by decide))
  · cases hm with
    | compensation step hmem =>
      have hmem : step ∈ r.steps :=
        List.mem_of_mem_take (List.mem_filter.mp (List.mem_reverse.mp hmem)).1
      obtain ⟨options, hC, hpayload, hname⟩ := hstep r step hr hmem ht
      refine ⟨r.transactionId, options, hC, hname, .inr ⟨rfl, rfl, ?_⟩⟩
      rw [compensationCommand_eq, hpayload, ← ht]
      rfl
    | timeout =>
      exact absurd ht (hne .TRANSACTION_TIMEOUT (by decide))

end Runs

/-! ## Coordinators that start nothing -/

/-- No transaction is started here. -/
def passivePolicy : Cluster.Policy := fun _ label =>
  match label with
  | .start .. => false
  | _ => true

theorem passive_not_created {policy : Cluster.Policy}
    (hp : ∀ s label, policy s label = true → passivePolicy s label = true) {s : Cluster}
    (h : Cluster.Reachable policy s) (t : String) (options : TransactionOptions) :
    .created t options ∉ s.world.history := by
  induction h with
  | refl => exact List.not_mem_nil
  | tail _ hst ih =>
    obtain ⟨label, hl, hf⟩ := hst
    obtain ⟨added, hh, ha⟩ := Cluster.history_fire hf
    rw [hh, List.mem_append]
    rintro (hmem | hmem)
    · exact ih hmem
    · obtain ⟨date, rfl⟩ := (ha _ hmem).of_created
      cases hp _ _ hl

end InvoiceHub.Transaction
