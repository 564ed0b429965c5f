import InvoiceHub.Transaction.OwnMessages
import InvoiceHub.Transaction.Origin

/-!
# What records and announcements presuppose

However handlers overlap, a compensated record presupposes that a compensation was announced, a
transaction that has advanced presupposes a report of its first step, and each announcement
presupposes the event that its method answers.  One handler has to be watched: that of
`TRANSACTION_COMPLETED` compensates whatever it does not find completed.
-/

namespace InvoiceHub.Transaction

open Effects

/-- What `TRANSACTION_COMPLETED` finds is completed, or has no steps. -/
def Fulfilled (content : Option SerializedTransaction) : Bool :=
  content.all fun value => value.steps.isEmpty || decide (value.status = .COMPLETED)

/-- Transactions have steps, and where `TRANSACTION_COMPLETED` arrives they are completed. -/
def fulfilledPolicy : Cluster.Policy := fun s label =>
  match label with
  | .start options _ _ => !options.steps.isEmpty
  | .advance j _ =>
    match s.tasks[j]? with
    | some ⟨.handler _ .TRANSACTION_COMPLETED _, .call (.get key) _ _⟩ =>
      Fulfilled (s.world.redis.lookup key)
    | _ => true
  | _ => true

/-- The facts of such a run in which no more happens than `happened`. -/
def Facts.fulfilled (happened : Entry → Prop) : Facts where
  happened := happened
  found subject content := subject = .TRANSACTION_COMPLETED → Fulfilled content = true

/-- The record under `key` has the causes it presupposes. -/
structure Founded (F : Facts) (key : String) (value : SerializedTransaction) : Prop where
  keyed : transactionKey value.transactionId = key
  compensated : value.status = .COMPENSATING ∨ value.status = .COMPENSATED →
    ∃ event, F.Arrived .TRANSACTION_COMPENSATION_START event key ∨
      F.Arrived .TRANSACTION_COMPENSATION_COMPLETED event key
  advanced : 0 < value.currentStep → ∃ event step, value.steps[0]? = some step ∧
    F.Arrived .TRANSACTION_STEP_COMPLETED event key ∧ event.stepName = some step.name
  invented : value.steps = [] → value.status = .COMPLETED ∨ value.status = .COMPENSATING ∨
    value.status = .COMPENSATED

namespace Founded

variable {F : Facts} {key : String} {r r' : DistributedTransaction}

/-- A transition that neither advances nor compensates. -/
theorem of_declared (h : Founded F key r.serialize) (ht : Transition r r')
    (hc : r'.currentStep = r.currentStep)
    (hs : r'.status = .COMPENSATING ∨ r'.status = .COMPENSATED →
      ∃ event, F.Arrived .TRANSACTION_COMPENSATION_START event key ∨
        F.Arrived .TRANSACTION_COMPENSATION_COMPLETED event key)
    (hi : r'.steps = [] → r'.status = .COMPLETED ∨ r'.status = .COMPENSATING ∨
      r'.status = .COMPENSATED) : Founded F key r'.serialize where
  keyed := by
    rw [← h.keyed]
    exact congrArg (fun id => transactionKey (some id)) ht.transactionId
  compensated := hs
  advanced := by
    intro hlt
    obtain ⟨event, step, hstep, ha, hname⟩ := h.advanced (show 0 < r.currentStep from hc ▸ hlt)
    have hdeclared := congrArg (·[0]?) ht.declared
    simp only [List.getElem?_map] at hdeclared
    rw [show r.steps[0]? = some step from hstep, Option.map_some] at hdeclared
    obtain ⟨step', hstep', heq⟩ := Option.map_eq_some_iff.mp hdeclared
    refine ⟨event, step', hstep', ha, ?_⟩
    rw [hname]
    exact congrArg (fun d => some d.1) heq.symm
  invented := hi

theorem ne_nil_of_getElem? {steps : List TransactionStep} {i : Nat} {step : TransactionStep}
    (h : steps[i]? = some step) : steps ≠ [] := by
  rintro rfl
  cases h

theorem completeStep (h : Founded F key r.serialize) {event : TransactionEvent}
    {step : TransactionStep} (hstep : r.steps[r.currentStep]? = some step)
    (ha : F.Arrived .TRANSACTION_STEP_COMPLETED event key)
    (hname : event.stepName = some step.name) (date : Date) :
    Founded F key (completeStep r step date).serialize where
  keyed := h.keyed
  compensated := h.compensated
  advanced := by
    intro _
    by_cases h0 : r.currentStep = 0
    · rw [h0] at hstep
      obtain ⟨hlt, -⟩ := List.getElem?_eq_some_iff.mp hstep
      refine ⟨event, { step with status := .COMPLETED, completedAt := some date }, ?_, ha, hname⟩
      simp only [DistributedTransaction.serialize, Transaction.completeStep, h0]
      rw [List.getElem?_set_self hlt]
    · obtain ⟨event', step', hstep', ha', hname'⟩ :=
        h.advanced (show 0 < r.currentStep from Nat.pos_of_ne_zero h0)
      refine ⟨event', step', ?_, ha', hname'⟩
      simp only [DistributedTransaction.serialize, Transaction.completeStep]
      rw [List.getElem?_set_ne h0]
      exact hstep'
  invented := by
    intro hnil
    have hset : r.steps.set r.currentStep
        { step with status := .COMPLETED, completedAt := some date } = [] := hnil
    rw [List.set_eq_nil_iff] at hset
    exact absurd hset (ne_nil_of_getElem? hstep)

/-- Whatever a handler makes of a record has its causes. -/
theorem enacted {happened : Entry → Prop} (h : Founded (.fulfilled happened) key r.serialize)
    (he : Enacts (.fulfilled happened) key r r') :
    Founded (.fulfilled happened) key r'.serialize := by
  have hsame : ∀ {steps : List TransactionStep}, steps.map TransactionStep.declared =
      r.steps.map TransactionStep.declared → steps = [] → r.steps = [] := by
    rintro _ hd rfl
    exact List.map_eq_nil_iff.mp hd.symm
  have hsteps : r'.steps = [] → r.steps = [] := hsame he.transition.declared
  cases he with
  | completeStep step date ha hname hstep => exact h.completeStep hstep ha hname date
  | failStep step error ha hstep =>
    refine h.of_declared (.failStep step error hstep) rfl ?_ fun hnil => ?_
    · rintro (hs | hs) <;> cases hs
    · exact absurd (hsteps hnil) (ne_nil_of_getElem? hstep)
  | beginStep step date hact hstep =>
    refine h.of_declared (.beginStep step date hact hstep) rfl ?_ fun hnil => ?_
    · rintro (hs | hs) <;> cases hs
    · exact absurd (hsteps hnil) (ne_nil_of_getElem? hstep)
  | complete date =>
    refine h.of_declared (.complete date) rfl ?_ fun _ => .inl rfl
    rintro (hs | hs) <;> cases hs
  | closeCompensated date ha =>
    exact h.of_declared (.compensated date) rfl (fun _ => ⟨_, .inr ha⟩) fun _ => .inr (.inr rfl)
  | closeCompleted date ha hfound hs =>
    refine h.of_declared (.compensated date) rfl (fun _ => h.compensated ?_) fun _ =>
      .inr (.inr rfl)
    -- a record with steps would have been found completed
    have hf := hfound rfl
    simp only [Fulfilled, Option.all_some, Bool.or_eq_true, List.isEmpty_iff,
      decide_eq_true_eq] at hf
    exact (h.invented (hf.resolve_right hs)).resolve_left hs
  | timeOut ha hs =>
    refine h.of_declared (.timeOut hs) rfl ?_ fun hnil => ?_
    · rintro (hs | hs) <;> cases hs
    · rcases h.invented hnil with hst | hst | hst
      · exact absurd (hs.symm.trans hst) (by decide)
      · exact absurd (hs.symm.trans hst) (by decide)
      · exact absurd (hs.symm.trans hst) (by decide)
  | beginCompensation ha =>
    exact h.of_declared .beginCompensation rfl (fun _ => ⟨_, .inl ha⟩) fun _ => .inr (.inl rfl)
  | compensate date ha =>
    exact h.of_declared (.compensate date) rfl (fun _ => ⟨_, .inl ha⟩) fun _ => .inr (.inr rfl)

theorem invents {value : SerializedTransaction} (hi : Invents F key value) :
    Founded F key value := by
  cases hi with
  | compensating clientId p startedAt ha =>
    exact ⟨ha.key, fun _ => ⟨_, .inl ha⟩, fun hlt => absurd hlt (Nat.lt_irrefl 0),
      fun _ => .inr (.inl rfl)⟩
  | compensated clientId p startedAt completedAt ha =>
    exact ⟨ha.key, fun _ => ⟨_, .inr ha⟩, fun hlt => absurd hlt (Nat.lt_irrefl 0),
      fun _ => .inr (.inr rfl)⟩
  | completed clientId p startedAt completedAt ha =>
    refine ⟨ha.key, ?_, fun hlt => absurd hlt (Nat.lt_irrefl 0), fun _ => .inl rfl⟩
    rintro (hs | hs) <;> cases hs

theorem newTransaction {options : TransactionOptions} (hne : options.steps ≠ []) (t : String)
    (date : Date) :
    Founded F (transactionKey (some t)) (newTransaction options t date).serialize := by
  refine ⟨rfl, ?_, fun hlt => absurd hlt (Nat.lt_irrefl 0), fun hnil => ?_⟩
  · rintro (hs | hs) <;> cases hs
  · exact absurd (List.map_eq_nil_iff.mp hnil) hne

end Founded

/-! ## The law of causes -/

theorem Enacts.any {F : Facts} {key : String} {r r' : DistributedTransaction}
    (h : Enacts F key r r') : Enacts .any key r r' := by
  cases h with
  | completeStep step date ha hname hstep =>
    exact .completeStep step date ⟨trivial, ha.key⟩ hname hstep
  | failStep step error ha hstep => exact .failStep step error ⟨trivial, ha.key⟩ hstep
  | beginStep step date hact hstep => exact .beginStep step date hact hstep
  | complete date => exact .complete date
  | closeCompensated date ha => exact .closeCompensated date ⟨trivial, ha.key⟩
  | closeCompleted date ha _ hs => exact .closeCompleted date ⟨trivial, ha.key⟩ trivial hs
  | timeOut ha hs => exact .timeOut ⟨trivial, ha.key⟩ hs
  | beginCompensation ha => exact .beginCompensation ⟨trivial, ha.key⟩
  | compensate date ha => exact .compensate date ⟨trivial, ha.key⟩

theorem Invents.any {F : Facts} {key : String} {value : SerializedTransaction}
    (h : Invents F key value) : Invents .any key value := by
  cases h with
  | compensating clientId p startedAt ha =>
    exact .compensating clientId p startedAt ⟨trivial, ha.key⟩
  | compensated clientId p startedAt completedAt ha =>
    exact .compensated clientId p startedAt completedAt ⟨trivial, ha.key⟩
  | completed clientId p startedAt completedAt ha =>
    exact .completed clientId p startedAt completedAt ⟨trivial, ha.key⟩

/-- The law of the runs in which no more happens than `happened`. -/
def Law.heard (happened : Entry → Prop) : Law where
  facts := ⟨happened, fun _ _ => True⟩
  holds := Law.keyedOnly.holds
  keyed h := Law.keyedOnly.keyed h
  enacted hk he := Law.keyedOnly.enacted hk he.any
  invented hk hn hi := Law.keyedOnly.invented hk hn hi.any
  mention _ := True
  mentioned _ := trivial

/-- The starts among what has happened. -/
def Starts (happened : Entry → Prop) (t : String) (options : TransactionOptions) : Prop :=
  happened (.created t options)

/-- The law that records stem from starts and have the causes they presuppose. -/
def Law.founded (happened : Entry → Prop) : Law where
  facts := .fulfilled happened
  holds key content := (Law.stemming (Starts happened)).holds key content ∧
    ∀ value, content = some value → Founded (.fulfilled happened) key value
  keyed h := (Law.stemming (Starts happened)).keyed h.1
  enacted := by
    rintro key r r' ⟨hk, h⟩ he
    refine ⟨(Law.stemming (Starts happened)).enacted hk he.any, ?_⟩
    rintro _ ⟨⟩
    exact (h _ rfl).enacted he
  invented := by
    rintro key content value ⟨hk, -⟩ hn hi
    refine ⟨(Law.stemming (Starts happened)).invented hk hn hi.any, ?_⟩
    rintro _ ⟨⟩
    exact .invents hi
  mention r := Stems (Starts happened) r.serialize ∧
    Founded (.fulfilled happened) (transactionKey (some r.transactionId)) r.serialize
  mentioned := by
    rintro key r ⟨hk, h⟩
    refine ⟨hk.2 _ rfl, ?_⟩
    rw [(Law.stemming (Starts happened)).key_eq hk]
    exact h _ rfl

/-- The steps of such runs are those the facts are about. -/
theorem fulfilled_cover {policy : Cluster.Policy}
    (hp : ∀ s label, policy s label = true → fulfilledPolicy s label = true)
    {s s' : Cluster} {label : Cluster.Label} (hl : policy s label = true)
    {happened : Entry → Prop} (hh : ∀ entry ∈ s'.world.history, happened entry) :
    (Facts.fulfilled happened).Cover s label s' where
  happened := hh
  found := by
    rintro j date activity key ok err rfl hj
    cases activity with
    | handler clientId subject event =>
      rintro rfl
      have hfound := hp _ _ hl
      simp only [fulfilledPolicy, hj] at hfound
      exact hfound
    | _ => trivial

section Runs

variable {policy : Cluster.Policy} {s : Cluster}

theorem founded_newTransaction {happened : Entry → Prop} {t : String}
    {options : TransactionOptions} (hne : options.steps ≠ []) (hC : happened (.created t options))
    (date : Date) : (Law.founded happened).holds (transactionKey (some t))
      (some (newTransaction options t date).serialize) := by
  refine ⟨⟨fun _ hv => by cases hv; exact wellKeyed_serialize _, ?_⟩, ?_⟩
  · rintro _ ⟨⟩
    exact stems_newTransaction hC date
  · rintro _ ⟨⟩
    exact .newTransaction hne t date

theorem founded_reachable
    (hp : ∀ s label, policy s label = true → fulfilledPolicy s label = true)
    (h : Cluster.Reachable policy s) {happened : Entry → Prop}
    (hh : ∀ entry ∈ s.world.history, happened entry) :
    Lawful (Law.founded happened) s ∧ Reported (Law.founded happened) s ∧
      Recorded (Law.founded happened) s := by
  induction h with
  | refl => exact ⟨.initial fun key => ⟨⟨nofun, nofun⟩, nofun⟩, .initial, .initial⟩
  | tail hr hst ih =>
    obtain ⟨label, hl, hf⟩ := hst
    obtain ⟨added, hhist, -⟩ := Cluster.history_fire hf
    obtain ⟨hlawful, hreported, hrecorded⟩ := ih fun entry hmem =>
      hh entry (hhist ▸ List.mem_append_left _ hmem)
    have hstart : ∀ options t date, label = .start options t date →
        (Law.founded happened).holds (transactionKey (some t))
          (some (newTransaction options t date).serialize) := by
      rintro options t date rfl
      have hne : options.steps ≠ [] := by
        simpa [fulfilledPolicy] using hp _ _ hl
      exact founded_newTransaction hne (hh _ (Cluster.created_start hf)) date
    exact ⟨hlawful.fire hf (fulfilled_cover hp hl hh) hstart, hreported.fire hlawful hf,
      hrecorded.fire hlawful hf hstart⟩

/-- What a method has published presupposes the event that it answers. -/
theorem grounded_of_reported {L : Law} (h : Reported L s) {p : Publication}
    (hp : .published p ∈ s.world.history) :
    Grounded L.facts (transactionKey p.transactionId) p.publisher := by
  rcases h p hp with ⟨_, _, _, _, _, hg⟩ | ⟨_, _, _, hg⟩
  · exact hg
  · exact hg

theorem heard_reachable (h : Cluster.Reachable policy s) {happened : Entry → Prop}
    (hh : ∀ entry ∈ s.world.history, happened entry) :
    Lawful (Law.heard happened) s ∧ Reported (Law.heard happened) s := by
  induction h with
  | refl => exact ⟨.initial fun key => nofun, .initial⟩
  | tail hr hst ih =>
    obtain ⟨label, -, hf⟩ := hst
    obtain ⟨added, hhist, -⟩ := Cluster.history_fire hf
    obtain ⟨hlawful, hreported⟩ := ih fun entry hmem => hh entry (hhist ▸ List.mem_append_left _ hmem)
    refine ⟨hlawful.fire hf ⟨hh, ?_⟩ ?_, hreported.fire hlawful hf⟩
    · intro j date activity key ok err _ _
      cases activity <;> trivial
    · rintro options t date - _ ⟨⟩
      exact wellKeyed_serialize _

/-- In every run a publication presupposes the event that its method answers. -/
theorem grounded_reachable (h : Cluster.Reachable policy s) {p : Publication}
    (hp : .published p ∈ s.world.history) :
    Grounded ⟨(· ∈ s.world.history), fun _ _ => True⟩ (transactionKey p.transactionId)
      p.publisher :=
  grounded_of_reported (heard_reachable h fun _ hmem => hmem).2 hp

/-- A later command than that of the first step, and every compensation command, presupposes a
report of the first step. -/
theorem command_cause (hp : ∀ s label, policy s label = true → fulfilledPolicy s label = true)
    (h : Cluster.Reachable policy s) {p : Publication} (hmem : .published p ∈ s.world.history)
    (hpub : p.publisher = .handleProgressTransaction ∨ p.publisher = .handleCompensationStep) :
    ∃ t options first, .created t options ∈ s.world.history ∧
      transactionKey p.transactionId = transactionKey (some t) ∧ options.steps[0]? = some first ∧
      ((p.publisher = .handleProgressTransaction ∧ p.event.topicName = first.1) ∨
        ∃ event, .received .TRANSACTION_STEP_COMPLETED event ∈ s.world.history ∧
          transactionKey event.transactionId = transactionKey (some t) ∧
          event.stepName = some first.1) := by
  have hadvanced : ∀ (r : DistributedTransaction) (i : Nat) (step : TransactionStep),
      Stems (Starts (· ∈ s.world.history)) r.serialize →
      Founded (.fulfilled (· ∈ s.world.history)) (transactionKey (some r.transactionId))
        r.serialize → r.steps[i]? = some step →
      ∃ options first, .created r.transactionId options ∈ s.world.history ∧
        options.steps[0]? = some first ∧ (i = 0 → first.1 = step.name) ∧
        (0 < r.currentStep →
          ∃ event, .received .TRANSACTION_STEP_COMPLETED event ∈ s.world.history ∧
            transactionKey event.transactionId = transactionKey (some r.transactionId) ∧
            event.stepName = some first.1) := by
    intro r i step hs hf hstep
    obtain ⟨t, options, hC, hid, -, hsteps⟩ := hs (Founded.ne_nil_of_getElem? hstep)
    cases hid
    obtain ⟨first, hfirst⟩ : ∃ first, r.steps[0]? = some first := by
      cases hc : r.steps with
      | nil => exact absurd hc (Founded.ne_nil_of_getElem? hstep)
      | cons first rest => exact ⟨first, rfl⟩
    have hdeclared : options.steps[0]? = some first.declared := by
      rw [← hsteps, List.getElem?_map]
      exact congrArg (Option.map _) hfirst
    refine ⟨options, first.declared, hC, hdeclared, ?_, fun hlt => ?_⟩
    · rintro rfl
      cases hfirst.symm.trans hstep
      rfl
    · obtain ⟨event, step', hstep', ha, hname⟩ := hf.advanced hlt
      cases hfirst.symm.trans hstep'
      exact ⟨event, ha.received, ha.key, hname⟩
  rcases (founded_reachable hp h fun _ hmem => hmem).2.1 p hmem with
    ⟨r, id, hr, hid, ha, -⟩ | ⟨r, hr, hm, -⟩
  · have hkey := (Law.founded _).key_eq hr
    cases ha with
    | command step _ hget =>
      obtain ⟨options, first, hC, hfirst, hname, hcause⟩ :=
        hadvanced r _ step (hr.1.2 _ rfl) (hkey ▸ hr.2 _ rfl) hget
      refine ⟨r.transactionId, options, first, hC, hkey.symm, hfirst, ?_⟩
      rcases Nat.eq_zero_or_pos r.currentStep with h0 | hlt
      · exact .inl ⟨rfl, (hname h0).symm⟩
      · exact .inr (hcause hlt)
    | _ => rcases hpub with hpub | hpub <;> cases hpub
  · cases hm with
    | compensation step hstep =>
      have hmem := (List.mem_filter.mp (List.mem_reverse.mp hstep)).1
      obtain ⟨i, hi⟩ := List.mem_iff_getElem?.mp hmem
      have hlt : 0 < r.currentStep := by
        rw [List.getElem?_take] at hi
        split at hi
        · omega
        · cases hi
      obtain ⟨options, first, hC, hfirst, -, hcause⟩ :=
        hadvanced r i step hr.1 hr.2 (by
          rw [List.getElem?_take] at hi
          split at hi
          · exact hi
          · cases hi)
      exact ⟨r.transactionId, options, first, hC, rfl, hfirst, .inr (hcause hlt)⟩
    | timeout => rcases hpub with hpub | hpub <;> cases hpub

end Runs

end InvoiceHub.Transaction
