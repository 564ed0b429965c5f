import InvoiceHub.Effects.Trace
import InvoiceHub.Transaction.Causes

/-!
# Commands presuppose reports

Whatever happens to a coordinator, it commands a step only after each step before it was reported
completed, and compensates one only after that step was reported too.  Records may be lost at any
moment: Redis drops what was stored for a transaction when its `ttl` is over.
-/

namespace InvoiceHub.Transaction

open Effects

/-! ## Runs in which records expire -/

namespace Expiring

/-- A step of a run. -/
inductive Label where
  /-- A step of the cluster. -/
  | step (label : Cluster.Label)
  /-- What is stored under a key is dropped. -/
  | expire (key : String)

/-- The record under a key is gone. -/
def expire (s : Cluster) (key : String) : Cluster :=
  { s with world := { s.world with redis := s.world.redis.erase key } }

/-- What a label does where it is enabled. -/
def fire (s : Cluster) : Label → Option Cluster
  | .step label => s.fire label
  | .expire key => some (expire s key)

/-- The cluster whose records expire. -/
def machine : Machine Cluster Label := ⟨Cluster.initial, fire⟩

/-- The states of all such runs. -/
abbrev Reachable : Cluster → Prop := machine.Reachable fun _ _ => true

/-- Records need not expire. -/
theorem of_cluster {policy : Cluster.Policy} {s : Cluster} (h : Cluster.Reachable policy s) :
    Reachable s := by
  induction h with
  | refl => exact .refl
  | tail _ hst ih =>
    obtain ⟨label, -, hf⟩ := hst
    exact ih.tail ⟨.step label, rfl, hf⟩

end Expiring

/-- Nothing under a key is as good as any record. -/
theorem Lawful.expire {L : Law} {s : Cluster} (h : Lawful L s) (hn : ∀ key, L.holds key none)
    (key : String) : Lawful L (Expiring.expire s key) where
  stored := by
    intro k
    by_cases hk : k = key
    · subst hk
      have hnone : (Expiring.expire s k).world.redis.lookup k = none := AList.lookup_erase _ _
      rw [hnone]
      exact hn k
    · have hkept : (Expiring.expire s key).world.redis.lookup k = s.world.redis.lookup k :=
        AList.lookup_erase_ne hk
      rw [hkept]
      exact h.stored k
  tasks := h.tasks

/-! ## The law of reports -/

/-- Each step below the current one was reported completed. -/
def Followed (happened : Entry → Prop) (key : String) (value : SerializedTransaction) : Prop :=
  ∀ i < value.currentStep, ∀ step, value.steps[i]? = some step →
    ∃ event, happened (.received .TRANSACTION_STEP_COMPLETED event) ∧
      transactionKey event.transactionId = key ∧ event.stepName = some step.name

namespace Followed

variable {happened : Entry → Prop} {key : String} {r r' : DistributedTransaction}

/-- A transition that does not advance. -/
theorem of_declared (h : Followed happened key r.serialize) (ht : Transition r r')
    (hc : r'.currentStep = r.currentStep) : Followed happened key r'.serialize := by
  intro i hlt step hstep
  have hdeclared := congrArg (·[i]?) ht.declared
  simp only [List.getElem?_map] at hdeclared
  rw [show r'.steps[i]? = some step from hstep, Option.map_some] at hdeclared
  obtain ⟨before, hbefore, heq⟩ := Option.map_eq_some_iff.mp hdeclared.symm
  obtain ⟨event, hevent, hkey, hname⟩ :=
    h i (show i < r.currentStep from hc ▸ hlt) before hbefore
  exact ⟨event, hevent, hkey, hname.trans (congrArg (fun d => some d.1) heq)⟩

/-- The current step is completed when it is reported. -/
theorem completeStep (h : Followed happened key r.serialize) {event : TransactionEvent}
    {step : TransactionStep} (hstep : r.steps[r.currentStep]? = some step)
    (hevent : happened (.received .TRANSACTION_STEP_COMPLETED event))
    (hkey : transactionKey event.transactionId = key) (hname : event.stepName = some step.name)
    (date : Date) : Followed happened key (completeStep r step date).serialize := by
  intro i hlt other hother
  have hle : i ≤ r.currentStep := Nat.le_of_lt_succ hlt
  have hset : (r.steps.set r.currentStep
      { step with status := .COMPLETED, completedAt := some date })[i]? = some other := hother
  rcases Nat.lt_or_eq_of_le hle with hlt | rfl
  · rw [List.getElem?_set_ne (Nat.ne_of_gt hlt)] at hset
    exact h i hlt other hset
  · obtain ⟨hlen, -⟩ := List.getElem?_eq_some_iff.mp hstep
    rw [List.getElem?_set_self hlen] at hset
    cases hset
    exact ⟨event, hevent, hkey, hname⟩

theorem enacted {F : Facts} (h : Followed F.happened key r.serialize)
    (he : Enacts F key r r') : Followed F.happened key r'.serialize := by
  cases he with
  | completeStep step date ha hname hstep =>
    exact h.completeStep hstep ha.received ha.key hname date
  | failStep step error _ hstep => exact h.of_declared (.failStep step error hstep) rfl
  | beginStep step date hact hstep => exact h.of_declared (.beginStep step date hact hstep) rfl
  | complete date => exact h.of_declared (.complete date) rfl
  | closeCompensated date _ => exact h.of_declared (.compensated date) rfl
  | closeCompleted date _ _ _ => exact h.of_declared (.compensated date) rfl
  | timeOut _ hs => exact h.of_declared (.timeOut hs) rfl
  | beginCompensation _ => exact h.of_declared .beginCompensation rfl
  | compensate date _ => exact h.of_declared (.compensate date) rfl

/-- A record without completed steps needs no report. -/
theorem of_zero {value : SerializedTransaction} (h : value.currentStep = 0) :
    Followed happened key value := by
  intro i hlt
  rw [h] at hlt
  exact absurd hlt (Nat.not_lt_zero i)

end Followed

/-- The law that records stem from starts and that whatever is completed was reported. -/
def Law.followed (happened : Entry → Prop) : Law where
  facts := ⟨happened, fun _ _ => True⟩
  holds key content := (Law.stemming (Starts happened)).holds key content ∧
    ∀ value, content = some value → Followed happened key value
  keyed h := (Law.stemming (Starts happened)).keyed h.1
  enacted := by
    rintro key r r' ⟨hk, h⟩ he
    refine ⟨(Law.stemming (Starts happened)).enacted hk he.any, ?_⟩
    rintro _ ⟨⟩
    exact (h _ rfl).enacted he
  invented := by
    rintro key content value ⟨hk, -⟩ hn hi
    refine ⟨(Law.stemming (Starts happened)).invented hk hn hi.any, ?_⟩
    rintro _ ⟨⟩
    exact .of_zero hi.currentStep
  mention r := Stems (Starts happened) r.serialize ∧
    Followed happened (transactionKey (some r.transactionId)) r.serialize
  mentioned := by
    rintro key r ⟨hk, h⟩
    refine ⟨hk.2 _ rfl, ?_⟩
    rw [(Law.stemming (Starts happened)).key_eq hk]
    exact h _ rfl

theorem followed_newTransaction {happened : Entry → Prop} {t : String}
    {options : TransactionOptions} (hC : happened (.created t options)) (date : Date) :
    (Law.followed happened).holds (transactionKey (some t))
      (some (newTransaction options t date).serialize) := by
  refine ⟨⟨fun _ hv => by cases hv; exact wellKeyed_serialize _, ?_⟩, ?_⟩
  · rintro _ ⟨⟩
    exact stems_newTransaction hC date
  · rintro _ ⟨⟩
    exact .of_zero rfl

/-- The law is kept however handlers overlap, and whatever expires. -/
theorem followed_reachable {s : Cluster} (h : Expiring.Reachable s) {happened : Entry → Prop}
    (hh : ∀ entry ∈ s.world.history, happened entry) :
    Lawful (Law.followed happened) s ∧ Reported (Law.followed happened) s := by
  have hnone : ∀ key, (Law.followed happened).holds key none := fun key => ⟨⟨nofun, nofun⟩, nofun⟩
  induction h with
  | refl => exact ⟨.initial hnone, .initial⟩
  | tail hr hst ih =>
    obtain ⟨label, -, hf⟩ := hst
    cases label with
    | step label =>
      obtain ⟨added, hhist, -⟩ := Cluster.history_fire hf
      obtain ⟨hlawful, hreported⟩ := ih fun entry hmem =>
        hh entry (hhist ▸ List.mem_append_left _ hmem)
      refine ⟨hlawful.fire hf ⟨hh, ?_⟩ ?_, hreported.fire hlawful hf⟩
      · intro j date activity key ok err _ _
        cases activity <;> trivial
      · rintro options t date rfl
        exact followed_newTransaction (hh _ (Cluster.created_start hf)) date
    | expire key =>
      cases hf
      obtain ⟨hlawful, hreported⟩ := ih hh
      exact ⟨hlawful.expire hnone key, hreported⟩

/-! ## Commands -/

/-- The first `n` steps of the transaction were reported completed. -/
def ReportedBelow (past : List Entry) (t : String) (steps : List (String × ClientIds)) (n : Nat) :
    Prop :=
  ∀ i < n, ∀ step, steps[i]? = some step →
    ∃ event, .received .TRANSACTION_STEP_COMPLETED event ∈ past ∧
      transactionKey event.transactionId = transactionKey (some t) ∧ event.stepName = some step.1

/-- A command is that of a step of a transaction that was started, and what came before that step
was reported; if it is to compensate the step, so was the step, and the compensation was
announced. -/
def Presupposes (past : List Entry) (p : Publication) : Prop :=
  p.publisher = .handleProgressTransaction ∨ p.publisher = .handleCompensationStep →
    ∃ t options i step, .created t options ∈ past ∧ options.steps[i]? = some step ∧
      transactionKey p.transactionId = transactionKey (some t) ∧
      ((p.publisher = .handleProgressTransaction ∧
          p.event = stepCommand t options.payload step.1 ∧
          ReportedBelow past t options.steps i) ∨
        (p.publisher = .handleCompensationStep ∧
          p.event = wrappedCommand t options.payload step.1 ∧
          ReportedBelow past t options.steps (i + 1) ∧
          ∃ event, .received .TRANSACTION_COMPENSATION_START event ∈ past ∧
            transactionKey event.transactionId = transactionKey (some t)))

/-- The steps that were declared are those of the record. -/
theorem ReportedBelow.of_followed {history : List Entry} {r : DistributedTransaction}
    {steps : List (String × ClientIds)} {n : Nat}
    (h : Followed (· ∈ history) (transactionKey (some r.transactionId)) r.serialize)
    (hd : r.steps.map TransactionStep.declared = steps) (hn : n ≤ r.currentStep) :
    ReportedBelow history r.transactionId steps n := by
  intro i hlt step hstep
  rw [← hd, List.getElem?_map] at hstep
  obtain ⟨declared, hget, rfl⟩ := Option.map_eq_some_iff.mp hstep
  exact h i (Nat.lt_of_lt_of_le hlt hn) declared hget

theorem presupposes_reachable {s : Cluster} (h : Expiring.Reachable s) {p : Publication}
    (hp : .published p ∈ s.world.history) : Presupposes s.world.history p := by
  intro hpub
  rcases (followed_reachable h fun _ hmem => hmem).2 p hp with ⟨r, id, hr, hid, ha, -⟩ |
    ⟨r, hr, hm, hg⟩
  · have hkey := (Law.followed _).key_eq hr
    cases ha with
    | command step _ hget =>
      obtain ⟨t, options, hC, ht, hpayload, hsteps⟩ :=
        hr.1.2 _ rfl (Founded.ne_nil_of_getElem? hget)
      cases ht
      have hdeclared : options.steps[r.currentStep]? = some step.declared := by
        rw [← hsteps, List.getElem?_map]
        exact congrArg (Option.map _) hget
      refine ⟨r.transactionId, options, r.currentStep, step.declared, hC, hdeclared, hkey.symm,
        .inl ⟨rfl, ?_, ?_⟩⟩
      · rw [forwardCommand_eq]
        exact congrArg (stepCommand _ · _) hpayload
      · exact .of_followed (hkey ▸ hr.2 _ rfl) hsteps (Nat.le_refl _)
    | _ => rcases hpub with hpub | hpub <;> cases hpub
  · cases hm with
    | compensation step hmem =>
      have htaken := (List.mem_filter.mp (List.mem_reverse.mp hmem)).1
      obtain ⟨i, hi⟩ := List.mem_iff_getElem?.mp htaken
      rw [List.getElem?_take] at hi
      split at hi
      · rename_i hlt
        obtain ⟨t, options, hC, ht, hpayload, hsteps⟩ :=
          hr.1 (Founded.ne_nil_of_getElem? hi)
        cases ht
        have hdeclared : options.steps[i]? = some step.declared := by
          rw [← hsteps, List.getElem?_map]
          exact congrArg (Option.map _) hi
        obtain ⟨event, hstarted⟩ := hg
        refine ⟨r.transactionId, options, i, step.declared, hC, hdeclared, rfl,
          .inr ⟨rfl, ?_, .of_followed hr.2 hsteps hlt, event, hstarted.received, hstarted.key⟩⟩
        rw [compensationCommand_eq]
        exact congrArg (wrappedCommand _ · _) hpayload
      · cases hi
    | timeout => rcases hpub with hpub | hpub <;> cases hpub

/-- What a publication presupposes came before it. -/
theorem Presupposes.of_concat {past : List Entry} {p : Publication}
    (h : Presupposes (past ++ [.published p]) p) : Presupposes past p := by
  have hpast : ∀ {entry : Entry}, entry ∈ past ++ [.published p] → entry ≠ .published p →
      entry ∈ past := by
    intro entry hmem hne
    rcases List.mem_append.mp hmem with hmem | hmem
    · exact hmem
    · exact absurd (List.mem_singleton.mp hmem) hne
  have hbelow : ∀ {t : String} {steps : List (String × ClientIds)} {n : Nat},
      ReportedBelow (past ++ [.published p]) t steps n → ReportedBelow past t steps n := by
    intro t steps n hr i hlt step hstep
    obtain ⟨event, hevent, hkey, hname⟩ := hr i hlt step hstep
    exact ⟨event, hpast hevent nofun, hkey, hname⟩
  intro hpub
  obtain ⟨t, options, i, step, hC, hstep, hkey, hcase⟩ := h hpub
  refine ⟨t, options, i, step, hpast hC nofun, hstep, hkey, ?_⟩
  rcases hcase with ⟨hpub, hevent, hr⟩ | ⟨hpub, hevent, hr, event, hstarted, hek⟩
  · exact .inl ⟨hpub, hevent, hbelow hr⟩
  · exact .inr ⟨hpub, hevent, hbelow hr, event, hpast hstarted nofun, hek⟩

/-- In every run, with any number of processes, whatever is delivered, fails, stops or expires:
commands come after what they presuppose. -/
theorem commands_presuppose {s : Cluster} (h : Expiring.Reachable s) :
    AtEach (fun past entry => ∀ p, entry = .published p → Presupposes past p)
      s.world.history := by
  induction h with
  | refl =>
    intro past entry rest he
    cases past <;> cases he
  | @tail s s' hr hst ih =>
    have hr' : Expiring.Reachable s' := hr.tail hst
    obtain ⟨label, -, hf⟩ := hst
    cases label with
    | expire key =>
      cases hf
      exact ih
    | step label =>
      cases label with
      | start options t date =>
        have hf : s.fire (.start options t date) = some s' := hf
        unfold Cluster.fire at hf
        dsimp only at hf
        split at hf
        · cases hf
          exact atEach_concat.mpr ⟨atEach_concat.mpr ⟨ih, nofun⟩, nofun⟩
        · cases hf
      | deliver clientId subject event =>
        cases hf
        exact atEach_concat.mpr ⟨ih, nofun⟩
      | checkTimeouts =>
        cases hf
        exact ih
      | advance j date =>
        obtain ⟨activity, op, ok, err, before, after, -, -, hw, -⟩ := Pool.advance_cases hf
        have hp := fun p => presupposes_reachable (p := p) hr'
        rw [hw] at hp ⊢
        cases op with
        | set key value => exact atEach_concat.mpr ⟨ih, nofun⟩
        | publish p =>
          refine atEach_concat.mpr ⟨ih, ?_⟩
          rintro _ ⟨⟩
          exact (hp p (List.mem_append_right _ (List.mem_singleton.mpr rfl))).of_concat
        | _ => exact ih
      | reject j =>
        obtain ⟨_, _, _, _, _, _, -, -, hw, -⟩ := Pool.reject_cases hf
        rw [hw]
        exact ih
      | abandon j =>
        obtain ⟨_, _, _, -, -, hw, -⟩ := Pool.abandon_cases hf
        rw [hw]
        exact ih

/-- Both steps of a transaction are commanded. -/
def bothCommanded : List Cluster.Label :=
  [.start { oneStep with steps := oneStep.steps ++
      [(Subjects.ORDER_APPROVAL_STEP_INVOICE_GENERATE.value, .INVOICE_SERVICE)] } "t" 0] ++
    List.replicate 4 (.advance 0 0) ++ [stepCompleted] ++ List.replicate 7 (.advance 0 0)

/-- Its record expires. -/
def expiredAfterCommands : List Expiring.Label :=
  bothCommanded.map Expiring.Label.step ++ [.expire (transactionKey (some "t"))]

theorem isSome_expiredAfterCommands :
    (Expiring.machine.run (fun _ _ => true) Cluster.initial expiredAfterCommands).isSome =
      true := by
  decide +kernel

theorem commands_presuppose_expiredAfterCommands :
    AtEach (fun past entry => ∀ p, entry = .published p → Presupposes past p)
      ((Expiring.machine.run (fun _ _ => true) Cluster.initial expiredAfterCommands).get
        isSome_expiredAfterCommands).world.history :=
  commands_presuppose (Machine.reachable_run _ isSome_expiredAfterCommands)

end InvoiceHub.Transaction
