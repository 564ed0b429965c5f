import InvoiceHub.Effects.Trace
import InvoiceHub.Transaction.Monotone
import InvoiceHub.Transaction.Shape
import InvoiceHub.Transaction.Lifecycle
import InvoiceHub.Transaction.Origin

/-!
# Forward commands follow the declared steps

A transaction commands its steps in the order in which they were declared, each once, each
after the step before it was reported completed, and none after the transaction has closed
(`commands_lifecycle`).  This needs that its handlers do not overlap and that no call fails; events may be arbitrary.
-/

namespace InvoiceHub.Transaction

open Effects

/-- A publication of `handleProgressTransaction`. -/
def isCommand (p : Publication) : Bool :=
  decide (p.publisher = .handleProgressTransaction)

/-- The messages that `handleProgressTransaction` has published. -/
def commands (history : List Entry) : List EventMessage :=
  history.filterMap fun
    | .published p => if isCommand p then some p.event else none
    | _ => none

/-- A command is published while everything written was open. -/
def Gated (past : List Entry) : Entry → Prop
  | .published p => isCommand p = true → ∀ v ∈ writes past, ¬Closed v.status
  | _ => True

/-- Step `k` was commanded and, after that, a `TRANSACTION_STEP_COMPLETED` that names it was
received. -/
def StepReported (steps : List (String × ClientIds)) (k : Nat) (history : List Entry) : Prop :=
  ∃ before q after event step, history = before ++ .published q :: after ∧
    isCommand q = true ∧ (commands before).length = k ∧ steps[k]? = some step ∧
    .received .TRANSACTION_STEP_COMPLETED event ∈ after ∧ event.stepName = some step.1

theorem StepReported.concat {steps : List (String × ClientIds)} {k : Nat} {history : List Entry}
    (h : StepReported steps k history) (entry : Entry) :
    StepReported steps k (history ++ [entry]) := by
  obtain ⟨before, q, after, event, step, rfl, hq, hk, hstep, hmem, hname⟩ := h
  exact ⟨before, q, after ++ [entry], event, step, by simp, hq, hk, hstep,
    List.mem_append_left _ hmem, hname⟩

/-- A command follows the report of the step before it. -/
def Caused (steps : List (String × ClientIds)) (past : List Entry) : Entry → Prop
  | .published p => isCommand p = true → ∀ k, (commands past).length = k + 1 →
    StepReported steps k past
  | _ => True

/-- The last command in a history. -/
theorem exists_last_command {history : List Entry} {k : Nat}
    (h : (commands history).length = k + 1) :
    ∃ before q after, history = before ++ .published q :: after ∧ isCommand q = true ∧
      (commands before).length = k := by
  induction history generalizing k with
  | nil => cases h
  | cons entry rest ih =>
    by_cases hcommand : ∃ q, entry = .published q ∧ isCommand q = true
    · obtain ⟨q, rfl, hq⟩ := hcommand
      cases k with
      | zero => exact ⟨[], q, rest, rfl, hq, rfl⟩
      | succ k =>
        have hrest : (commands rest).length = k + 1 := by
          simpa [commands, hq] using h
        obtain ⟨before, q', after, rfl, hq', hk⟩ := ih hrest
        exact ⟨.published q :: before, q', after, rfl, hq', by simpa [commands, hq] using hk⟩
    · have hnone : ∀ l, commands (entry :: l) = commands l := by
        intro l
        cases entry with
        | published q =>
          have hq : isCommand q = false := by
            simpa using fun hq => hcommand ⟨q, rfl, hq⟩
          simp [commands, hq]
        | _ => rfl
      rw [hnone] at h
      obtain ⟨before, q, after, rfl, hq, hk⟩ := ih h
      exact ⟨entry :: before, q, after, rfl, hq, by rw [hnone, hk]⟩

/-! ## The invariant -/

/-- The record `r` of a transaction whose first `m` steps have been commanded. -/
structure Commanded (t : String) (options : TransactionOptions) (m : Nat)
    (r : DistributedTransaction) (ℓ : View) : Prop where
  record : ℓ.record = some r.serialize
  transactionId : r.transactionId = t
  shape : Shape options r
  sequence : commands ℓ.history =
    (options.steps.take m).map fun step => stepCommand t options.payload step.1
  le : m ≤ options.steps.length
  gated : AtEach Gated ℓ.history
  caused : AtEach (Caused options.steps) ℓ.history
  opened : ¬Closed r.status → ∀ v ∈ writes ℓ.history, ¬Closed v.status

/-- A transaction that is progressed has commanded its current step. -/
def Awaiting (m : Nat) (r : DistributedTransaction) : Prop :=
  Active r → r.status = .IN_PROGRESS ∧ m = r.currentStep + 1

theorem awaiting_of_closed {m : Nat} {r : DistributedTransaction} (h : Closed r.status) :
    Awaiting m r := fun hact => absurd hact (closed_iff.mp h)

namespace Commanded

variable {t : String} {options : TransactionOptions} {m : Nat} {r r' : DistributedTransaction}
  {ℓ : View}

theorem length_commands (h : Commanded t options m r ℓ) : (commands ℓ.history).length = m := by
  rw [h.sequence, List.length_map, List.length_take]
  exact Nat.min_eq_left h.le

/-- An entry that neither writes nor commands. -/
theorem pass (h : Commanded t options m r ℓ) (entry : Entry)
    (hrec : (ℓ.apply entry).record = ℓ.record) (hw : writes [entry] = [])
    (hp : ∀ p, entry = .published p → isCommand p = false) :
    Commanded t options m r (ℓ.apply entry) := by
  have hwrites : writes (ℓ.apply entry).history = writes ℓ.history := by
    simp only [View.apply, writes, List.filterMap_append] at hw ⊢
    rw [hw, List.append_nil]
  have hcommands : commands (ℓ.apply entry).history = commands ℓ.history := by
    cases entry with
    | published p => simp [commands, hp p rfl]
    | _ => simp [commands, View.apply]
  refine ⟨hrec.trans h.record, h.transactionId, h.shape, hcommands ▸ h.sequence, h.le,
    atEach_concat.mpr ⟨h.gated, ?_⟩, atEach_concat.mpr ⟨h.caused, ?_⟩, hwrites ▸ h.opened⟩
  · cases entry with
    | published p => exact fun hq => absurd hq (by simp [hp p rfl])
    | _ => trivial
  · cases entry with
    | published p => exact fun hq => absurd hq (by simp [hp p rfl])
    | _ => trivial

/-- The write of a transition. -/
theorem store (h : Commanded t options m r ℓ) (ht : Transition r r') :
    Commanded t options m r' (ℓ.apply (written r')) := by
  refine ⟨rfl, ht.transactionId.trans h.transactionId, h.shape.transition ht, ?_, h.le,
    atEach_concat.mpr ⟨h.gated, trivial⟩, atEach_concat.mpr ⟨h.caused, trivial⟩, ?_⟩
  · simpa [commands, written] using h.sequence
  · intro hopen v hv
    have hr : ¬Closed r.status := fun hc => hopen (ht.advances.closed hc)
    simp only [View.apply, writes, written, List.filterMap_append, List.mem_append] at hv
    rcases hv with hv | hv
    · exact h.opened hr v hv
    · cases List.mem_singleton.mp hv
      exact hopen

/-- The command of the next step. -/
theorem command (h : Commanded t options m r ℓ) (hopen : ¬Closed r.status) (step : TransactionStep)
    (hstep : r.steps[m]? = some step) (id : Option String)
    (hc : ∀ k, m = k + 1 → StepReported options.steps k ℓ.history) :
    Commanded t options (m + 1) r
      (ℓ.apply (.published ⟨.handleProgressTransaction, id, forwardCommand r step⟩)) := by
  have hdeclared : options.steps[m]? = some step.declared := by
    rw [← h.shape.declared, List.getElem?_map, hstep]
    rfl
  obtain ⟨hlt, hget⟩ := List.getElem?_eq_some_iff.mp hdeclared
  have hcommand : forwardCommand r step = stepCommand t options.payload step.name := by
    rw [← h.transactionId, ← h.shape.payload]
    rfl
  refine ⟨h.record, h.transactionId, h.shape, ?_, hlt, atEach_concat.mpr ⟨h.gated, ?_⟩,
    atEach_concat.mpr ⟨h.caused, ?_⟩, ?_⟩
  · have hcommands : commands (ℓ.apply (.published ⟨.handleProgressTransaction, id,
        forwardCommand r step⟩)).history = commands ℓ.history ++ [forwardCommand r step] := by
      simp [commands, isCommand]
    rw [hcommands, h.sequence, hcommand, List.take_add_one, hdeclared, Option.toList_some,
      List.map_append]
    rfl
  · exact fun _ => h.opened hopen
  · intro _ k hk
    exact hc k (h.length_commands.symm.trans hk)
  · simpa [writes] using h.opened

/-- `progress` commands the step that is due, if the one before it has been reported. -/
theorem progress (h : Commanded t options m r ℓ) (id : Option String) (date : Date)
    (hm : Active r → m = r.currentStep ∧ ∀ k, m = k + 1 → StepReported options.steps k ℓ.history) :
    View.Along (fun ℓ => ∃ m r, Commanded t options m r ℓ)
      (fun ℓ => ∃ m r, Commanded t options m r ℓ ∧ Awaiting m r) ℓ
      (Transaction.progress id r date) := by
  unfold Transaction.progress
  split
  · rename_i hact
    obtain ⟨rfl, hc⟩ := hm hact
    split
    · rename_i hnone
      have h₁ := h.store (.complete date)
      have h₂ := h₁.pass (.published ⟨.handleCompleteTransaction, id, outcomeMessage
        .TRANSACTION_COMPLETED (some r.transactionId) (some r.processType.value)⟩) rfl rfl
        (by rintro p ⟨⟩; rfl)
      exact ⟨⟨_, _, h⟩, ⟨_, _, h₁⟩, ⟨_, _, h₂⟩, _, _, h₂,
        awaiting_of_closed (show Closed .COMPLETED by decide)⟩
    · rename_i step hstep
      obtain ⟨hlt, _⟩ := List.getElem?_eq_some_iff.mp hstep
      have h₁ := h.store (.beginStep step date hact hstep)
      have h₂ := h₁.command (show ¬Closed .IN_PROGRESS by decide)
        { step with startedAt := some date } (by simp [beginStep, hlt]) id
        fun k hk => (hc k hk).concat _
      exact ⟨⟨_, _, h⟩, ⟨_, _, h₁⟩, ⟨_, _, h₂⟩, _, _, h₂, fun _ => ⟨rfl, rfl⟩⟩
  · rename_i hact
    exact ⟨⟨_, _, h⟩, _, _, h, fun ha => absurd ha hact⟩

/-- No other event than a completed step moves a transaction to its next command. -/
theorem move (h : Commanded t options m r ℓ) (hw : Awaiting m r) {clientId : ClientIds}
    {event : TransactionEvent} {subject : Subjects} {entry : Entry}
    (hsub : subject ≠ .TRANSACTION_STEP_COMPLETED)
    (hm : Moves clientId event subject ℓ.record entry) :
    ∃ m r, Commanded t options m r (ℓ.apply entry) ∧ Awaiting m r := by
  generalize hc : ℓ.record = content at hm
  have hsame : ∀ {q : DistributedTransaction}, ℓ.record = some q.serialize → r = q :=
    fun hq => serialize_inj (Option.some_inj.mp (h.record.symm.trans hq))
  cases hm with
  | completeStep _ _ _ => exact absurd rfl hsub
  | progress _ => exact absurd rfl hsub
  | failStep hstep =>
    obtain rfl := hsame hc
    exact ⟨m, _, h.store (.failStep _ event.error hstep),
      awaiting_of_closed (show Closed .FAILED by decide)⟩
  | timeOut hst =>
    obtain rfl := hsame hc
    exact ⟨m, _, h.store (.timeOut hst), awaiting_of_closed (show Closed .TIMED_OUT by decide)⟩
  | beginCompensation _ =>
    obtain rfl := hsame hc
    exact ⟨m, _, h.store .beginCompensation,
      awaiting_of_closed (show Closed .COMPENSATING by decide)⟩
  | compensate date _ =>
    obtain rfl := hsame hc
    exact ⟨m, _, h.store (.compensate date),
      awaiting_of_closed (show Closed .COMPENSATED by decide)⟩
  | closeCompensated date _ =>
    obtain rfl := hsame hc
    exact ⟨m, _, h.store (.compensated date),
      awaiting_of_closed (show Closed .COMPENSATED by decide)⟩
  | closeCompleted date _ =>
    obtain rfl := hsame hc
    exact ⟨m, _, h.store (.compensated date),
      awaiting_of_closed (show Closed .COMPENSATED by decide)⟩
  | minimal _ _ _ hn _ =>
    rw [← hc, h.record] at hn
    simp at hn
  | _ => exact ⟨m, r, h.pass _ rfl rfl (by rintro p ⟨⟩; rfl), hw⟩

end Commanded

/-! ## Runs -/

/-- Handlers of one transaction do not overlap, no call fails and no process stops. -/
def smoothPolicy : Cluster.Policy := fun s label =>
  match label with
  | .deliver _ _ event => s.idle (transactionKey event.transactionId)
  | .reject _ => false
  | .abandon _ => false
  | _ => true

theorem Unstarted.commanded {t : String} {ℓ : View} (h : Unstarted t ℓ) (hn : ℓ.record = none)
    (options : TransactionOptions) (date : Date) :
    Commanded t options 0 (newTransaction options t date)
      ((ℓ.apply (.created t options)).apply (written (newTransaction options t date))) := by
  have hreceived : ∀ entry ∈ ℓ.history, ∃ subject event, entry = .received subject event :=
    h.untouched hn
  have hcommands : commands ℓ.history = [] := List.filterMap_eq_nil_iff.mpr fun entry hmem => by
    obtain ⟨subject, event, rfl⟩ := hreceived entry hmem
    rfl
  have hwrites : writes ℓ.history = [] := List.filterMap_eq_nil_iff.mpr fun entry hmem => by
    obtain ⟨subject, event, rfl⟩ := hreceived entry hmem
    rfl
  have hsilent : ∀ P : List Entry → Entry → Prop, (∀ past subject event,
      P past (.received subject event)) → AtEach P ℓ.history := by
    rintro P hP past entry rest he
    obtain ⟨subject, event, rfl⟩ := hreceived entry (by simp [he])
    exact hP past subject event
  simp only [commands] at hcommands
  simp only [writes] at hwrites
  refine ⟨rfl, rfl, .newTransaction options t date, ?_, Nat.zero_le _, ?_, ?_, ?_⟩
  · simp [commands, View.apply, written, hcommands]
  · exact atEach_concat.mpr ⟨atEach_concat.mpr ⟨hsilent _ fun _ _ _ => trivial, trivial⟩, trivial⟩
  · exact atEach_concat.mpr ⟨atEach_concat.mpr ⟨hsilent _ fun _ _ _ => trivial, trivial⟩, trivial⟩
  · intro _ v hv
    simp only [writes, View.apply, written, List.filterMap_append, hwrites, List.nil_append,
      List.filterMap_cons_none, List.filterMap_nil] at hv
    cases List.mem_singleton.mp hv
    exact show ¬Closed .STARTED by decide

/-- A completed step leads to the next command, if the transaction is still progressed. -/
theorem Commanded.stepCompleted {t : String} {options : TransactionOptions} {m : Nat}
    {r : DistributedTransaction} {ℓ : View} (h : Commanded t options m r ℓ) (hw : Awaiting m r)
    (clientId : ClientIds) (event : TransactionEvent) (notified : Bool) (dates : Nat → Date) :
    View.Along (fun ℓ => ∃ m r, Commanded t options m r ℓ)
      (fun ℓ => ∃ m r, Commanded t options m r ℓ ∧ Awaiting m r)
      (ℓ.apply (.received .TRANSACTION_STEP_COMPLETED event))
      (react clientId .TRANSACTION_STEP_COMPLETED event (some r) notified dates) := by
  have hreceived := h.pass (.received .TRANSACTION_STEP_COMPLETED event) rfl rfl nofun
  simp only [react]
  split
  · exact ⟨⟨m, r, hreceived⟩, m, r, hreceived, hw⟩
  · rename_i step hstep
    split
    · rename_i hname
      have h₁ := hreceived.store (.completeStep step (dates 0) hstep)
      refine ⟨⟨m, r, hreceived⟩, h₁.progress event.transactionId (dates 1) fun hact => ?_⟩
      obtain ⟨-, hm⟩ := hw hact
      refine ⟨hm, fun k hk => ?_⟩
      have hcur : k = r.currentStep := Nat.succ.inj (hk.symm.trans hm)
      subst hcur
      obtain ⟨before, q, after, hhist, hq, hlen⟩ :=
        exists_last_command (h.length_commands.trans hm)
      refine ⟨before, q, after ++ [.received .TRANSACTION_STEP_COMPLETED event,
        written (completeStep r step (dates 0))], event, step.declared, ?_, hq, hlen, ?_, by simp,
        hname.symm⟩
      · simp only [View.apply, hhist, List.append_assoc, List.cons_append, List.nil_append]
      · rw [← h.shape.declared, List.getElem?_map, hstep]
        rfl
    · exact ⟨⟨m, r, hreceived⟩, m, r, hreceived, hw⟩

theorem commands_lifecycle (t : String) :
    Lifecycle smoothPolicy t (fun options ℓ => ∃ m r, Commanded t options m r ℓ)
      (fun options ℓ => ∃ m r, Commanded t options m r ℓ ∧ Awaiting m r) False where
  stopped := False.elim
  record := by
    rintro _ v ⟨m, r, h, -⟩ hn
    cases h.record.symm.trans hn
  fails := fun _ _ _ hp _ _ => Bool.noConfusion hp
  stops := fun _ _ _ hp _ _ => Bool.noConfusion hp
  exclusive := by
    intro s clientId subject event hp hk
    rw [← hk]
    exact hp
  start := by
    intro s options date _ _ hu hn date'
    exact (hu.commanded hn options date).progress (some t) date' fun _ => ⟨rfl, nofun⟩
  deliver := by
    rintro s clientId subject event options - - - - ⟨m, r, h, hw⟩ notified dates -
    have hreceived := h.pass (.received subject event) rfl rfl nofun
    by_cases hsub : subject = .TRANSACTION_STEP_COMPLETED
    · subst hsub
      rw [h.record, Option.bind_some, DistributedTransaction.read_serialize]
      exact h.stepCompleted hw clientId event notified dates
    · exact (along_react (I := fun ℓ => ∃ m r, Commanded t options m r ℓ ∧ Awaiting m r) clientId
        event subject (fun ℓ entry hm ⟨m, r, h, hw⟩ => h.move hw hsub hm) ⟨m, r, hreceived, hw⟩
        notified dates).mono (fun ℓ ⟨m, r, h, _⟩ => ⟨m, r, h⟩) (fun _ h => h)

/-- The forward commands of `t` follow its declared steps. -/
structure FollowsSteps (t : String) (options : TransactionOptions) (history : List Entry) :
    Prop where
  /-- They are those of the first `m` steps, each once and in order. -/
  sequence : ∃ m ≤ options.steps.length, List.Forall₂ (Carries t options.payload)
    ((options.steps.take m).map Prod.fst) (commands history)
  /-- Each follows the report that the step before it, once commanded, was completed. -/
  caused : AtEach (Caused options.steps) history
  /-- None follows a closed status. -/
  gated : AtEach Gated history

/-- Forward commands follow the declared steps. -/
theorem commands_follow_steps {s : Cluster} {t : String} {options : TransactionOptions}
    (h : Cluster.Reachable smoothPolicy s) (hc : .created t options ∈ s.world.history)
    (ht : "transactionId" ∉ options.payload) (hs : "stepName" ∉ options.payload) :
    FollowsSteps t options (s.world.view t).history := by
  obtain ⟨m, r, hr⟩ : ∃ m r, Commanded t options m r (s.world.view t) :=
    ((commands_lifecycle t).always h hc).elim (fun ⟨m, r, h, _⟩ => ⟨m, r, h⟩) id
  refine ⟨⟨m, hr.le, ?_⟩, hr.caused, hr.gated⟩
  rw [hr.sequence, List.forall₂_map_left_iff, List.forall₂_map_right_iff, List.forall₂_same]
  exact fun step _ => carries_stepCommand t step.1 ht hs

theorem isSome_smooth_completedTwoSteps :
    (Cluster.run smoothPolicy completedTwoSteps).isSome = true := by
  decide +kernel

theorem commands_follow_steps_completedTwoSteps :
    FollowsSteps "t" twoSteps (((Cluster.run smoothPolicy completedTwoSteps).get
      isSome_smooth_completedTwoSteps).world.view "t").history := by
  have hcreated : ((Cluster.run smoothPolicy completedTwoSteps).get
      isSome_smooth_completedTwoSteps).world.history.head? = some (.created "t" twoSteps) := rfl
  exact commands_follow_steps (Machine.reachable_run _ _) (List.mem_of_mem_head? hcreated)
    (by decide) (by decide)

end InvoiceHub.Transaction
