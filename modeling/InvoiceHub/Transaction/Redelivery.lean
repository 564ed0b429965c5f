import InvoiceHub.Effects.Run
import InvoiceHub.Transaction.Stage

/-!
# Messages that are delivered again

A coordinator handles one event at a time and no call fails.  Which of the events it has handled
would be ignored if they were delivered again depends on the stage of their transactions only;
the runs in which all of them always are, are those whose steps are `Settling`.
-/

namespace InvoiceHub.Transaction

open Effects

/-! ## What is ignored at a stage -/

namespace Stage

/-- At this stage of its transaction the event is ignored. -/
def Quiet : Subjects → TransactionEvent → Option Stage → Prop
  | .TRANSACTION_STEP_COMPLETED, event, some stage =>
    ∀ name ∈ stage.left.head?, event.stepName ≠ some name
  | .TRANSACTION_STEP_FAILED, _, some stage => stage.left = []
  | .TRANSACTION_TIMEOUT, _, some stage => stage.status ≠ .IN_PROGRESS
  | .TRANSACTION_COMPENSATION_START, _, some stage => stage.skipped
  | .TRANSACTION_COMPENSATION_COMPLETED, _, some stage => stage.status = .COMPENSATED
  | .TRANSACTION_COMPLETED, _, some stage => stage.status = .COMPLETED
  | .TRANSACTION_COMPENSATION_START, event, none => event.processType = none
  | .TRANSACTION_COMPENSATION_COMPLETED, event, none => event.processType = none
  | .TRANSACTION_COMPLETED, event, none => event.processType = none
  | _, _, _ => True

/-- What no handler changes: a transaction at rest is not at its start, and its steps are told
apart by their names. -/
structure Sound (stage : Stage) : Prop where
  status : stage.status ≠ .STARTED
  names : stage.left.Nodup

/-- The event, not ignored at this stage, leaves the events handled so far ignored, and itself
too. -/
def Steady (handled : List (Subjects × TransactionEvent)) :
    Subjects → TransactionEvent → Option Stage → Prop
  -- the step that comes next has not been reported as completed
  | .TRANSACTION_STEP_COMPLETED, _, some stage =>
    ∀ next ∈ stage.left.tail.head?, ∀ e ∈ handled, e.1 = .TRANSACTION_STEP_COMPLETED →
      e.2.stepName ≠ some next
  | .TRANSACTION_TIMEOUT, _, some _ => True
  | .TRANSACTION_COMPENSATION_START, _, some _ => ∀ e ∈ handled, e.1 ≠ .TRANSACTION_COMPLETED
  | .TRANSACTION_COMPENSATION_COMPLETED, _, some _ => ∀ e ∈ handled, e.1 ≠ .TRANSACTION_COMPLETED
  -- the record that is made up can be read back
  | .TRANSACTION_COMPENSATION_START, event, none =>
    (minimal event .COMPENSATING).isSome ∧
      ∀ e ∈ handled, e.1 ≠ .TRANSACTION_COMPENSATION_COMPLETED ∧ e.1 ≠ .TRANSACTION_COMPLETED
  | .TRANSACTION_COMPENSATION_COMPLETED, event, none =>
    (minimal event .COMPENSATED).isSome ∧ ∀ e ∈ handled, e.1 ≠ .TRANSACTION_COMPLETED
  | .TRANSACTION_COMPLETED, event, none =>
    (minimal event .COMPLETED).isSome ∧
      ∀ e ∈ handled, e.1 ≠ .TRANSACTION_COMPENSATION_START ∧
        e.1 ≠ .TRANSACTION_COMPENSATION_COMPLETED
  | _, _, _ => False

instance (subject : Subjects) (event : TransactionEvent) (stage : Option Stage) :
    Decidable (Quiet subject event stage) := by
  cases stage <;> cases subject <;> dsimp only [Quiet] <;> infer_instance

instance (handled : List (Subjects × TransactionEvent)) (subject : Subjects)
    (event : TransactionEvent) (stage : Option Stage) :
    Decidable (Steady handled subject event stage) := by
  cases stage <;> cases subject <;> dsimp only [Steady] <;> infer_instance

theorem minimal_eq_none {event : TransactionEvent} (h : event.processType = none)
    (status : DistributedTransactionStatus) : minimal event status = none := by
  rw [minimal, if_neg (by simp [h])]

theorem minimal_eq_some {event : TransactionEvent} {status : DistributedTransactionStatus}
    (h : (minimal event status).isSome) : minimal event status = some ⟨status, [], true⟩ := by
  unfold minimal at h ⊢
  split at h
  · rw [if_pos ‹_›]
  · cases h

/-- What is ignored changes nothing. -/
theorem handle_quiet {subject : Subjects} {event : TransactionEvent} {stage : Option Stage}
    (h : Quiet subject event stage) : handle subject event stage = stage := by
  cases stage with
  | none =>
    cases subject with
    | TRANSACTION_COMPENSATION_START | TRANSACTION_COMPENSATION_COMPLETED | TRANSACTION_COMPLETED =>
      exact minimal_eq_none h _
    | _ => rfl
  | some stage =>
    cases subject with
    | TRANSACTION_STEP_COMPLETED =>
      change some (stage.completeStep event.stepName) = some stage
      unfold completeStep
      cases hleft : stage.left with
      | nil => rfl
      | cons name rest =>
        have hname : some name ≠ event.stepName := (h name (by rw [hleft]; rfl)).symm
        dsimp only
        rw [if_neg hname]
    | TRANSACTION_STEP_FAILED => exact congrArg some (if_pos h)
    | TRANSACTION_TIMEOUT => exact congrArg some (if_neg h)
    | TRANSACTION_COMPENSATION_START => exact congrArg some (if_pos h)
    | TRANSACTION_COMPENSATION_COMPLETED =>
      have hsame : ({ stage with status := .COMPENSATED } : Stage) = stage := by
        rw [← show stage.status = .COMPENSATED from h]
      exact congrArg some hsame
    | TRANSACTION_COMPLETED => exact congrArg some (if_pos h)
    | _ => rfl

theorem progress_left (stage : Stage) : stage.progress.left = stage.left := by
  unfold progress
  split <;> rfl

/-- Where it is not at its start, only a transaction in progress is taken further. -/
theorem progress_status (stage : Stage) (h : stage.status ≠ .STARTED)
    (hp : stage.status ≠ .IN_PROGRESS) : stage.progress.status = stage.status := by
  rw [progress, if_neg (by simp [h, hp])]

theorem Sound.progress {stage : Stage} (h : stage.left.Nodup) : Sound stage.progress := by
  constructor
  · unfold Stage.progress
    split
    · dsimp only
      split <;> decide
    · rename_i hs
      exact fun hstart => hs (.inl hstart)
  · rwa [progress_left]

theorem Sound.withStatus {stage : Stage} (h : Sound stage) {status : DistributedTransactionStatus}
    (hs : status ≠ .STARTED) : Sound { stage with status := status } := ⟨hs, h.names⟩

theorem Sound.handle {subject : Subjects} {event : TransactionEvent} {stage stage' : Stage}
    (h : Sound stage) (hs : Stage.handle subject event (some stage) = some stage') :
    Sound stage' := by
  cases subject with
  | TRANSACTION_STEP_COMPLETED =>
    obtain rfl := Option.some_inj.mp hs
    unfold completeStep
    cases hleft : stage.left with
    | nil => exact h
    | cons name rest =>
      have hrest : rest.Nodup := (List.nodup_cons.mp (hleft ▸ h.names)).2
      dsimp only
      split
      · exact .progress hrest
      · exact h
  | TRANSACTION_STEP_FAILED =>
    obtain rfl := Option.some_inj.mp hs
    split
    · exact h
    · exact h.withStatus (by decide)
  | TRANSACTION_TIMEOUT =>
    obtain rfl := Option.some_inj.mp hs
    split
    · exact h.withStatus (by decide)
    · exact h
  | TRANSACTION_COMPENSATION_START =>
    obtain rfl := Option.some_inj.mp hs
    split
    · exact h
    · refine h.withStatus ?_
      split <;> decide
  | TRANSACTION_COMPENSATION_COMPLETED =>
    obtain rfl := Option.some_inj.mp hs
    exact h.withStatus (by decide)
  | TRANSACTION_COMPLETED =>
    obtain rfl := Option.some_inj.mp hs
    split
    · exact h
    · exact h.withStatus (by decide)
  | _ =>
    obtain rfl := Option.some_inj.mp hs
    exact h

/-- A record that is made up has no steps. -/
theorem Sound.made {subject : Subjects} {event : TransactionEvent} {stage : Stage}
    (h : Stage.handle subject event none = some stage) : Sound stage := by
  have hminimal : ∀ {status}, status ≠ .STARTED → minimal event status = some stage →
      Sound stage := by
    intro status hs h
    rw [minimal_eq_some (by rw [h]; rfl)] at h
    obtain rfl := Option.some_inj.mp h
    exact ⟨hs, List.nodup_nil⟩
  cases subject with
  | TRANSACTION_COMPENSATION_START | TRANSACTION_COMPENSATION_COMPLETED | TRANSACTION_COMPLETED =>
    exact hminimal (by decide) h
  | _ => cases h

theorem quiet_minimal {status : DistributedTransactionStatus} (hs : status ≠ .IN_PROGRESS)
    {subject : Subjects} {e : TransactionEvent}
    (hstart : subject = .TRANSACTION_COMPENSATION_START → skipped ⟨status, [], true⟩)
    (hcompensated : subject = .TRANSACTION_COMPENSATION_COMPLETED → status = .COMPENSATED)
    (hcompleted : subject = .TRANSACTION_COMPLETED → status = .COMPLETED) :
    Quiet subject e (some ⟨status, [], true⟩) := by
  cases subject with
  | TRANSACTION_STEP_COMPLETED => exact fun _ h => nomatch h
  | TRANSACTION_STEP_FAILED => rfl
  | TRANSACTION_TIMEOUT => exact hs
  | TRANSACTION_COMPENSATION_START => exact hstart rfl
  | TRANSACTION_COMPENSATION_COMPLETED => exact hcompensated rfl
  | TRANSACTION_COMPLETED => exact hcompleted rfl
  | _ => trivial

/-- Where the steps that are left stay the same, an event is ignored if it was and the new status
lets it be. -/
theorem quiet_withStatus {stage : Stage} {status : DistributedTransactionStatus}
    {subject : Subjects} {e : TransactionEvent}
    (hcompleted : subject = .TRANSACTION_STEP_COMPLETED → Quiet subject e (some stage))
    (hfailed : subject = .TRANSACTION_STEP_FAILED → Quiet subject e (some stage))
    (htimeout : subject = .TRANSACTION_TIMEOUT → status ≠ .IN_PROGRESS)
    (hstart : subject = .TRANSACTION_COMPENSATION_START →
      status = .COMPENSATING ∨ status = .COMPENSATED)
    (hcompensated : subject = .TRANSACTION_COMPENSATION_COMPLETED → status = .COMPENSATED)
    (hdone : subject = .TRANSACTION_COMPLETED → status = .COMPLETED) :
    Quiet subject e (some { stage with status := status }) := by
  cases subject with
  | TRANSACTION_STEP_COMPLETED => exact hcompleted rfl
  | TRANSACTION_STEP_FAILED => exact hfailed rfl
  | TRANSACTION_TIMEOUT => exact htimeout rfl
  | TRANSACTION_COMPENSATION_START => exact hstart rfl
  | TRANSACTION_COMPENSATION_COMPLETED => exact hcompensated rfl
  | TRANSACTION_COMPLETED => exact hdone rfl
  | _ => trivial

section Steady

variable {handled : List (Subjects × TransactionEvent)} {event : TransactionEvent}
  {subject' : Subjects} {e : TransactionEvent} {stage : Stage}

/-- The step that is completed is gone, and the next one has not been reported. -/
theorem quiet_completeStep (hs : Sound stage)
    (hquiet : ∀ e ∈ handled, Quiet e.1 e.2 (some stage))
    (hnot : ¬Quiet .TRANSACTION_STEP_COMPLETED event (some stage))
    (hsteady : Steady handled .TRANSACTION_STEP_COMPLETED event (some stage))
    (he : (subject', e) ∈ handled ∨ subject' = .TRANSACTION_STEP_COMPLETED ∧ e = event) :
    Quiet subject' e (some (stage.completeStep event.stepName)) := by
  obtain ⟨name, hname, hevent⟩ : ∃ name, stage.left.head? = some name ∧
      event.stepName = some name := by
    simpa [Quiet] using hnot
  obtain ⟨rest, hleft⟩ := List.head?_eq_some_iff.mp hname
  have hnext : stage.completeStep event.stepName = progress { stage with left := rest } := by
    unfold completeStep
    rw [hleft]
    exact if_pos hevent.symm
  have hsame (hp : stage.status ≠ .IN_PROGRESS) :
      (progress { stage with left := rest }).status = stage.status :=
    progress_status { stage with left := rest } hs.status hp
  rw [hnext]
  -- an event of another topic has been handled before
  have hbefore (h : subject' ≠ .TRANSACTION_STEP_COMPLETED) : Quiet subject' e (some stage) :=
    hquiet (subject', e) (he.resolve_right fun hown => h hown.1)
  cases subject' with
  | TRANSACTION_STEP_COMPLETED =>
    intro next hhead
    rw [progress_left] at hhead
    rcases he with hh | ⟨-, rfl⟩
    · exact hsteady next (by rw [hleft]; exact hhead) _ hh rfl
    · -- the step that comes next has another name
      have hmem : next ∈ rest := List.mem_of_mem_head? hhead
      have hnodup := hs.names
      rw [hleft, List.nodup_cons] at hnodup
      rw [hevent]
      rintro ⟨⟩
      exact hnodup.1 hmem
  | TRANSACTION_STEP_FAILED =>
    have hnil : stage.left = [] := hbefore (by decide)
    rw [hleft] at hnil
    cases hnil
  | TRANSACTION_TIMEOUT =>
    have hp : stage.status ≠ .IN_PROGRESS := hbefore (by decide)
    change (progress { stage with left := rest }).status ≠ .IN_PROGRESS
    rwa [hsame hp]
  | TRANSACTION_COMPENSATION_START =>
    have hskip : stage.skipped := hbefore (by decide)
    have hp : stage.status ≠ .IN_PROGRESS := by
      rcases hskip with h | h <;> rw [h] <;> decide
    change _ ∨ _
    rw [hsame hp]
    exact hskip
  | TRANSACTION_COMPENSATION_COMPLETED =>
    have h : stage.status = .COMPENSATED := hbefore (by decide)
    change (progress { stage with left := rest }).status = .COMPENSATED
    rw [hsame (by rw [h]; decide), h]
  | TRANSACTION_COMPLETED =>
    have h : stage.status = .COMPLETED := hbefore (by decide)
    change (progress { stage with left := rest }).status = .COMPLETED
    rw [hsame (by rw [h]; decide), h]
  | _ => trivial

/-- At a stage in progress no event but those on steps has been ignored. -/
theorem quiet_timeOut (hquiet : ∀ e ∈ handled, Quiet e.1 e.2 (some stage))
    (hp : stage.status = .IN_PROGRESS)
    (he : (subject', e) ∈ handled ∨ subject' = .TRANSACTION_TIMEOUT ∧ e = event) :
    Quiet subject' e (some { stage with status := .TIMED_OUT }) := by
  have hbefore (h : subject' ≠ .TRANSACTION_TIMEOUT) : Quiet subject' e (some stage) :=
    hquiet (subject', e) (he.resolve_right fun hown => h hown.1)
  refine quiet_withStatus ?_ ?_ (fun _ => by decide) ?_ ?_ ?_ <;> rintro rfl
  · exact hbefore (by decide)
  · exact hbefore (by decide)
  · have hskip : stage.skipped := hbefore (by decide)
    rw [skipped, hp] at hskip
    exact absurd hskip (by decide)
  · have h : stage.status = .COMPENSATED := hbefore (by decide)
    exact nomatch hp.symm.trans h
  · have h : stage.status = .COMPLETED := hbefore (by decide)
    exact nomatch hp.symm.trans h

/-- A compensated transaction ignores all but `TRANSACTION_COMPLETED`; one in compensation has not
been announced as compensated. -/
theorem quiet_compensate {subject : Subjects} {status : DistributedTransactionStatus}
    (hstatus : status = .COMPENSATING ∧ ¬stage.skipped ∨ status = .COMPENSATED)
    (hsubject : subject = .TRANSACTION_COMPENSATION_START ∨
      subject = .TRANSACTION_COMPENSATION_COMPLETED ∧ status = .COMPENSATED)
    (hquiet : ∀ e ∈ handled, Quiet e.1 e.2 (some stage))
    (hnone : ∀ e ∈ handled, e.1 ≠ .TRANSACTION_COMPLETED)
    (he : (subject', e) ∈ handled ∨ subject' = subject ∧ e = event) :
    Quiet subject' e (some { stage with status := status }) := by
  have hbefore (h : subject' ≠ subject) : Quiet subject' e (some stage) :=
    hquiet (subject', e) (he.resolve_right fun hown => h hown.1)
  refine quiet_withStatus ?_ ?_ ?_ ?_ ?_ ?_ <;> rintro rfl
  · refine hbefore ?_
    rcases hsubject with rfl | ⟨rfl, -⟩ <;> decide
  · refine hbefore ?_
    rcases hsubject with rfl | ⟨rfl, -⟩ <;> decide
  · rcases hstatus with ⟨rfl, -⟩ | rfl <;> decide
  · exact hstatus.imp And.left id
  · rcases hstatus with ⟨-, hskip⟩ | h
    · rcases hsubject with rfl | ⟨-, h⟩
      · exact absurd (.inr (hbefore (by decide))) hskip
      · exact h
    · exact h
  · refine he.elim (fun h => absurd rfl (hnone _ h)) fun hown => ?_
    rcases hsubject with rfl | ⟨rfl, -⟩ <;> exact nomatch hown.1

/-- The record made up for an unknown transaction. -/
theorem quiet_unknown {subject : Subjects} (hnot : ¬Quiet subject event none)
    (hsteady : Steady handled subject event none)
    (he : (subject', e) ∈ handled ∨ subject' = subject ∧ e = event) :
    Quiet subject' e (handle subject event none) := by
  cases subject with
  | TRANSACTION_COMPENSATION_START =>
    obtain ⟨hread, hnone⟩ := hsteady
    change Quiet subject' e (minimal event .COMPENSATING)
    rw [minimal_eq_some hread]
    refine quiet_minimal (by decide) (fun _ => .inl rfl) ?_ ?_
    · rintro rfl
      exact he.elim (fun h => absurd rfl (hnone _ h).1) (fun h => nomatch h.1)
    · rintro rfl
      exact he.elim (fun h => absurd rfl (hnone _ h).2) (fun h => nomatch h.1)
  | TRANSACTION_COMPENSATION_COMPLETED =>
    obtain ⟨hread, hnone⟩ := hsteady
    change Quiet subject' e (minimal event .COMPENSATED)
    rw [minimal_eq_some hread]
    refine quiet_minimal (by decide) (fun _ => .inr rfl) (fun _ => rfl) ?_
    rintro rfl
    exact he.elim (fun h => absurd rfl (hnone _ h)) (fun h => nomatch h.1)
  | TRANSACTION_COMPLETED =>
    obtain ⟨hread, hnone⟩ := hsteady
    change Quiet subject' e (minimal event .COMPLETED)
    rw [minimal_eq_some hread]
    refine quiet_minimal (by decide) ?_ ?_ (fun _ => rfl)
    · rintro rfl
      exact he.elim (fun h => absurd rfl (hnone _ h).1) (fun h => nomatch h.1)
    · rintro rfl
      exact he.elim (fun h => absurd rfl (hnone _ h).2) (fun h => nomatch h.1)
  | _ => exact absurd trivial hnot

end Steady

/-- Where the handled events are ignored and one more is handled that is not, all of them, with
the new one, are ignored at the stage it leads to. -/
theorem quiet_steady {handled : List (Subjects × TransactionEvent)} {subject : Subjects}
    {event : TransactionEvent} {stage : Option Stage} (hsound : ∀ st, stage = some st → Sound st)
    (hquiet : ∀ e ∈ handled, Quiet e.1 e.2 stage)
    (hnot : ¬Quiet subject event stage) (hsteady : Steady handled subject event stage)
    {subject' : Subjects} {e : TransactionEvent}
    (he : (subject', e) ∈ handled ∨ subject' = subject ∧ e = event) :
    Quiet subject' e (handle subject event stage) := by
  cases stage with
  | none => exact quiet_unknown hnot hsteady he
  | some stage =>
    cases subject with
    | TRANSACTION_STEP_COMPLETED =>
      exact quiet_completeStep (hsound stage rfl) hquiet hnot hsteady he
    | TRANSACTION_STEP_FAILED => exact hsteady.elim
    | TRANSACTION_TIMEOUT =>
      have hp : stage.status = .IN_PROGRESS := not_not.mp hnot
      have hhandle : handle .TRANSACTION_TIMEOUT event (some stage) =
          some { stage with status := .TIMED_OUT } := congrArg some (if_pos hp)
      rw [hhandle]
      exact quiet_timeOut hquiet hp he
    | TRANSACTION_COMPENSATION_START =>
      have hhandle : handle .TRANSACTION_COMPENSATION_START event (some stage) =
          some { stage with status := if stage.bare then .COMPENSATING else .COMPENSATED } :=
        congrArg some (if_neg hnot)
      rw [hhandle]
      refine quiet_compensate ?_ (.inl rfl) hquiet hsteady he
      split
      · exact .inl ⟨rfl, hnot⟩
      · exact .inr rfl
    | TRANSACTION_COMPENSATION_COMPLETED =>
      exact quiet_compensate (.inr rfl) (.inr ⟨rfl, rfl⟩) hquiet hsteady he
    | TRANSACTION_COMPLETED => exact hsteady.elim
    | _ => exact absurd trivial hnot

end Stage

/-! ## What is ignored changes nothing -/

/-- Run alone in `s`, the program changes nothing. -/
def Changeless (p : Async Unit) (s : Store) : Prop :=
  ∀ activity clock, p.alone Activity.background perform activity clock s = s

section Changeless

variable {s : Store} {id : Option String} {event : TransactionEvent} {clientId : ClientIds}

theorem changeless_pure : Changeless (pure ()) s := fun _ _ => rfl

theorem changeless_throw : Changeless Prog.throw s := fun _ _ => rfl

theorem changeless_getTransactionState {f : Option DistributedTransaction → Async Unit}
    (h : Changeless (f ((s.redis.lookup (transactionKey id)).bind SerializedTransaction.read)) s) :
    Changeless (getTransactionState id >>= f) s :=
  fun activity clock => h activity fun n => clock (n + 1)

theorem changeless_newDate {f : Date → Async Unit} (h : ∀ date, Changeless (f date) s) :
    Changeless (newDate >>= f) s :=
  fun activity clock => h (clock 0) activity fun n => clock (n + 1)

/-- Without a process type no record is made up. -/
theorem changeless_storeMinimalTransaction (s : Store) (clientId : ClientIds)
    (h : event.processType = none)
    (status : DistributedTransactionStatus) (startedAt : Date) (completedAt : Option Date) :
    Changeless (storeMinimalTransaction clientId event.transactionId event.processType status startedAt
      completedAt) s := by
  unfold storeMinimalTransaction
  rw [h]
  exact fun _ _ => rfl

/-- The handler of an event that is ignored at the stage of its transaction changes nothing. -/
theorem changeless_handle {subject : Subjects}
    (h : Stage.Quiet subject event (s.stage (transactionKey event.transactionId))) :
    Changeless (handle clientId subject event) s := by
  rcases read_cases (s.redis.lookup (transactionKey event.transactionId)) with hn | ⟨r, hr, hl⟩
  · have hstage : s.stage (transactionKey event.transactionId) = none := by
      rw [Store.stage, hn, Option.map_none]
    rw [hstage] at h
    cases subject with
    | TRANSACTION_STEP_COMPLETED | TRANSACTION_STEP_FAILED | TRANSACTION_TIMEOUT =>
      refine changeless_getTransactionState ?_
      rw [hn]
      exact changeless_pure
    | TRANSACTION_COMPENSATION_START =>
      change Changeless (handleExecuteCompensation clientId event.transactionId event.processType) s
      unfold handleExecuteCompensation eventPublisher
      rw [bind_assoc]
      refine changeless_getTransactionState ?_
      rw [hn]
      dsimp only
      rw [bind_assoc]
      refine changeless_newDate fun date => ?_
      rw [bind_assoc]
      have hlast := changeless_storeMinimalTransaction s clientId h .COMPENSATING date none
      rw [← bind_pure (storeMinimalTransaction ..)] at hlast
      exact hlast
    | TRANSACTION_COMPENSATION_COMPLETED | TRANSACTION_COMPLETED =>
      refine changeless_getTransactionState ?_
      rw [hn]
      refine changeless_newDate fun startedAt => changeless_newDate fun completedAt => ?_
      exact changeless_storeMinimalTransaction s clientId h _ _ _
    | _ => exact changeless_pure
  · have hstage := Store.stage_of_lookup hl
    rw [hstage] at h
    cases subject with
    | TRANSACTION_STEP_COMPLETED =>
      refine changeless_getTransactionState ?_
      rw [hr]
      dsimp only
      cases hstep : r.steps[r.currentStep]? with
      | none => exact changeless_throw
      | some step =>
        have hname : some step.name ≠ event.stepName :=
          (h step.name (by rw [left_eq_cons hstep]; rfl)).symm
        dsimp only
        rw [if_pos hname]
        exact changeless_pure
    | TRANSACTION_STEP_FAILED =>
      refine changeless_getTransactionState ?_
      rw [hr]
      simp only [left_eq_nil_iff.mp h]
      exact changeless_throw
    | TRANSACTION_TIMEOUT =>
      refine changeless_getTransactionState ?_
      rw [hr]
      dsimp only
      rw [if_pos (show r.status ≠ .IN_PROGRESS from h)]
      exact changeless_pure
    | TRANSACTION_COMPENSATION_START =>
      change Changeless (handleExecuteCompensation clientId event.transactionId event.processType) s
      unfold handleExecuteCompensation eventPublisher
      rw [bind_assoc]
      refine changeless_getTransactionState ?_
      rw [hr]
      dsimp only
      rw [if_pos (show r.status = .COMPENSATING ∨ r.status = .COMPENSATED from h)]
      exact changeless_pure
    | TRANSACTION_COMPENSATION_COMPLETED =>
      refine changeless_getTransactionState ?_
      rw [hr]
      dsimp only
      rw [if_pos (show r.status = .COMPENSATED from h)]
      exact changeless_pure
    | TRANSACTION_COMPLETED =>
      refine changeless_getTransactionState ?_
      rw [hr]
      dsimp only
      rw [if_neg (not_not.mpr (show r.status = .COMPLETED from h))]
      exact changeless_pure
    | _ => exact changeless_pure

end Changeless

/-! ## One handler at a time -/

/-- What a coordinator does next. -/
inductive Turn where
  | takes (input : Input)
  | checkTimeouts

namespace Turn

/-- `clock n` is what the clock shows at the `n`-th call. -/
def run (clock : Nat → Date) (s : Store) : Turn → Store
  | takes input => input.run clock s
  | checkTimeouts =>
    Transaction.checkTimeouts.alone Activity.background perform .checkTimeouts clock s

end Turn

/-- The events that have been handed to handlers. -/
def received (history : List Entry) : List (Subjects × TransactionEvent) :=
  history.filterMap fun
    | .received subject event => some (subject, event)
    | _ => none

namespace Store

/-- `uuidv4` returns what neither Redis nor an event has contained. -/
def unused (s : Store) (t : String) : Bool :=
  (s.redis.lookup (transactionKey (some t))).isNone &&
    (received s.history).all (fun e => transactionKey e.2.transactionId ≠ transactionKey (some t))

/-- The events about the transaction under `key` that have been handled. -/
def handled (s : Store) (key : String) : List (Subjects × TransactionEvent) :=
  (received s.history).filter (fun e => transactionKey e.2.transactionId = key)

end Store

/-- The runs of one coordinator whose handlers run one at a time and in which no call fails.  The
names of the steps of a transaction are distinct. -/
def sequential : Machine Store (Turn × (Nat → Date)) where
  initial := ⟨∅, []⟩
  fire s label :=
    match label.1 with
    | .takes (.start options t) =>
      if s.unused t ∧ (options.steps.map Prod.fst).Nodup then some (label.1.run label.2 s) else none
    | _ => some (label.1.run label.2 s)

/-- An event that has been handled changes nothing and publishes nothing when it is delivered
again. -/
def Store.Settled (s : Store) : Prop :=
  ∀ subject event, (subject, event) ∈ received s.history → ∀ clientId clock,
    ((Input.deliver clientId subject event).run clock s).redis = s.redis ∧
      publications ((Input.deliver clientId subject event).run clock s).history =
        publications s.history

/-- The event, handled now, is ignored or leaves all that has been handled ignored. -/
def Store.Settling (s : Store) : Turn → Prop
  | .takes (.deliver _ subject event) =>
    Stage.Quiet subject event (s.stage (transactionKey event.transactionId)) ∨
      Stage.Steady (s.handled (transactionKey event.transactionId)) subject event
        (s.stage (transactionKey event.transactionId))
  | _ => True

instance (s : Store) (turn : Turn) : Decidable (s.Settling turn) := by
  rcases turn with ⟨_ | _⟩ | _ <;> dsimp only [Store.Settling] <;> infer_instance

/-! ### The invariant -/

theorem leaves_startTransaction (options : TransactionOptions) (t : String) (s : Store) :
    Leaves (transactionKey (some t)) (Input.start options t).method s
      (some (.started (options.steps.map Prod.fst))) := by
  have hmethod : (Input.start options t).method = newDate >>= fun startedAt =>
      storeTransactionState (newTransaction options t startedAt) >>= fun _ =>
        handleProgressTransaction (some t) := by
    simp only [Input.method, startTransaction_eq, bind_assoc, pure_bind, bind_pure_unit]
  rw [hmethod]
  refine leaves_newDate fun date => ?_
  refine leaves_storeTransactionState (newTransaction options t date) rfl fun s' hs' => ?_
  rw [Stage.started, ← stageOf_newTransaction options t date]
  exact leaves_handleProgressTransaction rfl rfl hs'

/-- Every handled event is ignored at the stage of its transaction. -/
structure Store.Calm (s : Store) : Prop where
  keyed : s.Keyed
  sound : ∀ key stage, s.stage key = some stage → stage.Sound
  quiet : ∀ e ∈ received s.history,
    Stage.Quiet e.1 e.2 (s.stage (transactionKey e.2.transactionId))

/-- No call is the receipt of an event. -/
theorem received_alone {p : Async Unit} (activity : Activity) :
    ∀ (clock : Nat → Date) (s : Store),
      received (p.alone Activity.background perform activity clock s).history =
        received s.history := by
  have hperform : ∀ (activity : Activity) (date : Date) (op : Call) (s : Store),
      received (perform activity date op s).2.history = received s.history := by
    intro activity date op s
    cases op <;> simp [perform, received]
  induction p with
  | pure a => exact fun _ _ => rfl
  | throw => exact fun _ _ => rfl
  | call op ok err ih _ => exact fun clock s => (ih _ _ _).trans (hperform _ _ op s)
  | spawn op next ih => exact fun clock s => (ih _ _).trans (hperform _ _ op s)

theorem received_start (options : TransactionOptions) (t : String) (clock : Nat → Date)
    (s : Store) : received ((Input.start options t).run clock s).history = received s.history := by
  rw [Input.run, received_alone]
  simp [received, Input.entry]

theorem received_deliver (clientId : ClientIds) (subject : Subjects) (event : TransactionEvent)
    (clock : Nat → Date) (s : Store) :
    received ((Input.deliver clientId subject event).run clock s).history =
      received s.history ++ [(subject, event)] := by
  rw [Input.run, received_alone]
  simp [received, Input.entry]

theorem Input.stage_run (input : Input) (clock : Nat → Date) {s : Store} (h : s.Keyed)
    {key : String} (hkey : key ≠ input.key) : (input.run clock s).stage key = s.stage key := by
  have ha := input.abreast_run s s clock clock (.refl fun v hv => h _ v hv)
  rw [Store.stage, Store.stage, ha.frame key hkey]

namespace Store

variable {s s' : Store} {turn : Turn} {clock : Nat → Date}

theorem calm_initial : (⟨∅, []⟩ : Store).Calm := by
  refine ⟨?_, ?_, ?_⟩
  · intro key value h
    cases h
  · intro key stage h
    cases h
  · intro e h
    cases h

theorem Calm.deliver (h : s.Calm) {clientId : ClientIds} {subject : Subjects}
    {event : TransactionEvent} (hs : s.Settling (.takes (.deliver clientId subject event))) :
    ((Input.deliver clientId subject event).run clock s).Calm := by
  have hown : ((Input.deliver clientId subject event).run clock s).stage
      (transactionKey event.transactionId) =
      Stage.handle subject event (s.stage (transactionKey event.transactionId)) :=
    leaves_handle (s := { s with history := s.history ++ [.received subject event] }) h.keyed
      subject rfl _ clock
  constructor
  · exact Input.keyed_run _ clock h.keyed
  · intro key stage hstage
    by_cases hkey : key = transactionKey event.transactionId
    · subst hkey
      rw [hown] at hstage
      cases hbefore : s.stage (transactionKey event.transactionId) with
      | none =>
        rw [hbefore] at hstage
        exact .made hstage
      | some before =>
        rw [hbefore] at hstage
        exact (h.sound _ _ hbefore).handle hstage
    · rw [Input.stage_run _ clock h.keyed hkey] at hstage
      exact h.sound key stage hstage
  · rintro ⟨subject', e⟩ he
    rw [received_deliver, List.mem_append, List.mem_singleton] at he
    by_cases hkey : transactionKey e.transactionId = transactionKey event.transactionId
    · dsimp only
      rw [hkey, hown]
      have hhandled : ∀ x ∈ s.handled (transactionKey event.transactionId),
          Stage.Quiet x.1 x.2 (s.stage (transactionKey event.transactionId)) := by
        intro x hx
        obtain ⟨hmem, hx⟩ := List.mem_filter.mp hx
        rw [← of_decide_eq_true hx]
        exact h.quiet x hmem
      have he' : (subject', e) ∈ s.handled (transactionKey event.transactionId) ∨
          subject' = subject ∧ e = event :=
        he.imp (fun hmem => List.mem_filter.mpr ⟨hmem, decide_eq_true hkey⟩) Prod.mk.inj
      by_cases hquiet : Stage.Quiet subject event (s.stage (transactionKey event.transactionId))
      · rw [Stage.handle_quiet hquiet]
        rcases he' with hmem | ⟨rfl, rfl⟩
        · exact hhandled _ hmem
        · exact hquiet
      · exact Stage.quiet_steady (h.sound _) hhandled hquiet (hs.resolve_left hquiet) he'
    · rw [Input.stage_run _ clock h.keyed hkey]
      refine h.quiet _ (he.resolve_right ?_)
      rintro ⟨⟩
      exact hkey rfl

theorem Calm.start (h : s.Calm) {options : TransactionOptions} {t : String}
    (hu : s.unused t = true) (hn : (options.steps.map Prod.fst).Nodup) :
    ((Input.start options t).run clock s).Calm := by
  have hown : ((Input.start options t).run clock s).stage (transactionKey (some t)) =
      some (.started (options.steps.map Prod.fst)) :=
    leaves_startTransaction options t { s with history := _ } _ clock
  constructor
  · exact Input.keyed_run _ clock h.keyed
  · intro key stage hstage
    by_cases hkey : key = transactionKey (some t)
    · subst hkey
      rw [hown] at hstage
      obtain rfl := Option.some_inj.mp hstage
      exact .progress hn
    · rw [Input.stage_run _ clock h.keyed hkey] at hstage
      exact h.sound key stage hstage
  · intro e he
    rw [received_start] at he
    have hkey : transactionKey e.2.transactionId ≠ transactionKey (some t) := by
      have hall := (Bool.and_eq_true_iff.mp hu).2
      exact of_decide_eq_true (List.all_eq_true.mp hall e he)
    rw [Input.stage_run _ clock h.keyed hkey]
    exact h.quiet e he

theorem Calm.checkTimeouts (h : s.Calm) : (Turn.checkTimeouts.run clock s).Calm := by
  have hredis : (Turn.checkTimeouts.run clock s).redis = s.redis :=
    redis_writeless writeless_checkTimeouts _ clock s
  constructor
  · intro key value hv
    rw [hredis] at hv
    exact h.keyed key value hv
  · intro key stage hstage
    rw [stage_congr hredis] at hstage
    exact h.sound key stage hstage
  · intro e he
    rw [Turn.run, received_alone] at he
    rw [stage_congr hredis]
    exact h.quiet e he

theorem Calm.settled (h : s.Calm) : s.Settled := by
  intro subject event hmem clientId clock
  have hsame : (Input.deliver clientId subject event).run clock s =
      { s with history := s.history ++ [.received subject event] } :=
    changeless_handle (s := { s with history := s.history ++ [.received subject event] })
      (h.quiet _ hmem) _ clock
  rw [hsame]
  exact ⟨rfl, by simp [publications]⟩

end Store

/-! ## Redelivery -/

/-- In the runs whose steps are settling, whatever has been handled changes nothing and publishes
nothing when it is delivered again. -/
theorem redelivery_changes_nothing {s : Store}
    (h : sequential.Reachable (fun s label => decide (s.Settling label.1)) s) : s.Settled := by
  have hcalm : s.Calm := by
    refine h.induction Store.calm_initial ?_
    rintro s s' - hs ⟨⟨turn, clock⟩, hp, hf⟩
    have hsettling : s.Settling turn := of_decide_eq_true hp
    cases turn with
    | checkTimeouts =>
      obtain rfl := Option.some_inj.mp hf
      exact hs.checkTimeouts
    | takes input =>
      cases input with
      | start options t =>
        unfold sequential at hf
        dsimp only at hf
        split at hf
        · rename_i hu
          obtain rfl := Option.some_inj.mp hf
          exact hs.start hu.1 hu.2
        · cases hf
      | deliver clientId subject event =>
        obtain rfl := Option.some_inj.mp hf
        exact hs.deliver hsettling
  exact hcalm.settled

/-- The step of `oneStep` is completed, and the end is announced. -/
def completed : List (Turn × (Nat → Date)) :=
  [(.takes (.start oneStep "t"), id),
   (.checkTimeouts, id),
   (.takes (.deliver .ORDER_SERVICE .TRANSACTION_STEP_COMPLETED
    { transactionId := some "t"
      stepName := some Subjects.ORDER_APPROVAL_STEP_UPDATE_ORDER_STATUS.value }), id),
   (.takes (.deliver .ORDER_SERVICE .TRANSACTION_COMPLETED { transactionId := some "t" }), id)]

theorem isSome_completed :
    (sequential.run (fun s label => decide (s.Settling label.1)) sequential.initial
      completed).isSome = true := by
  decide +kernel

theorem redelivery_changes_nothing_completed :
    ∃ s : Store, (received s.history).length = 2 ∧ s.Settled :=
  ⟨_, by decide +kernel, redelivery_changes_nothing (Machine.reachable_run completed
    isSome_completed)⟩

/-- The step of `oneStep` fails. -/
def failed : List (Turn × (Nat → Date)) :=
  [(.takes (.start oneStep "t"), id),
   (.takes (.deliver .ORDER_SERVICE .TRANSACTION_STEP_FAILED { transactionId := some "t" }), id)]

theorem isSome_failed :
    (sequential.run (fun _ _ => true) sequential.initial failed).isSome = true := by
  decide +kernel

/-- Where `TRANSACTION_STEP_FAILED` comes twice, the user is notified twice and the compensation
is started twice. -/
theorem failed_again : ¬∀ s, sequential.Reachable (fun _ _ => true) s → s.Settled := by
  intro h
  have hs := h _ (Machine.reachable_run failed isSome_failed)
  have hlength := congrArg List.length
    (hs .TRANSACTION_STEP_FAILED { transactionId := some "t" } (by decide +kernel)
      .ORDER_SERVICE id).2
  revert hlength
  decide +kernel

end InvoiceHub.Transaction
