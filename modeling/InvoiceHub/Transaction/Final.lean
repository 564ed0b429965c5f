import InvoiceHub.Transaction.Outcome
import InvoiceHub.Transaction.Shape

/-!
# When a compensated transaction stays as it is

The handlers of step events do not look at the status of the record.  In a closed run in which
none of them finds a compensated record with the step it is about, a compensated record keeps
its status and its steps, and none of these is completed (`settled_discipline`).
-/

namespace InvoiceHub.Transaction

open Effects

/-- `w`, written after `v`, leaves a compensated record as it is. -/
def Frozen (v w : SerializedTransaction) : Prop :=
  v.status = .COMPENSATED → w.status = v.status ∧ w.currentStep = v.currentStep ∧
    w.steps.map TransactionStep.status = v.steps.map TransactionStep.status

theorem Frozen.refl (v : SerializedTransaction) : Frozen v v := fun _ => ⟨rfl, rfl, rfl⟩

theorem Frozen.trans {u v w : SerializedTransaction} (h : Frozen u v) (h' : Frozen v w) :
    Frozen u w := by
  intro hu
  obtain ⟨hs, hc, hm⟩ := h hu
  obtain ⟨hs', hc', hm'⟩ := h' (hs.trans hu)
  exact ⟨hs'.trans hs, hc'.trans hc, hm'.trans hm⟩

theorem frozen_of_ne {v w : SerializedTransaction} (h : v.status ≠ .COMPENSATED) : Frozen v w :=
  fun hv => absurd hv h

/-- The record `r` of a transaction that stays as compensation leaves it. -/
structure Settled (r : DistributedTransaction) (ℓ : View) : Prop where
  decided : Decided r ℓ
  shape : ∃ options, Shape options r
  frozen : (writes ℓ.history).Pairwise Frozen
  latest : ∀ v ∈ writes ℓ.history, Frozen v r.serialize
  undone : ∀ v ∈ writes ℓ.history, v.status = .COMPENSATED →
    ∀ step ∈ v.steps, step.status ≠ .COMPLETED
  announced : Announcing .handleExecuteCompensation ℓ → r.status = .COMPENSATED ∨ r.steps = []

/-- No event about a step that the record still has finds the record compensated. -/
structure NotLate (subject : Subjects) (event : TransactionEvent) (ℓ : View) : Prop where
  completed : ∀ r step, ℓ.record = some (DistributedTransaction.serialize r) →
    r.status = .COMPENSATED → subject = .TRANSACTION_STEP_COMPLETED →
    r.steps[r.currentStep]? = some step → event.stepName ≠ some step.name
  failed : ∀ r, ℓ.record = some (DistributedTransaction.serialize r) →
    r.status = .COMPENSATED → subject = .TRANSACTION_STEP_FAILED →
    r.steps[r.currentStep]? = none

/-- Compensation leaves no step completed. -/
theorem not_completed_compensatedSteps {r : DistributedTransaction} {options : TransactionOptions}
    (h : Shape options r) : ∀ step ∈ compensatedSteps r, step.status ≠ .COMPLETED := by
  intro step hmem
  obtain ⟨i, hi⟩ := List.mem_iff_getElem?.mp hmem
  rw [getElem?_compensatedSteps] at hi
  obtain ⟨s, hs, rfl⟩ := Option.map_eq_some_iff.mp hi
  split
  · exact nofun
  · rename_i hn
    intro hcompleted
    rcases Nat.lt_trichotomy i r.currentStep with hlt | rfl | hlt
    · exact hn ⟨hlt, hcompleted⟩
    · rcases h.current s hs with h | h <;> rw [h] at hcompleted <;> cases hcompleted
    · rw [h.pending i s hs hlt] at hcompleted
      cases hcompleted

namespace Settled

variable {r r' : DistributedTransaction} {ℓ : View}

/-- An entry that writes nothing and agrees with the record. -/
theorem pass (h : Settled r ℓ) {entry : Entry} (hd : Decided r (ℓ.apply entry))
    (hw : writes [entry] = [])
    (ha : ∀ p, entry = .published p → p.publisher = .handleExecuteCompensation →
      r.status = .COMPENSATED ∨ r.steps = []) : Settled r (ℓ.apply entry) := by
  have hwrites : writes (ℓ.apply entry).history = writes ℓ.history := by
    simp only [View.apply, writes, List.filterMap_append] at hw ⊢
    rw [hw, List.append_nil]
  refine ⟨hd, h.shape, hwrites ▸ h.frozen, hwrites ▸ h.latest, hwrites ▸ h.undone, fun hann => ?_⟩
  rcases announcing_apply.mp hann with hann | ⟨p, hp, hpub⟩
  · exact h.announced hann
  · exact ha p hp hpub

/-- The write of a transition that leaves a compensated record as it is. -/
theorem store (h : Settled r ℓ) (hd : Decided r' (ℓ.apply (written r'))) (ht : Transition r r')
    (hf : Frozen r.serialize r'.serialize)
    (hu : r'.status = .COMPENSATED → ∀ step ∈ r'.steps, step.status ≠ .COMPLETED)
    (ha : r.status = .COMPENSATED ∨ r.steps = [] → r'.status = .COMPENSATED ∨ r'.steps = []) :
    Settled r' (ℓ.apply (written r')) := by
  have hwrites : writes (ℓ.apply (written r')).history = writes ℓ.history ++ [r'.serialize] := by
    simp [writes, written]
  refine ⟨hd, ?_, ?_, ?_, ?_, ?_⟩
  · obtain ⟨options, hs⟩ := h.shape
    exact ⟨options, hs.transition ht⟩
  · rw [hwrites, List.pairwise_append]
    refine ⟨h.frozen, List.pairwise_singleton _ _, fun v hv w hw => ?_⟩
    rw [List.mem_singleton.mp hw]
    exact (h.latest v hv).trans hf
  · intro v hv
    rw [hwrites, List.mem_append, List.mem_singleton] at hv
    rcases hv with hv | rfl
    · exact (h.latest v hv).trans hf
    · exact Frozen.refl _
  · intro v hv
    rw [hwrites, List.mem_append, List.mem_singleton] at hv
    rcases hv with hv | rfl
    · exact h.undone v hv
    · exact hu
  · intro hann
    rcases announcing_apply.mp hann with hann | ⟨p, hp, -⟩
    · exact ha (h.announced hann)
    · cases hp

/-- The write of a record that was not compensated and is not compensated now. -/
theorem store_open (h : Settled r ℓ) (hd : Decided r' (ℓ.apply (written r')))
    (ht : Transition r r') (hr : r.status ≠ .COMPENSATED) (hr' : r'.status ≠ .COMPENSATED)
    (hl : r'.steps.length = r.steps.length) : Settled r' (ℓ.apply (written r')) := by
  refine h.store hd ht (frozen_of_ne hr) (fun hc => absurd hc hr') ?_
  rintro (hc | hnil)
  · exact absurd hc hr
  · rw [hnil, List.length_nil] at hl
    exact .inr (List.eq_nil_of_length_eq_zero hl)

theorem progress (h : Settled r ℓ) {id : Option String} {entry : Entry}
    (hm : Progresses id ℓ.record entry) : ∃ r', Settled r' (ℓ.apply entry) := by
  obtain ⟨q, hq⟩ := h.decided.progress hm
  generalize hc : ℓ.record = content at hm
  have hsame : ∀ {q : DistributedTransaction}, ℓ.record = some q.serialize → r = q :=
    fun hq => serialize_inj (Option.some_inj.mp (h.decided.record.symm.trans hq))
  have hopen : Active r → r.status ≠ .COMPENSATED := by
    rintro (hs | hs) <;> rw [hs] <;> decide
  cases hm with
  | beginStep date hact hstep =>
    obtain rfl := hsame hc
    exact ⟨_, h.store_open (decided_of_written hq) (.beginStep _ date hact hstep) (hopen hact)
      (by rintro ⟨⟩) (by simp [beginStep])⟩
  | command step _ _ =>
    exact ⟨r, h.pass (h.decided.publish_neutral (.inl rfl)) rfl (by rintro p ⟨⟩ hp; cases hp)⟩
  | complete date hact hnone =>
    obtain rfl := hsame hc
    exact ⟨_, h.store_open (decided_of_written hq) (.complete date) (hopen hact) (by rintro ⟨⟩)
      rfl⟩
  | completed hst =>
    obtain rfl := hsame hc
    exact ⟨r, h.pass (h.decided.publish_completed hst) rfl (by rintro p ⟨⟩ hp; cases hp)⟩

/-- Every move of a handler that is not late leaves a compensated record as it is. -/
theorem move (h : Settled r ℓ) {clientId : ClientIds} {event : TransactionEvent}
    {subject : Subjects} {entry : Entry} (hs : Sanctioned subject ℓ)
    (hl : NotLate subject event ℓ) (hm : Moves clientId event subject ℓ.record entry) :
    ∃ r', Settled r' (ℓ.apply entry) := by
  obtain ⟨q, hq⟩ := h.decided.move hs hm
  generalize hc : ℓ.record = content at hm
  have hsame : ∀ {q : DistributedTransaction}, ℓ.record = some q.serialize → r = q :=
    fun hq => serialize_inj (Option.some_inj.mp (h.decided.record.symm.trans hq))
  cases hm with
  | @completeStep q step date hstep hname =>
    obtain rfl := hsame hc
    have hr : r.status ≠ .COMPENSATED := fun hst =>
      hl.completed r step hc hst rfl hstep hname
    exact ⟨_, h.store_open (decided_of_written hq) (.completeStep step date hstep) hr hr
      (by simp [completeStep])⟩
  | progress hm => exact h.progress (hc ▸ hm)
  | @failStep q step hstep =>
    obtain rfl := hsame hc
    have hr : r.status ≠ .COMPENSATED := fun hst => by
      rw [hl.failed r hc hst rfl] at hstep
      cases hstep
    exact ⟨_, h.store_open (decided_of_written hq) (.failStep step event.error hstep) hr
      (by rintro ⟨⟩)
      (by simp [failStep])⟩
  | timeOut hst =>
    obtain rfl := hsame hc
    exact ⟨_, h.store_open (decided_of_written hq) (.timeOut hst) (by rw [hst]; decide)
      (by rintro ⟨⟩) rfl⟩
  | notification errorMessage date =>
    exact ⟨r, h.pass (h.decided.publish_neutral (.inr rfl)) rfl (by rintro p ⟨⟩ hp; cases hp)⟩
  | compensationStart step hst _ =>
    obtain rfl := hsame hc
    have hf : Failing r.status := by
      rcases hst with hst | hst <;> rw [hst] <;> decide
    exact ⟨r, h.pass (h.decided.publish_started hf) rfl
      (by rintro p ⟨⟩ hp; cases hp)⟩
  | beginCompensation hst =>
    obtain rfl := hsame hc
    exact ⟨_, h.store_open (decided_of_written hq) .beginCompensation (fun h => hst (.inr h))
      (by rintro ⟨⟩) rfl⟩
  | compensate date hst =>
    obtain rfl := hsame hc
    obtain ⟨options, hshape⟩ := h.shape
    exact ⟨_, h.store (decided_of_written hq) (.compensate date)
      (frozen_of_ne (by rw [show r.serialize.status = _ from hst]; decide))
      (fun _ => not_completed_compensatedSteps hshape) fun _ => .inl rfl⟩
  | compensated hst =>
    obtain rfl := hsame hc
    have hf : Failing r.status := by
      rcases hst with hst | ⟨hst, -⟩ <;> rw [hst] <;> decide
    exact ⟨r, h.pass (h.decided.publish_compensated hf) rfl
      fun _ _ _ => hst.imp id And.right⟩
  | closeCompensated date hst =>
    obtain rfl := hsame hc
    have hnil := (h.announced (hs _ rfl)).resolve_left hst
    exact ⟨_, h.store (decided_of_written hq) (.compensated date) (frozen_of_ne hst)
      (fun _ step hmem => by simp [close, hnil] at hmem) fun _ => .inl rfl⟩
  | closeCompleted date hst =>
    obtain rfl := hsame hc
    exact absurd (h.decided.completed (hs _ rfl)) hst
  | minimal processType startedAt completedAt hn _ =>
    rw [← hc, h.decided.record] at hn
    simp at hn

end Settled

/-- The handler of a step event that is not late writes no compensated record. -/
theorem NotLate.write_ne {clientId : ClientIds} {event : TransactionEvent} {subject : Subjects}
    {ℓ : View} {key : String} {value : SerializedTransaction} (h : NotLate subject event ℓ)
    {r : DistributedTransaction} (hr : ℓ.record = some r.serialize)
    (hs : subject = .TRANSACTION_STEP_COMPLETED ∨ subject = .TRANSACTION_STEP_FAILED)
    (hm : Moves clientId event subject ℓ.record (.stored key value)) :
    value.status ≠ .COMPENSATED := by
  generalize hc : ℓ.record = content at hm
  cases hm with
  | @completeStep q step date hstep hname =>
    exact fun hst => h.completed q step hc hst rfl hstep hname
  | progress hm =>
    cases hm with
    | beginStep _ _ _ => exact nofun
    | complete _ _ _ => exact nofun
  | failStep _ => exact nofun
  | minimal _ _ _ hn _ =>
    rw [← hc, hr] at hn
    simp at hn
  | timeOut _ => exact nofun
  | _ => rcases hs with hs | hs <;> cases hs

/-- A handler that is not late when it starts is not late further on. -/
theorem NotLate.move {clientId : ClientIds} {event : TransactionEvent} {subject : Subjects}
    {ℓ : View} {entry : Entry} (h : NotLate subject event ℓ) {r : DistributedTransaction}
    (hr : ℓ.record = some r.serialize) (hm : Moves clientId event subject ℓ.record entry) :
    NotLate subject event (ℓ.apply entry) := by
  cases entry with
  | stored key value =>
    refine ⟨?_, ?_⟩
    · rintro r' step ⟨⟩ hst hs
      exact absurd hst (h.write_ne hr (.inl hs) hm)
    · rintro r' ⟨⟩ hst hs
      exact absurd hst (h.write_ne hr (.inr hs) hm)
  | _ => exact ⟨h.completed, h.failed⟩

/-! ## Runs without late events -/

/-- The handler of a step event would change the compensated record it finds. -/
def late (subject : Subjects) (event : TransactionEvent) :
    Option DistributedTransaction → Bool
  | some r => decide (r.status = .COMPENSATED) &&
    match subject, r.steps[r.currentStep]? with
    | .TRANSACTION_STEP_COMPLETED, some step => event.stepName == some step.name
    | .TRANSACTION_STEP_FAILED, some _ => true
    | _, _ => false
  | none => false

/-- Closed runs in which no handler of a step event is late. -/
def punctualPolicy : Cluster.Policy := fun s label =>
  closedPolicy s label &&
    match label with
    | .deliver _ subject event => !late subject event
        ((s.world.redis.lookup (transactionKey event.transactionId)).bind
          SerializedTransaction.read)
    | _ => true

theorem punctual_closed (s : Cluster) (label : Cluster.Label)
    (h : punctualPolicy s label = true) : closedPolicy s label = true :=
  (Bool.and_eq_true_iff.mp h).1

theorem notLate_of_punctual {s : Cluster} {clientId : ClientIds} {subject : Subjects}
    {event : TransactionEvent} {t : String}
    (hd : punctualPolicy s (.deliver clientId subject event) = true)
    (hk : transactionKey event.transactionId = transactionKey (some t)) :
    NotLate subject event (s.world.view t) := by
  have hlate : late subject event ((s.world.redis.lookup (transactionKey (some t))).bind
      SerializedTransaction.read) = false := by
    rw [← hk]
    simpa using (Bool.and_eq_true_iff.mp hd).2
  refine ⟨?_, ?_⟩
  · rintro r step hr hst rfl hstep hname
    rw [show s.world.redis.lookup (transactionKey (some t)) = some r.serialize from hr] at hlate
    simp [late, hst, hstep, hname] at hlate
  · rintro r hr hst rfl
    rw [show s.world.redis.lookup (transactionKey (some t)) = some r.serialize from hr] at hlate
    cases hstep : r.steps[r.currentStep]? with
    | none => rfl
    | some step => simp [late, hst, hstep] at hlate

theorem Untouched.settled {ℓ : View} (h : Untouched ℓ) (options : TransactionOptions) (t : String)
    (date : Date) :
    Settled (newTransaction options t date)
      ((ℓ.apply (.created t options)).apply (written (newTransaction options t date))) := by
  have hd := h.start options t date
  have hw : writes ((ℓ.apply (.created t options)).apply
      (written (newTransaction options t date))).history =
        [(newTransaction options t date).serialize] := by
    have hw := h.writes_eq_nil
    simp only [writes] at hw
    simp [writes, View.apply, written, hw]
  refine ⟨hd, ⟨options, .newTransaction options t date⟩, ?_, ?_, ?_, ?_⟩
  · rw [hw]
    exact List.pairwise_singleton _ _
  · intro v hv
    rw [hw, List.mem_singleton] at hv
    exact hv ▸ Frozen.refl _
  · intro v hv hst
    rw [hw, List.mem_singleton] at hv
    subst hv
    cases hst
  · exact fun ha => absurd (hd.compensated ha) (show ¬Failing .STARTED by decide)

theorem settled_discipline (t : String) :
    Discipline punctualPolicy t (fun ℓ => Untouched ℓ ∨ ∃ r, Settled r ℓ)
      (fun ℓ => Untouched ℓ ∨ ∃ r, Settled r ℓ) True := by
  refine closed_discipline punctual_closed t (fun ℓ => ∃ r, Settled r ℓ) ?_ ?_ ?_ ?_
  · exact fun _ ℓ options date _ h => ⟨_, h.settled options t date⟩
  · exact fun ℓ entry he ⟨_, hr⟩ => hr.progress he
  · rintro ℓ ⟨r, hr⟩ hn
    cases hr.decided.record.symm.trans hn
  · rintro s clientId subject event - hd hk ⟨r, h⟩ hs notified dates
    have hl := notLate_of_punctual hd hk
    have hreceived : ∃ r, Settled r ((s.world.view t).apply (.received subject event)) :=
      ⟨r, h.pass (h.decided.pass rfl rfl nofun) rfl nofun⟩
    have hl' : NotLate subject event ((s.world.view t).apply (.received subject event)) :=
      ⟨hl.completed, hl.failed⟩
    refine (along_react
      (I := fun ℓ => Sanctioned subject ℓ ∧ NotLate subject event ℓ ∧ ∃ r, Settled r ℓ) clientId
      event subject ?_ ⟨hs.apply _, hl', hreceived⟩ notified dates).mono
      (fun _ h => h.2.2) (fun _ h => h.2.2)
    rintro ℓ entry hm ⟨hs, hl, r, hr⟩
    exact ⟨hs.apply entry, hl.move hr.decided.record hm, hr.move hs hl hm⟩

/-- Compensation of `t` is final: a compensated record keeps its status, its `currentStep` and the
statuses of its steps, and none of these is completed. -/
structure CompensationFinal (s : Cluster) (t : String) : Prop where
  frozen : (writes (s.world.view t).history).Pairwise Frozen
  undone : ∀ v ∈ writes (s.world.view t).history, v.status = .COMPENSATED →
    ∀ step ∈ v.steps, step.status ≠ .COMPLETED

/-- In a closed run without late step events compensation is final. -/
theorem compensation_final {s : Cluster} (h : Cluster.Reachable punctualPolicy s) (t : String) :
    CompensationFinal s t := by
  rcases ((settled_discipline t).always h).elim id id with hu | ⟨r, hr⟩
  · exact ⟨by simp [hu.writes_eq_nil], by simp [hu.writes_eq_nil]⟩
  · exact ⟨hr.frozen, hr.undone⟩

/-- The step of `oneStep` is slow: the transaction times out and is compensated. -/
def timedOut : List Cluster.Label :=
  startOneStep ++
  [.deliver .ORDER_SERVICE .TRANSACTION_TIMEOUT { transactionId := some "t" }] ++
  List.replicate 7 (.advance 0 0) ++
  [.deliver .ORDER_SERVICE .TRANSACTION_COMPENSATION_START
    { transactionId := some "t", processType := some ProcessType.ORDER_APPROVAL.value }] ++
  List.replicate 5 (.advance 0 0)

theorem compensation_final_timedOut :
    CompensationFinal ((Cluster.run punctualPolicy timedOut).get (by decide)) "t" :=
  compensation_final (Machine.reachable_run _ _) "t"

/-- The slow step reports its completion after all, and the compensated record takes it. -/
theorem compensation_not_final :
    ∃ s, Cluster.Reachable closedPolicy s ∧ ¬CompensationFinal s "t" := by
  refine ⟨_, Machine.reachable_run
    (timedOut ++ [stepCompleted] ++ List.replicate 4 (.advance 0 0)) (by decide), fun h => ?_⟩
  have hstep := (List.pairwise_map
    (f := fun v : SerializedTransaction => (v.status, v.currentStep))
    (R := fun a b => a.1 = .COMPENSATED → b.2 = a.2)).mpr (h.frozen.imp fun ha hv => (ha hv).2.1)
  revert hstep
  decide

end InvoiceHub.Transaction
