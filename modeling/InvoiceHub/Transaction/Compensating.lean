import InvoiceHub.Effects.Trace
import InvoiceHub.Transaction.Lawful

/-!
# The order in which compensation is published

`handleExecuteCompensation` starts a `handleCompensationStep` for each completed step, last first,
and does not await it.  A run of the handler alone is looked at: any of its publications may be
delayed, and any of its calls may fail.
-/

namespace InvoiceHub.Transaction

open Effects

/-! ## In order, and before it is recorded -/

/-- The command that compensates a step of `r`. -/
def compensating (r : DistributedTransaction) (step : TransactionStep) : Publication :=
  ⟨.handleCompensationStep, some r.transactionId, compensationCommand r step⟩

/-- The compensation commands that have reached Kafka. -/
def compensations (history : List Entry) : List Publication :=
  history.filterMap fun
    | .published p => if p.publisher = .handleCompensationStep then some p else none
    | _ => none

/-- The commands of all steps to compensate have reached Kafka, last step first. -/
def AllCompensating (r : DistributedTransaction) (history : List Entry) : Prop :=
  compensations history = (completedSteps r).map (compensating r)

/-- What the handler of `r` does after `past`. -/
structure Backed (r : DistributedTransaction) (past : List Entry) (entry : Entry) : Prop where
  /-- The transaction is announced as compensated after all commands. -/
  announced : ∀ p, entry = .published p → p.publisher = .handleExecuteCompensation →
    AllCompensating r past
  /-- It is stored as compensated after all commands. -/
  transaction : ∀ key value, entry = .stored key value → value.status = .COMPENSATED →
    AllCompensating r past
  /-- A step is stored as compensated after its command. -/
  step : ∀ key (value : SerializedTransaction) (i : Nat) (step step' : TransactionStep),
    entry = .stored key value → r.steps[i]? = some step → step.status ≠ .COMPENSATED →
      value.steps[i]? = some step' → step'.status = .COMPENSATED →
        compensating r step ∈ compensations past

/-- The commands reach Kafka last step first, exactly one for each completed step by the time that
nothing is under way any more, and nothing is announced or stored as compensated before they
have. -/
structure PublishedInOrder (r : DistributedTransaction) (s : Cluster) : Prop where
  order : compensations s.world.history <+: (completedSteps r).map (compensating r)
  complete : s.tasks = [] → AllCompensating r s.world.history
  backed : AtEach (Backed r) s.world.history

/-! ## The handler alone -/

/-- The handler of a compensation over a store in which it finds `r`, with nothing else running. -/
def compensation (clientId : ClientIds) (event : TransactionEvent) (redis : Redis)
    (r : DistributedTransaction) : Machine Cluster Cluster.Label where
  initial := Pool.begin Activity.background
    ⟨⟨redis.insert (transactionKey event.transactionId) r.serialize,
      [.received .TRANSACTION_COMPENSATION_START event]⟩, []⟩
    (.handler clientId .TRANSACTION_COMPENSATION_START event)
    (handle clientId .TRANSACTION_COMPENSATION_START event)
  fire := Cluster.fire

/-- Calls are answered, or rejected where they may fail, in any order and after any delay. -/
def delayed {clientId : ClientIds} {event : TransactionEvent} {redis : Redis}
    {r : DistributedTransaction} (failing : Bool) :
    (compensation clientId event redis r).Policy := fun _ label =>
  match label with
  | .advance _ _ => true
  | .reject _ => failing
  | _ => false

/-- The handler goes no further with such a record. -/
def Skipped (r : DistributedTransaction) : Prop :=
  r.status = .COMPENSATING ∨ r.status = .COMPENSATED

section Alone

variable {clientId : ClientIds} {event : TransactionEvent} {redis : Redis}
  {r : DistributedTransaction} {s : Cluster} {failing : Bool}

/-! ### Where there is nothing to compensate -/

/-- A version of `r` at the same step of the same steps. -/
structure SameSteps (r q : DistributedTransaction) : Prop where
  steps : q.steps = r.steps
  currentStep : q.currentStep = r.currentStep

theorem SameSteps.completedSteps {q : DistributedTransaction} (h : SameSteps r q) :
    completedSteps q = completedSteps r := by
  unfold Transaction.completedSteps
  rw [h.steps, h.currentStep]

/-- Without completed steps compensation changes no step. -/
theorem compensatedSteps_of_nil {q : DistributedTransaction} (h : completedSteps q = []) :
    compensatedSteps q = q.steps := by
  have hnone : ∀ step ∈ q.steps.take q.currentStep, ¬step.status = .COMPLETED := by
    intro step hmem hs
    have hin : step ∈ completedSteps q := by simp [completedSteps, hmem, hs]
    rw [h] at hin
    cases hin
  unfold compensatedSteps
  rw [List.map_congr_left fun step hmem => if_neg (hnone step hmem), List.map_id',
    List.take_append_drop]

/-- What the handler may do while there is nothing to compensate. -/
def idleGuard (r : DistributedTransaction) (key : String) :
    Guard Activity Call Call.Res Activity.background where
  answer _ op content :=
    match op, content with
    | .get _, content => ∃ q, content = some (DistributedTransaction.serialize q) ∧ SameSteps r q
    | _, _ => True
  permits _ op :=
    match op with
    | .get k => k = key
    | .set _ value => ∃ q, value = DistributedTransaction.serialize q ∧ SameSteps r q
    | .publish p => p.publisher = .handleExecuteCompensation
    | .getKeysByPattern => False
    | .now => True
  spawns _ _ := False
  started := False.elim

theorem admits_idle {key : String} (hkey : transactionKey event.transactionId = key)
    (hnil : completedSteps r = []) (activity : Activity) : (idleGuard r key).Admits activity
      (handleExecuteCompensation clientId event.transactionId event.processType) := by
  unfold handleExecuteCompensation eventPublisher
  rw [bind_assoc, getTransactionState_bind]
  refine (Prog.guarded_call _ _ _).mpr ⟨hkey, ?_, trivial⟩
  rintro _ ⟨q, rfl, hq⟩
  rw [Option.bind_some, DistributedTransaction.read_serialize]
  dsimp only
  split
  · exact trivial
  · have hsame : ∀ q' : DistributedTransaction, q'.steps = q.steps →
        q'.currentStep = q.currentStep → SameSteps r q' :=
      fun q' hsteps hcurrent => ⟨hsteps.trans hq.steps, hcurrent.trans hq.currentStep⟩
    rw [bind_assoc]
    refine (Prog.guarded_call _ _ _).mpr ⟨⟨_, rfl, hsame _ rfl rfl⟩, fun _ _ => ?_, trivial⟩
    have hpublish : (idleGuard r key).Admits activity (publish ⟨.handleExecuteCompensation,
        event.transactionId, outcomeMessage .TRANSACTION_COMPENSATION_COMPLETED
          event.transactionId event.processType⟩) :=
      (Prog.guarded_call _ _ _).mpr ⟨rfl, fun _ _ => trivial, trivial⟩
    dsimp only
    split
    · rw [hq.completedSteps, hnil, bind_assoc]
      refine (Prog.guarded_call _ _ _).mpr ⟨trivial, fun date _ => ?_, trivial⟩
      refine (Prog.guarded_call _ _ _).mpr ⟨⟨compensate q date, rfl, hsame _ ?_ rfl⟩,
        fun _ _ => hpublish, trivial⟩
      exact compensatedSteps_of_nil (hq.completedSteps.trans hnil)
    · exact hpublish

/-- What the handler writes and publishes while there is nothing to compensate. -/
def Entry.Idle (r : DistributedTransaction) : Entry → Prop
  | .stored _ value => ∃ q, value = DistributedTransaction.serialize q ∧ SameSteps r q
  | .published p => p.publisher = .handleExecuteCompensation
  | _ => True

/-- The states of the handler while there is nothing to compensate. -/
structure Resting (r : DistributedTransaction) (key : String) (s : Cluster) : Prop where
  record : ∃ q, s.world.redis.lookup key = some (DistributedTransaction.serialize q) ∧
    SameSteps r q
  history : ∀ entry ∈ s.world.history, entry.Idle r
  tasks : ∀ task ∈ s.tasks, (idleGuard r key).Keeps task

theorem Resting.advance {key : String} {s s' : Cluster} {j : Nat} {date : Date}
    (h : Resting r key s) (hf : s.fire (.advance j date) = some s') : Resting r key s' := by
  have hf : Pool.advance Activity.background perform s j date = some s' := hf
  obtain ⟨tag, op, ok, err, before, after, hs, hj, hw, -⟩ := Pool.advance_cases hf
  have hop : (idleGuard r key).permits tag op :=
    (h.tasks ⟨tag, .call op ok err⟩ (by simp [hs])).permits
  refine ⟨?_, ?_, Guard.keeps_advance h.tasks hf ?_⟩
  · rw [hw]
    cases op with
    | set k value =>
      obtain ⟨q, rfl, hq⟩ := hop
      by_cases hk : key = k
      · subst hk
        exact ⟨q, AList.lookup_insert _, hq⟩
      · rw [show (perform tag date (Call.set k q.serialize) s.world).2.redis.lookup key =
          s.world.redis.lookup key from AList.lookup_insert_ne hk]
        exact h.record
    | _ => exact h.record
  · rw [hw]
    cases op with
    | set k value =>
      intro entry hentry
      rcases List.mem_append.mp hentry with hentry | hentry
      · exact h.history entry hentry
      · rw [List.mem_singleton.mp hentry]
        exact hop
    | publish p =>
      intro entry hentry
      rcases List.mem_append.mp hentry with hentry | hentry
      · exact h.history entry hentry
      · rw [List.mem_singleton.mp hentry]
        exact hop
    | _ => exact h.history
  · intro tag op ok err _ hpermits
    cases op with
    | get k =>
      obtain rfl : k = key := hpermits
      exact h.record
    | _ => exact trivial

theorem resting_reachable (hnil : completedSteps r = [])
    (h : (compensation clientId event redis r).Reachable (delayed failing) s) :
    Resting r (transactionKey event.transactionId) s := by
  refine h.induction ⟨⟨r, AList.lookup_insert _, rfl, rfl⟩, ?_, ?_⟩ ?_
  · intro entry hentry
    rw [List.mem_singleton.mp hentry]
    trivial
  · exact Guard.keeps_begin (by rintro _ ⟨⟩) (admits_idle rfl hnil _)
  · rintro s s' _ hs ⟨label, hp, hf⟩
    cases label with
    | advance j date => exact hs.advance hf
    | reject j =>
      have hf : Pool.reject Activity.background s j = some s' := hf
      obtain ⟨_, _, _, _, _, _, _, _, hw, _⟩ := Pool.reject_cases hf
      refine ⟨?_, ?_, Guard.keeps_reject hs.tasks hf⟩
      · rw [hw]
        exact hs.record
      · rw [hw]
        exact hs.history
    | _ => cases hp

/-- Nothing is published out of order where there is nothing to compensate. -/
theorem Resting.publishedInOrder {key : String} (h : Resting r key s)
    (hnil : completedSteps r = []) : PublishedInOrder r s := by
  have hnone : ∀ history : List Entry, (∀ entry ∈ history, entry.Idle r) →
      AllCompensating r history := by
    intro history hh
    unfold AllCompensating
    rw [hnil]
    refine List.filterMap_eq_nil_iff.mpr fun entry hentry => ?_
    have hidle := hh entry hentry
    cases entry with
    | published p =>
      have hpublisher : p.publisher = .handleExecuteCompensation := hidle
      have hne : p.publisher ≠ .handleCompensationStep := by
        rw [hpublisher]
        decide
      exact if_neg hne
    | _ => rfl
  have hnow : AllCompensating r s.world.history := hnone _ h.history
  refine ⟨⟨[], (List.append_nil _).trans hnow⟩, fun _ => hnow, ?_⟩
  intro past entry rest hsplit
  have hall : AllCompensating r past := hnone past fun e he => h.history e (by simp [hsplit, he])
  have hentry : entry.Idle r := h.history entry (by simp [hsplit])
  refine ⟨fun _ _ _ => hall, fun _ _ _ _ => hall, ?_⟩
  rintro k value i step step' rfl hstep hne hstep' hs
  obtain ⟨q, rfl, hq⟩ := hentry
  have hsteps : q.serialize.steps = r.steps := hq.steps
  rw [hsteps, hstep] at hstep'
  exact absurd (Option.some_inj.mp hstep' ▸ hs) hne

/-! ### Where there is something to compensate -/

/-- The loop starts all its publications and goes on. -/
theorem launch_handleCompensationSteps {activity : Activity} {k : Unit → Async Unit} {op : Call}
    {ok : op.Res → Async Unit} {err : Async Unit} (hk : k () = .call op ok err)
    (steps : List TransactionStep) :
    Task.launch Activity.background activity (handleCompensationSteps r steps >>= k) =
      ⟨activity, .call op ok err⟩ :: steps.map fun step =>
        ⟨.unawaited (.publish (compensating r step)),
          .call (.publish (compensating r step)) (fun _ => .pure ()) .throw⟩ := by
  have hsettle : (handleCompensationSteps r steps >>= k).settle =
      (steps.map fun step => .publish (compensating r step), .call op ok err) := by
    induction steps with
    | nil => exact congrArg Prog.settle hk
    | cons step rest ih =>
      change (_ :: (handleCompensationSteps r rest >>= k).settle.1,
        (handleCompensationSteps r rest >>= k).settle.2) = _
      rw [ih]
      rfl
  unfold Task.launch
  rw [hsettle]
  simp [Prog.Waiting, Activity.background]

/-- The handler reads the record first. -/
theorem handleExecuteCompensation_eq (clientId : ClientIds) (id processType : Option String)
    (r : DistributedTransaction) :
    ∃ ok : Option SerializedTransaction → Async Unit,
      handleExecuteCompensation clientId id processType =
        .call (.get (transactionKey id)) ok .throw ∧
      (Skipped r → ok (some r.serialize) = .pure ()) ∧
      (¬Skipped r → r.steps ≠ [] → ∃ k : Unit → Async Unit,
        ok (some r.serialize) =
          .call (.set (transactionKey (some r.transactionId)) (beginCompensation r).serialize)
            (fun _ => handleCompensationSteps r (completedSteps r) >>= k) .throw ∧
        k () = .call .now (fun date =>
          .call (.set (transactionKey (some r.transactionId)) (compensate r date).serialize)
            (fun _ => publish ⟨.handleExecuteCompensation, id,
              outcomeMessage .TRANSACTION_COMPENSATION_COMPLETED id processType⟩) .throw) .throw) := by
  unfold handleExecuteCompensation eventPublisher Skipped
  rw [bind_assoc, getTransactionState_bind]
  refine ⟨_, rfl, fun hskip => ?_, fun hskip hne => ⟨fun _ => newDate >>= fun date =>
    storeTransactionState (compensate r date) >>= fun _ =>
      publish ⟨.handleExecuteCompensation, id,
        outcomeMessage .TRANSACTION_COMPENSATION_COMPLETED id processType⟩, ?_, rfl⟩⟩
  · rw [Option.bind_some, DistributedTransaction.read_serialize]
    dsimp only
    rw [if_pos hskip]
    rfl
  · rw [Option.bind_some, DistributedTransaction.read_serialize]
    dsimp only
    rw [if_neg hskip, bind_assoc, if_pos hne, bind_assoc]
    rfl

/-- The handler's own call is answered first. -/
theorem reachable_head {world : Store} {activity : Activity} {op : Call}
    {ok : op.Res → Async Unit} {err : Async Unit} {rest : List (Task Activity Call Call.Res)}
    (h : (compensation clientId event redis r).Reachable (delayed failing)
      ⟨world, ⟨activity, .call op ok err⟩ :: rest⟩) (date : Date) :
    (compensation clientId event redis r).Reachable (delayed failing)
      ⟨(perform activity date op world).2, Task.launch Activity.background activity
        (ok (perform activity date op world).1) ++ rest⟩ :=
  h.tail ⟨.advance 0 date, rfl, Pool.advance_head ..⟩

/-- The handler has read the record. -/
theorem reachable_read (redis : Redis) (failing : Bool)
    {ok : Option SerializedTransaction → Async Unit}
    (hprog : handleExecuteCompensation clientId event.transactionId event.processType =
      .call (.get (transactionKey event.transactionId)) ok .throw) (date : Date) :
    (compensation clientId event redis r).Reachable (delayed failing)
      ⟨⟨redis.insert (transactionKey event.transactionId) r.serialize,
        [.received .TRANSACTION_COMPENSATION_START event]⟩,
        Task.launch Activity.background (.handler clientId .TRANSACTION_COMPENSATION_START event)
          (ok (some r.serialize)) ++ []⟩ := by
  let activity := Activity.handler clientId .TRANSACTION_COMPENSATION_START event
  have hstart : (compensation clientId event redis r).Reachable (delayed failing)
      ⟨⟨redis.insert (transactionKey event.transactionId) r.serialize,
        [.received .TRANSACTION_COMPENSATION_START event]⟩,
        [⟨activity, .call (.get (transactionKey event.transactionId)) ok .throw⟩]⟩ := by
    have hinitial : (compensation clientId event redis r).initial =
        ⟨⟨redis.insert (transactionKey event.transactionId) r.serialize,
          [.received .TRANSACTION_COMPENSATION_START event]⟩,
          Task.launch Activity.background activity
            (handleExecuteCompensation clientId event.transactionId event.processType)⟩ := rfl
    rw [hprog] at hinitial
    have hrefl : (compensation clientId event redis r).Reachable (delayed failing)
      (compensation clientId event redis r).initial := .refl
    rw [hinitial] at hrefl
    exact hrefl
  have hread := reachable_head hstart date
  simpa only [perform, AList.lookup_insert] using hread

/-- Where the handler goes no further, nothing is published. -/
theorem skipped_unpublished (clientId : ClientIds) (event : TransactionEvent) (redis : Redis)
    (hskip : Skipped r) :
    ∃ s, (compensation clientId event redis r).Reachable (delayed failing) s ∧ s.tasks = [] ∧
      s.world.history = [.received .TRANSACTION_COMPENSATION_START event] := by
  obtain ⟨ok, hprog, hreturns, -⟩ := handleExecuteCompensation_eq clientId event.transactionId
    event.processType r
  have hread := reachable_read (r := r) redis failing hprog 0
  rw [hreturns hskip] at hread
  exact ⟨_, hread, rfl, rfl⟩

/-- The transaction can be stored as compensated before any command has reached Kafka. -/
theorem stored_before_published (clientId : ClientIds) (event : TransactionEvent)
    (redis : Redis) (hskip : ¬Skipped r) (hne : completedSteps r ≠ []) (date : Date) :
    ∃ s, (compensation clientId event redis r).Reachable (delayed failing) s ∧
      s.world.history = [.received .TRANSACTION_COMPENSATION_START event,
        .stored (transactionKey (some r.transactionId)) (beginCompensation r).serialize,
        .stored (transactionKey (some r.transactionId)) (compensate r date).serialize] := by
  have hsteps : r.steps ≠ [] := by
    rintro hnil
    exact hne (by simp [completedSteps, hnil])
  obtain ⟨ok, hprog, -, hgoesOn⟩ := handleExecuteCompensation_eq clientId event.transactionId
    event.processType r
  obtain ⟨k, hok, hk⟩ := hgoesOn hskip hsteps
  have hread := reachable_read (r := r) redis failing hprog date
  rw [hok] at hread
  have hstored := reachable_head hread date
  simp only [perform, launch_handleCompensationSteps hk] at hstored
  have hnow := reachable_head hstored date
  have hcompensated := reachable_head hnow date
  exact ⟨_, hcompensated, rfl⟩

/-- Where there is something to compensate, what is stored as compensated has to come after the
commands. -/
theorem not_backed (past : List Entry) (hne : completedSteps r ≠ [])
    {value : SerializedTransaction} {key : String} {rest : List Entry}
    (hv : value.status = .COMPENSATED) (hpast : compensations past = []) :
    ¬AtEach (Backed r) (past ++ .stored key value :: rest) := by
  intro h
  have hall : AllCompensating r past := (h past _ rest rfl).transaction key value rfl hv
  unfold AllCompensating at hall
  rw [hpast, eq_comm, List.map_eq_nil_iff] at hall
  exact hne hall

/-- Compensation is published in order, each command exactly once, and before it is recorded, in
every run of the handler alone exactly where no step below `currentStep` is completed, whether calls
may fail or not. -/
theorem published_in_order_iff (clientId : ClientIds) (event : TransactionEvent) (redis : Redis)
    (r : DistributedTransaction) (failing : Bool) :
    (∀ s, (compensation clientId event redis r).Reachable (delayed failing) s →
      PublishedInOrder r s) ↔ completedSteps r = [] := by
  constructor
  · intro h
    by_contra hne
    by_cases hskip : Skipped r
    · -- the handler returns at once, and no command has been published
      obtain ⟨s, hs, hended, hhistory⟩ := skipped_unpublished clientId event redis hskip
      have hall := (h s hs).complete hended
      rw [hhistory] at hall
      exact hne (List.map_eq_nil_iff.mp hall.symm)
    · obtain ⟨s, hs, hhistory⟩ := stored_before_published clientId event redis hskip hne 0
      have hbacked := (h s hs).backed
      rw [hhistory] at hbacked
      exact not_backed [_, _] hne rfl rfl hbacked
  · intro hnil s hs
    exact (resting_reachable hnil hs).publishedInOrder hnil

end Alone

/-- A transaction of one completed step that times out before its second one is completed. -/
def oneCompleted : DistributedTransaction where
  transactionId := "t"
  processType := .ORDER_APPROVAL
  status := .TIMED_OUT
  startedAt := 0
  currentStep := 1
  initiatedBy := "user"
  payload := ∅
  steps := [⟨"update", .ORDER_SERVICE, .COMPLETED, none, some 0, some 0⟩,
    ⟨"generate", .INVOICE_SERVICE, .PENDING, none, some 0, none⟩]

/-- Its compensation is stored as done before its command is published. -/
theorem recorded_before_published :
    ¬∀ s, (compensation .ORDER_SERVICE { transactionId := some "t" } ∅ oneCompleted).Reachable
      (delayed false) s → PublishedInOrder oneCompleted s := by
  intro h
  have hskip : ¬Skipped oneCompleted := by
    unfold Skipped
    decide
  have hne : completedSteps oneCompleted ≠ [] := by decide
  obtain ⟨s, hs, hhistory⟩ := stored_before_published .ORDER_SERVICE
    { transactionId := some "t" } ∅ hskip hne 0
  have hbacked := (h s hs).backed
  rw [hhistory] at hbacked
  exact not_backed [_, _] hne rfl rfl hbacked

end InvoiceHub.Transaction
