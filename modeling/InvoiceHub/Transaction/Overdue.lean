import InvoiceHub.Transaction.Lawful
import InvoiceHub.Transaction.Locality

/-!
# Only overdue steps time out

A run with a clock that never goes back, and with what the timeout checkers have found overdue.
Between the checker's test and the handler of `TRANSACTION_TIMEOUT` lies a topic: the handler reads
the record again, but does not test it again.
-/

namespace InvoiceHub.Transaction

open Effects

/-! ## Runs with a clock -/

/-- When the current step of a record was started. -/
def startedAt (r : DistributedTransaction) : Option Date :=
  r.steps[r.currentStep]?.bind (·.startedAt)

/-- `startedAt + timeoutThreshold < now`: the test of the timeout checker. -/
def HasTimedOut (startedAt now : Date) : Prop := startedAt + timeoutThreshold < now

/-- A step that has been started: that of the transaction at this position, started then. -/
structure StartedStep where
  transactionId : String
  currentStep : Nat
  startedAt : Date
  deriving DecidableEq

/-- The step that a record is at. -/
def startedStep (r : DistributedTransaction) : Option StartedStep :=
  (startedAt r).map fun start => ⟨r.transactionId, r.currentStep, start⟩

/-- The processes, the time, and the steps that the timeout checkers have found overdue. -/
structure Timed where
  cluster : Cluster
  clock : Date
  found : List StartedStep

namespace Timed

/-- The reading of the clock that a label carries. -/
def date? : Cluster.Label → Option Date
  | .start _ _ date => some date
  | .advance _ date => some date
  | _ => none

/-- What a timeout checker finds: it starts a publication about the record it has just read. -/
def finds (s : Cluster) : Cluster.Label → List StartedStep
  | .advance j _ =>
    match s.tasks[j]? with
    | some ⟨.checkTimeouts, .call (.get key) ok _⟩ =>
      match (s.world.redis.lookup key).bind SerializedTransaction.read with
      | some r =>
        if (ok (s.world.redis.lookup key)).settle.1.isEmpty then []
        else (startedStep r).toList
      | none => []
    | _ => []
  | _ => []

/-- A step of the cluster at a time that is not before the last one. -/
def fire (s : Timed) (label : Cluster.Label) : Option Timed :=
  if (date? label).all (s.clock ≤ ·) then
    (s.cluster.fire label).map fun cluster =>
      { cluster
        clock := (date? label).getD s.clock
        found := s.found ++ finds s.cluster label }
  else none

/-- The cluster with its clock as a machine. -/
def machine : Machine Timed Cluster.Label := ⟨⟨.initial, 0, []⟩, fire⟩

/-- Where the step is the first read of a handler of `TRANSACTION_TIMEOUT` and finds its
transaction in progress, the transaction is still at a step that a checker has found overdue. -/
def Confirmed (s : Timed) (label : Cluster.Label) : Prop :=
  ∀ j date clientId event r, label = .advance j date →
    s.cluster.tasks[j]? = some ⟨.handler clientId .TRANSACTION_TIMEOUT event,
      handleTransactionTimeout event⟩ →
    s.cluster.world.redis.lookup (transactionKey event.transactionId) =
      some (DistributedTransaction.serialize r) → r.status = .IN_PROGRESS →
    ∃ started ∈ s.found, startedStep r = some started

/-- Where the step is the write of `TIMED_OUT` by the handler of `TRANSACTION_TIMEOUT`, the current
step of the record was started more than five minutes before. -/
def Overdue (s : Timed) (label : Cluster.Label) : Prop :=
  ∀ j date clientId event key value ok err, label = .advance j date →
    s.cluster.tasks[j]? = some ⟨.handler clientId .TRANSACTION_TIMEOUT event,
      .call (.set key value) ok err⟩ → value.status = .TIMED_OUT →
    ∃ (step : TransactionStep) (start : Date), value.steps[value.currentStep]? = some step ∧
      step.startedAt = some start ∧ HasTimedOut start date

end Timed

/-! ## What the tasks stand at -/

/-- A timeout checker at an await: its `now` has passed. -/
inductive CheckerAt (clock : Date) : Async Unit → Prop where
  | keys : CheckerAt clock checkTimeouts
  | now (keys : List String) :
      CheckerAt clock (.call .now (fun now => checkTimeoutsOf now keys) .throw)
  | loop (now : Date) (keys : List String) : now ≤ clock → CheckerAt clock (checkTimeoutsOf now keys)
  | thrown : CheckerAt clock .throw

/-- A handler of `TRANSACTION_TIMEOUT` at an await: the record it is about to write is overdue. -/
inductive TimeoutAt (clock : Date) (event : TransactionEvent) : Async Unit → Prop where
  | read : TimeoutAt clock event (handleTransactionTimeout event)
  | store {key : String} {r : DistributedTransaction} {ok : Unit → Async Unit} {err : Async Unit}
      (start : Date) : startedAt r = some start → HasTimedOut start clock →
      Writeless (ok ()) → Writeless err →
      TimeoutAt clock event (.call (.set key (DistributedTransaction.serialize r)) ok err)
  | rest {p : Async Unit} : Writeless p → TimeoutAt clock event p

/-- What the tasks that the timeout concerns stand at. -/
def StandsAt (clock : Date) : Activity → Async Unit → Prop
  | .checkTimeouts => CheckerAt clock
  | .handler _ .TRANSACTION_TIMEOUT event => TimeoutAt clock event
  | _ => fun _ => True

section StandsAt

variable {clock clock' : Date} {event : TransactionEvent} {activity : Activity} {p : Async Unit}

theorem HasTimedOut.mono {start : Date} (h : HasTimedOut start clock) (hc : clock ≤ clock') :
    HasTimedOut start clock' := Nat.lt_of_lt_of_le h hc

theorem StandsAt.mono (h : StandsAt clock activity p) (hc : clock ≤ clock') :
    StandsAt clock' activity p := by
  have hchecker : ∀ p, CheckerAt clock p → CheckerAt clock' p := by
    intro p h
    cases h with
    | keys => exact .keys
    | now keys => exact .now keys
    | loop now keys hn => exact .loop now keys (Nat.le_trans hn hc)
    | thrown => exact .thrown
  have htimeout : ∀ event p, TimeoutAt clock event p → TimeoutAt clock' event p := by
    intro event p h
    cases h with
    | read => exact .read
    | store start hs ht hok herr => exact .store start hs (ht.mono hc) hok herr
    | rest hp => exact .rest hp
  cases activity with
  | checkTimeouts => exact hchecker p h
  | handler clientId subject event =>
    cases subject with
    | TRANSACTION_TIMEOUT => exact htimeout event p h
    | _ => trivial
  | _ => trivial

theorem standsAt_launch (h : StandsAt clock activity p.settle.2) :
    ∀ task ∈ Task.launch Activity.background activity p, StandsAt clock task.tag task.prog := by
  intro task htask
  rcases Task.mem_launch.mp htask with ⟨-, rfl⟩ | ⟨op, -, rfl⟩
  · exact h
  · trivial

/-- How the handler of `TRANSACTION_TIMEOUT` goes on from its first read. -/
theorem timeoutAt_read (clock : Date) (event : TransactionEvent)
    (content : Option SerializedTransaction)
    (h : ∀ r, content = some (DistributedTransaction.serialize r) → r.status = .IN_PROGRESS →
      ∃ start, startedAt r = some start ∧ HasTimedOut start clock) :
    ∃ ok, handleTransactionTimeout event =
        .call (.get (transactionKey event.transactionId)) ok .throw ∧
      TimeoutAt clock event (ok content).settle.2 := by
  unfold handleTransactionTimeout
  rw [getTransactionState_bind]
  refine ⟨_, rfl, ?_⟩
  rcases read_cases content with hn | ⟨r, hr, rfl⟩
  · rw [hn]
    exact .rest trivial
  · rw [hr]
    dsimp only
    split
    · exact .rest trivial
    · rename_i hs
      obtain ⟨start, hstart, ht⟩ := h r rfl (not_not.mp hs)
      refine .store (r := timeOut r) start hstart ht ?_ trivial
      change Writeless (handleSendUserNotification event.transactionId "Transaction timed out"
        r.processType >>= fun _ => handleStartCompensation event.transactionId)
      exact Prog.guarded_bind (writeless_handleSendUserNotification _ _ _)
        fun _ => writeless_handleStartCompensation _

theorem settle_checkTimeoutsOf (now : Date) (keys : List String) :
    (checkTimeoutsOf now keys).settle = ([], checkTimeoutsOf now keys) := by
  cases keys with
  | nil => rfl
  | cons key keys => rfl

/-- How a timeout checker goes on from a read, and what it has found. -/
theorem checkerAt_read (now : Date) (key : String) (keys : List String)
    (content : Option SerializedTransaction) (hnow : now ≤ clock) :
    ∃ ok, checkTimeoutsOf now (key :: keys) = .call (.get key) ok .throw ∧
      CheckerAt clock (ok content).settle.2 ∧
      ((ok content).settle.1 ≠ [] → ∀ r, content.bind SerializedTransaction.read = some r →
        ∀ start, startedAt r = some start → HasTimedOut start clock) := by
  rw [checkTimeoutsOf, getTransactionByKey_bind]
  refine ⟨_, rfl, ?_⟩
  have hloop : CheckerAt clock (checkTimeoutsOf now keys) := .loop now keys hnow
  rcases read_cases content with hn | ⟨r, hr, -⟩
  · rw [hn]
    simp only [settle_checkTimeoutsOf]
    exact ⟨hloop, fun h => absurd rfl h⟩
  · rw [hr]
    dsimp only
    split
    · split
      · exact ⟨.thrown, fun h => absurd rfl h⟩
      · rename_i step hstep
        split
        · rename_i htimedOut
          refine ⟨?_, fun _ r' hr' start hstart => ?_⟩
          · change CheckerAt clock (checkTimeoutsOf now keys).settle.2
            rw [settle_checkTimeoutsOf]
            exact hloop
          · obtain rfl : r = r' := Option.some_inj.mp hr'
            have hstarted : step.startedAt = some start := by
              simpa [startedAt, hstep] using hstart
            rw [hstarted, Option.any_some, decide_eq_true_eq] at htimedOut
            exact HasTimedOut.mono htimedOut hnow
        · rw [settle_checkTimeoutsOf]
          exact ⟨hloop, fun h => absurd rfl h⟩
    · rw [settle_checkTimeoutsOf]
      exact ⟨hloop, fun h => absurd rfl h⟩

end StandsAt

/-! ## Runs -/

namespace Timed

/-- What has been found overdue has been so, and every task stands where its time says. -/
structure Timely (s : Timed) : Prop where
  found : ∀ started ∈ s.found, HasTimedOut started.startedAt s.clock
  tasks : ∀ task ∈ s.cluster.tasks, StandsAt s.clock task.tag task.prog

/-- A step of the machine is one of the cluster, at a time that has come. -/
theorem fire_cases {s s' : Timed} {label : Cluster.Label} (hf : machine.fire s label = some s') :
    s.cluster.fire label = some s'.cluster ∧ s.clock ≤ s'.clock ∧
      (∀ date, date? label = some date → s'.clock = date) ∧
      s'.found = s.found ++ finds s.cluster label := by
  have hf : s.fire label = some s' := hf
  unfold fire at hf
  split at hf
  · rename_i hclock
    obtain ⟨cluster, hcluster, rfl⟩ := Option.map_eq_some_iff.mp hf
    refine ⟨hcluster, ?_, ?_, rfl⟩
    · cases hd : date? label with
      | none => exact Nat.le_refl _
      | some date => simpa [hd] using hclock
    · intro date hd
      simp [hd]
  · cases hf

/-- A program that begins. -/
theorem standsAt_begin {clock : Date} {s : Cluster} {activity : Activity} {p : Async Unit}
    (h : ∀ task ∈ s.tasks, StandsAt clock task.tag task.prog)
    (hp : StandsAt clock activity p.settle.2) :
    ∀ task ∈ (Pool.begin Activity.background s activity p).tasks,
      StandsAt clock task.tag task.prog := by
  intro task htask
  rcases List.mem_append.mp htask with htask | htask
  · exact h task htask
  · exact standsAt_launch hp task htask

/-- The tasks that join those in front and behind. -/
theorem standsAt_replace {clock : Date} {s : Cluster}
    {before after : List (Effects.Task Activity Call Call.Res)}
    {task : Effects.Task Activity Call Call.Res} (hs : s.tasks = before ++ task :: after)
    (h : ∀ task ∈ s.tasks, StandsAt clock task.tag task.prog) {p : Async Unit}
    (hp : StandsAt clock task.tag p.settle.2) :
    ∀ other ∈ before ++ Task.launch Activity.background task.tag p ++ after,
      StandsAt clock other.tag other.prog := by
  intro other hother
  rw [List.mem_append, List.mem_append] at hother
  rcases hother with (hother | hother) | hother
  · exact h other (by simp [hs, hother])
  · exact standsAt_launch hp other hother
  · exact h other (by simp [hs, hother])

section Answer

variable {clock : Date} {store : Store} {activity : Activity} {op : Call}
  {ok : op.Res → Async Unit} {err : Async Unit} {event : TransactionEvent}

theorem checkerAt_answer (h : CheckerAt clock (.call op ok err)) :
    CheckerAt clock (ok (perform activity clock op store).1).settle.2 := by
  generalize hp : (Prog.call op ok err : Async Unit) = p at h
  cases h with
  | keys =>
    cases hp
    exact .now _
  | now keys =>
    cases hp
    change CheckerAt clock (checkTimeoutsOf clock keys).settle.2
    rw [settle_checkTimeoutsOf]
    exact .loop clock keys (Nat.le_refl clock)
  | loop now keys hn =>
    cases keys with
    | nil => cases hp
    | cons key keys =>
      obtain ⟨ok', hprog, hchecker, -⟩ := checkerAt_read now key keys (store.redis.lookup key) hn
      rw [hprog] at hp
      cases hp
      exact hchecker
  | thrown => cases hp

theorem timeoutAt_answer (h : TimeoutAt clock event (.call op ok err))
    (hconfirmed : (.call op ok err : Async Unit) = handleTransactionTimeout event → ∀ r,
      store.redis.lookup (transactionKey event.transactionId) =
        some (DistributedTransaction.serialize r) → r.status = .IN_PROGRESS →
      ∃ start, startedAt r = some start ∧ HasTimedOut start clock) :
    TimeoutAt clock event (ok (perform activity clock op store).1).settle.2 := by
  generalize hp : (Prog.call op ok err : Async Unit) = p at h hconfirmed
  cases h with
  | read =>
    obtain ⟨ok', hprog, htimeout⟩ := timeoutAt_read clock event
      (store.redis.lookup (transactionKey event.transactionId)) (hconfirmed rfl)
    rw [hprog] at hp
    cases hp
    exact htimeout
  | store start hs ht hok herr =>
    cases hp
    exact .rest (writeless_settle hok)
  | rest hw =>
    subst hp
    exact .rest (writeless_settle (((Prog.guarded_call _ _ _).mp hw).2.1 _ trivial))

/-- How a task goes on when its call is answered. -/
theorem standsAt_answer (h : StandsAt clock activity (.call op ok err))
    (hconfirmed : ∀ clientId event, activity = .handler clientId .TRANSACTION_TIMEOUT event →
      (.call op ok err : Async Unit) = handleTransactionTimeout event → ∀ r,
        store.redis.lookup (transactionKey event.transactionId) =
          some (DistributedTransaction.serialize r) → r.status = .IN_PROGRESS →
        ∃ start, startedAt r = some start ∧ HasTimedOut start clock) :
    StandsAt clock activity (ok (perform activity clock op store).1).settle.2 := by
  cases activity with
  | checkTimeouts => exact checkerAt_answer h
  | handler clientId subject event =>
    cases subject with
    | TRANSACTION_TIMEOUT => exact timeoutAt_answer h (hconfirmed clientId event rfl)
    | _ => trivial
  | _ => trivial

/-- How a task goes on when its call is rejected. -/
theorem standsAt_rejected (h : StandsAt clock activity (.call op ok err)) :
    StandsAt clock activity err.settle.2 := by
  cases activity with
  | checkTimeouts =>
    have herr : err = .throw := by
      generalize hp : (Prog.call op ok err : Async Unit) = p at h
      cases h with
      | keys =>
        cases hp
        rfl
      | now keys =>
        cases hp
        rfl
      | loop now keys hn =>
        cases keys with
        | nil => cases hp
        | cons key keys =>
          obtain ⟨ok', hprog, -⟩ := checkerAt_read now key keys none hn
          rw [hprog] at hp
          cases hp
          rfl
      | thrown => cases hp
    rw [herr]
    exact .thrown
  | handler clientId subject event =>
    cases subject with
    | TRANSACTION_TIMEOUT =>
      change TimeoutAt clock event _
      have h : TimeoutAt clock event (.call op ok err) := h
      generalize hp : (Prog.call op ok err : Async Unit) = p at h
      cases h with
      | read =>
        obtain ⟨ok', hprog, -⟩ := timeoutAt_read clock event none nofun
        rw [hprog] at hp
        cases hp
        exact .rest trivial
      | store start hs ht hok herr =>
        cases hp
        exact .rest (writeless_settle herr)
      | rest hw =>
        subst hp
        exact .rest (writeless_settle ((Prog.guarded_call _ _ _).mp hw).2.2)
    | _ => trivial
  | _ => trivial

end Answer

/-- What a checker finds is overdue. -/
theorem timedOut_of_finds {s s' : Timed} {label : Cluster.Label} (h : Timely s)
    (hf : machine.fire s label = some s') :
    ∀ started ∈ finds s.cluster label, HasTimedOut started.startedAt s'.clock := by
  obtain ⟨-, hclock, -, -⟩ := fire_cases hf
  intro started hmem
  unfold finds at hmem
  split at hmem
  · rename_i j date
    split at hmem
    · rename_i key ok err hj
      split at hmem
      · rename_i r hr
        split at hmem
        · cases hmem
        · rename_i hstarted
          obtain ⟨start, hstart, rfl⟩ := Option.map_eq_some_iff.mp (Option.mem_toList.mp hmem)
          have hat : CheckerAt s'.clock (.call (.get key) ok err) :=
            (h.tasks _ (List.mem_of_getElem? hj)).mono hclock
          generalize hp : (Prog.call (Call.get key) ok err : Async Unit) = p at hat
          cases hat with
          | loop now keys hn =>
            cases keys with
            | nil => cases hp
            | cons key' keys =>
              obtain ⟨ok', hprog, -, hfound⟩ := checkerAt_read now key' keys
                (s.cluster.world.redis.lookup key') hn
              rw [hprog] at hp
              cases hp
              refine hfound ?_ r hr start hstart
              rintro hnil
              exact hstarted (by rw [hnil]; rfl)
          | _ => cases hp
      · cases hmem
    · cases hmem
  · cases hmem

/-- A step whose handlers find what a checker has found keeps everything timely. -/
theorem Timely.fire {s s' : Timed} {label : Cluster.Label} (h : Timely s)
    (hc : s.Confirmed label) (hf : machine.fire s label = some s') : Timely s' := by
  obtain ⟨hcluster, hclock, hdate, hfound⟩ := fire_cases hf
  have htasks : ∀ task ∈ s.cluster.tasks, StandsAt s'.clock task.tag task.prog :=
    fun task hmem => (h.tasks task hmem).mono hclock
  constructor
  · intro started hmem
    rw [hfound] at hmem
    rcases List.mem_append.mp hmem with hmem | hmem
    · exact (h.found started hmem).mono hclock
    · exact timedOut_of_finds h hf started hmem
  · cases label with
    | start options t date =>
      unfold Cluster.fire at hcluster
      dsimp only at hcluster
      split at hcluster
      · rw [← Option.some_inj.mp hcluster]
        exact standsAt_begin htasks trivial
      · cases hcluster
    | deliver clientId subject event =>
      rw [← Option.some_inj.mp hcluster]
      refine standsAt_begin htasks ?_
      cases subject with
      | TRANSACTION_TIMEOUT => exact .read
      | _ => trivial
    | checkTimeouts =>
      rw [← Option.some_inj.mp hcluster]
      exact standsAt_begin htasks .keys
    | advance j date =>
      obtain ⟨tag, op, ok, err, before, after, hs, hj, -, ht⟩ := Pool.advance_cases hcluster
      have hnow : s'.clock = date := hdate date rfl
      have hat := htasks ⟨tag, .call op ok err⟩ (by simp [hs])
      rw [ht]
      refine standsAt_replace hs htasks ?_
      rw [← hnow]
      refine standsAt_answer hat ?_
      rintro clientId event rfl hprog r hread hstatus
      have hget : s.cluster.tasks[j]? = some ⟨.handler clientId .TRANSACTION_TIMEOUT event,
          handleTransactionTimeout event⟩ := by
        rw [← hprog, hs, ← hj]
        simp
      obtain ⟨started, hmem, hr⟩ := hc j date clientId event r rfl hget hread hstatus
      obtain ⟨start, hstart, rfl⟩ := Option.map_eq_some_iff.mp hr
      exact ⟨start, hstart, (h.found _ hmem).mono hclock⟩
    | reject j =>
      obtain ⟨tag, op, ok, err, before, after, hs, -, -, ht⟩ := Pool.reject_cases hcluster
      rw [ht]
      exact standsAt_replace hs htasks
        (standsAt_rejected (htasks ⟨tag, .call op ok err⟩ (by simp [hs])))
    | abandon j =>
      obtain ⟨stopped, before, after, hs, -, -, ht⟩ := Pool.abandon_cases hcluster
      intro task hmem
      rw [ht, List.mem_append] at hmem
      exact htasks task (by rw [hs]; simp only [List.mem_append, List.mem_cons]; tauto)

/-- In a run in which each timeout finds its transaction at a step that a checker has found
overdue, only overdue steps time out. -/
theorem only_overdue_steps_time_out (labels : List Cluster.Label) :
    machine.Throughout Confirmed machine.initial labels →
      machine.Throughout Overdue machine.initial labels := by
  refine Machine.throughout_of_invariant (I := Timely) (fun s label s' h hc hf => h.fire hc hf) ?_
    labels _ ⟨by rintro _ ⟨⟩, by rintro _ ⟨⟩⟩
  intro s label s' h _ hf j date clientId event key value ok err hlabel hget _
  subst hlabel
  obtain ⟨-, hclock, hdate, -⟩ := fire_cases hf
  have hat : TimeoutAt s'.clock event (.call (.set key value) ok err) :=
    (h.tasks _ (List.mem_of_getElem? hget)).mono hclock
  rw [hdate date rfl] at hat
  generalize hp : (Prog.call (Call.set key value) ok err : Async Unit) = p at hat
  cases hat with
  | read => cases hp
  | @store key' r ok' err' start hs ht hok herr =>
    cases hp
    obtain ⟨step, hstep, hstart⟩ := Option.bind_eq_some_iff.mp hs
    exact ⟨step, start, hstep, hstart, ht⟩
  | rest hw =>
    subst hp
    exact absurd rfl (((Prog.guarded_call _ _ _).mp hw).1 key value)

/-! ## A run of each kind -/

/-- What a run can be checked for at each step: no handler of `TRANSACTION_TIMEOUT` reads a
transaction in progress at a step that no checker has found overdue. -/
def confirmed : machine.Policy := fun s label =>
  match label with
  | .advance j _ =>
    match s.cluster.tasks[j]? with
    | some ⟨.handler _ .TRANSACTION_TIMEOUT _, .call (.get key) _ _⟩ =>
      match (s.cluster.world.redis.lookup key).bind SerializedTransaction.read with
      | some r => r.status ≠ .IN_PROGRESS ∨ (startedStep r).any (· ∈ s.found) = true
      | none => true
    | _ => true
  | _ => true

theorem confirmed_of_policy {s : Timed} {label : Cluster.Label} (h : confirmed s label = true) :
    s.Confirmed label := by
  rintro j date clientId event r rfl hget hr hstatus
  have hprog : handleTransactionTimeout event = .call (.get (transactionKey event.transactionId))
    _ _ := getTransactionState_bind _ _
  rw [hprog] at hget
  simp only [confirmed, hget, hr, Option.bind_some, DistributedTransaction.read_serialize,
    hstatus, ne_eq, not_true_eq_false, false_or, decide_eq_true_eq] at h
  obtain ⟨started, hr, hmem⟩ := (Option.any_eq_true _ _).mp h
  exact ⟨started, of_decide_eq_true hmem, hr⟩

/-- A checker finds the step of `oneStep` overdue. -/
def foundOverdue : List Cluster.Label :=
  startOneStep ++ [.checkTimeouts] ++ List.replicate 4 (.advance 0 300001) ++
    [.deliver .ORDER_SERVICE .TRANSACTION_TIMEOUT { transactionId := some "t" },
      .advance 0 300002, .advance 0 300003]

theorem only_overdue_steps_time_out_foundOverdue :
    machine.Throughout Confirmed machine.initial foundOverdue ∧
      machine.Throughout Overdue machine.initial foundOverdue := by
  have hrun : (machine.run confirmed machine.initial foundOverdue).isSome = true := by
    decide +kernel
  have hconfirmed : machine.Throughout Confirmed machine.initial foundOverdue :=
    Machine.throughout_of_invariant (I := fun _ => True) (fun _ _ _ _ _ _ => trivial)
      (fun _ _ _ _ h _ => confirmed_of_policy h) foundOverdue _ trivial
      (Machine.throughout_run foundOverdue _ hrun)
  exact ⟨hconfirmed, only_overdue_steps_time_out foundOverdue hconfirmed⟩

/-- A checker finds the first step of `twoSteps` overdue.  Before the timeout is handled the step
is completed and the second one started. -/
def movedOn : List Cluster.Label :=
  [.start twoSteps "t" 0] ++ List.replicate 4 (.advance 0 0) ++ [.checkTimeouts] ++
    List.replicate 4 (.advance 0 300001) ++ [stepCompleted] ++
    List.replicate 7 (.advance 0 300002) ++
    [.deliver .ORDER_SERVICE .TRANSACTION_TIMEOUT { transactionId := some "t" },
      .advance 0 300003, .advance 0 300003]

/-- Where `TIMED_OUT` is written the current step is overdue. -/
def overdue : machine.Policy := fun s label =>
  match label with
  | .advance j date =>
    match s.cluster.tasks[j]? with
    | some ⟨.handler _ .TRANSACTION_TIMEOUT _, .call (.set _ value) _ _⟩ =>
      value.status ≠ .TIMED_OUT ∨ (value.steps[value.currentStep]?.bind (·.startedAt)).any
        (fun start => start + timeoutThreshold < date) = true
    | _ => true
  | _ => true

theorem policy_of_overdue {s : Timed} {label : Cluster.Label} (h : s.Overdue label) :
    overdue s label = true := by
  unfold overdue
  split
  · rename_i j date
    split
    · rename_i clientId event key value ok err hj
      rw [decide_eq_true_eq]
      by_cases hs : value.status = .TIMED_OUT
      · obtain ⟨step, start, hstep, hstart, ht⟩ :=
          h j date clientId event key value ok err rfl hj hs
        refine .inr ?_
        rw [hstep, Option.bind_some, hstart, Option.any_some, decide_eq_true_eq]
        exact ht
      · exact .inl hs
    · rfl
  · rfl

/-- A step that was started a millisecond ago times out. -/
theorem timed_out_early : ¬machine.Throughout Overdue machine.initial movedOn := by
  intro h
  have hpolicy : machine.Throughout (fun s label => overdue s label = true) machine.initial
      movedOn :=
    Machine.throughout_of_invariant (I := fun _ => True) (fun _ _ _ _ _ _ => trivial)
      (fun _ _ _ _ h _ => policy_of_overdue h) movedOn _ trivial h
  have hrun : (machine.run (fun _ _ => true) machine.initial movedOn).isSome = true := by
    decide +kernel
  have hstops : (machine.run overdue machine.initial movedOn).isSome = false := by
    decide +kernel
  rw [Machine.isSome_run_of_throughout movedOn _ hpolicy hrun] at hstops
  cases hstops

end Timed

end InvoiceHub.Transaction
