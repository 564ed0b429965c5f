import InvoiceHub.Transaction.Overdue

/-!
# The timeout checker finds what is overdue

The timers of `startTimeoutChecker`: a check sets the timer of the next one when it ends.  As long
as the coordinator is initialized and no check fails, a transaction whose current step was begun
too long ago is found by one of them, whatever the handlers write meanwhile.
-/

namespace InvoiceHub.Transaction.Checker

open Effects

/-! ## The coordinator and its timers -/

/-- A timer that `setTimeout` has set for `checkTimeouts`. -/
structure Timer where
  id : Nat
  due : Nat

/-- A run of `checkTimeouts` and when its timer fired. -/
structure Check where
  began : Nat
  prog : Async Unit

/-- A coordinator with a clock that counts milliseconds.  `initializing` counts the calls of
`initialize` that await their subscriptions, `started` are the calls that checks have started
without awaiting them. -/
structure Coordinator where
  clientId : ClientIds
  now : Nat := 0
  redis : Redis := ∅
  initializing : Nat := 0
  isInitialized : Bool := false
  timeoutCheckerId : Option Nat := none
  timers : List Timer := []
  set : Nat := 0
  checks : List Check := []
  started : List Call := []
  failed : Bool := false

/-- The delay of the timeout checker. -/
def checkDelay : Nat := 60000

/-- `this.timeoutCheckerId = setTimeout(checkTimeouts, 60000)`. -/
def setTimer (s : Coordinator) : Coordinator :=
  { s with
    timeoutCheckerId := some s.set
    timers := s.timers ++ [⟨s.set, s.now + checkDelay⟩]
    set := s.set + 1 }

def stopTimeoutChecker (s : Coordinator) : Coordinator :=
  { s with
    timeoutCheckerId := none
    timers := s.timers.filter fun timer => s.timeoutCheckerId ≠ some timer.id }

def startTimeoutChecker (s : Coordinator) : Coordinator := setTimer (stopTimeoutChecker s)

/-- What Redis and the clock answer to a check. -/
def answer (s : Coordinator) : (op : Call) → op.Res
  | .get key => s.redis.lookup key
  | .set _ _ => ()
  | .getKeysByPattern => s.redis.keys
  | .publish _ => ()
  | .now => s.now

/-- The end of `checkTimeouts`. -/
def finish (s : Coordinator) : Coordinator := if s.isInitialized then setTimer s else s

/-- The `i`-th check has moved and started `ops` on its way. -/
def moved (s : Coordinator) (i : Nat) (ops : List Call) : Coordinator :=
  { s with checks := s.checks.eraseIdx i, started := s.started ++ ops }

/-- The `i`-th check goes on with `p` until its next await; nobody catches what it throws. -/
def goOn (s : Coordinator) (i : Nat) (began : Nat) (p : Async Unit) : Coordinator :=
  let s := moved s i p.settle.1
  match p.settle.2 with
  | .pure _ => finish s
  | .throw => { s with failed := true }
  | waiting => { s with checks := s.checks ++ [⟨began, waiting⟩] }

/-- A step of a run. -/
inductive Label where
  /-- `initialize` is called. -/
  | initializeCoordinator
  /-- The subscriptions of a call of `initialize` are made, or one of them is rejected. -/
  | subscribed (ok : Bool)
  | disconnect (clientId : Option ClientIds)
  /-- A timer fires. -/
  | timer (id : Nat)
  /-- The call that a check awaits is answered. -/
  | answer (check : Nat)
  /-- The call that a check awaits is rejected. -/
  | reject (check : Nat)
  /-- Handlers write records. -/
  | write (redis : Redis)
  | tick (ms : Nat)

/-- What a label does where it is enabled. -/
def fire (s : Coordinator) : Label → Option Coordinator
  | .initializeCoordinator =>
    if s.isInitialized then some s else some { s with initializing := s.initializing + 1 }
  | .subscribed ok =>
    if s.initializing = 0 then none
    else if ok then
      some { startTimeoutChecker { s with initializing := s.initializing - 1 } with
        isInitialized := true }
    else some { s with initializing := s.initializing - 1 }
  | .disconnect clientId =>
    if clientId.getD s.clientId = s.clientId then
      some { stopTimeoutChecker s with isInitialized := false }
    else some s
  | .timer id =>
    match s.timers.find? (·.id = id) with
    | some timer =>
      if timer.due ≤ s.now then
        some { s with
          timers := s.timers.filter (·.id ≠ id)
          checks := s.checks ++ [⟨s.now, checkTimeouts⟩] }
      else none
    | none => none
  | .answer i =>
    match s.checks[i]? with
    | some ⟨began, .call op ok _⟩ => some (goOn s i began (ok (answer s op)))
    | _ => none
  | .reject i =>
    match s.checks[i]? with
    | some ⟨began, .call _ _ err⟩ => some (goOn s i began err)
    | _ => none
  | .write redis => some { s with redis }
  | .tick ms => some { s with now := s.now + ms }

/-- The coordinator of a service, from its construction on. -/
def machine (clientId : ClientIds) : Machine Coordinator Label := ⟨{ clientId }, fire⟩

/-- No timer is more than `late` milliseconds overdue, and no check takes longer than
`duration`. -/
def OnTime (late duration : Nat) (s : Coordinator) : Bool :=
  (s.timers.all fun timer => s.now ≤ timer.due + late) &&
    s.checks.all fun check => s.now ≤ check.began + duration

/-- The runs in which timers fire and checks end in time. -/
def punctual (clientId : ClientIds) (late duration : Nat) : (machine clientId).Policy :=
  fun s label => (fire s label).all (OnTime late duration)

/-- `t` is in progress, and its current step was begun at `start`. -/
def inProgress (t : String) (start : Date) (redis : Redis) : Bool :=
  ((redis.lookup (transactionKey (some t))).bind SerializedTransaction.read).any fun r =>
    r.status = .IN_PROGRESS ∧ r.transactionId = t ∧ startedAt r = some start

/-- The same, while the coordinator is neither initialized again nor disconnected, and what is
written leaves `t` in progress. -/
def waiting (clientId : ClientIds) (late duration : Nat) (t : String) (start : Date) :
    (machine clientId).Policy := fun s label =>
  punctual clientId late duration s label &&
    match label with
    | .subscribed _ => false
    | .disconnect _ => false
    | .write redis => inProgress t start redis
    | _ => true

/-- The publication that a check starts for a transaction that it finds overdue. -/
def timeoutOf (t : String) : Call :=
  .publish ⟨.handleStartTimeoutChecker, some t,
    { topicName := Subjects.TRANSACTION_TIMEOUT.value
      message := JsonObject.put ∅ "transactionId" (some (.str t)) }⟩

/-! ## One step -/

section Steps

variable {s s' : Coordinator} {i began : Nat} {p : Async Unit}

@[simp] theorem finish_now : (finish s).now = s.now := by unfold finish; split <;> rfl

@[simp] theorem finish_redis : (finish s).redis = s.redis := by unfold finish; split <;> rfl

@[simp] theorem finish_isInitialized : (finish s).isInitialized = s.isInitialized := by
  unfold finish
  split <;> rfl

@[simp] theorem finish_checks : (finish s).checks = s.checks := by unfold finish; split <;> rfl

@[simp] theorem finish_started : (finish s).started = s.started := by unfold finish; split <;> rfl

@[simp] theorem finish_failed : (finish s).failed = s.failed := by unfold finish; split <;> rfl

theorem finish_timers (h : s.isInitialized = true) :
    (finish s).timers = s.timers ++ [⟨s.set, s.now + checkDelay⟩] := by
  unfold finish
  rw [if_pos h]
  rfl

theorem kept_finish {timer : Timer} (h : timer ∈ s.timers) : timer ∈ (finish s).timers := by
  unfold finish
  split
  · exact List.mem_append_left _ h
  · exact h

theorem mem_finish_timers {timer : Timer} (h : timer ∈ (finish s).timers) :
    timer ∈ s.timers ∨ timer.due = s.now + checkDelay := by
  unfold finish at h
  split at h
  · rcases List.mem_append.mp h with h | h
    · exact .inl h
    · rw [List.mem_singleton.mp h]
      exact .inr rfl
  · exact .inl h

/-- What becomes of the coordinator when a check goes on. -/
structure GoesOn (s s' : Coordinator) (i began : Nat) (p : Async Unit) : Prop where
  now : s'.now = s.now
  redis : s'.redis = s.redis
  isInitialized : s'.isInitialized = s.isInitialized
  started : s'.started = s.started ++ p.settle.1
  failed : s'.failed = false → s.failed = false ∧ p.settle.2 ≠ .throw
  kept : ∀ timer ∈ s.timers, timer ∈ s'.timers
  timers : ∀ timer ∈ s'.timers, timer ∈ s.timers ∨ timer.due = s.now + checkDelay
  others : ∀ check ∈ s.checks.eraseIdx i, check ∈ s'.checks
  checks : ∀ check ∈ s'.checks, check ∈ s.checks ∨ check.began = began
  /-- The check ends and sets the next timer, or it awaits the next call. -/
  next : s'.failed = false → s.isInitialized = true →
    (p.settle.2 = .pure () ∧ ∃ timer ∈ s'.timers, timer.due = s.now + checkDelay) ∨
    ⟨began, p.settle.2⟩ ∈ s'.checks

theorem goesOn_finish (hp : p.settle.2 = .pure ()) :
    GoesOn s (finish (moved s i p.settle.1)) i began p where
  now := finish_now
  redis := finish_redis
  isInitialized := finish_isInitialized
  started := finish_started
  failed h := ⟨(finish_failed (s := moved s i p.settle.1)).symm.trans h, by simp [hp]⟩
  kept timer htimer := kept_finish (s := moved s i p.settle.1) htimer
  timers timer htimer := mem_finish_timers (s := moved s i p.settle.1) htimer
  others check hcheck := by rwa [finish_checks]
  checks check hcheck := by
    rw [finish_checks] at hcheck
    exact .inl (List.mem_of_mem_eraseIdx hcheck)
  next _ hinit := by
    refine .inl ⟨hp, ⟨s.set, s.now + checkDelay⟩, ?_, rfl⟩
    rw [finish_timers (s := moved s i p.settle.1) hinit]
    exact List.mem_append_right _ (List.mem_singleton_self _)

theorem goesOn_await {waiting : Async Unit} (hp : p.settle.2 = waiting)
    (hwaiting : waiting ≠ .throw) :
    GoesOn s { moved s i p.settle.1 with
      checks := (moved s i p.settle.1).checks ++ [⟨began, waiting⟩] } i began p where
  now := rfl
  redis := rfl
  isInitialized := rfl
  started := rfl
  failed h := ⟨h, hp ▸ hwaiting⟩
  kept _ htimer := htimer
  timers _ htimer := .inl htimer
  others _ hcheck := List.mem_append_left _ hcheck
  checks check hcheck := by
    rcases List.mem_append.mp hcheck with hcheck | hcheck
    · exact .inl (List.mem_of_mem_eraseIdx hcheck)
    · rw [List.mem_singleton.mp hcheck]
      exact .inr rfl
  next _ _ := .inr (hp ▸ List.mem_append_right _ (List.mem_singleton_self _))

theorem goesOn : GoesOn s (goOn s i began p) i began p := by
  unfold goOn
  cases hp : p.settle.2 with
  | pure => exact goesOn_finish hp
  | throw =>
    exact {
      now := rfl
      redis := rfl
      isInitialized := rfl
      started := rfl
      failed := nofun
      kept := fun _ htimer => htimer
      timers := fun _ htimer => .inl htimer
      others := fun _ hcheck => hcheck
      checks := fun _ hcheck => .inl (List.mem_of_mem_eraseIdx hcheck)
      next := nofun }
  | call op ok err => exact goesOn_await hp nofun
  | spawn op next => exact goesOn_await hp nofun

theorem mem_eraseIdx_or {l : List Check} {check check' : Check} (h : check ∈ l)
    (hi : l[i]? = some check') : check = check' ∨ check ∈ l.eraseIdx i := by
  obtain ⟨j, hj⟩ := List.getElem?_of_mem h
  by_cases hji : j = i
  · subst hji
    exact .inl (Option.some_inj.mp (hj.symm.trans hi))
  · exact .inr (List.mem_eraseIdx_iff_getElem?.mpr ⟨j, hji, hj⟩)

end Steps

/-! ## A check is always ahead -/

/-- What holds of every coordinator: as long as it is initialized and no check has failed, a timer
is set or a check runs. -/
structure Alive (s : Coordinator) : Prop where
  due : ∀ timer ∈ s.timers, timer.due ≤ s.now + checkDelay
  began : ∀ check ∈ s.checks, check.began ≤ s.now
  ahead : s.isInitialized = true → s.failed = false → s.timers ≠ [] ∨ s.checks ≠ []

theorem Alive.goOn {s : Coordinator} (h : Alive s) {i : Nat} {check : Check}
    (hi : s.checks[i]? = some check) (p : Async Unit) : Alive (goOn s i check.began p) := by
  have hgoes : GoesOn s (Checker.goOn s i check.began p) i check.began p := goesOn
  have hbegan := h.began check (List.mem_of_getElem? hi)
  refine ⟨?_, ?_, ?_⟩
  · intro timer htimer
    rw [hgoes.now]
    rcases hgoes.timers timer htimer with htimer | hdue
    · exact h.due timer htimer
    · omega
  · intro check' hcheck
    rw [hgoes.now]
    rcases hgoes.checks check' hcheck with hcheck | heq
    · exact h.began check' hcheck
    · omega
  · intro hinit hfailed
    rcases hgoes.next hfailed (hgoes.isInitialized ▸ hinit) with ⟨-, timer, htimer, -⟩ | hcheck
    · exact .inl (List.ne_nil_of_mem htimer)
    · exact .inr (List.ne_nil_of_mem hcheck)

theorem Alive.stop {s : Coordinator} (h : Alive s) :
    ∀ timer ∈ (stopTimeoutChecker s).timers, timer.due ≤ s.now + checkDelay :=
  fun timer htimer => h.due timer (List.mem_of_mem_filter htimer)

theorem Alive.fire {s s' : Coordinator} (h : Alive s) {label : Label}
    (hf : fire s label = some s') : Alive s' := by
  cases label with
  | initializeCoordinator =>
    simp only [Checker.fire] at hf
    split at hf
    · cases hf
      exact h
    · cases hf
      exact ⟨h.due, h.began, h.ahead⟩
  | subscribed ok =>
    simp only [Checker.fire] at hf
    split at hf
    · cases hf
    · split at hf
      · cases hf
        refine ⟨?_, h.began, fun _ _ => .inl (List.append_ne_nil_of_right_ne_nil _ (by simp))⟩
        intro timer htimer
        rcases List.mem_append.mp htimer with htimer | htimer
        · exact h.stop timer htimer
        · rw [List.mem_singleton.mp htimer]
          exact Nat.le_refl _
      · cases hf
        exact ⟨h.due, h.began, h.ahead⟩
  | disconnect clientId =>
    simp only [Checker.fire] at hf
    split at hf
    · cases hf
      exact ⟨h.stop, h.began, nofun⟩
    · cases hf
      exact h
  | timer id =>
    simp only [Checker.fire] at hf
    split at hf
    · split at hf
      · cases hf
        refine ⟨fun timer htimer => h.due timer (List.mem_of_mem_filter htimer), ?_,
          fun _ _ => .inr (List.append_ne_nil_of_right_ne_nil _ (by simp))⟩
        intro check hcheck
        rcases List.mem_append.mp hcheck with hcheck | hcheck
        · exact h.began check hcheck
        · rw [List.mem_singleton.mp hcheck]
      · cases hf
    · cases hf
  | answer i =>
    simp only [Checker.fire] at hf
    split at hf
    · rename_i hi
      cases hf
      exact h.goOn hi _
    · cases hf
  | reject i =>
    simp only [Checker.fire] at hf
    split at hf
    · rename_i hi
      cases hf
      exact h.goOn hi _
    · cases hf
  | write redis =>
    cases hf
    exact ⟨h.due, h.began, h.ahead⟩
  | tick ms =>
    cases hf
    refine ⟨fun timer htimer => ?_, fun check hcheck => ?_, h.ahead⟩
    · exact Nat.le_trans (h.due timer htimer) (Nat.add_le_add_right (Nat.le_add_right _ _) _)
    · exact Nat.le_trans (h.began check hcheck) (Nat.le_add_right _ _)

theorem alive_reachable {clientId : ClientIds} {policy : (machine clientId).Policy}
    {s : Coordinator} (hs : (machine clientId).Reachable policy s) : Alive s := by
  refine hs.induction ⟨?_, ?_, ?_⟩ fun _ _ _ h ⟨_, _, hf⟩ => h.fire hf
  · exact fun _ hmem => by cases hmem
  · exact fun _ hmem => by cases hmem
  · exact fun hinit => by cases hinit

/-! ## A check that will find a transaction -/

section Finds

variable {t : String} {start : Date} {s : Coordinator}

/-- Where a check stands that will find `t` overdue. -/
inductive Finds (t : String) (start : Date) : Async Unit → Prop where
  | keys : Finds t start checkTimeouts
  | now {keys : List String} : transactionKey (some t) ∈ keys →
      Finds t start (.call .now (fun now => checkTimeoutsOf now keys) .throw)
  | loop {now : Date} {keys : List String} : transactionKey (some t) ∈ keys →
      HasTimedOut start now → Finds t start (checkTimeoutsOf now keys)

theorem inProgress_iff {redis : Redis} :
    inProgress t start redis = true ↔ ∃ r : DistributedTransaction,
      redis.lookup (transactionKey (some t)) = some r.serialize ∧ r.status = .IN_PROGRESS ∧
        r.transactionId = t ∧ startedAt r = some start := by
  unfold inProgress
  rw [Option.any_eq_true]
  constructor
  · rintro ⟨r, hr, h⟩
    obtain ⟨v, hv, hread⟩ := Option.bind_eq_some_iff.mp hr
    rw [SerializedTransaction.eq_serialize hread] at hv
    exact ⟨r, hv, of_decide_eq_true h⟩
  · rintro ⟨r, hr, h⟩
    exact ⟨r, by rw [hr, Option.bind_some, r.read_serialize], decide_eq_true h⟩

theorem settle_checkTimeoutsOf (now : Date) {keys : List String} {key : String} (h : key ∈ keys) :
    (checkTimeoutsOf now keys).settle = ([], checkTimeoutsOf now keys) := by
  cases keys with
  | nil => cases h
  | cons key keys => rfl

/-- The rest of the keys are checked. -/
theorem Finds.rest {now : Date} {keys : List String} (hmem : transactionKey (some t) ∈ keys)
    (hlate : HasTimedOut start now) : Finds t start (checkTimeoutsOf now keys).settle.2 := by
  rw [settle_checkTimeoutsOf now hmem]
  exact .loop hmem hlate

/-- A check that is to find `t` reads a record: it has found `t`, goes on, or throws. -/
theorem Finds.goesOn {p : Async Unit} (h : Finds t start p) {op : Call} {ok : op.Res → Async Unit}
    {err : Async Unit} (hp : p = .call op ok err) (hprogress : inProgress t start s.redis = true)
    (hnow : HasTimedOut start s.now) :
    timeoutOf t ∈ (ok (answer s op)).settle.1 ∨ Finds t start (ok (answer s op)).settle.2 ∨
      (ok (answer s op)).settle.2 = .throw := by
  obtain ⟨r, hr, hstatus, rfl, hstart⟩ := inProgress_iff.mp hprogress
  cases h with
  | keys =>
    cases hp
    refine .inr (.inl (.now ?_))
    exact AList.mem_keys.mpr (AList.lookup_isSome.mp (by rw [hr]; rfl))
  | now hmem =>
    cases hp
    exact .inr (.inl (.rest hmem hnow))
  | @loop now keys hmem hlate =>
    cases keys with
    | nil => cases hmem
    | cons key keys =>
      rw [checkTimeoutsOf, getTransactionByKey_bind] at hp
      cases hp
      simp only [answer]
      by_cases hkey : key = transactionKey (some r.transactionId)
      · subst hkey
        obtain ⟨step, hstep, hbegun⟩ := Option.bind_eq_some_iff.mp hstart
        left
        rw [hr, Option.bind_some, r.read_serialize]
        dsimp only
        rw [if_pos hstatus, hstep]
        dsimp only
        rw [hbegun, Option.any_some, if_pos (decide_eq_true (show _ < _ from hlate))]
        exact List.mem_cons_self
      · have hmem : transactionKey (some r.transactionId) ∈ keys :=
          (List.mem_cons.mp hmem).resolve_left fun h => hkey h.symm
        have hrest := Finds.rest hmem hlate
        split
        · exact .inr (.inl hrest)
        · split
          · split
            · exact .inr (.inr rfl)
            · split
              · exact .inr (.inl hrest)
              · exact .inr (.inl hrest)
          · exact .inr (.inl hrest)

theorem Finds.ne_pure {p : Async Unit} (h : Finds t start p) : p ≠ .pure () := by
  cases h with
  | keys => exact nofun
  | now _ => exact nofun
  | @loop now keys hmem _ =>
    cases keys with
    | nil => cases hmem
    | cons key keys => exact nofun

theorem Finds.rejected {p : Async Unit} (h : Finds t start p) {op : Call}
    {ok : op.Res → Async Unit} {err : Async Unit} (hp : p = .call op ok err) : err = .throw := by
  cases h with
  | keys =>
    cases hp
    rfl
  | now _ =>
    cases hp
    rfl
  | @loop now keys hmem _ =>
    cases keys with
    | nil => cases hmem
    | cons key keys =>
      rw [checkTimeoutsOf, getTransactionByKey_bind] at hp
      cases hp
      rfl

end Finds

/-! ## No transaction is overlooked -/

section Watched

variable {clientId : ClientIds} {late duration since : Nat} {t : String} {start : Date}
  {before : List Call} {s s' : Coordinator}

/-- How `t` comes to be found: it has been; or a timer is set, or a check is about to end that will
set one, or a check runs that will find it. -/
inductive Ahead (late duration since : Nat) (t : String) (start : Date) (before : List Call)
    (s : Coordinator) : Prop where
  | found {more : List Call} : s.started = before ++ more → timeoutOf t ∈ more →
      Ahead late duration since t start before s
  | timer {timer : Timer} : timer ∈ s.timers → timer.due ≤ since + duration + checkDelay →
      Ahead late duration since t start before s
  | ending {check : Check} : check ∈ s.checks → check.began ≤ since →
      Ahead late duration since t start before s
  | finding {check : Check} : check ∈ s.checks → Finds t start check.prog → since < s.now →
      check.began ≤ since + duration + checkDelay + late →
      Ahead late duration since t start before s

/-- What holds of a coordinator while `t` stays in progress, since `t` was overdue. -/
structure Watched (late duration since : Nat) (t : String) (start : Date) (before : List Call)
    (s : Coordinator) : Prop where
  onTime : OnTime late duration s = true
  isInitialized : s.isInitialized = true
  progress : inProgress t start s.redis = true
  started : ∃ more, s.started = before ++ more
  ahead : s.failed = false → Ahead late duration since t start before s

theorem timer_onTime (h : OnTime late duration s = true) {timer : Timer} (ht : timer ∈ s.timers) :
    s.now ≤ timer.due + late := by
  unfold OnTime at h
  rw [Bool.and_eq_true] at h
  exact of_decide_eq_true (List.all_eq_true.mp h.1 timer ht)

theorem check_onTime (h : OnTime late duration s = true) {check : Check}
    (hc : check ∈ s.checks) : s.now ≤ check.began + duration := by
  unfold OnTime at h
  rw [Bool.and_eq_true] at h
  exact of_decide_eq_true (List.all_eq_true.mp h.2 check hc)

/-- A check goes on; a check that is to find `t` does not just end. -/
theorem Watched.goOn (h : Watched late duration since t start before s)
    {i : Nat} {check : Check} (hi : s.checks[i]? = some check) {p : Async Unit}
    (hfinds : Finds t start check.prog → since < s.now →
      timeoutOf t ∈ p.settle.1 ∨ Finds t start p.settle.2 ∨ p.settle.2 = .throw)
    (hi' : OnTime late duration (goOn s i check.began p) = true) :
    Watched late duration since t start before (goOn s i check.began p) := by
  have hgoes : GoesOn s (Checker.goOn s i check.began p) i check.began p := goesOn
  obtain ⟨more, hmore⟩ := h.started
  have hstarted : (Checker.goOn s i check.began p).started = before ++ (more ++ p.settle.1) := by
    rw [hgoes.started, hmore, List.append_assoc]
  refine ⟨hi', hgoes.isInitialized.trans h.isInitialized, ?_, ⟨_, hstarted⟩, fun hfailed => ?_⟩
  · rw [hgoes.redis]
    exact h.progress
  · obtain ⟨hunfailed, hthrow⟩ := hgoes.failed hfailed
    cases h.ahead hunfailed with
    | @found more' heq hmem =>
      rw [hmore, List.append_cancel_left_eq] at heq
      subst heq
      exact .found hstarted (List.mem_append_left _ hmem)
    | timer hmem hdue => exact .timer (hgoes.kept _ hmem) hdue
    | @ending check' hmem hbegan =>
      rcases mem_eraseIdx_or hmem hi with rfl | hother
      · rcases hgoes.next hfailed h.isInitialized with ⟨-, timer, htimer, hdue⟩ | hwaits
        · have hontime := check_onTime h.onTime hmem
          exact .timer htimer (by omega)
        · exact .ending hwaits hbegan
      · exact .ending (hgoes.others _ hother) hbegan
    | @finding check' hmem hcheck hsince hbegan =>
      rcases mem_eraseIdx_or hmem hi with rfl | hother
      · rcases hfinds hcheck hsince with hfound | hnext | hthrown
        · exact .found hstarted (List.mem_append_right _ hfound)
        · rcases hgoes.next hfailed h.isInitialized with ⟨hpure, -⟩ | hwaits
          · exact absurd hpure hnext.ne_pure
          · exact .finding hwaits hnext (hgoes.now ▸ hsince) hbegan
        · exact absurd hthrown hthrow
      · exact .finding (hgoes.others _ hother) hcheck (hgoes.now ▸ hsince) hbegan

theorem Watched.fire (hoverdue : start + timeoutThreshold ≤ since)
    (h : Watched late duration since t start before s) {label : Label}
    (hp : waiting clientId late duration t start s label = true) (hf : fire s label = some s') :
    Watched late duration since t start before s' := by
  unfold waiting at hp
  rw [Bool.and_eq_true] at hp
  obtain ⟨hpunctual, hp⟩ := hp
  have hi : OnTime late duration s' = true := by
    unfold punctual at hpunctual
    rwa [hf, Option.all_some] at hpunctual
  have hnow : since < s.now → HasTimedOut start s.now := fun hsince =>
    Nat.lt_of_le_of_lt hoverdue hsince
  cases label with
  | initializeCoordinator =>
    simp only [Checker.fire] at hf
    rw [if_pos h.isInitialized] at hf
    cases hf
    exact h
  | subscribed ok => cases hp
  | disconnect clientId => cases hp
  | timer id =>
    simp only [Checker.fire] at hf
    split at hf
    · split at hf
      · cases hf
        refine ⟨hi, h.isInitialized, h.progress, h.started, fun hfailed => ?_⟩
        cases h.ahead hfailed with
        | found heq hmem => exact .found heq hmem
        | @timer timer hmem hdue =>
          have hlate := timer_onTime h.onTime hmem
          have hbegins : ⟨s.now, checkTimeouts⟩ ∈ s.checks ++ [⟨s.now, checkTimeouts⟩] :=
            List.mem_append_right _ (List.mem_singleton_self _)
          by_cases hid : timer.id = id
          · by_cases hsince : since < s.now
            · exact .finding hbegins .keys hsince (show s.now ≤ _ by omega)
            · exact .ending hbegins (Nat.le_of_not_lt hsince)
          · exact .timer (List.mem_filter.mpr ⟨hmem, by simpa using hid⟩) hdue
        | ending hmem hbegan => exact .ending (List.mem_append_left _ hmem) hbegan
        | finding hmem hfinds hsince hbegan =>
          exact .finding (List.mem_append_left _ hmem) hfinds hsince hbegan
      · cases hf
    · cases hf
  | answer i =>
    simp only [Checker.fire] at hf
    split at hf
    · rename_i began op ok err hcheck
      cases hf
      exact h.goOn hcheck
        (fun hfinds hsince => hfinds.goesOn rfl h.progress (hnow hsince)) hi
    · cases hf
  | reject i =>
    simp only [Checker.fire] at hf
    split at hf
    · rename_i began op ok err hcheck
      cases hf
      refine h.goOn hcheck (fun hfinds _ => ?_) hi
      rw [hfinds.rejected rfl]
      exact .inr (.inr rfl)
    · cases hf
  | write redis =>
    cases hf
    refine ⟨hi, h.isInitialized, hp, h.started, fun hfailed => ?_⟩
    cases h.ahead hfailed with
    | found heq hmem => exact .found heq hmem
    | timer hmem hdue => exact .timer hmem hdue
    | ending hmem hbegan => exact .ending hmem hbegan
    | finding hmem hfinds hsince hbegan => exact .finding hmem hfinds hsince hbegan
  | tick ms =>
    cases hf
    refine ⟨hi, h.isInitialized, h.progress, h.started, fun hfailed => ?_⟩
    cases h.ahead hfailed with
    | found heq hmem => exact .found heq hmem
    | timer hmem hdue => exact .timer hmem hdue
    | ending hmem hbegan => exact .ending hmem hbegan
    | finding hmem hfinds hsince hbegan =>
      exact .finding hmem hfinds (Nat.lt_of_lt_of_le hsince (Nat.le_add_right _ _)) hbegan

theorem onTime_reachable (hs : (machine clientId).Reachable (punctual clientId late duration) s) :
    OnTime late duration s = true := by
  induction hs with
  | refl => rfl
  | tail _ hstep _ =>
    obtain ⟨label, hp, hf⟩ := hstep
    have hf : Checker.fire _ label = some _ := hf
    unfold punctual at hp
    rwa [hf, Option.all_some] at hp

/-- A check is ahead where a transaction begins to be watched. -/
theorem watched_start (hs : (machine clientId).Reachable (punctual clientId late duration) s)
    (hinit : s.isInitialized = true) (hprogress : inProgress t start s.redis = true) :
    Watched late duration (max s.now (start + timeoutThreshold)) t start s.started s := by
  have halive := alive_reachable hs
  refine ⟨onTime_reachable hs, hinit, hprogress, ⟨[], (List.append_nil _).symm⟩, fun hfailed => ?_⟩
  rcases halive.ahead hinit hfailed with htimers | hchecks
  · obtain ⟨timer, hmem⟩ := List.exists_mem_of_ne_nil _ htimers
    have hdue := halive.due timer hmem
    exact .timer hmem (by omega)
  · obtain ⟨check, hmem⟩ := List.exists_mem_of_ne_nil _ hchecks
    have hbegan := halive.began check hmem
    exact .ending hmem (by omega)

/-- A transaction that stays in progress is found within a minute after its current step has been
running for five minutes, but for the delay of timers and twice what a check takes. -/
theorem overdue_found {s₀ : Coordinator}
    (h₀ : (machine clientId).Reachable (punctual clientId late duration) s₀)
    (hs : Relation.ReflTransGen ((machine clientId).Step
      (waiting clientId late duration t start)) s₀ s)
    (hinit : s₀.isInitialized = true) (hprogress : inProgress t start s₀.redis = true)
    (hlate : max s₀.now (start + timeoutThreshold) + checkDelay + late + 2 * duration < s.now)
    (hfailed : s.failed = false) :
    ∃ more, s.started = s₀.started ++ more ∧ timeoutOf t ∈ more := by
  have hwatched : Watched late duration (max s₀.now (start + timeoutThreshold)) t start
      s₀.started s := by
    clear hlate hfailed
    induction hs with
    | refl => exact watched_start h₀ hinit hprogress
    | tail _ hstep ih =>
      obtain ⟨label, hp, hf⟩ := hstep
      exact ih.fire (Nat.le_max_right _ _) hp hf
  cases hwatched.ahead hfailed with
  | found heq hmem => exact ⟨_, heq, hmem⟩
  | timer hmem hdue =>
    have hontime := timer_onTime hwatched.onTime hmem
    omega
  | ending hmem hbegan =>
    have hontime := check_onTime hwatched.onTime hmem
    omega
  | finding hmem _ _ hbegan =>
    have hontime := check_onTime hwatched.onTime hmem
    omega

end Watched

/-! ## A run -/

/-- The step of `oneStep` was commanded and is slow. -/
def slowStep : DistributedTransaction :=
  beginStep (newTransaction oneStep "t" 0)
    ⟨Subjects.ORDER_APPROVAL_STEP_UPDATE_ORDER_STATUS.value, .ORDER_SERVICE, .PENDING, none, none,
      none⟩ 0

/-- The coordinator is initialized, and a transaction is stored. -/
def slowStepStored : List Label :=
  [.initializeCoordinator, .subscribed true,
    .write ((∅ : Redis).insert (transactionKey (some "t")) slowStep.serialize)]

/-- Six checks, and a millisecond more. -/
def sixChecks : List Label :=
  (List.range 6).flatMap (fun id =>
    .tick checkDelay :: .timer id :: List.replicate 3 (.answer 0)) ++ [.tick 1]

theorem overdue_found_slowStep :
    ∃ s₀ s, (machine .ORDER_SERVICE).run (punctual .ORDER_SERVICE 0 0)
        (machine .ORDER_SERVICE).initial slowStepStored = some s₀ ∧
      (machine .ORDER_SERVICE).run (waiting .ORDER_SERVICE 0 0 "t" 0) s₀ sixChecks = some s ∧
      ∃ more, s.started = s₀.started ++ more ∧ timeoutOf "t" ∈ more := by
  have hrun : ((machine .ORDER_SERVICE).run (punctual .ORDER_SERVICE 0 0)
      (machine .ORDER_SERVICE).initial slowStepStored).any (fun s₀ =>
        s₀.isInitialized && inProgress "t" 0 s₀.redis &&
        ((machine .ORDER_SERVICE).run (waiting .ORDER_SERVICE 0 0 "t" 0) s₀ sixChecks).any
          fun s => decide (max s₀.now (0 + timeoutThreshold) + checkDelay + 0 + 2 * 0 < s.now) &&
            !s.failed) = true := by decide +kernel
  obtain ⟨s₀, hs₀, h₀⟩ := (Option.any_eq_true _ _).mp hrun
  rw [Bool.and_eq_true, Bool.and_eq_true] at h₀
  obtain ⟨s, hs, h⟩ := (Option.any_eq_true _ _).mp h₀.2
  rw [Bool.and_eq_true, Bool.not_eq_true'] at h
  exact ⟨s₀, s, hs₀, hs, overdue_found (Machine.run_steps _ hs₀) (Machine.run_steps _ hs) h₀.1.1
    h₀.1.2 (of_decide_eq_true h.1) h.2⟩

end InvoiceHub.Transaction.Checker
