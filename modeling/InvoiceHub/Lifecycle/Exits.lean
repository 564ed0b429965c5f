import InvoiceHub.Lifecycle.Process

/-!
# Why a process exits

Whatever fails and however many signals come: `shutDown` exits with 0 once all services are
disconnected, but as well once closing the server fails or one service has failed as often as it
is retried, whichever services are still connected then.
-/

namespace InvoiceHub.Lifecycle

open Effects

variable {c : Config} {s s' : Process} {history history' : List Event} {i j : Nat}

/-! ## Attempts -/

/-- How often `disconnect` was called. -/
def calls (history : List Event) (i j : Nat) : Nat := history.count (.called i j)

/-- How often it has failed. -/
def failures (history : List Event) (i j : Nat) : Nat := history.count (.failed i j)

/-- After this many attempts, `executeWithRetry` throws. -/
def Config.Exhausted (c : Config) (attempts : Nat) : Prop :=
  c.SHUTDOWN_RETRIES.equals attempts = true ∨ c.SHUTDOWN_RETRIES.admits (attempts + 1) = false

/-- The server has closed before the shutdown of the first signal goes on. -/
def Closed (history : List Event) (i : Nat) : Prop := i = 0 → .closed 0 ∈ history

/-- A shutdown is over. -/
inductive Over (c : Config) (history : List Event) (i : Nat) : Prop where
  | closeFailed : .closeFailed i ∈ history → Over c history i
  | disconnected : Closed history i →
      (∀ j < c.gracefulShutDownService.length, .disconnected i j ∈ history) → Over c history i
  | exhausted {j : Nat} : Closed history i → j < c.gracefulShutDownService.length →
      failures history i j = calls history i j → c.Exhausted (calls history i j) → Over c history i

/-- What the attempts of a retry say about where it stands. -/
structure RetryOk (c : Config) (history : List Event) (i j : Nat) (retry : Retry) : Prop where
  calling : ∀ attempt, retry = .calling attempt →
    calls history i j = attempt ∧ failures history i j + 1 = attempt
  delaying : ∀ attempt, retry = .delaying attempt →
    calls history i j = attempt ∧ failures history i j = attempt
  resolved : retry = .resolved → .disconnected i j ∈ history
  rejected : retry = .rejected →
    failures history i j = calls history i j ∧ c.Exhausted (calls history i j)

/-- What holds of a process. -/
structure Lived (c : Config) (s : Process) : Prop where
  components : ∀ component ∈ c.components,
    component ∈ s.pending ∨ .initialized component ∈ s.history
  started : s.started = true → s.pending = []
  shutdowns : s.started = false → s.shutdowns = [] ∧ s.listening = false
  listening : s.started = true → s.shutdowns = [] → s.listening = true
  admitted : ∀ i j, calls s.history i j = 0 ∨ c.SHUTDOWN_RETRIES.admits (calls s.history i j) = true
  later : ∀ i j, s.shutdowns.length ≤ i → calls s.history i j = 0 ∧ failures s.history i j = 0
  closing : ∀ i, s.shutdowns[i]? = some .closing →
    ∀ j, calls s.history i j = 0 ∧ failures s.history i j = 0
  disconnecting : ∀ i retries, s.shutdowns[i]? = some (.disconnecting retries) →
    retries.length = c.gracefulShutDownService.length ∧ Closed s.history i ∧
    ∀ j retry, retries[j]? = some retry → RetryOk c s.history i j retry
  /-- Who still runs has something to wait for. -/
  running : s.exited = none → ∀ (i : Nat) retries, s.shutdowns[i]? = some (.disconnecting retries) →
    .rejected ∉ retries ∧ ∃ retry ∈ retries, retry ≠ .resolved
  zero : ∀ n, s.exited = some (.code n) →
    n = 0 ∧ (∃ i < s.shutdowns.length, Over c s.history i) ∨
    n = 1 ∧ (.startFailed ∈ s.history ∨ .uncaught ∈ s.history)
  killed : s.exited = some .killed → s.started = false

/-! ## Notes -/

@[simp] theorem calls_append (events : List Event) :
    calls (history ++ events) i j = calls history i j + events.count (.called i j) :=
  List.count_append

@[simp] theorem failures_append (events : List Event) :
    failures (history ++ events) i j = failures history i j + events.count (.failed i j) :=
  List.count_append

theorem Closed.append (h : Closed history i) (events : List Event) :
    Closed (history ++ events) i := fun hi => List.mem_append_left _ (h hi)

/-- What happens to others does not matter to a retry. -/
theorem RetryOk.frame {retry : Retry} (h : RetryOk c history i j retry)
    (hc : calls history' i j = calls history i j)
    (hf : failures history' i j = failures history i j)
    (hh : ∀ event ∈ history, event ∈ history') : RetryOk c history' i j retry where
  calling attempt hr := by
    rw [hc, hf]
    exact h.calling attempt hr
  delaying attempt hr := by
    rw [hc, hf]
    exact h.delaying attempt hr
  resolved hr := hh _ (h.resolved hr)
  rejected hr := by
    rw [hc, hf]
    exact h.rejected hr

theorem count_callsOf {i' j' : Nat} (retry : Retry) :
    (callsOf i j retry).count (.called i' j') =
      if isCalling retry ∧ i = i' ∧ j = j' then 1 else 0 := by
  unfold callsOf
  by_cases hr : isCalling retry = true
  · by_cases hij : i = i' ∧ j = j'
    · simp [hr, hij.1, hij.2]
    · have hne : Event.called i j ≠ .called i' j' := by
        intro heq
        cases heq
        exact hij ⟨rfl, rfl⟩
      simp [hr, hij, hne]
  · simp [hr]

theorem count_failed_callsOf {i' j' : Nat} (retry : Retry) :
    (callsOf i j retry).count (.failed i' j') = 0 := by
  unfold callsOf
  split <;> simp

/-! ## Steps -/

/-- A shutdown goes on: all that is noted is about it, and its retries stand where their attempts
say. -/
theorem Lived.proceeds (h : Lived c s) (hnone : s.exited = none) (hlt : i < s.shutdowns.length)
    {events : List Event} {retries : List Retry}
    (hlength : retries.length = c.gracefulShutDownService.length)
    (hclosed : Closed (s.history ++ events) i)
    (hothers : ∀ i' j, i' ≠ i → events.count (.called i' j) = 0 ∧ events.count (.failed i' j) = 0)
    (hadmitted : ∀ j, calls (s.history ++ events) i j = 0 ∨
      c.SHUTDOWN_RETRIES.admits (calls (s.history ++ events) i j) = true)
    (hok : ∀ j retry, retries[j]? = some retry → RetryOk c (s.history ++ events) i j retry) :
    Lived c (goOn (note s events) i retries) := by
  have hcalls : ∀ i' j, i' ≠ i → calls (s.history ++ events) i' j = calls s.history i' j ∧
      failures (s.history ++ events) i' j = failures s.history i' j := by
    intro i' j hne
    obtain ⟨hcalled, hfailed⟩ := hothers i' j hne
    rw [calls_append, failures_append, hcalled, hfailed]
    exact ⟨rfl, rfl⟩
  have hgrows : ∀ event ∈ s.history, event ∈ (s.history ++ events) :=
    fun event hmem => List.mem_append_left _ hmem
  have hget : ∀ (i' : Nat), (s.shutdowns.set i (.disconnecting retries))[i']? =
      if i' = i then some (.disconnecting retries) else s.shutdowns[i']? := by
    intro i'
    by_cases hi : i' = i
    · subst hi
      rw [if_pos rfl, List.getElem?_set_self hlt]
    · rw [if_neg hi, List.getElem?_set_ne (Ne.symm hi)]
  constructor
  · exact fun component hmem => (h.components component hmem).imp_right (hgrows _)
  · exact h.started
  · intro hs
    rw [(h.shutdowns hs).1] at hlt
    cases hlt
  · intro hs hnil
    have hnil : s.shutdowns.set i (.disconnecting retries) = [] := hnil
    rw [List.set_eq_nil_iff] at hnil
    rw [hnil] at hlt
    cases hlt
  · intro i' j
    by_cases hi : i' = i
    · subst hi
      exact hadmitted j
    · have hsame := (hcalls i' j hi).1
      exact (h.admitted i' j).imp hsame.trans fun ha => by
        change c.SHUTDOWN_RETRIES.admits (calls (s.history ++ events) i' j) = true
        rwa [hsame]
  · intro i' j hle
    have hle : (s.shutdowns.set i (.disconnecting retries)).length ≤ i' := hle
    rw [List.length_set] at hle
    obtain ⟨hcalled, hfailed⟩ := hcalls i' j (Nat.ne_of_gt (Nat.lt_of_lt_of_le hlt hle))
    obtain ⟨hcalled', hfailed'⟩ := h.later i' j hle
    exact ⟨hcalled.trans hcalled', hfailed.trans hfailed'⟩
  · intro i' hclosing j
    replace hclosing := (hget i').symm.trans hclosing
    split at hclosing
    · cases hclosing
    · rename_i hi
      obtain ⟨hcalled, hfailed⟩ := hcalls i' j hi
      obtain ⟨hcalled', hfailed'⟩ := h.closing i' hclosing j
      exact ⟨hcalled.trans hcalled', hfailed.trans hfailed'⟩
  · intro i' retries' hstage
    replace hstage := (hget i').symm.trans hstage
    split at hstage
    · rename_i hi
      subst hi
      cases hstage
      exact ⟨hlength, hclosed, fun j retry hretry =>
        (hok j retry hretry).frame rfl rfl fun _ hmem => hmem⟩
    · rename_i hi
      obtain ⟨hlength', hclosed', hok'⟩ := h.disconnecting i' retries' hstage
      refine ⟨hlength', hclosed'.append events, fun j retry hretry => ?_⟩
      obtain ⟨hcalled, hfailed⟩ := hcalls i' j hi
      exact (hok' j retry hretry).frame hcalled hfailed hgrows
  · intro hexited i' retries' hstage
    dsimp only [goOn] at hexited
    split at hexited
    · cases hexited
    · rename_i hwaits
      rw [not_or] at hwaits
      replace hstage := (hget i').symm.trans hstage
      split at hstage
      · cases hstage
        exact ⟨hwaits.1, by simpa using hwaits.2⟩
      · exact h.running hnone i' retries' hstage
  · intro n hexited
    have hlt' : i < (goOn (note s events) i retries).shutdowns.length :=
      hlt.trans_eq List.length_set.symm
    dsimp only [goOn] at hexited
    split at hexited
    · rename_i hover
      cases hexited
      refine .inl ⟨rfl, i, hlt', ?_⟩
      rcases hover with hrejected | hall
      · obtain ⟨j, hj⟩ := List.getElem?_of_mem hrejected
        have hjlt := (List.getElem?_eq_some_iff.mp hj).1
        obtain ⟨hfailures, hexhausted⟩ := (hok j _ hj).rejected rfl
        exact .exhausted hclosed (hlength ▸ hjlt) hfailures hexhausted
      · refine .disconnected hclosed fun j hj => ?_
        have hjlt : j < retries.length := hlength.symm ▸ hj
        exact (hok j _ (List.getElem?_eq_getElem hjlt)).resolved (hall _ (List.getElem_mem hjlt))
    · exact absurd (hnone.symm.trans hexited) nofun
  · intro hexited
    dsimp only [goOn] at hexited
    split at hexited
    · cases hexited
    · exact absurd (hnone.symm.trans hexited) nofun

/-- What one service does in a shutdown. -/
theorem Lived.retried (h : Lived c s) (hnone : s.exited = none) {retries : List Retry}
    (hstage : s.shutdowns[i]? = some (.disconnecting retries)) {old retry : Retry}
    (hold : retries[j]? = some old) {events : List Event}
    (hothers : ∀ i' j', ¬(i' = i ∧ j' = j) →
      events.count (.called i' j') = 0 ∧ events.count (.failed i' j') = 0)
    (hadmitted : calls (s.history ++ events) i j = 0 ∨
      c.SHUTDOWN_RETRIES.admits (calls (s.history ++ events) i j) = true)
    (hok : RetryOk c (s.history ++ events) i j retry) :
    Lived c (goOn (note s events) i (retries.set j retry)) := by
  obtain ⟨hlength, hclosed, hretries⟩ := h.disconnecting i retries hstage
  have hsame : ∀ i' j', ¬(i' = i ∧ j' = j) →
      calls (s.history ++ events) i' j' = calls s.history i' j' ∧
      failures (s.history ++ events) i' j' = failures s.history i' j' := by
    intro i' j' hne
    obtain ⟨hcalled, hfailed⟩ := hothers i' j' hne
    rw [calls_append, failures_append, hcalled, hfailed]
    exact ⟨rfl, rfl⟩
  refine h.proceeds hnone (List.getElem?_eq_some_iff.mp hstage).1 (List.length_set.trans hlength)
    (hclosed.append events) (fun i' j' hne => hothers i' j' fun heq => hne heq.1) (fun j' => ?_)
    fun j' retry' hget => ?_
  · by_cases hj : j' = j
    · subst hj
      exact hadmitted
    · rw [(hsame i j' fun heq => hj heq.2).1]
      exact h.admitted i j'
  · by_cases hj : j' = j
    · subst hj
      rw [List.getElem?_set_self (List.getElem?_eq_some_iff.mp hold).1] at hget
      cases hget
      exact hok
    · rw [List.getElem?_set_ne (Ne.symm hj)] at hget
      obtain ⟨hcalled, hfailed⟩ := hsame i j' fun heq => hj heq.2
      exact (hretries j' retry' hget).frame hcalled hfailed
        fun event hmem => List.mem_append_left _ hmem

/-- An attempt that is not admitted ends the loop. -/
theorem retryOk_attempted {attempts : Nat} (hc : calls s.history i j = attempts)
    (hf : failures s.history i j = attempts) :
    RetryOk c (s.history ++ (callsOf i j (attempted c (attempts + 1)))) i j
      (attempted c (attempts + 1)) := by
  have hcalls : calls (s.history ++ (callsOf i j (attempted c (attempts + 1)))) i j =
      attempts + if isCalling (attempted c (attempts + 1)) then 1 else 0 := by
    rw [calls_append, hc, count_callsOf]
    simp
  have hfailures :
      failures (s.history ++ (callsOf i j (attempted c (attempts + 1)))) i j = attempts := by
    rw [failures_append, hf, count_failed_callsOf, Nat.add_zero]
  by_cases ha : c.SHUTDOWN_RETRIES.admits (attempts + 1) = true
  · have hretry : attempted c (attempts + 1) = .calling (attempts + 1) := if_pos ha
    constructor
    · intro attempt hr
      rw [hretry] at hr
      cases hr
      rw [hcalls, hfailures, hretry]
      exact ⟨rfl, rfl⟩
    all_goals
      intros
      rename_i hr
      rw [hretry] at hr
      cases hr
  · have hretry : attempted c (attempts + 1) = .rejected := if_neg ha
    constructor
    case rejected =>
      intro _
      rw [hcalls, hfailures, hretry]
      exact ⟨rfl, .inr (eq_false_of_ne_true ha)⟩
    all_goals
      intros
      rename_i hr
      rw [hretry] at hr
      cases hr

theorem admitted_attempted {attempts : Nat} (hc : calls s.history i j = attempts)
    (ha : attempts = 0 ∨ c.SHUTDOWN_RETRIES.admits attempts = true) :
    calls (s.history ++ (callsOf i j (attempted c (attempts + 1)))) i j = 0 ∨
      c.SHUTDOWN_RETRIES.admits
        (calls (s.history ++ (callsOf i j (attempted c (attempts + 1)))) i j) = true := by
  rw [calls_append, hc, count_callsOf]
  by_cases hadmits : c.SHUTDOWN_RETRIES.admits (attempts + 1) = true
  · have hretry : attempted c (attempts + 1) = .calling (attempts + 1) := if_pos hadmits
    rw [hretry, if_pos ⟨rfl, rfl, rfl⟩]
    exact .inr hadmits
  · have hretry : attempted c (attempts + 1) = .rejected := if_neg hadmits
    rw [hretry]
    exact ha

/-- Each service is called once at first. -/
theorem count_firstCalls (retry : Retry) (n : Nat) {i' j' : Nat} :
    ((List.range n).flatMap fun j => callsOf i j retry).count (.called i' j') =
      if isCalling retry ∧ i = i' ∧ j' < n then 1 else 0 := by
  induction n with
  | zero => simp
  | succ n ih =>
    rw [List.range_succ, List.flatMap_append, List.count_append, ih, List.flatMap_singleton,
      count_callsOf]
    by_cases hr : isCalling retry = true ∧ i = i'
    · by_cases hj : j' < n
      · have hne : n ≠ j' := Nat.ne_of_gt hj
        simp [hr.1, hr.2, hj, hne, Nat.lt_succ_of_lt hj]
      · by_cases heq : n = j'
        · simp [hr.1, hr.2, heq]
        · have hle : ¬j' < n + 1 := by omega
          simp [hr.1, hr.2, hj, heq, hle]
    · have hno : ∀ p : Prop, ¬(isCalling retry = true ∧ i = i' ∧ p) :=
        fun p h => hr ⟨h.1, h.2.1⟩
      simp [hno]

theorem count_failed_firstCalls (retry : Retry) (n : Nat) {i' j' : Nat} :
    ((List.range n).flatMap fun j => callsOf i j retry).count (.failed i' j') = 0 := by
  induction n with
  | zero => rfl
  | succ n ih =>
    rw [List.range_succ, List.flatMap_append, List.count_append, ih, List.flatMap_singleton,
      count_failed_callsOf]

/-- What is noted for all services comes to the same for one of them. -/
theorem firstCalls_alone {n : Nat} (retry : Retry) (hj : j < n) :
    calls (s.history ++ ((List.range n).flatMap fun j => callsOf i j retry)) i j =
        calls (s.history ++ (callsOf i j retry)) i j ∧
      failures (s.history ++ ((List.range n).flatMap fun j => callsOf i j retry)) i j =
        failures (s.history ++ (callsOf i j retry)) i j := by
  constructor
  · rw [calls_append, calls_append, count_firstCalls, count_callsOf]
    simp [hj]
  · rw [failures_append, failures_append, count_failed_firstCalls, count_failed_callsOf]

/-- `disconnectServices` begins. -/
theorem Lived.disconnectServices (h : Lived c s) (hnone : s.exited = none)
    (hstage : s.shutdowns[i]? = some .closing) (hclosed : Closed s.history i) :
    Lived c (disconnectServices c s i) := by
  have hzero := h.closing i hstage
  refine h.proceeds hnone (List.getElem?_eq_some_iff.mp hstage).1 (List.length_map _)
    (hclosed.append _) (fun i' j hne => ⟨?_, count_failed_firstCalls _ _⟩) (fun j => ?_)
    fun j retry hget => ?_
  · rw [count_firstCalls, if_neg fun heq => hne heq.2.1.symm]
  · by_cases hj : j < c.gracefulShutDownService.length
    · rw [(firstCalls_alone _ hj).1]
      exact admitted_attempted (hzero j).1 (.inl rfl)
    · rw [calls_append, count_firstCalls, if_neg fun heq => hj heq.2.2, (hzero j).1]
      exact .inl rfl
  · rw [List.getElem?_map] at hget
    obtain ⟨service, hservice, rfl⟩ := Option.map_eq_some_iff.mp hget
    have hj : j < c.gracefulShutDownService.length := (List.getElem?_eq_some_iff.mp hservice).1
    obtain ⟨hcalls, hfailures⟩ := firstCalls_alone (s := s) (i := i) (attempted c 1) hj
    refine (retryOk_attempted (hzero j).1 (hzero j).2).frame hcalls hfailures fun event hmem => ?_
    exact (List.mem_append.mp hmem).elim (List.mem_append_left _) fun hmem =>
      List.mem_append_right _ (List.mem_flatMap.mpr ⟨j, List.mem_range.mpr hj, hmem⟩)

/-! ## Runs -/

/-- Something is noted that is about no attempt. -/
theorem Lived.note (h : Lived c s) (events : List Event)
    (hc : ∀ i j, events.count (.called i j) = 0) (hf : ∀ i j, events.count (.failed i j) = 0) :
    Lived c (note s events) := by
  have hgrows : ∀ event ∈ s.history, event ∈ s.history ++ events :=
    fun event hmem => List.mem_append_left _ hmem
  have hcalls : ∀ i j, calls (Lifecycle.note s events).history i j = calls s.history i j :=
    fun i j => (calls_append events).trans (by rw [hc, Nat.add_zero])
  have hfailures : ∀ i j, failures (Lifecycle.note s events).history i j = failures s.history i j :=
    fun i j => (failures_append events).trans (by rw [hf, Nat.add_zero])
  refine ⟨fun component hmem => (h.components component hmem).imp_right (hgrows _), h.started,
    h.shutdowns, h.listening, fun i j => ?_, fun i j hle => ?_, fun i hstage j => ?_,
    fun i retries hstage => ?_, h.running, fun n hexited => ?_, h.killed⟩
  · rw [hcalls]
    exact h.admitted i j
  · rw [hcalls, hfailures]
    exact h.later i j hle
  · rw [hcalls, hfailures]
    exact h.closing i hstage j
  · obtain ⟨hlength, hclosed, hok⟩ := h.disconnecting i retries hstage
    exact ⟨hlength, hclosed.append events, fun j retry hget =>
      (hok j retry hget).frame (hcalls i j) (hfailures i j) hgrows⟩
  · refine (h.zero n hexited).imp (fun ⟨hn, i, hlt, hover⟩ => ⟨hn, i, hlt, ?_⟩)
      fun ⟨hn, hfailed⟩ => ⟨hn, hfailed.imp (hgrows _) (hgrows _)⟩
    cases hover with
    | closeFailed hmem => exact .closeFailed (hgrows _ hmem)
    | disconnected hclosed hall =>
      exact .disconnected (hclosed.append events) fun j hj => hgrows _ (hall j hj)
    | @exhausted j hclosed hj hfailed hexhausted =>
      refine .exhausted (hclosed.append events) hj ?_ ?_
      · rw [hcalls, hfailures, hfailed]
      · rwa [hcalls]

/-- The process has exited. -/
theorem Lived.exit (h : Lived c s) {exited : Exit}
    (hzero : ∀ n, exited = .code n → n = 0 ∧ (∃ i < s.shutdowns.length, Over c s.history i) ∨
      n = 1 ∧ (.startFailed ∈ s.history ∨ .uncaught ∈ s.history))
    (hkilled : exited = .killed → s.started = false) :
    Lived c { s with exited := some exited } :=
  { h with
    running := fun hnone => by cases hnone
    zero := fun n heq => hzero n (Option.some_inj.mp heq)
    killed := fun heq => hkilled (Option.some_inj.mp heq) }

/-- A signal is handled. -/
theorem Lived.shutDown (h : Lived c s) (hnone : s.exited = none) (hs : s.started = true) :
    Lived c (shutDown c s) := by
  have hget : ∀ i : Nat, (s.shutdowns ++ [.closing])[i]? =
      if i = s.shutdowns.length then some .closing else s.shutdowns[i]? := by
    intro i
    rcases Nat.lt_trichotomy i s.shutdowns.length with hlt | rfl | hlt
    · rw [if_neg (Nat.ne_of_lt hlt), List.getElem?_append_left hlt]
    · rw [if_pos rfl, List.getElem?_concat_length]
    · rw [if_neg (Nat.ne_of_gt hlt), List.getElem?_eq_none (by simp; omega),
        List.getElem?_eq_none hlt.le]
  have hstarted : Lived c { s with shutdowns := s.shutdowns ++ [.closing] } :=
    { h with
      shutdowns := fun hno => by rw [show s.started = false from hno] at hs; cases hs
      listening := fun _ hnil => by simp at hnil
      later := fun i j hle => h.later i j (by simp at hle; omega)
      closing := fun i hstage j => by
        have hstage := (hget i).symm.trans hstage
        split at hstage
        · rename_i hi
          exact h.later i j hi.ge
        · exact h.closing i hstage j
      disconnecting := fun i retries hstage => by
        have hstage := (hget i).symm.trans hstage
        split at hstage
        · cases hstage
        · exact h.disconnecting i retries hstage
      running := fun _ i retries hstage => by
        have hstage := (hget i).symm.trans hstage
        split at hstage
        · cases hstage
        · exact h.running hnone i retries hstage
      zero := fun n hexited => by
        have hexited : s.exited = some (.code n) := hexited
        rw [hnone] at hexited
        cases hexited
      killed := h.killed }
  unfold Lifecycle.shutDown
  split
  · exact { hstarted with
      shutdowns := fun hno => by rw [show s.started = false from hno] at hs; cases hs
      listening := fun _ hnil => by simp at hnil }
  · rename_i hlistening
    refine hstarted.disconnectServices hnone ((hget _).trans (if_pos rfl)) fun hfirst => ?_
    exact absurd (h.listening hs (List.length_eq_zero_iff.mp hfirst)) hlistening

theorem Lived.fire (h : Lived c s) {label : Label} (hf : fire c s label = some s') :
    Lived c s' := by
  unfold Lifecycle.fire at hf
  split at hf
  · cases hf
  rename_i hexited
  have hnone : s.exited = none := not_not.mp hexited
  cases label with
  | initialized =>
    dsimp only at hf
    split at hf
    · rename_i component pending hpending
      cases hf
      have hnoted := h.note [.initialized component] (by simp) (by simp)
      exact { hnoted with
        components := by
          intro other hmem
          rcases h.components other hmem with hmem | hmem
          · rw [hpending, List.mem_cons] at hmem
            rcases hmem with rfl | hmem
            · exact .inr (List.mem_append_right _ (List.mem_singleton.mpr rfl))
            · exact .inl hmem
          · exact .inr (List.mem_append_left _ hmem)
        started := by
          intro hs
          have hnil := h.started hs
          rw [hpending] at hnil
          cases hnil }
    · cases hf
  | startFailed =>
    dsimp only at hf
    split at hf
    · cases hf
    · cases hf
      have hnoted := h.note [.startFailed] (by simp) (by simp)
      refine hnoted.exit (fun n heq => ?_) nofun
      cases heq
      exact .inr ⟨rfl, .inl (List.mem_append_right _ (List.mem_singleton.mpr rfl))⟩
  | listen =>
    dsimp only at hf
    split at hf
    · rename_i hstart
      cases hf
      obtain ⟨hnil, -⟩ := h.shutdowns hstart.2
      exact { h with
        started := fun _ => hstart.1
        shutdowns := fun hno => by cases hno
        listening := fun _ _ => rfl
        killed := fun hkilled => by
          have hkilled : s.exited = some .killed := hkilled
          rw [hnone] at hkilled
          cases hkilled }
    · cases hf
  | signal =>
    dsimp only at hf
    split at hf
    · rename_i hs
      cases hf
      exact h.shutDown hnone hs
    · rename_i hs
      cases hf
      exact h.exit nofun fun _ => eq_false_of_ne_true hs
  | uncaught =>
    cases hf
    have hnoted := h.note [.uncaught] (by simp) (by simp)
    refine hnoted.exit (fun n heq => ?_) nofun
    cases heq
    exact .inr ⟨rfl, .inr (List.mem_append_right _ (List.mem_singleton.mpr rfl))⟩
  | close i ok =>
    dsimp only at hf
    split at hf
    · rename_i hstage
      split at hf
      · cases hf
        have hnoted := h.note [.closed i] (by simp) (by simp)
        refine hnoted.disconnectServices hnone hstage fun hi => ?_
        subst hi
        exact List.mem_append_right _ (List.mem_singleton.mpr rfl)
      · cases hf
        have hnoted := h.note [.closeFailed i] (by simp) (by simp)
        refine hnoted.exit (fun n heq => ?_) nofun
        cases heq
        exact .inl ⟨rfl, i, (List.getElem?_eq_some_iff.mp hstage).1,
          .closeFailed (List.mem_append_right _ (List.mem_singleton.mpr rfl))⟩
    · cases hf
  | settle i j ok =>
    dsimp only at hf
    split at hf
    · rename_i retries hstage
      split at hf
      · rename_i attempt hretry
        have hold := (h.disconnecting i retries hstage).2.2 j _ hretry
        obtain ⟨hcalls, hfailures⟩ := hold.calling attempt rfl
        split at hf
        · cases hf
          refine h.retried hnone hstage hretry (by simp) ?_ ?_
          · rw [calls_append]
            simpa using h.admitted i j
          · exact ⟨nofun, nofun,
              fun _ => List.mem_append_right _ (List.mem_singleton.mpr rfl), nofun⟩
        · cases hf
          refine h.retried hnone hstage hretry (fun i' j' hne => ⟨by simp, ?_⟩) ?_ ?_
          · have hevent : Event.failed i j ≠ .failed i' j' := by
              intro heq
              cases heq
              exact hne ⟨rfl, rfl⟩
            simp [hevent]
          · rw [calls_append]
            simpa using h.admitted i j
          · have hcalls' : calls (s.history ++ [.failed i j]) i j = attempt := by
              simp [hcalls]
            have hfailures' : failures (s.history ++ [.failed i j]) i j = attempt := by
              simp [hfailures]
            unfold failedAt
            split
            · rename_i hequals
              exact ⟨nofun, nofun, nofun,
                fun _ => ⟨hfailures'.trans hcalls'.symm, .inl (hcalls' ▸ hequals)⟩⟩
            · refine ⟨nofun, fun attempt' heq => ?_, nofun, nofun⟩
              cases heq
              exact ⟨hcalls', hfailures'⟩
      · cases hf
    · cases hf
  | delayed i j =>
    dsimp only at hf
    split at hf
    · rename_i retries hstage
      split at hf
      · rename_i attempt hretry
        cases hf
        have hold := (h.disconnecting i retries hstage).2.2 j _ hretry
        obtain ⟨hcalls, hfailures⟩ := hold.delaying attempt rfl
        refine h.retried hnone hstage hretry
          (fun i' j' hne => ⟨?_, count_failed_callsOf _⟩) ?_ (retryOk_attempted hcalls hfailures)
        · rw [count_callsOf, if_neg fun heq => hne ⟨heq.2.1.symm, heq.2.2.symm⟩]
        · exact admitted_attempted hcalls (hcalls ▸ h.admitted i j)
      · cases hf
    · cases hf

theorem lived_reachable (hs : (machine c).Reachable (fun _ _ => true) s) : Lived c s := by
  refine hs.induction ?_ fun _ _ _ h ⟨_, _, hf⟩ => h.fire hf
  exact {
    components := fun _ hmem => .inl hmem
    started := fun hs => by cases hs
    shutdowns := fun _ => ⟨rfl, rfl⟩
    listening := fun hs => by cases hs
    admitted := fun _ _ => .inl rfl
    later := fun _ _ _ => ⟨rfl, rfl⟩
    closing := fun _ hstage => by cases hstage
    disconnecting := fun _ _ hstage => by cases hstage
    running := fun _ _ _ hstage => by cases hstage
    zero := fun _ hexited => by cases hexited
    killed := fun hexited => by cases hexited }

/-- A process listens only once all is initialized.  It exits with 1 where `start` fails or an
error is not caught, and with 0 where a shutdown is over.  No shutdown disconnects a service more
often than it may be retried, and a signal only kills what has not started. -/
theorem exits_explained (hs : (machine c).Reachable (fun _ _ => true) s) :
    (s.listening = true → ∀ component ∈ c.components, .initialized component ∈ s.history) ∧
    (∀ n, s.exited = some (.code n) →
      n = 0 ∧ (∃ i < s.shutdowns.length, Over c s.history i) ∨
      n = 1 ∧ (.startFailed ∈ s.history ∨ .uncaught ∈ s.history)) ∧
    (s.exited = some .killed → s.started = false) ∧
    ∀ i j, calls s.history i j = 0 ∨ c.SHUTDOWN_RETRIES.admits (calls s.history i j) = true := by
  have h := lived_reachable hs
  refine ⟨fun hlistening component hmem => ?_, h.zero, h.killed, h.admitted⟩
  have hstarted : s.started = true := by
    by_contra hno
    rw [(h.shutdowns (eq_false_of_ne_true hno)).2] at hlistening
    cases hlistening
  have hnil := h.started hstarted
  refine (h.components component hmem).resolve_left fun hpending => ?_
  rw [hnil] at hpending
  cases hpending

/-- The order service, with two attempts for each disconnection. -/
def orderApp : Config where
  useTypeOrm := true
  serviceKeys := ["IOrderTransactionManager", "IOrderKafkaSubscriber", "IOrderService"]
  gracefulShutDownService := ["Redis", "Kafka", "Database", "Transaction Coordinator"]
  SHUTDOWN_RETRIES := .finite 2

/-- Kafka cannot be disconnected. -/
def kafkaStuck : List Label :=
  List.replicate 6 .initialized ++
  [.listen, .signal, .close 0 true, .settle 0 0 true, .settle 0 1 false, .delayed 0 1,
   .settle 0 1 false]

/-- The process exits with 0 while the database is still connected. -/
theorem exits_explained_kafkaStuck :
    ∃ s, (machine orderApp).run (fun _ _ => true) (machine orderApp).initial kafkaStuck = some s ∧
      s.exited = some (.code 0) ∧ .disconnected 0 2 ∉ s.history ∧
      ∃ i < s.shutdowns.length, Over orderApp s.history i := by
  have hrun : ((machine orderApp).run (fun _ _ => true) (machine orderApp).initial kafkaStuck).any
      (fun s => s.exited = some (.code 0) ∧ .disconnected 0 2 ∉ s.history) = true := by
    decide +kernel
  obtain ⟨s, hs, hfound⟩ := (Option.any_eq_true _ _).mp hrun
  obtain ⟨hexited, hconnected⟩ := of_decide_eq_true hfound
  obtain ⟨-, hcode, -, -⟩ := exits_explained (Machine.run_steps kafkaStuck hs)
  refine ⟨s, hs, hexited, hconnected, ?_⟩
  rcases hcode 0 hexited with ⟨-, hover⟩ | ⟨hone, -⟩
  · exact hover
  · cases hone

end InvoiceHub.Lifecycle
