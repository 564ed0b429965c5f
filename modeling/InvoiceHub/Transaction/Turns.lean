import InvoiceHub.Transaction.Serial

/-!
# Messages and answers in turn

Where no call fails and each event answers a message that is still unanswered, a transaction sends
the commands of its steps and then the announcement that it is completed, each when the message
before it has been answered (`turn_regime`).  So whoever finds an unanswered message finds nobody
at work on it (`idle_of_unanswered`).
-/

namespace InvoiceHub.Transaction

open Effects

/-! ## Signals -/

/-- What a transaction sends and is answered. -/
inductive Signal where
  | step (name : String)
  | completed
  | other
  deriving DecidableEq

/-- What a publication tells. -/
def signal (p : Publication) : Signal :=
  match p.publisher with
  | .handleProgressTransaction => .step p.event.topicName
  | .handleCompleteTransaction => .completed
  | _ => .other

/-- What an event answers. -/
def reply (subject : Subjects) (event : TransactionEvent) : Signal :=
  match subject, event.stepName with
  | .TRANSACTION_STEP_COMPLETED, some name => .step name
  | .TRANSACTION_COMPLETED, _ => .completed
  | _, _ => .other

/-- The signals of what was published. -/
def sentSignals (history : List Entry) : List Signal :=
  history.filterMap fun
    | .published p => some (signal p)
    | _ => none

/-- The signals that were answered. -/
def answeredSignals (history : List Entry) : List Signal :=
  history.filterMap fun
    | .received subject event => some (reply subject event)
    | _ => none

/-- All that a transaction sends, in order. -/
def script (options : TransactionOptions) : List Signal :=
  options.steps.map (fun step => .step step.1) ++ [.completed]

/-- A message of `t` that tells `σ`. -/
def sends (t : String) (σ : Signal) : Entry → Bool
  | .published p => transactionKey p.transactionId == transactionKey (some t) &&
      p.publisher.awaited && signal p == σ
  | _ => false

/-- An event for `t` that answers `σ`. -/
def hears (t : String) (σ : Signal) : Entry → Bool
  | .received subject event => transactionKey event.transactionId == transactionKey (some t) &&
      reply subject event == σ
  | _ => false

theorem count_sentSignals (t : String) (store : Store) (σ : Signal) :
    (sentSignals (store.view t).history).count σ = store.history.countP (sends t σ) := by
  simp only [sentSignals, Store.view, List.count, List.countP_filterMap, List.countP_filter]
  refine List.countP_congr fun entry _ => ?_
  cases entry with
  | published p => simp [sends, Entry.concerns, and_comm]
  | _ => simp [sends]

theorem count_answeredSignals (t : String) (store : Store) (σ : Signal) :
    (answeredSignals (store.view t).history).count σ = store.history.countP (hears t σ) := by
  simp only [answeredSignals, Store.view, List.count, List.countP_filterMap, List.countP_filter]
  refine List.countP_congr fun entry _ => ?_
  cases entry with
  | received subject event => simp [hears, Entry.concerns, and_comm]
  | _ => simp [hears]

theorem sentSignals_concat (history : List Entry) (entry : Entry) :
    sentSignals (history ++ [entry]) = sentSignals history ++ sentSignals [entry] :=
  List.filterMap_append

theorem answeredSignals_concat (history : List Entry) (entry : Entry) :
    answeredSignals (history ++ [entry]) = answeredSignals history ++ answeredSignals [entry] :=
  List.filterMap_append

theorem reply_stepCompleted {event : TransactionEvent} {name : String}
    (h : event.stepName = some name) : reply .TRANSACTION_STEP_COMPLETED event = .step name := by
  simp [reply, h]

section Script

variable {options : TransactionOptions} {n : Nat}

theorem length_script (options : TransactionOptions) :
    (script options).length = options.steps.length + 1 := by
  simp [script]

theorem getElem?_script_step {step : String × ClientIds} (h : options.steps[n]? = some step) :
    (script options)[n]? = some (.step step.1) := by
  obtain ⟨hlt, -⟩ := List.getElem?_eq_some_iff.mp h
  rw [script, List.getElem?_append_left (by simpa using hlt), List.getElem?_map, h]
  rfl

theorem getElem?_script_length (options : TransactionOptions) :
    (script options)[options.steps.length]? = some .completed := by
  rw [script, List.getElem?_append_right (by simp)]
  simp

theorem step_of_getElem?_script {name : String} (h : (script options)[n]? = some (.step name)) :
    ∃ step, options.steps[n]? = some step ∧ step.1 = name := by
  rcases Nat.lt_trichotomy n options.steps.length with hlt | rfl | hlt
  · rw [getElem?_script_step (List.getElem?_eq_getElem hlt)] at h
    cases h
    exact ⟨_, List.getElem?_eq_getElem hlt, rfl⟩
  · rw [getElem?_script_length] at h
    cases h
  · rw [List.getElem?_eq_none (by rw [length_script]; omega)] at h
    cases h

theorem length_of_getElem?_script (h : (script options)[n]? = some .completed) :
    n = options.steps.length := by
  rcases Nat.lt_trichotomy n options.steps.length with hlt | rfl | hlt
  · rw [getElem?_script_step (List.getElem?_eq_getElem hlt)] at h
    cases h
  · rfl
  · rw [List.getElem?_eq_none (by rw [length_script]; omega)] at h
    cases h

theorem other_not_mem_script (options : TransactionOptions) : .other ∉ script options := by
  simp [script]

/-- The next signal of the script. -/
theorem take_script {σ : Signal} (h : (script options)[n]? = some σ) :
    (script options).take (n + 1) = (script options).take n ++ [σ] := by
  rw [List.take_add_one, h]
  rfl

/-- The only signal that has been sent more often than answered is the last one. -/
theorem getElem?_of_count_lt {σ : Signal}
    (h : ((script options).take n).count σ < ((script options).take (n + 1)).count σ) :
    (script options)[n]? = some σ := by
  rw [List.take_add_one, List.count_append] at h
  cases hget : (script options)[n]? with
  | none =>
    rw [hget] at h
    exact absurd h (by simp)
  | some τ =>
    rw [hget, Option.toList_some, List.count_singleton] at h
    split at h
    · rename_i heq
      rw [beq_iff_eq.mp heq]
    · omega

theorem count_lt_of_getElem? {σ : Signal} (h : (script options)[n]? = some σ) :
    ((script options).take n).count σ < ((script options).take (n + 1)).count σ := by
  rw [take_script h, List.count_append, List.count_singleton_self]
  exact Nat.lt_succ_self _

end Script

/-! ## The turns of a transaction -/

/-- `n` messages have been sent and answered, and somebody is at work on the next one. -/
structure Working (options : TransactionOptions) (n : Nat) (v : View) : Prop where
  sent : sentSignals v.history = (script options).take n
  answered : answeredSignals v.history = (script options).take n

/-- One more message has been sent than answered. -/
structure Waiting (t : String) (options : TransactionOptions) (n : Nat) (v : View) : Prop where
  created : .created t options ∈ v.history
  sent : sentSignals v.history = (script options).take (n + 1)
  answered : answeredSignals v.history = (script options).take n
  record : ∃ r, v.record = some (DistributedTransaction.serialize r) ∧ r.transactionId = t ∧
    r.steps.map TransactionStep.declared = options.steps ∧
    (n < options.steps.length → r.status = .IN_PROGRESS ∧ r.currentStep = n) ∧
    (options.steps.length ≤ n → r.status = .COMPLETED)

/-- Nothing has happened to `t`, or it waits for an answer. -/
def InTurn (t : String) (v : View) : Prop :=
  v = ⟨none, []⟩ ∨ ∃ options n, Waiting t options n v

/-- The rules of a program that works alone on `t`, of which no call fails. -/
abbrev turnRules (t : String) : Rules Call Call.Res View :=
  localRules t (fun v => ∃ options n, Working options n v) False

section Programs

variable {t : String} {options : TransactionOptions} {n : Nat} {v : View}
  {r : DistributedTransaction} {id : Option String}

theorem Working.write (h : Working options n v) (r : DistributedTransaction) :
    Working options n (v.apply (written r)) where
  sent := (sentSignals_concat _ _).trans (by rw [h.sent]; exact List.append_nil _)
  answered := (answeredSignals_concat _ _).trans (by rw [h.answered]; exact List.append_nil _)

/-- Who has sent the message whose turn it is waits for its answer. -/
theorem Working.waits (h : Working options n v) (hcreated : .created t options ∈ v.history)
    {p : Publication} (hget : (script options)[n]? = some (signal p)) (ht : r.transactionId = t)
    (hd : r.steps.map TransactionStep.declared = options.steps)
    (hopen : n < options.steps.length → r.status = .IN_PROGRESS ∧ r.currentStep = n)
    (hclosed : options.steps.length ≤ n → r.status = .COMPLETED) :
    Waiting t options n ((v.apply (written r)).apply (.published p)) where
  created := List.mem_append_left _ (List.mem_append_left _ hcreated)
  sent := (sentSignals_concat _ _).trans (by rw [(h.write r).sent, take_script hget]; rfl)
  answered := (answeredSignals_concat _ _).trans
    (by rw [(h.write r).answered]; exact List.append_nil _)
  record := ⟨r, rfl, ht, hd, hopen, hclosed⟩

/-- `handleProgressTransaction` sends the message whose turn it is. -/
theorem Working.progress (h : Working options n v)
    (hid : transactionKey id = transactionKey (some t)) (hcreated : .created t options ∈ v.history)
    (hr : v.record = some r.serialize) (ht : r.transactionId = t)
    (hd : r.steps.map TransactionStep.declared = options.steps) (hact : Active r)
    (hcur : r.currentStep = n) (hle : n ≤ options.steps.length) :
    (handleProgressTransaction id).wp (turnRules t) (fun _ => InTurn t) v := by
  have hlen : r.steps.length = options.steps.length := by
    rw [← hd, List.length_map]
  unfold handleProgressTransaction eventPublisher
  rw [bind_assoc]
  refine wp_getTransactionState hid ⟨_, _, h⟩ False.elim ?_
  rw [hr, Option.bind_some, DistributedTransaction.read_serialize]
  dsimp only
  rw [if_neg (fun hst => hact.elim hst.1 hst.2)]
  cases hstep : r.steps[r.currentStep]? with
  | none =>
    -- no step is left: the transaction is closed
    have hn : n = options.steps.length := by
      have hge := List.getElem?_eq_none_iff.mp hstep
      omega
    have hget : (script options)[n]? = some .completed := by
      rw [hn]
      exact getElem?_script_length options
    dsimp only
    unfold handleCompleteTransaction eventPublisher
    rw [bind_assoc, bind_assoc, bind_assoc]
    refine wp_getTransactionState hid ⟨_, _, h⟩ False.elim ?_
    rw [hr, Option.bind_some, DistributedTransaction.read_serialize]
    refine wp_newDate ⟨_, _, h⟩ False.elim fun date => ?_
    refine wp_store (close r .COMPLETED date) ⟨_, _, h⟩ False.elim ?_
    refine wp_publish ⟨_, _, h.write _⟩ False.elim (.inr ⟨options, n, ?_⟩)
    exact h.waits hcreated hget ht hd (fun hlt => absurd hlt (by omega)) fun _ => rfl
  | some step =>
    obtain ⟨hlt, -⟩ := List.getElem?_eq_some_iff.mp hstep
    have hdeclared : options.steps[n]? = some step.declared := by
      rw [← hd, List.getElem?_map, ← hcur, hstep]
      rfl
    dsimp only
    rw [bind_assoc]
    refine wp_newDate ⟨_, _, h⟩ False.elim fun date => ?_
    rw [bind_assoc]
    refine wp_store (beginStep r step date) ⟨_, _, h⟩ False.elim ?_
    refine wp_publish ⟨_, _, h.write _⟩ False.elim (.inr ⟨options, n, ?_⟩)
    refine h.waits hcreated (getElem?_script_step hdeclared) ht ?_ (fun _ => ⟨rfl, hcur⟩)
      fun hge => absurd hge (by omega)
    refine (map_declared_set hstep ?_).trans hd
    rfl

/-- A message is answered. -/
theorem Waiting.received (h : Waiting t options n v) {subject : Subjects} {event : TransactionEvent}
    (hget : (script options)[n]? = some (reply subject event)) :
    Working options (n + 1) (v.apply (.received subject event)) where
  sent := (sentSignals_concat _ _).trans (by rw [h.sent]; exact List.append_nil _)
  answered := (answeredSignals_concat _ _).trans (by rw [h.answered, take_script hget]; rfl)

/-- Where every message has been answered the script is over and `t` is completed. -/
theorem Waiting.ends (h : Waiting t options n v)
    (hall : ∀ σ ∈ script options,
      (sentSignals v.history).count σ ≤ (answeredSignals v.history).count σ) :
    answeredSignals v.history = script options ∧
      ∃ r, v.record = some (DistributedTransaction.serialize r) ∧ r.status = .COMPLETED := by
  have hlen : (script options).length ≤ n := by
    by_contra hlt
    have hget := List.getElem?_eq_getElem (not_le.mp hlt)
    have hmore := count_lt_of_getElem? hget
    have hle := hall _ (List.mem_of_getElem? hget)
    rw [h.sent, h.answered] at hle
    omega
  obtain ⟨r, hr, -, -, -, hclosed⟩ := h.record
  refine ⟨?_, r, hr, hclosed ?_⟩
  · rw [h.answered, List.take_of_length_le hlen]
  · rw [length_script] at hlen
    omega

/-- A message is sent when the one before it has been answered. -/
theorem Waiting.mem_answered (h : Waiting t options n v) {k : Nat} {σ τ : Signal}
    (hnodup : (script options).Nodup) (hσ : (script options)[k]? = some σ)
    (hτ : (script options)[k + 1]? = some τ) (hsent : τ ∈ sentSignals v.history) :
    σ ∈ answeredSignals v.history := by
  rw [h.sent] at hsent
  obtain ⟨i, hi, hget⟩ := List.mem_iff_getElem.mp hsent
  rw [List.getElem_take] at hget
  obtain ⟨hk, hkget⟩ := List.getElem?_eq_some_iff.mp hτ
  have hik : i = k + 1 := hnodup.getElem_inj_iff.mp (hget.trans hkget.symm)
  rw [List.length_take] at hi
  rw [h.answered]
  refine List.mem_iff_getElem?.mpr ⟨k, ?_⟩
  rw [List.getElem?_take, if_pos (by omega)]
  exact hσ

/-- The report of the step whose turn it is leads to the next message. -/
theorem Waiting.stepCompleted (h : Waiting t options n v) {event : TransactionEvent} {name : String}
    (hid : transactionKey event.transactionId = transactionKey (some t))
    (hname : event.stepName = some name) (hget : (script options)[n]? = some (.step name)) :
    (handleTransactionStepCompleted event).wp (turnRules t) (fun _ => InTurn t)
      (v.apply (.received .TRANSACTION_STEP_COMPLETED event)) := by
  obtain ⟨r, hr, ht, hd, hopen, -⟩ := h.record
  obtain ⟨declared, hdeclared, rfl⟩ := step_of_getElem?_script hget
  obtain ⟨hlt, -⟩ := List.getElem?_eq_some_iff.mp hdeclared
  obtain ⟨hst, hcur⟩ := hopen hlt
  have hw : Working options (n + 1) (v.apply (.received .TRANSACTION_STEP_COMPLETED event)) :=
    h.received (by rw [hget, reply_stepCompleted hname])
  obtain ⟨step, hstep, hsd⟩ : ∃ step, r.steps[r.currentStep]? = some step ∧
      step.declared = declared := by
    rw [← hd, List.getElem?_map] at hdeclared
    obtain ⟨step, hstep, hsd⟩ := Option.map_eq_some_iff.mp hdeclared
    exact ⟨step, hcur ▸ hstep, hsd⟩
  refine wp_getTransactionState hid ⟨_, _, hw⟩ False.elim ?_
  have hr' : (v.apply (.received .TRANSACTION_STEP_COMPLETED event)).record = some r.serialize := hr
  rw [hr', Option.bind_some, DistributedTransaction.read_serialize]
  simp only [hstep]
  have hnamed : some step.name = event.stepName := by
    rw [hname, ← hsd]
    rfl
  rw [if_neg (not_not.mpr hnamed)]
  refine wp_newDate ⟨_, _, hw⟩ False.elim fun date => ?_
  refine wp_store (completeStep r step date) ⟨_, _, hw⟩ False.elim ?_
  refine (hw.write (completeStep r step date)).progress hid ?_ rfl ht ?_ (.inr hst)
    (congrArg (· + 1) hcur) hlt
  · exact List.mem_append_left _ (List.mem_append_left _ h.created)
  · refine (map_declared_set hstep ?_).trans hd
    rfl

/-- The announcement that `t` is completed finds it completed. -/
theorem Waiting.completed (h : Waiting t options n v) {clientId : ClientIds}
    {event : TransactionEvent} (hid : transactionKey event.transactionId = transactionKey (some t))
    (hget : (script options)[n]? = some .completed) :
    (handleTransactionCompleted clientId event).wp (turnRules t) (fun _ => InTurn t)
      (v.apply (.received .TRANSACTION_COMPLETED event)) := by
  obtain ⟨r, hr, ht, hd, -, hclosed⟩ := h.record
  have hn := length_of_getElem?_script hget
  have hw : Working options (n + 1) (v.apply (.received .TRANSACTION_COMPLETED event)) :=
    h.received hget
  refine wp_getTransactionState hid ⟨_, _, hw⟩ False.elim ?_
  have hr' : (v.apply (.received .TRANSACTION_COMPLETED event)).record = some r.serialize := hr
  rw [hr', Option.bind_some, DistributedTransaction.read_serialize]
  dsimp only
  have hst := hclosed (Nat.le_of_eq hn.symm)
  rw [if_neg (not_not.mpr hst)]
  refine .inr ⟨options, n + 1, List.mem_append_left _ h.created, ?_, hw.answered, r, hr, ht, hd,
    fun hlt => absurd hlt (by omega), fun _ => hst⟩
  -- the script is over
  rw [List.take_of_length_le (by rw [length_script]; omega)]
  have hall := hw.sent
  rwa [List.take_of_length_le (by rw [length_script]; omega)] at hall

end Programs

/-! ## Runs -/

/-- No call fails, and what arrives answers a message that is still unanswered, when nobody is at
work on its transaction. -/
def promptPolicy : Cluster.Policy := fun s label =>
  match label with
  | .deliver _ subject event =>
    let v := s.world.view (event.transactionId.getD "undefined")
    s.idle (transactionKey event.transactionId) &&
      decide ((answeredSignals v.history).count (reply subject event) <
        (sentSignals v.history).count (reply subject event))
  | .reject _ => false
  | .abandon _ => false
  | _ => true

section Runs

variable {s : Cluster} {t : String}

theorem turn_regime (t : String) : Regime promptPolicy t
    (fun v => ∃ options n, Working options n v) (InTurn t) False where
  initial := .inl rfl
  stopped := False.elim
  fails := fun _ _ _ hp _ => Bool.noConfusion hp
  stops := fun _ _ _ hp _ => Bool.noConfusion hp
  exclusive := by
    intro s clientId subject event hp hk
    rw [← hk]
    exact (Bool.and_eq_true_iff.mp hp).1
  start := by
    rintro s options date - - (hnew | ⟨options', n, hw⟩) hnone
    · rw [hnew]
      have hw : Working options 0 ((View.apply ⟨none, []⟩ (.created t options)).apply
          (written (newTransaction options t date))) := ⟨rfl, rfl⟩
      refine hw.progress rfl ?_ rfl rfl ?_ (.inl rfl) rfl (Nat.zero_le _)
      · exact List.mem_append_left _ (List.mem_singleton.mpr rfl)
      · simp [newTransaction, Function.comp_def, TransactionStep.declared]
    · obtain ⟨r, hr, -⟩ := hw.record
      cases hr.symm.trans hnone
  deliver := by
    intro s clientId subject event hr hp hk hI
    have hview : s.world.view (event.transactionId.getD "undefined") = s.world.view t := by
      have heq := transactionKey_eq_iff.mp hk
      rw [heq]
      rfl
    have hlt := of_decide_eq_true (Bool.and_eq_true_iff.mp hp).2
    rw [hview] at hlt
    rcases hI with hnew | ⟨options, n, hw⟩
    · rw [hnew] at hlt
      exact absurd hlt (Nat.lt_irrefl 0)
    · rw [hw.sent, hw.answered] at hlt
      have hget := getElem?_of_count_lt hlt
      cases subject with
      | TRANSACTION_STEP_COMPLETED =>
        cases hname : event.stepName with
        | none =>
          have hother : reply .TRANSACTION_STEP_COMPLETED event = .other := by simp [reply, hname]
          rw [hother] at hget
          exact absurd (List.mem_of_getElem? hget) (other_not_mem_script options)
        | some name =>
          rw [reply_stepCompleted hname] at hget
          exact hw.stepCompleted hk hname hget
      | TRANSACTION_COMPLETED => exact hw.completed hk hget
      | _ => exact absurd (List.mem_of_getElem? hget) (other_not_mem_script options)

/-- Who is at work on `t` has been answered. -/
theorem idle_of_unanswered (h : Cluster.Reachable promptPolicy s) {σ : Signal}
    (hlt : (answeredSignals (s.world.view t).history).count σ <
      (sentSignals (s.world.view t).history).count σ) :
    s.idle (transactionKey (some t)) = true := by
  by_contra hbusy
  obtain ⟨options, n, hw⟩ := ((turn_regime t).reachable h).2 (Bool.eq_false_iff.mpr hbusy)
  rw [hw.sent, hw.answered] at hlt
  exact absurd hlt (Nat.lt_irrefl _)

/-- No other messages are sent than those of the script. -/
theorem other_not_sent (h : Cluster.Reachable promptPolicy s) (t : String) :
    .other ∉ sentSignals (s.world.view t).history := by
  intro hmem
  rcases (turn_regime t).always h with hturn | ⟨options, n, hw⟩
  · rcases hturn with hnew | ⟨options, n, hw⟩
    · rw [hnew] at hmem
      cases hmem
    · rw [hw.sent] at hmem
      exact other_not_mem_script options (List.mem_of_mem_take hmem)
  · rw [hw.sent] at hmem
    exact other_not_mem_script options (List.mem_of_mem_take hmem)

/-- So whatever a publication that is awaited tells, it is a signal of the script. -/
theorem signal_ne_other (h : Cluster.Reachable promptPolicy s) {p : Publication}
    (hp : .published p ∈ s.world.history) (ha : p.publisher.awaited = true) :
    signal p ≠ .other := by
  intro hother
  have hkey : transactionKey p.transactionId =
      transactionKey (some (p.transactionId.getD "undefined")) := transactionKey_eq_iff.mpr rfl
  have hsends : sends (p.transactionId.getD "undefined") .other (.published p) = true := by
    simp [sends, ← hkey, ha, hother]
  have hpos := List.countP_pos_iff.mpr ⟨_, hp, hsends⟩
  rw [← count_sentSignals] at hpos
  exact other_not_sent h _ (List.count_pos_iff.mp hpos)

/-- Nothing is heard but what is delivered. -/
theorem countP_hears_fire {s' : Cluster} {l : Cluster.Label} (hf : s.fire l = some s')
    (hl : ∀ clientId subject event, l ≠ .deliver clientId subject event) (t : String) (σ : Signal) :
    s'.world.history.countP (hears t σ) = s.world.history.countP (hears t σ) := by
  obtain ⟨added, hh, ha⟩ := Cluster.history_fire hf
  have hnone : added.countP (hears t σ) = 0 := by
    refine List.countP_eq_zero.mpr fun entry hmem hheard => ?_
    cases entry with
    | received subject event =>
      obtain ⟨clientId, rfl⟩ := (ha _ hmem).of_received
      exact hl clientId subject event rfl
    | _ => cases hheard
  rw [hh, List.countP_append, hnone, Nat.add_zero]

theorem countP_hears_deliver {s' : Cluster} {clientId : ClientIds} {subject : Subjects}
    {event : TransactionEvent} (hf : s.fire (.deliver clientId subject event) = some s')
    (t : String) (σ : Signal) :
    s'.world.history.countP (hears t σ) =
      s.world.history.countP (hears t σ) + [Entry.received subject event].countP (hears t σ) := by
  cases hf
  exact List.countP_append

end Runs

end InvoiceHub.Transaction
