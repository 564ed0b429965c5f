import InvoiceHub.Kafka.Consumers

/-!
# Shutdown

`disconnect` closes the consumer that the process was made with, and forgets those of the groups,
which stay connected and go on handing messages to their handlers.  So nothing is consumed after
it exactly where none of them has ever connected.
-/

namespace InvoiceHub.Kafka.Consumers

open Effects

/-- The call may still connect the consumer of the process. -/
def Call.connectsConsumer (call : Call) : Bool :=
  match call.awaits with
  | .connectAll pending _ => .consumer ∈ pending
  | _ => false

namespace KafkaInfrastructure

variable {s s' : KafkaInfrastructure}

/-- `disconnect` has been called. -/
def isClosing (s : KafkaInfrastructure) : Bool :=
  .disconnect ∈ s.calls.map (·.method)

/-- A call of `disconnect` has resolved. -/
def isDisconnected (s : KafkaInfrastructure) : Bool :=
  ⟨.disconnect, .returned⟩ ∈ s.calls

/-- No consumer of the process is connected, and none gets a message. -/
def Silent (s : KafkaInfrastructure) : Prop :=
  (∀ c ∈ s.consumers, c.consumer.connected = false) ∧
    ∀ i topicName, s.fire (.message i topicName) = none

/-- Calls come before `disconnect`, which may be retried. -/
def callsFirst (s : KafkaInfrastructure) : Label → Bool
  | .initializeKafka | .subscribe _ | .requestResponse _ => !s.isClosing
  | _ => true

/-- Calls come before `disconnect`, and it is not called while `initialize` is connecting the
consumer of the process, or has left it connected without being initialized. -/
def initializedFirst (s : KafkaInfrastructure) (label : Label) : Bool :=
  s.callsFirst label && (label ≠ .disconnect ||
    (s.calls.all (!Call.connectsConsumer ·) &&
      (s.isInitialized || !s.consumer.consumer.connected)))

/-! ## The consumers of the groups -/

/-- Which of the created consumers are connected. -/
def connections (s : KafkaInfrastructure) : List Bool :=
  s.created.map (·.consumer.connected)

/-- A consumer of a group is connected exactly where one has ever connected. -/
def Tracked (s : KafkaInfrastructure) : Prop :=
  true ∈ s.connections ↔ ∃ groupId, .connected groupId ∈ s.history

theorem connections_withConsumer {i : Nat} {c c' : KafkaConsumerInfrastructure}
    (hc : s.created[i]? = some c) (hconnected : c'.consumer.connected = c.consumer.connected) :
    (s.withConsumer i c').connections = s.connections := by
  obtain ⟨hlt, rfl⟩ := List.getElem?_eq_some_iff.mp hc
  unfold connections withConsumer
  rw [List.map_set, hconnected, ← List.map_set, List.set_getElem_self]

theorem keeps_tracked (k : Nat) (method : Method) : Keeps k method Tracked where
  goOn h _ _ := h
  create := by
    intro s args h _
    have hcreated : (s.create args.group).connections = s.connections ++ [false] := by
      unfold connections create
      rw [List.map_append]
      rfl
    unfold Tracked
    show true ∈ (s.create args.group).connections ↔ _
    rw [hcreated, List.mem_append]
    exact (or_iff_left (by decide)).trans h
  withConsumer := by
    intro s i c c' h hc hconnected _
    unfold Tracked
    rw [connections_withConsumer hc hconnected]
    exact h
  connected := by
    intro s i c h hc
    refine ⟨fun _ => ⟨c.groupId, List.mem_append_right _ (List.mem_singleton.mpr rfl)⟩,
      fun _ => ?_⟩
    have hmem : c.connected ∈ s.created.set i c.connected :=
      List.mem_set (List.getElem?_eq_some_iff.mp hc).1 _
    exact List.mem_map.mpr ⟨_, hmem, rfl⟩
  subscribed := by
    intro s i c topicName h _ _
    refine h.trans (exists_congr fun groupId' => ⟨List.mem_append_left _, fun hmem => ?_⟩)
    rcases List.mem_append.mp hmem with hmem | hmem
    · exact hmem
    · cases List.mem_singleton.mp hmem

theorem tracked_fire {label : Label} (h : s.Tracked) (hs' : s.fire label = some s') :
    s'.Tracked := by
  refine keeps_fire keeps_tracked ?_ h hs' ?_
  · intro s s' h hbeside
    unfold Tracked connections
    rw [hbeside.created]
    exact h.trans (exists_congr fun groupId => (hbeside.events (.connected groupId) rfl).symm)
  · rintro rfl
    cases hs'
    cases hinit : s.isInitialized with
    | true =>
      obtain ⟨c, pending, heq, -, -⟩ := disconnect_eq hinit
      rw [heq]
      exact h
    | false =>
      unfold disconnect
      rw [hinit]
      exact h

/-! ## The consumer of the process -/

/-- Where a call may stand: only a call of `disconnect` disconnects, none connects the consumer of
the process once it has been called, and it does not resolve before that consumer is
disconnected. -/
structure CallCloses (connected closing : Bool) (call : Call) : Prop where
  stages : call.method = .disconnect → call.awaits = .returned ∨ (∃ error, call.awaits =
    .thrown error) ∨ ∃ pending rejected, call.awaits = .disconnectAll pending rejected
  only : ∀ pending rejected, call.awaits = .disconnectAll pending rejected →
    call.method = .disconnect
  connects : closing = true → call.connectsConsumer = false
  pending : ∀ pending, call.awaits = .disconnectAll pending none → connected = true →
    .consumer ∈ pending ∨ .stopConsumer ∈ pending
  resolved : call = ⟨.disconnect, .returned⟩ → connected = false

/-- Every call stands where it may. -/
def Closes (s : KafkaInfrastructure) : Prop :=
  ∀ call ∈ s.calls, CallCloses s.consumer.consumer.connected s.isClosing call

section Calls

variable {connected closing : Bool} {method : Method} {awaits : Awaits} {call : Call}

/-- A call of another method, outside of a `Promise.all`. -/
theorem callCloses_of_not_all (hmethod : method ≠ .disconnect) (hawaits : awaits.isAll = false) :
    CallCloses connected closing ⟨method, awaits⟩ where
  stages h := absurd h hmethod
  only := by
    rintro pending rejected rfl
    cases hawaits
  connects _ := by
    cases awaits <;> first | rfl | cases hawaits
  pending := by
    rintro pending rfl
    cases hawaits
  resolved h := absurd (congrArg Call.method h) hmethod

theorem CallCloses.disconnected (h : CallCloses connected closing call) :
    CallCloses false closing call :=
  ⟨h.stages, h.only, h.connects, fun _ _ hc => Bool.noConfusion hc, fun _ => rfl⟩

/-- A call of another method does not depend on the consumer of the process. -/
theorem CallCloses.of_ne (h : CallCloses connected closing call)
    (hmethod : call.method ≠ .disconnect) (connected' : Bool) :
    CallCloses connected' closing call :=
  ⟨h.stages, h.only, h.connects, fun pending hp => absurd (h.only pending none hp) hmethod,
    fun hr => absurd (congrArg Call.method hr) hmethod⟩

end Calls

theorem isClosing_call (s : KafkaInfrastructure) {method : Method} (awaits : Awaits)
    (hmethod : method ≠ .disconnect) : (s.call method awaits).isClosing = s.isClosing := by
  unfold isClosing KafkaInfrastructure.call
  rw [List.map_append]
  simp only [List.mem_append, List.map_cons, List.map_nil, List.mem_singleton, hmethod.symm,
    or_false]

theorem isClosing_set {k : Nat} {method : Method} {awaits awaits' : Awaits}
    (hk : s.calls[k]? = some ⟨method, awaits⟩)
    (hs' : s'.calls = s.calls.set k ⟨method, awaits'⟩) : s'.isClosing = s.isClosing := by
  obtain ⟨hlt, hget⟩ := List.getElem?_eq_some_iff.mp hk
  have hmethods : (s.calls.map (·.method)).set k s.calls[k].method = s.calls.map (·.method) := by
    rw [← List.map_set, List.set_getElem_self]
  have hmethod : s.calls[k].method = method := congrArg Call.method hget
  unfold isClosing
  rw [hs', List.map_set, ← hmethod, hmethods]

theorem closes_call {method : Method} {awaits : Awaits} (h : s.Closes)
    (hmethod : method ≠ .disconnect)
    (hcall : CallCloses s.consumer.consumer.connected s.isClosing ⟨method, awaits⟩) :
    (s.call method awaits).Closes := by
  intro call hmem
  rw [isClosing_call s awaits hmethod]
  rcases List.mem_append.mp hmem with hmem | hmem
  · exact h call hmem
  · rw [List.mem_singleton.mp hmem]
    exact hcall

/-- Call `k` goes on, and the other calls may stand where they do. -/
theorem closes_set {k : Nat} {method : Method} {awaits awaits' : Awaits}
    (hk : s.calls[k]? = some ⟨method, awaits⟩)
    (h : ∀ call ∈ s.calls, CallCloses s'.consumer.consumer.connected s.isClosing call)
    (hcall : CallCloses s'.consumer.consumer.connected s.isClosing ⟨method, awaits'⟩)
    (hs' : s'.calls = s.calls.set k ⟨method, awaits'⟩) : s'.Closes := by
  intro call hmem
  rw [isClosing_set hk hs']
  rw [hs'] at hmem
  exact (List.mem_or_eq_of_mem_set hmem).elim (h call) (· ▸ hcall)

theorem closes_requestResponse (args : List KafkaRequestOptions) :
    ∀ {s : KafkaInfrastructure}, s.Closes → (s.requestResponse args).Closes := by
  induction args with
  | nil => exact id
  | cons args rest ih =>
    intro s h
    have hne : Method.processRequest ≠ .disconnect := by decide
    refine ih (closes_call h hne (callCloses_of_not_all hne ?_))
    split <;> rfl

theorem closes_resume {k : Nat} {call : Call} {answer : Except String Bool} (h : s.Closes)
    (hk : s.calls[k]? = some call)
    (hs' : s.resume k call.method call.awaits answer = some s') : s'.Closes := by
  obtain ⟨hbase, -, awaits', hall, hcalls⟩ := resume_frame hk hs'
  have hcall := h call (List.mem_of_getElem? hk)
  have hmethod : call.method ≠ .disconnect := by
    intro hmethod
    -- the stages of `disconnect` are not answered this way
    rcases hcall.stages hmethod with heq | ⟨error, heq⟩ | ⟨pending, rejected, heq⟩ <;>
      · rw [heq] at hs'
        cases hs'
  refine closes_set hk ?_ (callCloses_of_not_all hmethod hall) hcalls
  rw [hbase]
  exact h

theorem callCloses_connectAll {connected closing : Bool} {method : Method}
    (hmethod : method ≠ .disconnect) {pending : List Client}
    (hpending : closing = true → .consumer ∉ pending) (rejected : Option String) :
    CallCloses connected closing ⟨method, settled .connectAll pending rejected⟩ := by
  unfold settled
  split
  · refine callCloses_of_not_all hmethod ?_
    cases rejected <;> rfl
  · exact ⟨fun h => absurd h hmethod, by rintro _ _ ⟨⟩,
      fun hclosing => decide_eq_false (hpending hclosing), by rintro _ ⟨⟩,
      fun h => absurd (congrArg Call.method h) hmethod⟩

theorem callCloses_disconnectAll {connected closing : Bool} {pending : List Client}
    {rejected : Option String}
    (hpending : rejected = none → connected = true → .consumer ∈ pending ∨ .stopConsumer ∈ pending) :
    CallCloses connected closing ⟨.disconnect, settled .disconnectAll pending rejected⟩ := by
  unfold settled
  split
  · rename_i hnil
    cases rejected with
    | none =>
      have hconnected : connected = false := by
        rw [hnil] at hpending
        simpa using hpending rfl
      exact ⟨fun _ => .inl rfl, by rintro _ _ ⟨⟩, fun _ => rfl, by rintro _ ⟨⟩,
        fun _ => hconnected⟩
    | some error =>
      exact ⟨fun _ => .inr (.inl ⟨error, rfl⟩), by rintro _ _ ⟨⟩, fun _ => rfl, by rintro _ ⟨⟩,
        by rintro ⟨⟩⟩
  · refine ⟨fun _ => .inr (.inr ⟨pending, rejected, rfl⟩), fun _ _ _ => rfl, fun _ => rfl, ?_,
      by rintro ⟨⟩⟩
    rintro _ heq
    cases heq
    exact hpending rfl

theorem method_ne_of_isClosing (hclosing : s.isClosing = false) {call : Call}
    (hmem : call ∈ s.calls) : call.method ≠ .disconnect :=
  fun hmethod => of_decide_eq_false hclosing (hmethod ▸ List.mem_map_of_mem hmem)

theorem closes_connectAll {k : Nat} {method : Method} {client : Client} {pending : List Client}
    {rejected : Option String} {answer : Except String Unit} (h : s.Closes)
    (hk : s.calls[k]? = some ⟨method, .connectAll pending rejected⟩)
    (hs' : s.settle k method client (.connectAll pending rejected) answer = some s') :
    s'.Closes := by
  have hcall := h _ (List.mem_of_getElem? hk)
  have hmethod : method ≠ .disconnect := by
    intro hmethod
    rcases hcall.stages hmethod with heq | ⟨_, heq⟩ | ⟨_, _, heq⟩ <;> cases heq
  have hpending : s.isClosing = true → .consumer ∉ pending :=
    fun hclosing => of_decide_eq_false (hcall.connects hclosing)
  have herase : s.isClosing = true → .consumer ∉ pending.erase client :=
    fun hclosing hmem => hpending hclosing (List.mem_of_mem_erase hmem)
  unfold settle at hs'
  dsimp only at hs'
  split at hs'
  case isFalse => cases hs'
  case isTrue hclient =>
    split at hs'
    · cases hs'
      exact closes_set hk h (callCloses_connectAll hmethod herase _) rfl
    · cases hs'
      by_cases hconsumer : client = .consumer
      · -- the consumer of the process is connected while `disconnect` has not been called
        have hopen : s.isClosing = false :=
          Bool.eq_false_iff.mpr fun hclosing => hpending hclosing (hconsumer ▸ hclient)
        have hcalls : ∀ connected, ∀ call ∈ s.calls, CallCloses connected s.isClosing call :=
          fun connected call hmem => (h call hmem).of_ne (method_ne_of_isClosing hopen hmem) _
        rw [if_pos hconsumer]
        split <;> exact closes_set hk (hcalls _) (callCloses_connectAll hmethod herase _) rfl
      · rw [if_neg hconsumer]
        split <;> exact closes_set hk h (callCloses_connectAll hmethod herase _) rfl

theorem closes_disconnectAll {k : Nat} {method : Method} {client : Client}
    {pending : List Client} {rejected : Option String} {answer : Except String Unit}
    (h : s.Closes) (hk : s.calls[k]? = some ⟨method, .disconnectAll pending rejected⟩)
    (hs' : s.settle k method client (.disconnectAll pending rejected) answer = some s') :
    s'.Closes := by
  have hcall := h _ (List.mem_of_getElem? hk)
  obtain rfl : method = .disconnect := hcall.only _ _ rfl
  unfold settle at hs'
  dsimp only at hs'
  split at hs'
  case isFalse => cases hs'
  case isTrue hclient =>
    split at hs'
    · cases hs'
      have hsettled : settled .disconnectAll (pending.erase .stopConsumer ++ [.consumer]) rejected =
          .disconnectAll (pending.erase .stopConsumer ++ [.consumer]) rejected :=
        if_neg (List.append_ne_nil_of_right_ne_nil _ (List.cons_ne_nil _ _))
      refine closes_set hk h (hsettled ▸ callCloses_disconnectAll fun _ _ => .inl ?_) rfl
      exact List.mem_append_right _ (List.mem_singleton.mpr rfl)
    · cases hs'
      refine closes_set hk h (callCloses_disconnectAll fun hnone => ?_) rfl
      cases rejected <;> cases hnone
    · rename_i hstop
      cases hs'
      by_cases hconsumer : client = .consumer
      · rw [if_pos hconsumer]
        have hcalls : ∀ call ∈ s.calls, CallCloses false s.isClosing call :=
          fun call hmem => (h call hmem).disconnected
        split <;> exact closes_set hk hcalls (callCloses_disconnectAll fun _ hc => Bool.noConfusion hc) rfl
      · rw [if_neg hconsumer]
        have hpending : rejected = none → s.consumer.consumer.connected = true →
            .consumer ∈ pending.erase client ∨ .stopConsumer ∈ pending.erase client := by
          rintro rfl hconnected
          refine (hcall.pending pending rfl hconnected).imp ?_ ?_
          · exact (List.mem_erase_of_ne (Ne.symm hconsumer)).mpr
          · exact (List.mem_erase_of_ne fun heq => hstop heq.symm).mpr
        split <;> exact closes_set hk h (callCloses_disconnectAll hpending) rfl

/-- The first call of `disconnect`, or another one, where no call is connecting the consumer. -/
theorem closes_call_disconnect {awaits : Awaits} (h : s.Closes)
    (hcalls : s.calls.all (!Call.connectsConsumer ·) = true)
    (hcall : CallCloses s.consumer.consumer.connected true ⟨.disconnect, awaits⟩) :
    (s.call .disconnect awaits).Closes := by
  have hclosing : (s.call .disconnect awaits).isClosing = true :=
    decide_eq_true (List.mem_map_of_mem (List.mem_append_right _ (List.mem_singleton.mpr rfl)))
  intro call hmem
  rw [hclosing]
  rcases List.mem_append.mp hmem with hmem | hmem
  · have hold := h call hmem
    have hconnects : call.connectsConsumer = false := by
      simpa using List.all_eq_true.mp hcalls call hmem
    exact ⟨hold.stages, hold.only, fun _ => hconnects, hold.pending, hold.resolved⟩
  · rw [List.mem_singleton.mp hmem]
    exact hcall

theorem closes_disconnect (h : s.Closes)
    (hcalls : s.calls.all (!Call.connectsConsumer ·) = true)
    (hconnected : (s.isInitialized || !s.consumer.consumer.connected) = true) :
    s.disconnect.Closes := by
  cases hinit : s.isInitialized with
  | true =>
    obtain ⟨c, pending, heq, hc, hpending⟩ := disconnect_eq hinit
    rw [heq]
    have hcleared : ({ s with consumerInstances := ∅, consumer := c } :
        KafkaInfrastructure).Closes := by
      unfold Closes
      rw [hc]
      exact h
    refine closes_call_disconnect hcleared hcalls ?_
    refine ⟨fun _ => .inr (.inr ⟨pending, none, rfl⟩), fun _ _ _ => rfl, fun _ => rfl, ?_,
      by rintro ⟨⟩⟩
    rintro _ heq -
    cases heq
    exact hpending
  | false =>
    rw [hinit, Bool.false_or, Bool.not_eq_true'] at hconnected
    unfold disconnect
    rw [hinit]
    refine closes_call_disconnect h hcalls ?_
    exact ⟨fun _ => .inl rfl, by rintro _ _ ⟨⟩, fun _ => rfl, by rintro _ ⟨⟩, fun _ => hconnected⟩

theorem closes_settle {k : Nat} {call : Call} {client : Client} {answer : Except String Unit}
    (h : s.Closes) (hk : s.calls[k]? = some call)
    (hs' : s.settle k call.method client call.awaits answer = some s') : s'.Closes := by
  obtain ⟨method, awaits⟩ := call
  cases awaits with
  | connectAll pending rejected => exact closes_connectAll h hk hs'
  | disconnectAll pending rejected => exact closes_disconnectAll h hk hs'
  | _ => cases hs'

theorem closes_fire {label : Label} (h : s.Closes) (hlabel : s.initializedFirst label = true)
    (hs' : s.fire label = some s') : s'.Closes := by
  obtain ⟨hfirst, hinit⟩ := Bool.and_eq_true_iff.mp hlabel
  cases label with
  | initializeKafka =>
    cases hs'
    have hopen : s.isClosing = false := (Bool.not_eq_true' _).mp hfirst
    have hne : Method.initializeKafka ≠ .disconnect := by decide
    refine closes_call h hne ?_
    split
    · exact callCloses_of_not_all hne rfl
    · refine ⟨fun h => absurd h hne, by rintro _ _ ⟨⟩, fun hclosing => ?_, by rintro _ ⟨⟩,
        by rintro ⟨⟩⟩
      rw [hopen] at hclosing
      cases hclosing
  | subscribe args =>
    cases hs'
    have hne : Method.subscribe ≠ .disconnect := by decide
    refine closes_call h hne (callCloses_of_not_all hne ?_)
    split <;> rfl
  | requestResponse args =>
    cases hs'
    exact closes_requestResponse args h
  | disconnect =>
    cases hs'
    obtain ⟨hcalls, hconnected⟩ := Bool.and_eq_true_iff.mp hinit
    exact closes_disconnect h hcalls hconnected
  | answer k answer =>
    obtain ⟨call, hk, hs'⟩ := Option.bind_eq_some_iff.mp hs'
    exact closes_resume h hk hs'
  | settle k client answer =>
    obtain ⟨call, hk, hs'⟩ := Option.bind_eq_some_iff.mp hs'
    exact closes_settle h hk hs'
  | message i topicName =>
    obtain ⟨c, -, hs'⟩ := Option.bind_eq_some_iff.mp hs'
    split at hs'
    · cases hs'
      unfold eachMessage
      split <;> exact h
    · cases hs'

/-- A consumer that is not connected gets no message. -/
theorem silent_iff (s : KafkaInfrastructure) :
    s.Silent ↔ s.consumer.consumer.connected = false ∧ true ∉ s.connections := by
  constructor
  · rintro ⟨hall, -⟩
    refine ⟨hall _ List.mem_cons_self, fun hmem => ?_⟩
    obtain ⟨c, hc, hconnected⟩ := List.mem_map.mp hmem
    exact Bool.false_ne_true ((hall c (List.mem_cons_of_mem _ hc)).symm.trans hconnected)
  · rintro ⟨hbase, hcreated⟩
    have hall : ∀ c ∈ s.consumers, c.consumer.connected = false := by
      intro c hc
      rcases List.mem_cons.mp hc with rfl | hc
      · exact hbase
      · exact Bool.eq_false_iff.mpr fun hconnected =>
          hcreated (List.mem_map.mpr ⟨c, hc, hconnected⟩)
    refine ⟨hall, fun i topicName => Option.eq_none_iff_forall_ne_some.mpr fun s' hs' => ?_⟩
    obtain ⟨c, hc, hs'⟩ := Option.bind_eq_some_iff.mp hs'
    rw [if_neg fun hruns => Bool.false_ne_true
      ((hall c (List.mem_of_getElem? hc)).symm.trans hruns.1)] at hs'
    cases hs'

end KafkaInfrastructure

/-- Once `disconnect` has resolved nothing is connected, and nothing is consumed, exactly where no
consumer of a group has ever connected. -/
theorem silent_disconnected_iff {groupId : String} {s : KafkaInfrastructure}
    (h : (machine groupId).Reachable KafkaInfrastructure.initializedFirst s)
    (hdisconnected : s.isDisconnected = true) :
    s.Silent ↔ ∀ groupId, .connected groupId ∉ s.history := by
  have hinv : s.Closes ∧ s.Tracked := by
    refine Machine.Reachable.induction (P := fun s => s.Closes ∧ s.Tracked) ?_ ?_ h
    · exact ⟨fun _ hmem => absurd hmem List.not_mem_nil,
        iff_of_false List.not_mem_nil fun ⟨_, hmem⟩ => List.not_mem_nil hmem⟩
    · rintro s s' - ⟨hcloses, htracked⟩ ⟨label, hlabel, hs'⟩
      exact ⟨KafkaInfrastructure.closes_fire hcloses hlabel hs',
        KafkaInfrastructure.tracked_fire htracked hs'⟩
  have hbase := (hinv.1 _ (of_decide_eq_true hdisconnected)).resolved rfl
  have htracked : true ∈ s.connections ↔ ∃ groupId, .connected groupId ∈ s.history := hinv.2
  calc s.Silent
    _ ↔ s.consumer.consumer.connected = false ∧ true ∉ s.connections := s.silent_iff
    _ ↔ true ∉ s.connections := and_iff_right hbase
    _ ↔ ¬ ∃ groupId, .connected groupId ∈ s.history := not_congr htracked
    _ ↔ ∀ groupId, .connected groupId ∉ s.history := not_exists

/-- A service starts, subscribes once, with these answers of Kafka, and shuts down. -/
def shutdownRun (answers : List (Except String Bool)) : List Label :=
  [.initializeKafka, .settle 0 .producer (.ok ()), .settle 0 .consumer (.ok ()),
    .settle 0 .admin (.ok ()),
    .subscribe { topicName := "fetch-user-request", handler := .given "handleFetchUserRequest",
                 groupId := some "auth-service-group" }] ++
  answers.map (.answer 1) ++
  [.disconnect, .settle 2 .producer (.ok ()), .settle 2 .consumer (.ok ()),
    .settle 2 .admin (.ok ())]

theorem silent_disconnected_unconnected : ∃ s,
    (machine "auth-service-group").run KafkaInfrastructure.initializedFirst
      (machine "auth-service-group").initial (shutdownRun [.ok true, .error "timeout"]) = some s ∧
    s.Silent :=
  ⟨_, rfl, (silent_disconnected_iff (Machine.run_steps (shutdownRun [.ok true, .error "timeout"])
    rfl) rfl).mpr fun _ => List.not_mem_nil⟩

/-- The consumer of `fetch-user-request` is still connected after `disconnect`, and still gets
messages. -/
theorem subscriber_outlives_disconnect :
    ¬ ∀ groupId s, (machine groupId).Reachable KafkaInfrastructure.callsFirst s →
      s.isDisconnected = true → s.Silent := by
  intro h
  have hrun : ((machine "auth-service-group").run KafkaInfrastructure.callsFirst
      (machine "auth-service-group").initial
      (shutdownRun [.ok true, .ok true, .ok true, .ok true])).isSome = true := rfl
  have hmessage := (h _ _ (Machine.reachable_run _ hrun) rfl).2 1 "fetch-user-request"
  cases hmessage

end InvoiceHub.Kafka.Consumers
