import InvoiceHub.Kafka.Consumers

/-!
# What a failed `subscribe` leaves behind

`subscribe` writes the topic down, and stops the consumer, before it asks Kafka, and a consumer is
kept for its group before it is connected.  Nothing takes this back when Kafka fails, so that a
retry does not do what the first call has not done.
-/

namespace InvoiceHub.Kafka.Consumers

open Effects

/-! ## A call of one consumer -/

/-- What Kafka answers to one call of `subscribe`. -/
structure Answers where
  stop : Except String Unit := .ok ()
  subscribe : Except String Unit := .ok ()
  run : Except String Unit := .ok ()

/-- The answer to an `await`. -/
def Answers.to (answers : Answers) : ConsumerAwaits → Except String Unit
  | .stop => answers.stop
  | .subscribe => answers.subscribe
  | .run => answers.run

namespace KafkaConsumerInfrastructure

variable (c : KafkaConsumerInfrastructure)

/-- A call that awaits something is answered. -/
def goOn (answers : Answers) (topicName : String) :
    KafkaConsumerInfrastructure × Next → KafkaConsumerInfrastructure × Next
  | (c, .awaits awaits) => c.resume topicName awaits (answers.to awaits)
  | (c, .returned) => (c, .returned)
  | (c, .thrown error) => (c, .thrown error)

/-- `subscribe`, with the answers to its at most three `await`s. -/
def subscribeNow (topicName : String) (handler : Handler) (answers : Answers) :
    KafkaConsumerInfrastructure × Next :=
  goOn answers topicName (goOn answers topicName (goOn answers topicName
    (c.subscribe topicName handler)))

/-- The topic is not recorded, and a consumer that was running runs again on its topics. -/
structure LeftAsItWas (before after : KafkaConsumerInfrastructure) (topicName : String) : Prop where
  unrecorded : topicName ∉ after.subscribedTopics
  running : before.isConsumerRunning = true → after.isConsumerRunning = true ∧
    after.consumer.running = true ∧ after.consumer.topics = before.consumer.topics

variable {c} {topicName : String} {handler : Handler} {answers : Answers} {error : String}

/-- The topic is recorded, and the consumer does not run while Kafka subscribes it or once the
call has thrown. -/
structure Recorded (topicName : String) (r : KafkaConsumerInfrastructure × Next) : Prop where
  topic : topicName ∈ r.1.subscribedTopics
  stopped : (r.2 = .awaits .subscribe ∨ ∃ error, r.2 = .thrown error) →
    r.1.isConsumerRunning = false

theorem recorded_subscribe (hnew : topicName ∉ c.subscribedTopics) (handler : Handler) :
    Recorded topicName (c.subscribe topicName handler) := by
  unfold KafkaConsumerInfrastructure.subscribe
  rw [isSubscribedTo, decide_eq_false hnew]
  refine ⟨List.mem_append_right _ (List.mem_singleton.mpr rfl), ?_⟩
  show _ → c.isConsumerRunning = false
  cases c.isConsumerRunning with
  | false => exact fun _ => rfl
  | true => rintro (h | ⟨error, h⟩) <;> cases h

theorem recorded_resume {awaits : ConsumerAwaits} (h : Recorded topicName (c, .awaits awaits))
    (answer : Except String Unit) : Recorded topicName (c.resume topicName awaits answer) := by
  cases awaits with
  | stop => cases answer <;> exact ⟨h.topic, fun _ => rfl⟩
  | subscribe =>
    have hstopped : c.isConsumerRunning = false := h.stopped (.inl rfl)
    cases answer with
    | error error => exact ⟨h.topic, fun _ => hstopped⟩
    | ok _ =>
      simp only [resume, hstopped]
      refine ⟨h.topic, ?_⟩
      rintro (h | ⟨error, h⟩) <;> cases h
  | run =>
    cases answer with
    | error error => exact ⟨h.topic, fun _ => rfl⟩
    | ok _ =>
      refine ⟨h.topic, ?_⟩
      rintro (h | ⟨error, h⟩) <;> cases h

theorem recorded_goOn {r : KafkaConsumerInfrastructure × Next} (h : Recorded topicName r)
    (answers : Answers) : Recorded topicName (goOn answers topicName r) := by
  obtain ⟨c, next⟩ := r
  cases next with
  | awaits awaits => exact recorded_resume h (answers.to awaits)
  | returned => exact h
  | thrown error => exact h

/-- Once a call for a new topic has thrown, the topic is recorded and the consumer does not
run. -/
theorem subscribeNow_thrown (hnew : topicName ∉ c.subscribedTopics)
    (hthrown : (c.subscribeNow topicName handler answers).2 = .thrown error) :
    topicName ∈ (c.subscribeNow topicName handler answers).1.subscribedTopics ∧
      (c.subscribeNow topicName handler answers).1.isConsumerRunning = false := by
  have h := recorded_goOn (recorded_goOn (recorded_goOn (recorded_subscribe hnew handler)
    answers) answers) answers
  exact ⟨h.topic, h.stopped (.inr ⟨error, hthrown⟩)⟩

/-- A retry for a recorded topic asks Kafka for nothing. -/
theorem subscribe_recorded (h : topicName ∈ c.subscribedTopics) :
    c.subscribe topicName handler =
      ({ c with topicHandlers := c.topicHandlers.insert topicName handler }, .returned) :=
  if_pos (decide_eq_true h)

end KafkaConsumerInfrastructure

/-! ## A group whose consumer has not connected -/

namespace KafkaInfrastructure

variable {s s' : KafkaInfrastructure}

/-- The group has its consumer, and no call since the first `n` connects one. -/
structure Held (n : Nat) (groupId : String) (s : KafkaInfrastructure) : Prop where
  held : s.consumerInstances.lookup groupId ≠ none
  calls : ∀ j ≥ n, ∀ call, s.calls[j]? = some call → ∀ i args, call.awaits = .connect i args →
    args.group ≠ groupId

theorem keeps_held (n : Nat) (groupId : String) (k : Nat) (method : Method) :
    Keeps k method (Held n groupId) where
  goOn := by
    rintro s awaits h - hawaits
    refine ⟨h.held, fun j hj call hcall i args hconnect => ?_⟩
    rcases of_mem_goOn hcall with hcall | rfl
    · exact h.calls j hj call hcall i args hconnect
    · rw [show awaits = _ from hconnect] at hawaits
      cases hawaits
  create := by
    intro s args h hnone
    have hne : args.group ≠ groupId := fun heq => h.held (heq ▸ hnone)
    refine ⟨fun hnone' => ?_, fun j hj call hcall i args' hconnect => ?_⟩
    · obtain ⟨i, hi⟩ := Option.ne_none_iff_exists'.mp h.held
      exact Option.some_ne_none i ((lookup_create.mpr (.inr ⟨hne.symm, hi⟩)).symm.trans hnone')
    · rcases of_mem_goOn hcall with hcall | rfl
      · exact h.calls j hj call hcall i args' hconnect
      · cases hconnect
        exact hne
  withConsumer h _ _ _ := ⟨h.held, h.calls⟩
  connected h _ := ⟨h.held, h.calls⟩
  subscribed h _ _ := ⟨h.held, h.calls⟩

/-- Nothing but `disconnect` makes a call connect a consumer of the group again. -/
theorem held_fire {n : Nat} {groupId : String} {label : Label} (h : s.Held n groupId)
    (hlabel : label ≠ .disconnect) (hs' : s.fire label = some s') : s'.Held n groupId := by
  refine keeps_fire (keeps_held n groupId) ?_ h hs' fun heq => absurd heq hlabel
  intro s s' h hbeside
  refine ⟨hbeside.instances ▸ h.held, fun j hj call hcall i args hconnect => ?_⟩
  rcases hbeside.calls j call hcall with hcall | hcall
  · exact h.calls j hj call hcall i args hconnect
  · have hstarts := Call.isConnect_of_starts hcall
    rw [hconnect] at hstarts
    cases hstarts

/-- No call of `disconnect`. -/
def undisconnected (_ : KafkaInfrastructure) (label : Label) : Bool :=
  label ≠ .disconnect

theorem held_run {groupId : String} {n : Nat} {group : String} (labels : List Label) :
    ∀ {s s' : KafkaInfrastructure}, s.Held n group →
      (machine groupId).run undisconnected s labels = some s' → s'.Held n group := by
  induction labels with
  | nil =>
    intro s s' h hrun
    cases hrun
    exact h
  | cons label labels ih =>
    intro s s' h hrun
    unfold Machine.run at hrun
    split at hrun
    · rename_i hlabel
      obtain ⟨next, hnext, hrest⟩ := Option.bind_eq_some_iff.mp hrun
      exact ih (held_fire h (of_decide_eq_true hlabel) hnext) hrest
    · cases hrun

/-- A later call of `subscribe` with these arguments that has come to the consumer of the group has
connected one before. -/
def RetryConnects (s : KafkaInfrastructure) (args : KafkaSubscriberOptions) : Prop :=
  ∀ groupId labels s' j i awaits, s.calls.length ≤ j →
    (machine groupId).run undisconnected s labels = some s' →
    s'.calls[j]? = some ⟨.subscribe, .consumer i awaits args⟩ →
    ∃ labels₁ labels₂ s₁ i', labels = labels₁ ++ labels₂ ∧
      (machine groupId).run undisconnected s labels₁ = some s₁ ∧
      s₁.calls[j]? = some ⟨.subscribe, .connect i' args⟩

/-- A consumer is asked for a topic that it does not have. -/
theorem subscribe_new {c : KafkaConsumerInfrastructure} {topicName : String}
    (hnew : topicName ∉ c.subscribedTopics) (handler : Handler) :
    ∃ awaits, (c.subscribe topicName handler).2 = .awaits awaits := by
  unfold KafkaConsumerInfrastructure.subscribe
  rw [KafkaConsumerInfrastructure.isSubscribedTo, decide_eq_false hnew]
  cases c.isConsumerRunning with
  | false => exact ⟨.subscribe, rfl⟩
  | true => exact ⟨.stop, rfl⟩

theorem fire_answer {k : Nat} {call : Call} (hk : s.calls[k]? = some call)
    (answer : Except String Bool) :
    s.fire (.answer k answer) = s.resume k call.method call.awaits answer := by
  simp only [fire, hk, Option.bind_eq_bind, Option.bind_some]

/-- A `subscribe` for a topic that the consumer of its group does not have comes to that
consumer. -/
theorem subscribe_comes_to {i : Nat} {args : KafkaSubscriberOptions}
    {c : KafkaConsumerInfrastructure} (hinit : s.isInitialized = true)
    (hi : s.consumerInstances.lookup args.group = some i) (hc : s.created[i]? = some c)
    (hnew : args.topicName ∉ c.subscribedTopics) (groupId : String) :
    ∃ s' awaits, (machine groupId).run undisconnected s
        [.subscribe args, .answer s.calls.length (.ok true)] = some s' ∧
      s'.calls[s.calls.length]? = some ⟨.subscribe, .consumer i awaits args⟩ := by
  obtain ⟨awaits, hawaits⟩ := subscribe_new hnew args.handler
  let called := s.call .subscribe (.topicExists args)
  have hcalled : s.subscribe args = called := by
    unfold subscribe
    rw [if_pos hinit]
  have hk : called.calls[s.calls.length]? = some ⟨.subscribe, .topicExists args⟩ :=
    List.getElem?_concat_length
  have htopic : called.subscribeTopic s.calls.length .subscribe args =
      (called.withConsumer i (c.subscribe args.topicName args.handler).1).goOn s.calls.length
        .subscribe (.consumer i awaits args) := by
    have hi' : called.consumerInstances.lookup args.group = some i := hi
    have hc' : called.created[i]? = some c := hc
    simp only [subscribeTopic, subscribeConsumer, hi', hc', hawaits, follow]
  refine ⟨called.subscribeTopic s.calls.length .subscribe args, awaits, ?_, ?_⟩
  · have hfirst : (machine groupId).fire s (.subscribe args) = some called := congrArg some hcalled
    have hsecond : (machine groupId).fire called (.answer s.calls.length (.ok true)) =
        some (called.subscribeTopic s.calls.length .subscribe args) := fire_answer hk _
    rw [Machine.run_cons rfl hfirst, Machine.run_cons rfl hsecond]
    rfl
  · rw [htopic]
    exact List.getElem?_set_self (List.getElem?_eq_some_iff.mp hk).1

/-- The `subscribe` whose consumer has failed to connect leaves it behind for the next one. -/
theorem not_retryConnects {k i : Nat} {method : Method} {args : KafkaSubscriberOptions}
    {c : KafkaConsumerInfrastructure} {error : String} (hinit : s.isInitialized = true)
    (hk : s.calls[k]? = some ⟨method, .connect i args⟩)
    (hi : s.consumerInstances.lookup args.group = some i) (hc : s.created[i]? = some c)
    (hnew : args.topicName ∉ c.subscribedTopics)
    (hs' : s.fire (.answer k (.error error)) = some s') : ¬ s'.RetryConnects args := by
  intro h
  obtain ⟨call, hk', hs'⟩ := Option.bind_eq_some_iff.mp hs'
  obtain rfl := Option.some.inj (hk.symm.trans hk')
  cases hs'
  -- the failed call has changed nothing but where it stands itself
  obtain ⟨s'', awaits, hrun, hretry⟩ :=
    subscribe_comes_to (s := s.failWith k method error) hinit hi hc hnew ""
  obtain ⟨labels₁, labels₂, s₁, i', -, hrun₁, hconnect⟩ :=
    h "" _ s'' _ i awaits (le_refl _) hrun hretry
  have hheld : (s.failWith k method error).Held (s.failWith k method error).calls.length
      args.group := by
    refine ⟨fun hnone => Option.some_ne_none i (hi.symm.trans hnone), fun j hj call hcall => ?_⟩
    rw [List.getElem?_eq_none hj] at hcall
    cases hcall
  exact (held_run labels₁ hheld hrun₁).calls _ (le_refl _) _ hconnect i' args rfl rfl

end KafkaInfrastructure

/-- A `subscribe` to a new topic that throws never leaves the consumer as it was: a retry returns
at once, and a consumer that was running is stopped.  Where the consumer of a group has failed to
connect, a retry does not connect before it subscribes. -/
theorem failed_subscribe_not_undone (c : KafkaConsumerInfrastructure) (s : KafkaInfrastructure) :
    (∀ topicName handler answers error, topicName ∉ c.subscribedTopics →
      (c.subscribeNow topicName handler answers).2 = .thrown error →
        ¬ c.LeftAsItWas (c.subscribeNow topicName handler answers).1 topicName ∧
        (∀ handler', ((c.subscribeNow topicName handler answers).1.subscribe topicName handler').2 =
          .returned) ∧
        (c.isConsumerRunning = true →
          (c.subscribeNow topicName handler answers).1.isConsumerRunning = false)) ∧
    ∀ s' k method i args c' error, s.isInitialized = true →
      s.calls[k]? = some ⟨method, .connect i args⟩ →
      s.consumerInstances.lookup args.group = some i → s.created[i]? = some c' →
      args.topicName ∉ c'.subscribedTopics →
      s.fire (.answer k (.error error)) = some s' → ¬ s'.RetryConnects args := by
  constructor
  · intro topicName handler answers error hnew hthrown
    obtain ⟨hrecorded, hstopped⟩ :=
      KafkaConsumerInfrastructure.subscribeNow_thrown hnew hthrown
    refine ⟨fun h => h.unrecorded hrecorded, fun handler' => ?_, fun _ => hstopped⟩
    rw [KafkaConsumerInfrastructure.subscribe_recorded hrecorded]
  · intro s' k method i args c' error hinit hk hi hc hnew hs'
    exact KafkaInfrastructure.not_retryConnects hinit hk hi hc hnew hs'

/-- A consumer that runs on one topic. -/
def runningConsumer : KafkaConsumerInfrastructure where
  groupId := "order-user-fetch-group"
  consumer := { connected := true, topics := ["fetch-user-response"], running := true }
  subscribedTopics := ["fetch-user-response"]
  isConsumerRunning := true

/-- A process that connects the consumer of a group. -/
def connectingProcess : KafkaInfrastructure where
  isInitialized := true
  consumer := { groupId := "order-service-group", consumer := { connected := true } }
  created := [{ groupId := "order-user-fetch-group" }]
  consumerInstances := AList.singleton "order-user-fetch-group" 0
  calls := [⟨.subscribe, .connect 0
    { topicName := "fetch-order-request", handler := .given "handleFetchOrderRequest",
      groupId := some "order-user-fetch-group" }⟩]

theorem failed_subscribe_not_undone_orders :
    ¬ runningConsumer.LeftAsItWas (runningConsumer.subscribeNow "fetch-order-request"
        (.given "handleFetchOrderRequest") { subscribe := .error "no leader" }).1
        "fetch-order-request" ∧
      ¬ (connectingProcess.failWith 0 .subscribe "timeout").RetryConnects
        { topicName := "fetch-order-request", handler := .given "handleFetchOrderRequest",
          groupId := some "order-user-fetch-group" } :=
  ⟨((failed_subscribe_not_undone runningConsumer connectingProcess).1 "fetch-order-request" _
      { subscribe := .error "no leader" } "no leader" (by decide) rfl).1,
    (failed_subscribe_not_undone runningConsumer connectingProcess).2 _ 0 .subscribe 0 _
      { groupId := "order-user-fetch-group" } "timeout" rfl rfl rfl rfl List.not_mem_nil rfl⟩

/-- The new topic is recorded though Kafka has not subscribed to it, and the other topic is no
longer consumed. -/
theorem running_consumer_stopped :
    ¬ ∀ (c : KafkaConsumerInfrastructure) topicName handler answers error,
      topicName ∉ c.subscribedTopics →
      (c.subscribeNow topicName handler answers).2 = .thrown error →
        c.LeftAsItWas (c.subscribeNow topicName handler answers).1 topicName := by
  intro h
  have hleft := h runningConsumer "fetch-order-request" (.given "handleFetchOrderRequest")
    { subscribe := .error "no leader" } "no leader" (by decide) rfl
  cases (hleft.running rfl).1

end InvoiceHub.Kafka.Consumers
