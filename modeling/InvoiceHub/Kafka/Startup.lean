import InvoiceHub.Kafka.Subscription

/-!
# What a process stays subscribed to

A process awaits the subscriptions of its services one after the other, and listens once all of
them have returned.  The requests it sends from then on subscribe to their response topics, each in
the group of the request.  So the subscriptions of every other group stay in place, whatever Kafka
does to the requests (`serving_reachable`).
-/

namespace InvoiceHub.Kafka.Consumers

open Effects

/-- The group in which the response to a request is read. -/
def responseGroup (args : KafkaRequestOptions) : String := (responseSubscription args).group

def Call.isReturned (call : Call) : Bool := call.awaits = .returned

/-- The consumer is subscribed to the topic and would hand its messages to the handler. -/
structure Knows (c : KafkaConsumerInfrastructure) (args : KafkaSubscriberOptions) : Prop where
  connected : c.consumer.connected = true
  topic : args.topicName ∈ c.consumer.topics
  handler : c.topicHandlers.lookup args.topicName = some args.handler

/-- It runs. -/
structure Runs (c : KafkaConsumerInfrastructure) : Prop where
  isConsumerRunning : c.isConsumerRunning = true
  running : c.consumer.running = true

namespace KafkaInfrastructure

/-- The calls that a process makes before it listens have returned. -/
def listening (script : List KafkaSubscriberOptions) (s : KafkaInfrastructure) : Bool :=
  script.length < s.calls.length && (s.calls.take (script.length + 1)).all (·.isReturned)

/-- How a process starts, with the subscriptions in `script`, and which requests it makes then. -/
def startup (script : List KafkaSubscriberOptions) (asks : String → Bool)
    (s : KafkaInfrastructure) : Label → Bool
  | .initializeKafka => s.calls.isEmpty
  | .subscribe args => s.calls.all (·.isReturned) && !s.calls.isEmpty &&
      script[s.calls.length - 1]? = some args
  | .requestResponse args => s.listening script && args.all fun args => asks (responseGroup args)
  | .disconnect => false
  | _ => true

/-- The consumer of the group is connected, runs, and hands the messages of the topic to the
handler. -/
def InPlace (s : KafkaInfrastructure) (args : KafkaSubscriberOptions) : Prop :=
  ∃ i c, s.consumerInstances.lookup args.group = some i ∧ s.created[i]? = some c ∧
    Knows c args ∧ Runs c

/-- Consumers are kept for their groups. -/
def Wired (s : KafkaInfrastructure) : Prop :=
  ∀ groupId i, s.consumerInstances.lookup groupId = some i → s.HasGroup i groupId

variable {s s' : KafkaInfrastructure} {k i : Nat} {method : Method}
  {args : KafkaSubscriberOptions} {c c' : KafkaConsumerInfrastructure}

/-! ## Consumers of other groups -/

/-- Nothing has happened to consumers. -/
structure SameConsumers (s s' : KafkaInfrastructure) : Prop where
  created : s'.created = s.created
  instances : s'.consumerInstances = s.consumerInstances

theorem sameConsumers_goOn (s : KafkaInfrastructure) (k : Nat) (method : Method) (awaits : Awaits) :
    s.SameConsumers (s.goOn k method awaits) := ⟨rfl, rfl⟩

theorem SameConsumers.wired (hs : s.SameConsumers s') (h : s.Wired) : s'.Wired := by
  intro groupId i hi
  unfold HasGroup
  rw [hs.created]
  exact h groupId i (hs.instances ▸ hi)

theorem SameConsumers.inPlace (hs : s.SameConsumers s') (h : s.InPlace args) : s'.InPlace args := by
  unfold InPlace
  rw [hs.created, hs.instances]
  exact h

theorem Wired.group_unique (h : s.Wired) {groupId groupId' : String}
    (hi : s.consumerInstances.lookup groupId = some i)
    (hi' : s.HasGroup i groupId') : groupId = groupId' := by
  obtain ⟨c, hc, rfl⟩ := h groupId i hi
  obtain ⟨c', hc', rfl⟩ := hi'
  exact congrArg _ (Option.some_inj.mp (hc.symm.trans hc'))

theorem Wired.withConsumer (h : s.Wired) (hc : s.created[i]? = some c)
    (hgroup : c'.groupId = c.groupId) : (s.withConsumer i c').Wired :=
  fun groupId j hj => hasGroup_withConsumer hc hgroup (h groupId j hj)

theorem Wired.create (h : s.Wired) (groupId : String) : (s.create groupId).Wired := by
  intro groupId' j hj
  rcases lookup_create.mp hj with ⟨rfl, rfl⟩ | ⟨-, hj⟩
  · exact ⟨_, List.getElem?_concat_length, rfl⟩
  · exact hasGroup_create groupId (h groupId' j hj)

theorem InPlace.withConsumer (h : s.InPlace args) (hw : s.Wired) {groupId : String}
    (hi : s.HasGroup i groupId) (hne : args.group ≠ groupId) :
    (s.withConsumer i c').InPlace args := by
  obtain ⟨j, c, hj, hc, h⟩ := h
  have hij : i ≠ j := by
    rintro rfl
    exact hne (hw.group_unique hj hi)
  exact ⟨j, c, hj, (List.getElem?_set_ne hij).trans hc, h⟩

theorem InPlace.create (h : s.InPlace args) {groupId : String}
    (hnone : s.consumerInstances.lookup groupId = none) : (s.create groupId).InPlace args := by
  obtain ⟨j, c, hj, hc, h⟩ := h
  have hne : args.group ≠ groupId := by
    rintro rfl
    rw [hnone] at hj
    cases hj
  exact ⟨j, c, lookup_create.mpr (.inr ⟨hne, hj⟩), created_create _ hc, h⟩

/-! ## One subscription after the other -/

section Start

variable {done : List KafkaSubscriberOptions}

/-- These are the subscriptions. -/
structure Placed (s : KafkaInfrastructure) (done : List KafkaSubscriberOptions) : Prop where
  wired : s.Wired
  inPlace : ∀ args ∈ done, s.InPlace args
  groups : ∀ groupId i, s.consumerInstances.lookup groupId = some i →
    ∃ args ∈ done, args.group = groupId
  topics : ∀ c ∈ s.created, ∀ topicName ∈ c.subscribedTopics,
    ∃ args ∈ done, args.group = c.groupId ∧ args.topicName = topicName

/-- These are, and consumer `i` is subscribing to the topic of `args`. -/
structure Placing (s : KafkaInfrastructure) (done : List KafkaSubscriberOptions)
    (args : KafkaSubscriberOptions) (i : Nat) (c : KafkaConsumerInfrastructure) : Prop where
  wired : s.Wired
  lookup : s.consumerInstances.lookup args.group = some i
  created : s.created[i]? = some c
  others : ∀ args' ∈ done, args'.group ≠ args.group → s.InPlace args'
  knows : ∀ args' ∈ done, args'.group = args.group → Knows c args'
  groups : ∀ groupId i, s.consumerInstances.lookup groupId = some i →
    ∃ args' ∈ done ++ [args], args'.group = groupId
  topics : ∀ c ∈ s.created, ∀ topicName ∈ c.subscribedTopics,
    ∃ args' ∈ done ++ [args], args'.group = c.groupId ∧ args'.topicName = topicName

/-- No subscription has the group and the topic of `args`. -/
def Fresh (done : List KafkaSubscriberOptions) (args : KafkaSubscriberOptions) : Prop :=
  ∀ args' ∈ done, args'.group = args.group → args'.topicName ≠ args.topicName

theorem Placing.group (h : s.Placing done args i c) : c.groupId = args.group := by
  obtain ⟨c', hc', hgroup⟩ := h.wired _ _ h.lookup
  obtain rfl := Option.some_inj.mp (h.created.symm.trans hc')
  exact hgroup

/-- The consumer goes on. -/
theorem Placing.withConsumer (h : s.Placing done args i c) (hgroup : c'.groupId = c.groupId)
    (htopics : ∀ topicName ∈ c'.subscribedTopics,
      topicName ∈ c.subscribedTopics ∨ topicName = args.topicName)
    (hknows : ∀ args' ∈ done, args'.group = args.group → Knows c args' → Knows c' args') :
    (s.withConsumer i c').Placing done args i c' where
  wired := h.wired.withConsumer h.created hgroup
  lookup := h.lookup
  created := List.getElem?_set_self (List.getElem?_eq_some_iff.mp h.created).1
  others args' hmem hne :=
    (h.others args' hmem hne).withConsumer h.wired (h.wired _ _ h.lookup) hne
  knows args' hmem heq := hknows args' hmem heq (h.knows args' hmem heq)
  groups := h.groups
  topics c'' hmem topicName htopic := by
    rcases List.mem_or_eq_of_mem_set hmem with hmem | rfl
    · exact h.topics c'' hmem topicName htopic
    · rcases htopics topicName htopic with htopic | rfl
      · obtain ⟨args', hmem', hargs'⟩ :=
          h.topics c (List.mem_of_getElem? h.created) topicName htopic
        exact ⟨args', hmem', hgroup ▸ hargs'⟩
      · exact ⟨args, List.mem_append_right _ List.mem_cons_self, (hgroup.trans h.group).symm, rfl⟩

/-- The consumer runs again. -/
theorem Placing.placed (h : s.Placing done args i c) (hargs : Knows c args) (hruns : Runs c) :
    s.Placed (done ++ [args]) where
  wired := h.wired
  inPlace args' hmem := by
    by_cases hgroup : args'.group = args.group
    · have hknows : Knows c args' := by
        rcases List.mem_append.mp hmem with hmem | hmem
        · exact h.knows args' hmem hgroup
        · exact List.mem_singleton.mp hmem ▸ hargs
      exact ⟨i, c, hgroup ▸ h.lookup, h.created, hknows, hruns⟩
    · rcases List.mem_append.mp hmem with hmem | hmem
      · exact h.others args' hmem hgroup
      · exact absurd (congrArg _ (List.mem_singleton.mp hmem)) hgroup
  groups := h.groups
  topics := h.topics

/-- A consumer that serves its group takes another subscription. -/
theorem Placed.placing (h : s.Placed done) (hi : s.consumerInstances.lookup args.group = some i) :
    ∃ c, s.Placing done args i c ∧ c.consumer.connected = true ∧ Runs c ∧
      ∀ topicName ∈ c.subscribedTopics,
        ∃ args' ∈ done, args'.group = args.group ∧ args'.topicName = topicName := by
  obtain ⟨args₀, hmem₀, hgroup₀⟩ := h.groups _ _ hi
  obtain ⟨j, c, hj, hc, hknows, hruns⟩ := h.inPlace args₀ hmem₀
  obtain rfl : j = i := Option.some_inj.mp ((hgroup₀ ▸ hj).symm.trans hi)
  obtain ⟨c', hc', hgroup⟩ := h.wired _ _ hi
  obtain rfl : c = c' := Option.some_inj.mp (hc.symm.trans hc')
  refine ⟨c, ⟨h.wired, hi, hc, fun args' hmem _ => h.inPlace args' hmem, ?_, ?_, ?_⟩,
    hknows.connected, hruns, ?_⟩
  · intro args' hmem hgroup'
    obtain ⟨j', c₁, hj', hc₁, hknows₁, -⟩ := h.inPlace args' hmem
    rw [hgroup', hi, Option.some_inj] at hj'
    rw [← hj', hc, Option.some_inj] at hc₁
    exact hc₁ ▸ hknows₁
  · intro groupId i hi
    obtain ⟨args', hmem, hargs'⟩ := h.groups groupId i hi
    exact ⟨args', List.mem_append_left _ hmem, hargs'⟩
  · intro c' hmem topicName htopic
    obtain ⟨args', hmem', hargs'⟩ := h.topics c' hmem topicName htopic
    exact ⟨args', List.mem_append_left _ hmem', hargs'⟩
  · intro topicName htopic
    obtain ⟨args', hmem', hargs'⟩ := h.topics c (List.mem_of_getElem? hc) topicName htopic
    exact ⟨args', hmem', hargs'.1.trans hgroup, hargs'.2⟩

/-- A consumer of a new group. -/
theorem Placed.create (h : s.Placed done) (hnone : s.consumerInstances.lookup args.group = none) :
    (s.create args.group).Placing done args s.created.length { groupId := args.group } where
  wired := h.wired.create args.group
  lookup := lookup_create.mpr (.inl ⟨rfl, rfl⟩)
  created := List.getElem?_concat_length
  others args' hmem _ := (h.inPlace args' hmem).create hnone
  knows args' hmem hgroup := by
    obtain ⟨j, c, hj, -⟩ := h.inPlace args' hmem
    rw [hgroup, hnone] at hj
    cases hj
  groups groupId j hj := by
    rcases lookup_create.mp hj with ⟨rfl, -⟩ | ⟨-, hj⟩
    · exact ⟨args, List.mem_append_right _ List.mem_cons_self, rfl⟩
    · obtain ⟨args', hmem, hargs'⟩ := h.groups groupId j hj
      exact ⟨args', List.mem_append_left _ hmem, hargs'⟩
  topics c hmem topicName htopic := by
    rcases List.mem_append.mp hmem with hmem | hmem
    · obtain ⟨args', hmem', hargs'⟩ := h.topics c hmem topicName htopic
      exact ⟨args', List.mem_append_left _ hmem', hargs'⟩
    · rw [List.mem_singleton.mp hmem] at htopic
      cases htopic

theorem SameConsumers.placed (hs : s.SameConsumers s') (h : s.Placed done) : s'.Placed done where
  wired := hs.wired h.wired
  inPlace args hmem := hs.inPlace (h.inPlace args hmem)
  groups groupId i hi := h.groups groupId i (hs.instances ▸ hi)
  topics c hmem := h.topics c (hs.created ▸ hmem)

theorem SameConsumers.placing (hs : s.SameConsumers s') (h : s.Placing done args i c) :
    s'.Placing done args i c where
  wired := hs.wired h.wired
  lookup := by rw [hs.instances, h.lookup]
  created := by rw [hs.created, h.created]
  others args' hmem hne := hs.inPlace (h.others args' hmem hne)
  knows := h.knows
  groups groupId i hi := h.groups groupId i (hs.instances ▸ hi)
  topics c hmem := h.topics c (hs.created ▸ hmem)

/-- What a consumer awaits says whether it runs. -/
def Paused (c : KafkaConsumerInfrastructure) (args : KafkaSubscriberOptions) :
    ConsumerAwaits → Prop
  | .stop => c.isConsumerRunning = true
  | .subscribe => c.isConsumerRunning = false
  | .run => c.isConsumerRunning = true ∧ args.topicName ∈ c.consumer.topics

/-- Where the call stands that subscribes `args`. -/
def Stage (s : KafkaInfrastructure) (done : List KafkaSubscriberOptions)
    (args : KafkaSubscriberOptions) : Awaits → Prop
  | .topicExists args' | .createTopic args' => args' = args ∧ s.Placed done
  | .connect i args' => args' = args ∧ ∃ c, s.Placing done args i c ∧ c.subscribedTopics = [] ∧
      c.isConsumerRunning = false
  | .consumer i awaits args' => args' = args ∧ ∃ c, s.Placing done args i c ∧
      c.consumer.connected = true ∧ c.topicHandlers.lookup args.topicName = some args.handler ∧
      Paused c args awaits
  | .returned => s.Placed (done ++ [args])
  | .thrown _ => True
  | _ => False

theorem SameConsumers.stage (hs : s.SameConsumers s') {awaits : Awaits}
    (h : s.Stage done args awaits) : s'.Stage done args awaits := by
  cases awaits with
  | topicExists args' => exact ⟨h.1, hs.placed h.2⟩
  | createTopic args' => exact ⟨h.1, hs.placed h.2⟩
  | connect i args' =>
    obtain ⟨heq, c, hplacing, h⟩ := h
    exact ⟨heq, c, hs.placing hplacing, h⟩
  | consumer i awaits args' =>
    obtain ⟨heq, c, hplacing, h⟩ := h
    exact ⟨heq, c, hs.placing hplacing, h⟩
  | returned => exact hs.placed h
  | _ => exact h

theorem Placing.subscribe (h : s.Placing done args i c) (hconnected : c.consumer.connected = true)
    (hfresh : Fresh done args) (hnew : args.topicName ∉ c.subscribedTopics) :
    ∃ awaits, s.subscribeConsumer k method args =
        (s.withConsumer i (c.subscribe args.topicName args.handler).1).goOn k method awaits ∧
      (s.withConsumer i (c.subscribe args.topicName args.handler).1).Stage done args awaits := by
  have hsubscribe : c.subscribe args.topicName args.handler =
      ({ c with
          topicHandlers := c.topicHandlers.insert args.topicName args.handler
          subscribedTopics := c.subscribedTopics ++ [args.topicName] },
        if c.isConsumerRunning then .awaits .stop else .awaits .subscribe) := if_neg (by
    unfold KafkaConsumerInfrastructure.isSubscribedTo
    exact fun hmem => hnew (of_decide_eq_true hmem))
  have hplacing : (s.withConsumer i (c.subscribe args.topicName args.handler).1).Placing done args i
      (c.subscribe args.topicName args.handler).1 := by
    rw [hsubscribe]
    refine h.withConsumer rfl (fun topicName hmem => ?_) fun args' hmem hgroup hknows => ?_
    · exact (List.mem_append.mp hmem).imp_right List.mem_singleton.mp
    · refine ⟨hknows.connected, hknows.topic, ?_⟩
      exact (AList.lookup_insert_ne (hfresh args' hmem hgroup)).trans hknows.handler
  have hnext : (c.subscribe args.topicName args.handler).2 =
      .awaits (if c.isConsumerRunning then .stop else .subscribe) := by
    rw [hsubscribe]
    dsimp only
    split <;> rfl
  refine ⟨.consumer i (if c.isConsumerRunning then .stop else .subscribe) args, ?_, rfl, _,
    hplacing, ?_, ?_, ?_⟩
  · unfold subscribeConsumer
    rw [h.lookup]
    dsimp only
    rw [h.created]
    dsimp only
    rw [hnext]
    rfl
  · rw [hsubscribe]
    exact hconnected
  · rw [hsubscribe]
    exact AList.lookup_insert _
  · rw [hsubscribe]
    cases c.isConsumerRunning <;> rfl

/-- Where the topic exists. -/
theorem Placed.subscribeTopic (h : s.Placed done) (hfresh : Fresh done args) :
    ∃ (t : KafkaInfrastructure) (awaits : Awaits),
      s.subscribeTopic k method args = t.goOn k method awaits ∧ t.calls = s.calls ∧
      t.Stage done args awaits := by
  unfold KafkaInfrastructure.subscribeTopic
  cases hi : s.consumerInstances.lookup args.group with
  | none => exact ⟨s.create args.group, _, rfl, rfl, rfl, _, h.create hi, rfl, rfl⟩
  | some i =>
    obtain ⟨c, hplacing, hconnected, -, htopics⟩ := h.placing hi
    have hnew : args.topicName ∉ c.subscribedTopics := by
      intro hmem
      obtain ⟨args', hmem', hgroup, htopic⟩ := htopics _ hmem
      exact hfresh args' hmem' hgroup htopic
    obtain ⟨awaits, heq, hstage⟩ := hplacing.subscribe hconnected hfresh hnew
    exact ⟨_, awaits, heq, rfl, hstage⟩

/-- `subscribe` of the consumer goes on. -/
theorem Placing.resume (h : s.Placing done args i c) (hconnected : c.consumer.connected = true)
    (hhandler : c.topicHandlers.lookup args.topicName = some args.handler)
    {awaits : ConsumerAwaits} (hpaused : Paused c args awaits) {answer : Except String Bool}
    (hs' : s.resume k method (.consumer i awaits args) answer = some s') :
    ∃ awaits', s'.calls = s.calls.set k ⟨method, awaits'⟩ ∧ s'.Stage done args awaits' := by
  have hkeeps : ∀ (s' : KafkaInfrastructure) (c' : KafkaConsumerInfrastructure),
      (s.withConsumer i c').SameConsumers s' → c'.groupId = c.groupId →
      c'.subscribedTopics = c.subscribedTopics → c'.topicHandlers = c.topicHandlers →
      c'.consumer.connected = c.consumer.connected →
      (∀ topicName ∈ c.consumer.topics, topicName ∈ c'.consumer.topics) →
      s'.Placing done args i c' := by
    intro s' c' hs' hgroup hsubscribed hhandlers hconnects htopics
    refine hs'.placing (h.withConsumer hgroup (fun topicName hmem => .inl (hsubscribed ▸ hmem)) ?_)
    intro args' _ _ hknows
    exact ⟨hconnects.trans hknows.connected, htopics _ hknows.topic,
      by rw [hhandlers, hknows.handler]⟩
  simp only [KafkaInfrastructure.resume, h.created, Option.bind_eq_bind, Option.bind_some] at hs'
  cases awaits with
  | stop =>
    cases answer with
    | error error =>
      cases hs'
      exact ⟨.consumer i .subscribe args, rfl, rfl, _,
        hkeeps _ (c.resume args.topicName .stop (.error error)).1 ⟨rfl, rfl⟩ rfl rfl rfl rfl
          fun _ => id, hconnected, hhandler, rfl⟩
    | ok answer =>
      cases hs'
      exact ⟨.consumer i .subscribe args, rfl, rfl, _,
        hkeeps _ (c.resume args.topicName .stop (.ok ())).1 ⟨rfl, rfl⟩ rfl rfl rfl rfl
          fun _ => id, hconnected, hhandler, rfl⟩
  | subscribe =>
    have hpaused : c.isConsumerRunning = false := hpaused
    cases answer with
    | error error =>
      cases hs'
      exact ⟨.thrown _, rfl, trivial⟩
    | ok answer =>
      have hresume : c.resume args.topicName .subscribe (.ok ()) =
          ({ c with
              consumer := { c.consumer with topics := c.consumer.topics ++ [args.topicName] }
              isConsumerRunning := true }, .awaits .run) := by
        simp only [KafkaConsumerInfrastructure.resume, hpaused]
        rfl
      simp only [Except.map, hresume] at hs'
      cases hs'
      refine ⟨.consumer i .run args, rfl, rfl, _,
        hkeeps _ { c with
          consumer := { c.consumer with topics := c.consumer.topics ++ [args.topicName] }
          isConsumerRunning := true } ⟨rfl, rfl⟩ rfl rfl rfl rfl ?_, hconnected, hhandler, rfl, ?_⟩
      · exact fun _ => List.mem_append_left _
      · exact List.mem_append_right _ List.mem_cons_self
  | run =>
    obtain ⟨hrunning, htopic⟩ := hpaused
    cases answer with
    | error error =>
      cases hs'
      exact ⟨.thrown _, rfl, trivial⟩
    | ok answer =>
      cases hs'
      have hplacing := hkeeps (s.withConsumer i _ |>.goOn k method .returned)
        (c.resume args.topicName .run (.ok ())).1 ⟨rfl, rfl⟩ rfl rfl rfl rfl fun _ => id
      exact ⟨.returned, rfl, hplacing.placed ⟨hconnected, htopic, hhandler⟩ ⟨hrunning, rfl⟩⟩

/-- The call goes on to its next `await`. -/
theorem Stage.resume {awaits : Awaits} (h : s.Stage done args awaits) (hfresh : Fresh done args)
    {answer : Except String Bool} (hs' : s.resume k method awaits answer = some s') :
    ∃ awaits', s'.calls = s.calls.set k ⟨method, awaits'⟩ ∧ s'.Stage done args awaits' := by
  have htopic : s.Placed done → ∃ awaits',
      (s.subscribeTopic k method args).calls = s.calls.set k ⟨method, awaits'⟩ ∧
        (s.subscribeTopic k method args).Stage done args awaits' := by
    intro hplaced
    obtain ⟨t, awaits', heq, hcalls, hstage⟩ := hplaced.subscribeTopic hfresh
    rw [heq]
    refine ⟨awaits', congrArg (List.set · k _) hcalls, ?_⟩
    exact (sameConsumers_goOn t k method awaits').stage hstage
  cases awaits with
  | topicExists args' =>
    obtain ⟨rfl, hplaced⟩ := h
    rcases answer with error | _ | _
    · cases hs'
      exact ⟨.createTopic _, rfl, rfl, (sameConsumers_goOn s k method _).placed hplaced⟩
    · cases hs'
      exact ⟨.createTopic _, rfl, rfl, (sameConsumers_goOn s k method _).placed hplaced⟩
    · cases hs'
      exact htopic hplaced
  | createTopic args' =>
    obtain ⟨rfl, hplaced⟩ := h
    cases hs'
    exact htopic hplaced
  | connect i args' =>
    obtain ⟨rfl, c, hplacing, hnone, hrunning⟩ := h
    cases answer with
    | error error =>
      cases hs'
      exact ⟨.thrown _, rfl, trivial⟩
    | ok answer =>
      simp only [KafkaInfrastructure.resume, hplacing.created, Option.bind_eq_bind,
        Option.bind_some] at hs'
      cases hs'
      have hnote : (s.withConsumer i c.connected).SameConsumers
          ((s.withConsumer i c.connected).note (.connected c.groupId)) := ⟨rfl, rfl⟩
      have hconnected : (s.withConsumer i c.connected).Placing done args' i c.connected :=
        hplacing.withConsumer rfl (fun _ => .inl) fun _ _ _ hknows =>
          ⟨rfl, hknows.topic, hknows.handler⟩
      have hnew : args'.topicName ∉ c.connected.subscribedTopics := by
        change args'.topicName ∉ c.subscribedTopics
        rw [hnone]
        exact List.not_mem_nil
      obtain ⟨awaits', heq, hstage⟩ := (hnote.placing hconnected).subscribe rfl hfresh hnew
      rw [heq]
      exact ⟨awaits', rfl, (sameConsumers_goOn _ k method awaits').stage hstage⟩
  | consumer i awaits args' =>
    obtain ⟨rfl, c, hplacing, hconnected, hhandler, hpaused⟩ := h
    exact hplacing.resume hconnected hhandler hpaused hs'
  | returned => cases hs'
  | thrown error => cases hs'
  | _ => exact h.elim

end Start

/-! ## Requests -/

section Requests

variable {script : List KafkaSubscriberOptions} {asks : String → Bool}

/-- What a request awaits: it subscribes in a group of the requests only. -/
def Asks (s : KafkaInfrastructure) (asks : String → Bool) : Awaits → Prop
  | .requestTopic args | .publish args => asks (responseGroup args) = true
  | .topicExists args | .createTopic args => asks args.group = true
  | .connect i args | .consumer i _ args => asks args.group = true ∧ s.HasGroup i args.group
  | .returned | .thrown _ => True
  | _ => False

/-- The subscriptions of the other groups are in place. -/
structure Serving (s : KafkaInfrastructure) (script : List KafkaSubscriberOptions)
    (asks : String → Bool) : Prop where
  wired : s.Wired
  inPlace : ∀ args ∈ script, asks args.group = false → s.InPlace args

/-- Consumers keep their groups. -/
def GroupsKept (s s' : KafkaInfrastructure) : Prop :=
  ∀ i groupId, s.HasGroup i groupId → s'.HasGroup i groupId

theorem Asks.mono {awaits : Awaits} (h : s.Asks asks awaits) (hg : s.GroupsKept s') :
    s'.Asks asks awaits := by
  cases awaits with
  | connect i args => exact ⟨h.1, hg _ _ h.2⟩
  | consumer i awaits args => exact ⟨h.1, hg _ _ h.2⟩
  | _ => exact h

/-- What a request does to the process. -/
structure Requests (s s' : KafkaInfrastructure) (script : List KafkaSubscriberOptions)
    (asks : String → Bool) (k : Nat) (method : Method) : Prop where
  serving : s'.Serving script asks
  groups : s.GroupsKept s'
  calls : ∃ awaits, s'.calls = s.calls.set k ⟨method, awaits⟩ ∧ s'.Asks asks awaits

theorem SameConsumers.serving (hs : s.SameConsumers s') (h : s.Serving script asks) :
    s'.Serving script asks :=
  ⟨hs.wired h.wired, fun args hmem hasks => hs.inPlace (h.inPlace args hmem hasks)⟩

theorem SameConsumers.groupsKept (hs : s.SameConsumers s') : s.GroupsKept s' := by
  unfold GroupsKept HasGroup
  rw [hs.created]
  exact fun _ _ => id

theorem Serving.goOn (h : s.Serving script asks) {awaits : Awaits} (ha : s.Asks asks awaits) :
    s.Requests (s.goOn k method awaits) script asks k method where
  serving := (sameConsumers_goOn s k method awaits).serving h
  groups := (sameConsumers_goOn s k method awaits).groupsKept
  calls := ⟨awaits, rfl, ha.mono (sameConsumers_goOn s k method awaits).groupsKept⟩

/-- A step that is followed by another. -/
theorem Requests.after {t : KafkaInfrastructure} (h : t.Requests s' script asks k method)
    (hg : s.GroupsKept t) (hcalls : t.calls = s.calls) : s.Requests s' script asks k method where
  serving := h.serving
  groups i groupId hi := h.groups i groupId (hg i groupId hi)
  calls := hcalls ▸ h.calls

/-- A consumer of a request is changed. -/
theorem Serving.withConsumer (h : s.Serving script asks) (hc : s.created[i]? = some c)
    (hgroup : c'.groupId = c.groupId) {groupId : String} (hi : s.HasGroup i groupId)
    (hasks : asks groupId = true) : (s.withConsumer i c').Serving script asks where
  wired := h.wired.withConsumer hc hgroup
  inPlace args hmem hno := by
    refine (h.inPlace args hmem hno).withConsumer h.wired hi ?_
    rintro rfl
    rw [hasks] at hno
    cases hno

theorem groupsKept_withConsumer (hc : s.created[i]? = some c) (hgroup : c'.groupId = c.groupId) :
    s.GroupsKept (s.withConsumer i c') :=
  fun _ _ => hasGroup_withConsumer hc hgroup

/-- Where the consumer stands after `subscribe` of it. -/
theorem Serving.follow (h : s.Serving script asks) (hi : s.HasGroup i args.group)
    (hasks : asks args.group = true) (next : Next) :
    s.Requests (s.follow k method i args next) script asks k method := by
  cases next with
  | awaits awaits => exact h.goOn ⟨hasks, hi⟩
  | returned => exact h.goOn trivial
  | thrown error => exact h.goOn trivial

theorem Serving.subscribeConsumer (h : s.Serving script asks) (hasks : asks args.group = true) :
    s.Requests (s.subscribeConsumer k method args) script asks k method := by
  unfold KafkaInfrastructure.subscribeConsumer
  split
  · exact h.goOn trivial
  · rename_i i hi
    obtain ⟨c, hc, hgroup⟩ := h.wired _ _ hi
    rw [hc]
    have hsame : (c.subscribe args.topicName args.handler).1.groupId = c.groupId := by
      unfold KafkaConsumerInfrastructure.subscribe
      split <;> rfl
    have hkept := groupsKept_withConsumer hc hsame
    exact ((h.withConsumer hc hsame ⟨c, hc, hgroup⟩ hasks).follow (hkept _ _ ⟨c, hc, hgroup⟩)
      hasks _).after hkept rfl

theorem Serving.subscribeTopic (h : s.Serving script asks) (hasks : asks args.group = true) :
    s.Requests (s.subscribeTopic k method args) script asks k method := by
  unfold KafkaInfrastructure.subscribeTopic
  split
  · rename_i hnone
    have hcreate : (s.create args.group).Serving script asks :=
      ⟨h.wired.create _, fun args' hmem hno => (h.inPlace args' hmem hno).create hnone⟩
    have hawaits : (s.create args.group).Asks asks (.connect s.created.length args) :=
      ⟨hasks, _, List.getElem?_concat_length, rfl⟩
    exact (hcreate.goOn hawaits).after (fun _ _ => hasGroup_create args.group) rfl
  · exact h.subscribeConsumer hasks

/-- What a request awaits is answered. -/
theorem Serving.resume (h : s.Serving script asks) {awaits : Awaits} (ha : s.Asks asks awaits)
    {answer : Except String Bool} (hs' : s.resume k method awaits answer = some s') :
    s.Requests s' script asks k method := by
  cases awaits with
  | requestTopic args =>
    cases hs'
    exact h.goOn ha
  | publish args =>
    cases answer with
    | error error =>
      cases hs'
      exact h.goOn trivial
    | ok answer =>
      dsimp only [KafkaInfrastructure.resume] at hs'
      split at hs'
      · cases hs'
        exact h.goOn trivial
      · split at hs'
        · cases hs'
          exact h.goOn ha
        · cases hs'
          exact h.goOn trivial
  | topicExists args =>
    rcases answer with error | _ | _
    · cases hs'
      exact h.goOn ha
    · cases hs'
      exact h.goOn ha
    · cases hs'
      exact h.subscribeTopic ha
  | createTopic args =>
    cases hs'
    exact h.subscribeTopic ha
  | connect i args =>
    cases answer with
    | error error =>
      cases hs'
      exact h.goOn trivial
    | ok answer =>
      obtain ⟨c, hc, hs'⟩ := Option.bind_eq_some_iff.mp hs'
      cases hs'
      have hnote : (s.withConsumer i c.connected).SameConsumers
          ((s.withConsumer i c.connected).note (.connected c.groupId)) := ⟨rfl, rfl⟩
      have hkept : s.GroupsKept (s.withConsumer i c.connected) := groupsKept_withConsumer hc rfl
      refine ((hnote.serving (h.withConsumer hc rfl ha.2 ha.1)).subscribeConsumer ha.1).after ?_ rfl
      exact fun j groupId hj => hnote.groupsKept _ _ (hkept j groupId hj)
  | consumer i awaits args =>
    obtain ⟨c, hc, hs'⟩ := Option.bind_eq_some_iff.mp hs'
    have hgroup :
        (c.resume args.topicName awaits (answer.map fun _ => ())).1.groupId = c.groupId := by
      cases awaits <;> cases answer <;> simp only [Except.map, KafkaConsumerInfrastructure.resume]
      split <;> rfl
    have hkept := groupsKept_withConsumer hc hgroup
    have hfollow : s.Requests _ script asks k method :=
      ((h.withConsumer hc hgroup ha.2 ha.1).follow (hkept _ _ ha.2) ha.1
        (c.resume args.topicName awaits (answer.map fun _ => ())).2).after hkept rfl
    dsimp only at hs'
    split at hs'
    · cases hs'
      have hnote : ∀ (t : KafkaInfrastructure) (e : Event), t.SameConsumers (t.note e) :=
        fun _ _ => ⟨rfl, rfl⟩
      obtain ⟨awaits', hcalls, hasks⟩ := hfollow.calls
      exact ⟨(hnote _ _).serving hfollow.serving,
        fun j groupId hj => (hnote _ _).groupsKept _ _ (hfollow.groups j groupId hj),
        awaits', hcalls, hasks.mono (hnote _ _).groupsKept⟩
    · cases hs'
      exact hfollow
  | returned => cases hs'
  | thrown error => cases hs'
  | _ => exact ha.elim

end Requests

/-! ## Runs -/

section Runs

variable {script done : List KafkaSubscriberOptions} {asks : String → Bool}

/-- The calls that have returned before another subscription. -/
def startCalls (done : List KafkaSubscriberOptions) : List Call :=
  ⟨.initializeKafka, .returned⟩ :: done.map fun _ => ⟨.subscribe, .returned⟩

/-- Where `initialize` stands. -/
def Connecting : Awaits → Prop
  | .connectAll _ _ | .returned | .thrown _ => True
  | _ => False

/-- What holds of a process. -/
inductive Started (script : List KafkaSubscriberOptions) (asks : String → Bool)
    (s : KafkaInfrastructure) : Prop
  | connecting : s.created = [] → s.consumerInstances = ∅ →
      (s.calls = [] ∨ ∃ awaits, s.calls = [⟨.initializeKafka, awaits⟩] ∧ Connecting awaits) →
      Started script asks s
  | subscribing {done rest : List KafkaSubscriberOptions} {args : KafkaSubscriberOptions}
      {awaits : Awaits} : script = done ++ args :: rest →
      s.calls = startCalls done ++ [⟨.subscribe, awaits⟩] → s.Stage done args awaits →
      Started script asks s
  | listening {requests : List Call} : s.calls = startCalls script ++ requests →
      s.Serving script asks → (∀ call ∈ requests, s.Asks asks call.awaits) → Started script asks s

theorem length_startCalls (done : List KafkaSubscriberOptions) :
    (startCalls done).length = done.length + 1 := by
  rw [startCalls, List.length_cons, List.length_map]

theorem isReturned_startCalls {call : Call} (h : call ∈ startCalls done) :
    call.awaits = .returned := by
  rcases List.mem_cons.mp h with rfl | h
  · rfl
  · obtain ⟨args, -, rfl⟩ := List.mem_map.mp h
    rfl

theorem startCalls_concat (done : List KafkaSubscriberOptions) (args : KafkaSubscriberOptions) :
    startCalls done ++ [⟨.subscribe, .returned⟩] = startCalls (done ++ [args]) := by
  unfold startCalls
  rw [List.map_append, List.cons_append]
  rfl

theorem placed_nil (hc : s.created = []) (hi : s.consumerInstances = ∅) : s.Placed [] where
  wired groupId i h := by
    rw [hi] at h
    cases h
  inPlace args hmem := by cases hmem
  groups groupId i h := by
    rw [hi] at h
    cases h
  topics c hmem := by
    rw [hc] at hmem
    cases hmem

theorem Placed.serving (h : s.Placed script) : s.Serving script asks :=
  ⟨h.wired, fun args hmem _ => h.inPlace args hmem⟩

/-- Once it listens, all its subscriptions were placed. -/
theorem Started.serving (h : s.Started script asks) (hl : s.listening script = true) :
    ∃ requests, s.calls = startCalls script ++ requests ∧ s.Serving script asks ∧
      ∀ call ∈ requests, s.Asks asks call.awaits := by
  unfold KafkaInfrastructure.listening at hl
  rw [Bool.and_eq_true] at hl
  obtain ⟨hlt, hreturned⟩ := hl
  have hlt := of_decide_eq_true hlt
  have hcall : ∀ call ∈ s.calls.take (script.length + 1), call.awaits = .returned :=
    fun call hmem => of_decide_eq_true (List.all_eq_true.mp hreturned call hmem)
  cases h with
  | connecting hc hi hcalls =>
    rcases hcalls with hcalls | ⟨awaits, hcalls, -⟩
    · rw [hcalls] at hlt
      cases hlt
    · rw [hcalls] at hlt hcall
      obtain rfl : script = [] := List.eq_nil_of_length_eq_zero (Nat.lt_one_iff.mp hlt)
      obtain rfl : awaits = .returned := hcall _ List.mem_cons_self
      exact ⟨[], hcalls, (placed_nil hc hi).serving, fun call hmem => by cases hmem⟩
  | @subscribing done rest args awaits hscript hcalls hstage =>
    have hlength : s.calls.length = done.length + 1 + 1 := by
      rw [hcalls, List.length_append, length_startCalls]
      rfl
    have hrest : rest = [] := by
      rw [hscript, hlength, List.length_append, List.length_cons] at hlt
      exact List.eq_nil_of_length_eq_zero (by omega)
    subst hrest hscript
    rw [List.take_of_length_le (by rw [hlength, List.length_append]; rfl)] at hcall
    obtain rfl : awaits = .returned :=
      hcall ⟨.subscribe, awaits⟩ (hcalls ▸ List.mem_append_right _ List.mem_cons_self)
    refine ⟨[], ?_, Placed.serving hstage, fun call hmem => by cases hmem⟩
    rw [hcalls, startCalls_concat, List.append_nil]
  | listening hcalls hserving hasks => exact ⟨_, hcalls, hserving, hasks⟩

/-- Where its calls have returned, it goes on with the next subscription, if there is one. -/
theorem Started.next (h : s.Started script asks) (hreturned : s.calls.all (·.isReturned) = true)
    (hcalls : s.calls ≠ []) (hnext : script[s.calls.length - 1]? = some args) :
    ∃ done rest, script = done ++ args :: rest ∧ s.calls = startCalls done ∧ s.Placed done := by
  have hcall : ∀ call ∈ s.calls, call.awaits = .returned :=
    fun call hmem => of_decide_eq_true (List.all_eq_true.mp hreturned call hmem)
  have hplaced : ∀ done rest : List KafkaSubscriberOptions, script = done ++ rest →
      s.calls = startCalls done → s.Placed done →
        ∃ done rest, script = done ++ args :: rest ∧ s.calls = startCalls done ∧ s.Placed done := by
    intro done rest hscript hstart hplaced
    rw [hscript, hstart, length_startCalls, Nat.add_sub_cancel,
      List.getElem?_append_right (Nat.le_refl _), Nat.sub_self] at hnext
    cases rest with
    | nil => cases hnext
    | cons args' rest =>
      cases hnext
      exact ⟨done, rest, hscript, hstart, hplaced⟩
  cases h with
  | connecting hc hi hinit =>
    rcases hinit with hnil | ⟨awaits, hinit, -⟩
    · exact absurd hnil hcalls
    · obtain rfl : awaits = .returned := hcall _ (hinit ▸ List.mem_cons_self)
      exact hplaced [] script rfl hinit (placed_nil hc hi)
  | @subscribing done rest args' awaits hscript hstart hstage =>
    obtain rfl : awaits = .returned :=
      hcall ⟨.subscribe, awaits⟩ (hstart ▸ List.mem_append_right _ List.mem_cons_self)
    refine hplaced (done ++ [args']) rest ?_ (hstart.trans (startCalls_concat done args')) hstage
    rw [hscript, List.append_assoc]
    rfl
  | @listening requests hstart _ _ =>
    have hlength : script.length ≤ s.calls.length - 1 := by
      rw [hstart, List.length_append, length_startCalls]
      omega
    rw [List.getElem?_eq_none hlength] at hnext
    cases hnext

/-- A call has returned, or comes after those of the start. -/
theorem startCalls_cases {more : List Call} {call : Call}
    (hk : (startCalls done ++ more)[k]? = some call) : call.awaits = .returned ∨
      ∃ j, k = (startCalls done).length + j ∧ more[j]? = some call := by
  by_cases hlt : k < (startCalls done).length
  · rw [List.getElem?_append_left hlt] at hk
    exact .inl (isReturned_startCalls (List.mem_of_getElem? hk))
  · rw [List.getElem?_append_right (Nat.le_of_not_lt hlt)] at hk
    exact .inr ⟨_, (Nat.add_sub_of_le (Nat.le_of_not_lt hlt)).symm, hk⟩

/-- What a call awaits is answered. -/
theorem Started.answer (h : s.Started script asks)
    (hdistinct : (script.map fun args => (args.group, args.topicName)).Nodup) {call : Call}
    (hk : s.calls[k]? = some call) {answer : Except String Bool}
    (hs' : s.resume k call.method call.awaits answer = some s') : s'.Started script asks := by
  cases h with
  | connecting hc hi hinit =>
    rcases hinit with hnil | ⟨awaits, hinit, hconnecting⟩
    · rw [hnil] at hk
      cases hk
    · obtain rfl : call = ⟨.initializeKafka, awaits⟩ :=
        List.mem_singleton.mp (hinit ▸ List.mem_of_getElem? hk)
      cases awaits <;> first | exact hconnecting.elim | cases hs'
  | @subscribing done rest args awaits hscript hstart hstage =>
    rw [hstart] at hk
    rcases startCalls_cases hk with hreturned | ⟨j, hj, hget⟩
    · rw [hreturned] at hs'
      cases hs'
    · obtain rfl : call = ⟨.subscribe, awaits⟩ := List.mem_singleton.mp (List.mem_of_getElem? hget)
      obtain rfl : j = 0 := Nat.lt_one_iff.mp (List.getElem?_eq_some_iff.mp hget).1
      have hfresh : Fresh done args := by
        intro args' hmem hgroup htopic
        rw [hscript, List.map_append, List.nodup_append] at hdistinct
        exact hdistinct.2.2 _ (List.mem_map_of_mem hmem) _ (List.mem_map_of_mem List.mem_cons_self)
          (Prod.ext hgroup htopic)
      obtain ⟨awaits', hcalls, hstage'⟩ := hstage.resume hfresh hs'
      refine .subscribing hscript (hcalls.trans ?_) hstage'
      rw [hstart, hj, Nat.add_zero, List.set_append_right _ _ (Nat.le_refl _), Nat.sub_self]
      rfl
  | @listening requests hstart hserving hasks =>
    rw [hstart] at hk
    rcases startCalls_cases hk with hreturned | ⟨j, hj, hget⟩
    · rw [hreturned] at hs'
      cases hs'
    · have hr := hserving.resume (hasks call (List.mem_of_getElem? hget)) hs'
      obtain ⟨awaits', hcalls, hasks'⟩ := hr.calls
      have hset : s'.calls = startCalls script ++ requests.set j ⟨call.method, awaits'⟩ := by
        rw [hcalls, hstart, hj, List.set_append_right _ _ (Nat.le_add_right _ _),
          Nat.add_sub_cancel_left]
      refine .listening hset hr.serving ?_
      · intro call' hmem
        rcases List.mem_or_eq_of_mem_set hmem with hmem | rfl
        · exact (hasks call' hmem).mono hr.groups
        · exact hasks'

/-- A promise of `initialize` settles. -/
theorem Started.settle (h : s.Started script asks) {call : Call} (hk : s.calls[k]? = some call)
    {client : Client} {answer : Except String Unit}
    (hs' : s.settle k call.method client call.awaits answer = some s') :
    s'.Started script asks := by
  have hreturned : call.awaits = .returned → False := by
    intro heq
    rw [heq] at hs'
    cases hs'
  cases h with
  | connecting hc hi hinit =>
    have hbeside := Beside.settle hs'
    refine .connecting (hbeside.created.trans hc) (hbeside.instances.trans hi) ?_
    rcases hinit with hnil | ⟨awaits, hinit, hconnecting⟩
    · rw [hnil] at hk
      cases hk
    · obtain rfl : call = ⟨.initializeKafka, awaits⟩ :=
        List.mem_singleton.mp (hinit ▸ List.mem_of_getElem? hk)
      obtain rfl : k = 0 := by
        rw [hinit] at hk
        exact Nat.lt_one_iff.mp (List.getElem?_eq_some_iff.mp hk).1
      cases awaits with
      | connectAll pending rejected =>
        have hgoOn : ∀ (t : KafkaInfrastructure) pending rejected, t.calls = s.calls →
            (t.goOn 0 .initializeKafka (settled .connectAll pending rejected)).calls =
              [⟨.initializeKafka, settled .connectAll pending rejected⟩] := by
          intro t pending rejected hcalls
          rw [goOn, hcalls, hinit]
          rfl
        have hsettled : ∀ pending rejected, Connecting (settled .connectAll pending rejected) := by
          intro pending rejected
          unfold settled
          split
          · cases rejected <;> trivial
          · trivial
        dsimp only [KafkaInfrastructure.settle] at hs'
        split at hs'
        · split at hs'
          · cases hs'
            exact .inr ⟨_, hgoOn _ _ _ rfl, hsettled _ _⟩
          · cases hs'
            refine .inr ⟨_, hgoOn _ _ _ ?_, hsettled _ _⟩
            split <;> split <;> rfl
        · cases hs'
      | returned => cases hs'
      | thrown error => cases hs'
      | _ => exact hconnecting.elim
  | @subscribing done rest args awaits hscript hstart hstage =>
    rw [hstart] at hk
    rcases startCalls_cases hk with heq | ⟨j, -, hget⟩
    · exact (hreturned heq).elim
    · obtain rfl : call = ⟨.subscribe, awaits⟩ := List.mem_singleton.mp (List.mem_of_getElem? hget)
      cases awaits <;> first | exact hstage.elim | cases hs'
  | @listening requests hstart hserving hasks =>
    rw [hstart] at hk
    rcases startCalls_cases hk with heq | ⟨j, -, hget⟩
    · exact (hreturned heq).elim
    · have hcall := hasks call (List.mem_of_getElem? hget)
      obtain ⟨method, awaits⟩ := call
      cases awaits <;> first | exact hcall.elim | cases hs'

theorem SameConsumers.started (hs : s.SameConsumers s') (hcalls : s'.calls = s.calls)
    (h : s.Started script asks) : s'.Started script asks := by
  cases h with
  | connecting hc hi hinit =>
    exact .connecting (hs.created.trans hc) (hs.instances.trans hi) (hcalls ▸ hinit)
  | subscribing hscript hstart hstage =>
    exact .subscribing hscript (hcalls.trans hstart) (hs.stage hstage)
  | listening hstart hserving hasks =>
    exact .listening (hcalls.trans hstart) (hs.serving hserving)
      fun call hmem => (hasks call hmem).mono hs.groupsKept

/-- Requests are made. -/
theorem Serving.requestResponse (args : List KafkaRequestOptions)
    (hasks : ∀ a ∈ args, asks (responseGroup a) = true) : ∀ {s : KafkaInfrastructure}
      {requests : List Call}, s.calls = startCalls script ++ requests → s.Serving script asks →
      (∀ call ∈ requests, s.Asks asks call.awaits) →
        (s.requestResponse args).Started script asks := by
  induction args with
  | nil => exact fun hstart hserving hrequests => .listening hstart hserving hrequests
  | cons a args ih =>
    intro s requests hstart hserving hrequests
    have hsame : s.SameConsumers (s.processRequest a) := ⟨rfl, rfl⟩
    obtain ⟨awaits, hcalls, hawaits⟩ : ∃ awaits, (s.processRequest a).calls =
        s.calls ++ [⟨.processRequest, awaits⟩] ∧ (s.processRequest a).Asks asks awaits := by
      refine ⟨_, rfl, ?_⟩
      split
      · exact hasks a List.mem_cons_self
      · trivial
    rw [hstart, List.append_assoc] at hcalls
    refine ih (fun a' hmem => hasks a' (List.mem_cons_of_mem _ hmem)) hcalls
      (hsame.serving hserving) fun call hmem => ?_
    rcases List.mem_append.mp hmem with hmem | hmem
    · exact (hrequests call hmem).mono hsame.groupsKept
    · exact List.mem_singleton.mp hmem ▸ hawaits

/-- Every step of a process that starts so. -/
theorem Started.fire (h : s.Started script asks)
    (hdistinct : (script.map fun args => (args.group, args.topicName)).Nodup) {label : Label}
    (hp : s.startup script asks label = true) (hs' : s.fire label = some s') :
    s'.Started script asks := by
  cases label with
  | initializeKafka =>
    cases hs'
    have hnil : s.calls = [] := List.isEmpty_iff.mp hp
    cases h with
    | connecting hc hi _ =>
      refine .connecting hc hi (.inr ⟨_, congrArg (· ++ _) hnil, ?_⟩)
      split <;> trivial
    | subscribing _ hstart _ =>
      rw [hnil] at hstart
      cases hstart
    | listening hstart _ _ =>
      rw [hnil] at hstart
      cases hstart
  | subscribe args =>
    cases hs'
    obtain ⟨hp, hnext⟩ := Bool.and_eq_true_iff.mp hp
    obtain ⟨hreturned, hcalls⟩ := Bool.and_eq_true_iff.mp hp
    obtain ⟨done, rest, hscript, hstart, hplaced⟩ := h.next hreturned
      (fun hnil => by rw [hnil] at hcalls; cases hcalls) (of_decide_eq_true hnext)
    refine .subscribing hscript (congrArg (· ++ _) hstart) ?_
    split
    · have hsame : s.SameConsumers (s.subscribe args) := ⟨rfl, rfl⟩
      exact ⟨rfl, hsame.placed hplaced⟩
    · trivial
  | requestResponse args =>
    cases hs'
    obtain ⟨hlistening, hargs⟩ := Bool.and_eq_true_iff.mp hp
    obtain ⟨requests, hstart, hserving, hrequests⟩ := h.serving hlistening
    exact Serving.requestResponse args (List.all_eq_true.mp hargs) hstart hserving hrequests
  | disconnect => cases hp
  | answer k answer =>
    obtain ⟨call, hk, hs'⟩ := Option.bind_eq_some_iff.mp hs'
    exact h.answer hdistinct hk hs'
  | settle k client answer =>
    obtain ⟨call, hk, hs'⟩ := Option.bind_eq_some_iff.mp hs'
    exact h.settle hk hs'
  | message i topicName =>
    obtain ⟨c, -, hs'⟩ := Option.bind_eq_some_iff.mp hs'
    split at hs'
    · cases hs'
      unfold eachMessage
      split
      · exact h
      · rename_i handler _
        have hsame : s.SameConsumers (s.note (.handled topicName handler)) := ⟨rfl, rfl⟩
        exact hsame.started rfl h
    · cases hs'

/-- A process that listens serves the subscriptions it has started with, but for those in the groups
of its requests. -/
theorem serving_reachable {groupId : String}
    (hdistinct : (script.map fun args => (args.group, args.topicName)).Nodup)
    (hs : (machine groupId).Reachable (startup script asks) s)
    (hl : s.listening script = true) : s.Serving script asks := by
  have hstarted : s.Started script asks :=
    hs.induction (.connecting rfl rfl (.inl rfl)) fun s s' _ h ⟨label, hp, hf⟩ =>
      h.fire hdistinct hp hf
  obtain ⟨-, -, hserving, -⟩ := hstarted.serving hl
  exact hserving

end Runs

end KafkaInfrastructure

end InvoiceHub.Kafka.Consumers
