import InvoiceHub.Kafka.Consumers

/-!
# Requests and the subscription to their responses

A request is sent before its response topic is subscribed to, and a consumer reads only what is
sent after it has subscribed and while it runs.  So a running consumer is subscribed when a request
goes out where a `subscribe` of the process's own has seen to that; in a process that has not
disconnected it is only there.
-/

namespace InvoiceHub.Kafka.Consumers

open Effects

namespace KafkaInfrastructure

/-- The request that is sent in a step: `createTopic` has returned, and `send` of the producer is
called. -/
def sends (s : KafkaInfrastructure) : Label → Option KafkaRequestOptions
  | .answer k _ =>
    match s.calls[k]? with
    | some ⟨_, .requestTopic args⟩ => some args
    | _ => none
  | _ => none

/-- A consumer of the group that is connected and runs. -/
structure Serves (c : KafkaConsumerInfrastructure) (groupId : String) : Prop where
  group : c.groupId = groupId
  connected : c.consumer.connected = true
  running : c.consumer.running = true

/-- A running consumer of the group is subscribed to the topic. -/
def IsSubscribed (s : KafkaInfrastructure) (args : KafkaSubscriberOptions) : Prop :=
  ∃ c ∈ s.consumers, Serves c args.group ∧ args.topicName ∈ c.consumer.topics

/-- A call of `subscribe`, not a request, has subscribed a consumer of the group to the topic, and
that consumer runs. -/
def IsPrepared (s : KafkaInfrastructure) (args : KafkaSubscriberOptions) : Prop :=
  ∃ i c, s.created[i]? = some c ∧ Serves c args.group ∧
    .subscribed .subscribe i args.topicName ∈ s.history

/-- A request that is sent finds the process subscribed to its response topic. -/
def SubscribedFirst (s : KafkaInfrastructure) (label : Label) : Prop :=
  ∀ args, s.sends label = some args → s.IsSubscribed (responseSubscription args)

/-- A request that is sent finds its response topic prepared. -/
def PreparedFirst (s : KafkaInfrastructure) (label : Label) : Prop :=
  ∀ args, s.sends label = some args → s.IsPrepared (responseSubscription args)

/-- Consumer `i` is of this group. -/
def HasGroup (s : KafkaInfrastructure) (i : Nat) (groupId : String) : Prop :=
  ∃ c, s.created[i]? = some c ∧ c.groupId = groupId

/-! ## A consumer that is changed or created -/

section Created

variable {s : KafkaInfrastructure} {i j : Nat} {c c' d : KafkaConsumerInfrastructure}

/-- What the changed consumer keeps, every consumer keeps. -/
theorem created_withConsumer {P : KafkaConsumerInfrastructure → Prop}
    (hc : s.created[i]? = some c) (hkeeps : P c → P c') (hj : s.created[j]? = some d) (hd : P d) :
    ∃ d', (s.withConsumer i c').created[j]? = some d' ∧ P d' := by
  by_cases hij : i = j
  · subst hij
    obtain rfl := Option.some.inj (hc.symm.trans hj)
    exact ⟨c', List.getElem?_set_self (List.getElem?_eq_some_iff.mp hc).1, hkeeps hd⟩
  · exact ⟨d, (List.getElem?_set_ne hij).trans hj, hd⟩

/-- A consumer is the changed one, or it is as it was. -/
theorem created_withConsumer_cases (hj : (s.withConsumer i c').created[j]? = some d) :
    j = i ∧ d = c' ∨ s.created[j]? = some d := by
  unfold withConsumer at hj
  dsimp only at hj
  rw [List.getElem?_set] at hj
  split at hj
  · rename_i hij
    split at hj
    · exact .inl ⟨hij.symm, (Option.some.inj hj).symm⟩
    · cases hj
  · exact .inr hj

/-- A consumer is changed, and keeps its group. -/
theorem hasGroup_withConsumer (hc : s.created[i]? = some c) (hgroup : c'.groupId = c.groupId)
    {groupId : String} (h : s.HasGroup j groupId) : (s.withConsumer i c').HasGroup j groupId := by
  obtain ⟨d, hj, hd⟩ := h
  exact created_withConsumer hc (fun heq => hgroup.trans heq) hj hd

/-- A consumer stays when another is created. -/
theorem created_create (groupId : String) (hc : s.created[i]? = some c) :
    (s.create groupId).created[i]? = some c :=
  (List.getElem?_append_left (List.getElem?_eq_some_iff.mp hc).1).trans hc

theorem hasGroup_create (groupId : String) {groupId' : String} (h : s.HasGroup i groupId') :
    (s.create groupId).HasGroup i groupId' := by
  obtain ⟨c, hc, hgroup⟩ := h
  exact ⟨c, created_create groupId hc, hgroup⟩

/-- A consumer was there before, or it is the one that is created. -/
theorem created_create_cases {groupId : String} (hc : (s.create groupId).created[i]? = some c) :
    s.created[i]? = some c ∨ i = s.created.length ∧ c = { groupId := groupId } := by
  unfold create at hc
  dsimp only at hc
  rw [List.getElem?_append] at hc
  split at hc
  · exact .inl hc
  · have hi : i = s.created.length := by
      have hlt := (List.getElem?_eq_some_iff.mp hc).1
      rw [List.length_singleton] at hlt
      omega
    subst hi
    rw [Nat.sub_self] at hc
    exact .inr ⟨rfl, (Option.some.inj hc).symm⟩

end Created

/-! ## What has been subscribed stays so -/

/-- What a consumer has been subscribed to is among its topics. -/
def Recorded (s : KafkaInfrastructure) : Prop :=
  ∀ method i topicName, .subscribed method i topicName ∈ s.history →
    ∃ c, s.created[i]? = some c ∧ topicName ∈ c.consumer.topics

section Recorded

variable {s s' : KafkaInfrastructure}

/-- A consumer is changed, and keeps its topics. -/
theorem Recorded.withConsumer (h : s.Recorded) {i : Nat} {c c' : KafkaConsumerInfrastructure}
    (hc : s.created[i]? = some c) (htopics : c.consumer.topics ⊆ c'.consumer.topics) :
    (s.withConsumer i c').Recorded := by
  intro method j topicName hmem
  obtain ⟨d, hj, htopic⟩ := h method j topicName hmem
  exact created_withConsumer hc (fun hold => htopics hold) hj htopic

theorem keeps_recorded (k : Nat) (method : Method) : Keeps k method Recorded where
  goOn h _ _ := h
  create h _ method j topicName hmem := by
    obtain ⟨c, hj, htopic⟩ := h method j topicName hmem
    exact ⟨c, created_create _ hj, htopic⟩
  withConsumer h hc _ htopics := h.withConsumer hc htopics
  connected := by
    intro s i c h hc method j topicName hmem
    have hconnected : (s.withConsumer i c.connected).Recorded :=
      h.withConsumer hc (List.Subset.refl _)
    rcases List.mem_append.mp hmem with hmem | hmem
    · exact hconnected method j topicName hmem
    · cases List.mem_singleton.mp hmem
  subscribed := by
    intro s i c topicName h hc htopic method j topicName' hmem
    rcases List.mem_append.mp hmem with hmem | hmem
    · exact h method j topicName' hmem
    · cases List.mem_singleton.mp hmem
      exact ⟨c, hc, htopic⟩

theorem recorded_fire {label : Label} (h : s.Recorded) (hs' : s.fire label = some s') :
    s'.Recorded := by
  refine keeps_fire keeps_recorded ?_ h hs' ?_
  · intro s s' h hbeside method i topicName hmem
    rw [hbeside.created]
    exact h method i topicName ((hbeside.events _ rfl).mp hmem)
  · rintro rfl
    cases hs'
    cases hinit : s.isInitialized with
    | true =>
      obtain ⟨c, pending, heq, -, -⟩ := disconnect_eq hinit
      rw [heq]
      exact h
    | false =>
      unfold disconnect
      rw [hinit]
      exact h

/-- What is prepared is subscribed. -/
theorem Recorded.isSubscribed (h : s.Recorded) {args : KafkaSubscriberOptions}
    (hprepared : s.IsPrepared args) : s.IsSubscribed args := by
  obtain ⟨i, c, hc, hserves, hmem⟩ := hprepared
  obtain ⟨c', hc', htopic⟩ := h _ _ _ hmem
  obtain rfl := Option.some.inj (hc.symm.trans hc')
  exact ⟨c, List.mem_cons_of_mem _ (List.mem_of_getElem? hc), hserves, htopic⟩

end Recorded

/-! ## What requests subscribe to has been prepared -/

/-- A call of `subscribe` has subscribed a consumer of the group to the topic. -/
def Owned (s : KafkaInfrastructure) (args : KafkaSubscriberOptions) : Prop :=
  ∃ i, s.HasGroup i args.group ∧ .subscribed .subscribe i args.topicName ∈ s.history

/-- A call that subscribes is one of `subscribe`, or one of these has subscribed before. -/
def Licensed (s : KafkaInfrastructure) (method : Method) (args : KafkaSubscriberOptions) : Prop :=
  method = .subscribe ∨ s.Owned args

section Licensed

variable {s s' : KafkaInfrastructure} {method : Method} {args : KafkaSubscriberOptions}

theorem Owned.mono (h : s.Owned args)
    (hhistory : ∀ i topicName, .subscribed .subscribe i topicName ∈ s.history →
      .subscribed .subscribe i topicName ∈ s'.history)
    (hcreated : ∀ i groupId, s.HasGroup i groupId → s'.HasGroup i groupId) : s'.Owned args := by
  obtain ⟨i, hi, hmem⟩ := h
  exact ⟨i, hcreated _ _ hi, hhistory _ _ hmem⟩

theorem Licensed.mono (h : s.Licensed method args)
    (hhistory : ∀ i topicName, .subscribed .subscribe i topicName ∈ s.history →
      .subscribed .subscribe i topicName ∈ s'.history)
    (hcreated : ∀ i groupId, s.HasGroup i groupId → s'.HasGroup i groupId) :
    s'.Licensed method args :=
  h.imp id (·.mono hhistory hcreated)

end Licensed

/-- What a call may await. -/
def CallLicensed (s : KafkaInfrastructure) (call : Call) : Prop :=
  match call.awaits with
  | .publish args => s.Owned (responseSubscription args)
  | .topicExists args | .createTopic args => s.Licensed call.method args
  | .connect _ args => s.Licensed call.method args
  | .consumer i _ args => s.Licensed call.method args ∧ s.HasGroup i args.group
  | _ => True

/-- Only what a call of `subscribe` has subscribed to is subscribed to, by calls that may, and each
group has one consumer. -/
structure OnlyPrepared (s : KafkaInfrastructure) : Prop where
  base : s.consumer.consumer.topics = []
  topics : ∀ i c, s.created[i]? = some c → ∀ topicName ∈ c.consumer.topics,
    .subscribed .subscribe i topicName ∈ s.history
  sole : ∀ i c, s.created[i]? = some c → s.consumerInstances.lookup c.groupId = some i
  instances : ∀ groupId i, s.consumerInstances.lookup groupId = some i → s.HasGroup i groupId
  calls : ∀ call ∈ s.calls, s.CallLicensed call

theorem note_follow (s : KafkaInfrastructure) (k : Nat) (method : Method) (i : Nat)
    (args : KafkaSubscriberOptions) (next : Next) (e : Event) :
    (s.follow k method i args next).note e = (s.note e).follow k method i args next := by
  cases next <;> rfl

namespace OnlyPrepared

variable {s s' : KafkaInfrastructure} {k i : Nat} {method : Method}
  {args : KafkaSubscriberOptions} {c c' : KafkaConsumerInfrastructure}

/-- Each group has one consumer. -/
theorem hasGroup_unique (h : s.OnlyPrepared) {j : Nat} {groupId : String}
    (hi : s.HasGroup i groupId) (hj : s.HasGroup j groupId) : i = j := by
  obtain ⟨c, hc, rfl⟩ := hi
  obtain ⟨c', hc', hgroup⟩ := hj
  have hlookup := h.sole j c' hc'
  rw [hgroup, h.sole i c hc] at hlookup
  exact Option.some.inj hlookup

/-- What a call may await does not depend on the rest of the state. -/
theorem callLicensed_mono {call : Call} (h : s.CallLicensed call)
    (hhistory : ∀ i topicName, .subscribed .subscribe i topicName ∈ s.history →
      .subscribed .subscribe i topicName ∈ s'.history)
    (hcreated : ∀ i groupId, s.HasGroup i groupId → s'.HasGroup i groupId) :
    s'.CallLicensed call := by
  obtain ⟨method, awaits⟩ := call
  cases awaits with
  | publish args => exact Owned.mono h hhistory hcreated
  | topicExists args => exact Licensed.mono h hhistory hcreated
  | createTopic args => exact Licensed.mono h hhistory hcreated
  | connect i args => exact Licensed.mono h hhistory hcreated
  | consumer i awaits args => exact ⟨h.1.mono hhistory hcreated, hcreated _ _ h.2⟩
  | _ => trivial

theorem goOn (h : s.OnlyPrepared) {awaits : Awaits} (hcall : s.CallLicensed ⟨method, awaits⟩) :
    (s.goOn k method awaits).OnlyPrepared where
  base := h.base
  topics := h.topics
  sole := h.sole
  instances := h.instances
  calls call hmem := (List.mem_or_eq_of_mem_set hmem).elim (h.calls call) (· ▸ hcall)

theorem call (h : s.OnlyPrepared) {awaits : Awaits} (hcall : s.CallLicensed ⟨method, awaits⟩) :
    (s.call method awaits).OnlyPrepared where
  base := h.base
  topics := h.topics
  sole := h.sole
  instances := h.instances
  calls call hmem := by
    rcases List.mem_append.mp hmem with hmem | hmem
    · exact h.calls call hmem
    · rw [List.mem_singleton.mp hmem]
      exact hcall

theorem failWith (h : s.OnlyPrepared) (error : String) :
    (s.failWith k method error).OnlyPrepared :=
  h.goOn trivial

/-- A consumer of a group stays the one that is kept for it. -/
theorem sole_withConsumer (h : s.OnlyPrepared) (hc : s.created[i]? = some c)
    (hgroup : c'.groupId = c.groupId) (j : Nat) (d : KafkaConsumerInfrastructure)
    (hj : (s.withConsumer i c').created[j]? = some d) :
    s.consumerInstances.lookup d.groupId = some j := by
  rcases created_withConsumer_cases hj with ⟨rfl, rfl⟩ | hj
  · rw [hgroup]
    exact h.sole _ c hc
  · exact h.sole j d hj

/-- A consumer is changed, but not the topics it is subscribed to. -/
theorem withConsumer (h : s.OnlyPrepared) (hc : s.created[i]? = some c)
    (hgroup : c'.groupId = c.groupId) (htopics : c'.consumer.topics = c.consumer.topics) :
    (s.withConsumer i c').OnlyPrepared where
  base := h.base
  topics := by
    intro j d hj topicName htopic
    rcases created_withConsumer_cases hj with ⟨rfl, rfl⟩ | hj
    · exact h.topics _ c hc topicName (htopics ▸ htopic)
    · exact h.topics j d hj topicName htopic
  sole := h.sole_withConsumer hc hgroup
  instances groupId i hi := hasGroup_withConsumer hc hgroup (h.instances groupId i hi)
  calls call hmem := callLicensed_mono (h.calls call hmem) (fun _ _ => id)
    fun _ _ => hasGroup_withConsumer hc hgroup

/-- A consumer that a licensed call has subscribed. -/
theorem subscribed (h : s.OnlyPrepared) (hc : s.created[i]? = some c)
    (hgroup : c'.groupId = c.groupId)
    (htopics : c'.consumer.topics = c.consumer.topics ++ [args.topicName])
    (hargs : c.groupId = args.group) (hlicensed : s.Licensed method args) :
    ((s.withConsumer i c').note (.subscribed method i args.topicName)).OnlyPrepared where
  base := h.base
  topics := by
    intro j d hj topicName htopic
    rcases created_withConsumer_cases hj with ⟨rfl, rfl⟩ | hj
    · rw [htopics] at htopic
      rcases List.mem_append.mp htopic with htopic | htopic
      · exact List.mem_append_left _ (h.topics _ c hc topicName htopic)
      · obtain rfl := List.mem_singleton.mp htopic
        rcases hlicensed with rfl | ⟨i, hi, hmem⟩
        · exact List.mem_append_right _ (List.mem_singleton.mpr rfl)
        · obtain rfl := h.hasGroup_unique ⟨c, hc, hargs⟩ hi
          exact List.mem_append_left _ hmem
    · exact List.mem_append_left _ (h.topics j d hj topicName htopic)
  sole := h.sole_withConsumer hc hgroup
  instances groupId i hi := hasGroup_withConsumer hc hgroup (h.instances groupId i hi)
  calls call hmem := callLicensed_mono (h.calls call hmem) (fun _ _ => List.mem_append_left _)
    fun _ _ => hasGroup_withConsumer hc hgroup

theorem note (h : s.OnlyPrepared) (e : Event) : (s.note e).OnlyPrepared where
  base := h.base
  topics i c hc topicName htopic := List.mem_append_left _ (h.topics i c hc topicName htopic)
  sole := h.sole
  instances := h.instances
  calls call hmem := callLicensed_mono (h.calls call hmem) (fun _ _ => List.mem_append_left _)
    fun _ _ => id

/-- A consumer of a new group. -/
theorem create (h : s.OnlyPrepared) {groupId : String}
    (hnone : s.consumerInstances.lookup groupId = none) : (s.create groupId).OnlyPrepared := by
  constructor
  · exact h.base
  · intro i c hc topicName htopic
    rcases created_create_cases hc with hc | ⟨-, rfl⟩
    · exact h.topics i c hc topicName htopic
    · cases htopic
  · intro i c hc
    rcases created_create_cases hc with hc | ⟨rfl, rfl⟩
    · have hlookup := h.sole i c hc
      refine lookup_create.mpr (.inr ⟨?_, hlookup⟩)
      rintro heq
      rw [heq, hnone] at hlookup
      cases hlookup
    · exact lookup_create.mpr (.inl ⟨rfl, rfl⟩)
  · intro groupId' i hi
    rcases lookup_create.mp hi with ⟨rfl, rfl⟩ | ⟨-, hi⟩
    · exact ⟨_, List.getElem?_concat_length, rfl⟩
    · exact hasGroup_create groupId (h.instances groupId' i hi)
  · exact fun call hmem => callLicensed_mono (h.calls call hmem) (fun _ _ => id)
      fun _ _ => hasGroup_create groupId

/-! ### Each stretch -/

theorem follow (h : s.OnlyPrepared) (hlicensed : s.Licensed method args)
    (hgroup : s.HasGroup i args.group) (next : Next) :
    (s.follow k method i args next).OnlyPrepared := by
  cases next with
  | awaits awaits => exact h.goOn ⟨hlicensed, hgroup⟩
  | returned => exact h.goOn trivial
  | thrown error => exact h.failWith error

theorem subscribeConsumer (h : s.OnlyPrepared) (hlicensed : s.Licensed method args) :
    (s.subscribeConsumer k method args).OnlyPrepared := by
  unfold KafkaInfrastructure.subscribeConsumer
  split
  · exact h.failWith _
  · rename_i i hi
    split
    · exact h
    · rename_i c hc
      have hgroup : (c.subscribe args.topicName args.handler).1.groupId = c.groupId ∧
          (c.subscribe args.topicName args.handler).1.consumer = c.consumer := by
        unfold KafkaConsumerInfrastructure.subscribe
        split <;> exact ⟨rfl, rfl⟩
      have hgroups : ∀ j groupId, s.HasGroup j groupId →
          (s.withConsumer i (c.subscribe args.topicName args.handler).1).HasGroup j groupId :=
        fun _ _ => hasGroup_withConsumer hc hgroup.1
      exact (h.withConsumer hc hgroup.1 (congrArg _ hgroup.2)).follow
        (hlicensed.mono (fun _ _ => id) hgroups) (hgroups _ _ (h.instances _ i hi)) _

theorem subscribeTopic (h : s.OnlyPrepared) (hlicensed : s.Licensed method args) :
    (s.subscribeTopic k method args).OnlyPrepared := by
  unfold KafkaInfrastructure.subscribeTopic
  split
  · rename_i hnone
    refine (h.create hnone).goOn (hlicensed.imp id ?_)
    rintro ⟨i, ⟨c, hc, hgroup⟩, hmem⟩
    rw [← hgroup, h.sole i c hc] at hnone
    cases hnone
  · exact h.subscribeConsumer hlicensed

/-- `subscribe` of a consumer goes on. -/
theorem resumeConsumer (h : s.OnlyPrepared) (hc : s.created[i]? = some c)
    (hargs : c.groupId = args.group) (hlicensed : s.Licensed method args)
    (awaits : ConsumerAwaits) (answer : Except String Bool)
    (hs' : s.resume k method (.consumer i awaits args) answer = some s') : s'.OnlyPrepared := by
  have hgroup : s.HasGroup i args.group := ⟨c, hc, hargs⟩
  -- what the consumer is subscribed to changes in one case only
  have hsame : ∀ r : KafkaConsumerInfrastructure × Next, r.1.groupId = c.groupId →
      r.1.consumer.topics = c.consumer.topics →
      ((s.withConsumer i r.1).follow k method i args r.2).OnlyPrepared :=
    fun r hr htopics => (h.withConsumer hc hr htopics).follow
      (hlicensed.mono (fun _ _ => id) fun _ _ => hasGroup_withConsumer hc hr)
      (hasGroup_withConsumer hc hr hgroup) r.2
  simp only [KafkaInfrastructure.resume, hc, Option.bind_eq_bind, Option.bind_some] at hs'
  cases awaits with
  | stop => cases answer <;> (cases hs'; exact hsame (c.resume args.topicName .stop _) rfl rfl)
  | run => cases answer <;> (cases hs'; exact hsame (c.resume args.topicName .run _) rfl rfl)
  | subscribe =>
    cases answer with
    | error error =>
      cases hs'
      exact hsame (c, .thrown error) rfl rfl
    | ok answer =>
      cases hs'
      have hr : (c.resume args.topicName .subscribe (.ok ())).1.groupId = c.groupId ∧
          (c.resume args.topicName .subscribe (.ok ())).1.consumer.topics =
            c.consumer.topics ++ [args.topicName] := by
        dsimp only [KafkaConsumerInfrastructure.resume]
        split <;> exact ⟨rfl, rfl⟩
      rw [note_follow]
      exact (h.subscribed hc hr.1 hr.2 hargs hlicensed).follow
        (hlicensed.mono (fun _ _ => List.mem_append_left _)
          fun _ _ => hasGroup_withConsumer hc hr.1)
        (hasGroup_withConsumer hc hr.1 hgroup) _

theorem resume (h : s.OnlyPrepared) {awaits : Awaits} (hcall : s.CallLicensed ⟨method, awaits⟩)
    {answer : Except String Bool}
    (hsends : ∀ args, awaits = .requestTopic args → s.Owned (responseSubscription args))
    (hs' : s.resume k method awaits answer = some s') : s'.OnlyPrepared := by
  cases awaits with
  | requestTopic args =>
    cases hs'
    exact h.goOn (hsends args rfl)
  | publish args =>
    cases answer with
    | error error =>
      cases hs'
      exact h.failWith error
    | ok ok =>
      dsimp only [KafkaInfrastructure.resume] at hs'
      split at hs'
      · cases hs'
        exact h.goOn trivial
      · split at hs'
        · cases hs'
          exact h.goOn (.inr hcall)
        · cases hs'
          exact h.failWith _
  | topicExists args =>
    rcases answer with error | _ | _
    · cases hs'
      exact h.goOn hcall
    · cases hs'
      exact h.goOn hcall
    · cases hs'
      exact h.subscribeTopic hcall
  | createTopic args =>
    cases hs'
    exact h.subscribeTopic hcall
  | connect i args =>
    cases answer with
    | error error =>
      cases hs'
      exact h.failWith error
    | ok ok =>
      obtain ⟨c, hc, hs'⟩ := Option.bind_eq_some_iff.mp hs'
      cases hs'
      have hconnected : (s.withConsumer i c.connected).OnlyPrepared := h.withConsumer hc rfl rfl
      have hgroup : c.connected.groupId = c.groupId := rfl
      have hgroups : ∀ j groupId, s.HasGroup j groupId →
          (s.withConsumer i c.connected).HasGroup j groupId :=
        fun _ _ => hasGroup_withConsumer hc hgroup
      exact (hconnected.note _).subscribeConsumer
        (Licensed.mono hcall (fun _ _ => List.mem_append_left _) hgroups)
  | consumer i awaits args =>
    obtain ⟨hlicensed, c, hc, hargs⟩ := hcall
    exact h.resumeConsumer hc hargs hlicensed awaits answer hs'
  | connectAll pending rejected => cases hs'
  | disconnectAll pending rejected => cases hs'
  | returned => cases hs'
  | thrown error => cases hs'

/-- Every step that answers no call, but `disconnect`. -/
theorem beside (h : s.OnlyPrepared) (hbeside : s.Beside s') : s'.OnlyPrepared := by
  have hgroup : ∀ i groupId, s.HasGroup i groupId → s'.HasGroup i groupId := by
    unfold HasGroup
    rw [hbeside.created]
    exact fun _ _ => id
  refine ⟨hbeside.topics.trans h.base, ?_, ?_, ?_, ?_⟩
  · rw [hbeside.created]
    exact fun i c hc topicName htopic => (hbeside.events _ rfl).mpr (h.topics i c hc topicName htopic)
  · rw [hbeside.created, hbeside.instances]
    exact h.sole
  · intro groupId i hi
    exact hgroup i groupId (h.instances groupId i (hbeside.instances ▸ hi))
  · intro call hmem
    obtain ⟨j, hj⟩ := List.getElem?_of_mem hmem
    rcases hbeside.calls j call hj with hold | hstarts
    · exact callLicensed_mono (h.calls call (List.mem_of_getElem? hold))
        (fun _ _ => (hbeside.events _ rfl).mpr) hgroup
    · obtain ⟨method, awaits⟩ := call
      cases awaits <;> cases method <;> first | trivial | exact .inl rfl

/-- What is subscribed has been subscribed by a call of `subscribe`. -/
theorem isPrepared (h : s.OnlyPrepared) (hsubscribed : s.IsSubscribed args) :
    s.IsPrepared args := by
  obtain ⟨c, hc, hserves, htopic⟩ := hsubscribed
  rcases List.mem_cons.mp hc with rfl | hc
  · rw [h.base] at htopic
    cases htopic
  · obtain ⟨i, hi⟩ := List.getElem?_of_mem hc
    exact ⟨i, c, hi, hserves, h.topics i c hi _ htopic⟩

/-- Every step keeps the invariant that finds what it sends subscribed and does not disconnect. -/
theorem fire (h : s.OnlyPrepared) {label : Label} (hlabel : s.SubscribedFirst label)
    (hdisconnect : label ≠ .disconnect) (hs' : s.fire label = some s') : s'.OnlyPrepared := by
  cases label with
  | disconnect => exact absurd rfl hdisconnect
  | answer k answer =>
    obtain ⟨call, hk, hs'⟩ := Option.bind_eq_some_iff.mp hs'
    refine h.resume (h.calls call (List.mem_of_getElem? hk)) ?_ hs'
    intro args hawaits
    obtain ⟨method, awaits⟩ := call
    dsimp only at hawaits
    obtain ⟨i, c, hc, hserves, hmem⟩ := h.isPrepared (hlabel args (by simp only [sends, hk, hawaits]))
    exact ⟨i, ⟨c, hc, hserves.group⟩, hmem⟩
  | _ => exact h.beside (Beside.fire hs' Label.noConfusion fun _ _ => Label.noConfusion)

theorem initial (groupId : String) : (machine groupId).initial.OnlyPrepared where
  base := rfl
  topics _ _ hc := by cases hc
  sole _ _ hc := by cases hc
  instances groupId i hi := by
    rw [show (machine _).initial.consumerInstances = ∅ from rfl, AList.lookup_empty] at hi
    cases hi
  calls _ hcall := by cases hcall

end OnlyPrepared

end KafkaInfrastructure

/-- A run finds a running consumer of the group subscribed to the response topic whenever a request
is sent if a call of `subscribe` has subscribed that consumer before; in a run that does not
disconnect, only if one has. -/
theorem subscribed_when_sent (groupId : String) (labels : List Label) :
    ((machine groupId).Throughout KafkaInfrastructure.PreparedFirst (machine groupId).initial
        labels →
      (machine groupId).Throughout KafkaInfrastructure.SubscribedFirst (machine groupId).initial
        labels) ∧
    ((∀ label ∈ labels, label ≠ .disconnect) →
      (machine groupId).Throughout KafkaInfrastructure.SubscribedFirst (machine groupId).initial
        labels →
      (machine groupId).Throughout KafkaInfrastructure.PreparedFirst (machine groupId).initial
        labels) := by
  constructor
  · refine Machine.throughout_of_invariant (I := KafkaInfrastructure.Recorded)
      (fun _ _ _ h _ hs' => KafkaInfrastructure.recorded_fire h hs') ?_ labels _ ?_
    · exact fun _ _ _ h hprepared _ args hargs => h.isSubscribed (hprepared args hargs)
    · rintro _ _ _ ⟨⟩
  · intro hlabels hsubscribed
    refine Machine.throughout_of_invariant (I := KafkaInfrastructure.OnlyPrepared)
      (fun _ _ _ h hp hs' => h.fire hp.1 hp.2 hs') ?_ labels _ (.initial groupId)
      (Machine.throughout_and labels hlabels _ hsubscribed)
    exact fun _ _ _ h hp _ args hargs => h.isPrepared (hp.1 args hargs)

/-- The first request of the invoice service. -/
def firstRequest : KafkaRequestOptions where
  requestTopic := "fetch-user-request"
  message := "\x7b\"userId\":\"u1\"\x7d"
  responseTopic := "fetch-user-response"
  groupId := some "invoice-user-fetch-group"

/-- A process connects. -/
def connectRun : List Label :=
  [.initializeKafka, .settle 0 .producer (.ok ()), .settle 0 .consumer (.ok ()),
    .settle 0 .admin (.ok ())]

/-- It subscribes to the response topic, and the consumer runs before it publishes a request. -/
def preparedRun : List Label :=
  connectRun ++
    [.subscribe { topicName := "fetch-user-response", handler := .given "handler"
                  groupId := some "invoice-user-fetch-group" },
      .answer 1 (.ok true), .answer 1 (.ok true), .answer 1 (.ok true), .answer 1 (.ok true),
      .requestResponse [firstRequest], .answer 2 (.ok true), .answer 2 (.ok true)]

/-- What is sent has been prepared. -/
def prepared (s : KafkaInfrastructure) (label : Label) : Bool :=
  (s.sends label).all fun args => s.created.zipIdx.any fun (c, i) =>
    c.groupId = (responseSubscription args).group && c.consumer.connected && c.consumer.running &&
      .subscribed .subscribe i args.responseTopic ∈ s.history

theorem preparedFirst_of_prepared {s : KafkaInfrastructure} {label : Label}
    (h : prepared s label = true) : s.PreparedFirst label := by
  intro args hargs
  unfold prepared at h
  rw [hargs] at h
  obtain ⟨⟨c, i⟩, hmem, hc⟩ := List.any_eq_true.mp h
  simp only [Bool.and_eq_true, decide_eq_true_eq] at hc
  obtain ⟨⟨⟨hgroup, hconnected⟩, hrunning⟩, hevent⟩ := hc
  exact ⟨i, c, List.mem_zipIdx_iff_getElem?.mp hmem, ⟨hgroup, hconnected, hrunning⟩, hevent⟩

theorem subscribed_when_sent_preparedRun :
    (machine "invoice-service-group").Throughout KafkaInfrastructure.PreparedFirst
        (machine "invoice-service-group").initial preparedRun ∧
      (machine "invoice-service-group").Throughout KafkaInfrastructure.SubscribedFirst
        (machine "invoice-service-group").initial preparedRun := by
  have hrun : ((machine "invoice-service-group").run prepared
      (machine "invoice-service-group").initial preparedRun).isSome = true := by
    decide +kernel
  have hprepared : (machine "invoice-service-group").Throughout KafkaInfrastructure.PreparedFirst
      (machine "invoice-service-group").initial preparedRun :=
    Machine.throughout_of_invariant (I := fun _ => True) (fun _ _ _ _ _ _ => trivial)
      (fun _ _ _ _ h _ => preparedFirst_of_prepared h) preparedRun _ trivial
      (Machine.throughout_run preparedRun _ hrun)
  have hsubscribed := (subscribed_when_sent "invoice-service-group" preparedRun).1 hprepared
  exact ⟨(subscribed_when_sent _ preparedRun).2 (by decide) hsubscribed, hsubscribed⟩

/-- It publishes a request at once. -/
def firstRequestRun : List Label :=
  connectRun ++ [.requestResponse [firstRequest], .answer 1 (.ok true), .answer 1 (.ok true)]

/-- The first request is sent before anything is subscribed. -/
theorem firstRequest_unsubscribed :
    ¬ ∀ groupId labels, (machine groupId).Throughout KafkaInfrastructure.SubscribedFirst
      (machine groupId).initial labels := by
  intro h
  have hrun := h "invoice-service-group" firstRequestRun
  have hsent := (((((hrun _ rfl).2 _ rfl).2 _ rfl).2 _ rfl).2 _ rfl).2 _ rfl
  obtain ⟨c, hc, -, htopic⟩ := hsent.1 firstRequest rfl
  rw [List.mem_singleton.mp hc] at htopic
  cases htopic

end InvoiceHub.Kafka.Consumers
