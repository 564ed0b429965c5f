import InvoiceHub.Kafka.Correlation

/-!
# What a step asks, hears and subscribes

Requests keep their options and their correlation ids, what is heard as a response came on a topic
that has a handler, and a topic only has the handler of a request that waits for responses on it
(`Sound.tells`, `Handled.fire`, `Publishing.fire`).
-/

namespace InvoiceHub.Kafka

open Effects

variable {s s' : Infrastructure} {i : Nat} {r : Request}

/-! ## What is asked -/

/-- What was asked, each with its correlation id. -/
def Infrastructure.asked (s : Infrastructure) : List (KafkaRequestOptions × String) :=
  s.requests.map fun r => (r.args, r.correlationId)

/-- What a step asks. -/
def Label.asks : Label → List (KafkaRequestOptions × String)
  | requestResponse args correlationIds => args.zip correlationIds
  | _ => []

/-- The call a step makes, where there are so many requests. -/
def Label.calls (requests : Nat) : Label → List Call
  | requestResponse args _ => [{ args, promises := List.range' requests args.length }]
  | _ => []

theorem SameBook.asked (hb : SameBook s s') : s'.asked = s.asked := by
  have hmap := congrArg (List.map fun r : Request => (r.args, r.correlationId)) hb.requests
  simpa only [List.map_map, Function.comp_def, Request.book, Infrastructure.asked] using hmap

theorem Updates.asked {r' : Request} {e : Event} (hu : Updates s s' i r r' e)
    (hargs : r'.args = r.args) : s'.asked = s.asked := by
  obtain ⟨hlt, hget⟩ := List.getElem?_eq_some_iff.mp hu.get
  refine List.ext_getElem? fun j => ?_
  rw [Infrastructure.asked, Infrastructure.asked, List.getElem?_map, List.getElem?_map]
  by_cases hj : j = i
  · subst hj
    rw [hu.getElem?_self, hu.get, Option.map_some, Option.map_some, hargs, hu.correlationId]
  · rw [hu.getElem?_of_ne hj]

/-! ## What a step does -/

/-- A consumer of `s` hands what it gets on a topic to a handler. -/
def Consumes (s : Infrastructure) (topic : String) : Prop :=
  ∃ groupId c i, s.consumerInstances.lookup groupId = some c ∧ c.topicHandlers.lookup topic = some i

/-- A step asks what its label says and hears nothing but the message it is handed. -/
structure Tells (s : Infrastructure) (label : Label) (s' : Infrastructure) : Prop where
  asked : s'.asked = s.asked ++ label.asks
  calls : s'.calls = s.calls ++ label.calls s.requests.length
  heard : ∀ id message, .response id message ∈ s'.history → .response id message ∈ s.history ∨
    ∃ groupId topic value, label = .message groupId topic (some value) ∧ Consumes s topic ∧
      Infrastructure.parseResponse value = some (some (.str id), message)

theorem asked_processRequests (l : List (KafkaRequestOptions × String)) :
    ∀ s : Infrastructure, (Infrastructure.processRequests l s).asked = s.asked ++ l ∧
      (Infrastructure.processRequests l s).calls = s.calls ∧
      ∀ id message, .response id message ∈ (Infrastructure.processRequests l s).history →
        .response id message ∈ s.history := by
  induction l with
  | nil => exact fun s => ⟨(List.append_nil _).symm, rfl, fun _ _ h => h⟩
  | cons head rest ih =>
    obtain ⟨args, id⟩ := head
    intro s
    obtain ⟨hasked, hcalls, hheard⟩ := ih (s.processRequest args id)
    refine ⟨?_, hcalls, fun id' message hmem => ?_⟩
    · rw [Infrastructure.processRequests, hasked]
      simp [Infrastructure.asked, Infrastructure.processRequest]
    · rcases List.mem_append.mp (hheard id' message hmem) with hmem | hmem
      · exact hmem
      · cases List.mem_singleton.mp hmem

theorem Tells.of_sameBook (hb : SameBook s s') {label : Label} (ha : label.asks = [])
    (hc : label.calls s.requests.length = []) : Tells s label s' where
  asked := by rw [ha, List.append_nil, hb.asked]
  calls := by rw [hc, List.append_nil, hb.calls]
  heard _ _ hmem := .inl (hb.history ▸ hmem)

theorem Tells.of_updates {r' : Request} {e : Event} (hu : Updates s s' i r r' e) {label : Label}
    (ha : label.asks = []) (hc : label.calls s.requests.length = [])
    (he : ∀ id message, e ≠ .response id message) : Tells s label s' where
  asked := by rw [ha, List.append_nil, hu.asked hu.args]
  calls := by rw [hc, List.append_nil, hu.calls]
  heard id message hmem := by
    rw [hu.history] at hmem
    rcases List.mem_append.mp hmem with hmem | hmem
    · exact .inl hmem
    · exact absurd (List.mem_singleton.mp hmem).symm (he id message)

theorem eq_str_of_str? {value : Option Json} {text : String} (h : Json.str? value = some text) :
    value = some (.str text) := by
  cases value with
  | none => cases h
  | some value =>
    cases value with
    | str text' =>
      cases h
      rfl
    | _ => cases h

/-- What is heard is what the message says. -/
theorem Sound.tells_handleResponse (h : Sound s) {groupId topic : String} {value : Option Json}
    (hc : Consumes s topic) :
    Tells s (.message groupId topic (some value)) (s.handleResponse value) := by
  have hnote : ∀ {id : String} {message : Option Json} {s' : Infrastructure},
      Infrastructure.parseResponse value = some (some (.str id), message) →
      s'.asked = s.asked → s'.calls = s.calls →
      s'.history = s.history ++ [.response id message] →
      Tells s (.message groupId topic (some value)) s' := by
    intro id message s' hparse hasked hcalls hhistory
    refine ⟨hasked.trans (List.append_nil _).symm, hcalls.trans (List.append_nil _).symm, ?_⟩
    intro id' message' hmem
    rw [hhistory] at hmem
    rcases List.mem_append.mp hmem with hmem | hmem
    · exact .inl hmem
    · cases List.mem_singleton.mp hmem
      exact .inr ⟨groupId, topic, value, rfl, hc, hparse⟩
  unfold Infrastructure.handleResponse
  split
  · exact .of_sameBook (.refl s) rfl rfl
  · rename_i correlationId response hparse
    split
    · exact .of_sameBook (.refl s) rfl rfl
    · rename_i id hid
      rw [eq_str_of_str? hid] at hparse
      dsimp only
      split
      · exact hnote hparse rfl rfl rfl
      · rename_i j hlookup
        obtain ⟨r, hr, rfl⟩ := h.handlers _ j hlookup
        have hu := updates_responseHandler hr response
        exact hnote hparse (hu.asked hu.args) hu.calls hu.history

/-- What every step does. -/
theorem Sound.tells (h : Sound s) {label : Label} (hf : s.fire label = some s') :
    Tells s label s' := by
  cases label with
  | connected =>
    cases hf
    exact ⟨(List.append_nil _).symm, (List.append_nil _).symm, fun _ _ hmem => .inl hmem⟩
  | requestResponse args ids =>
    unfold Infrastructure.fire at hf
    dsimp only at hf
    split at hf
    · cases hf
      obtain ⟨hasked, hcalls, hheard⟩ := asked_processRequests (args.zip ids) s
      refine ⟨hasked, ?_, fun id message hmem => .inl (hheard id message hmem)⟩
      change (Infrastructure.processRequests _ s).calls ++ _ = _
      rw [hcalls]
      rfl
    · cases hf
  | answer i answer =>
    obtain ⟨r, hr, hf⟩ := Option.bind_eq_some_iff.mp hf
    cases hf
    rcases resume_cases hr answer with hb | ⟨t, error, hb, ht, heq⟩
    · exact .of_sameBook hb rfl rfl
    · have hu := updates_catchError (hb.sound h) (by rw [ht, hr]) error
      have htells : Tells t (.answer i answer) (t.catchError i r error) :=
        .of_updates hu rfl rfl nofun
      rw [heq]
      refine ⟨?_, ?_, fun id message hmem => ?_⟩
      · rw [htells.asked, hb.asked]
      · rw [htells.calls, hb.calls]
        rfl
      · rcases htells.heard id message hmem with hmem | ⟨_, _, _, hlabel, -⟩
        · exact .inl (hb.history ▸ hmem)
        · cases hlabel
  | timeout i =>
    obtain ⟨r, hr, hf⟩ := Option.bind_eq_some_iff.mp hf
    split at hf
    · cases hf
      exact .of_updates (updates_fireTimeout hr) rfl rfl nofun
    · cases hf
  | message groupId topic value =>
    obtain ⟨c, hc, hf⟩ := Option.bind_eq_some_iff.mp hf
    cases hf
    unfold Infrastructure.eachMessage
    split
    · rename_i messageValue j hlookup
      exact h.tells_handleResponse ⟨groupId, c, j, hc, hlookup⟩
    · exact .of_sameBook (.refl s) rfl rfl

/-! ## Topics that are consumed -/

/-- A topic has the handler of a request that waits for responses on it. -/
def Handled (s : Infrastructure) : Prop :=
  ∀ groupId c topic i, s.consumerInstances.lookup groupId = some c →
    c.topicHandlers.lookup topic = some i →
      ∃ args id, s.asked[i]? = some (args, id) ∧ args.responseTopic = topic

/-- All handlers of `s'` are those of `s`, but for that of request `i` on its topic. -/
def Adds (s s' : Infrastructure) (i : Nat) (r : Request) : Prop :=
  ∀ groupId c topic j, s'.consumerInstances.lookup groupId = some c →
    c.topicHandlers.lookup topic = some j →
      (∃ c', s.consumerInstances.lookup groupId = some c' ∧
        c'.topicHandlers.lookup topic = some j) ∨
      j = i ∧ topic = r.args.responseTopic

theorem Adds.same (hs : s'.consumerInstances = s.consumerInstances) : Adds s s' i r :=
  fun _ c _ _ hc hlookup => .inl ⟨c, hs ▸ hc, hlookup⟩

/-- One consumer is changed. -/
theorem Adds.withConsumer {groupId : String} {c : Consumer}
    (hs : s'.consumerInstances = s.consumerInstances.insert groupId c)
    (hc : ∀ topic j, c.topicHandlers.lookup topic = some j →
      (∃ c', s.consumerInstances.lookup groupId = some c' ∧
        c'.topicHandlers.lookup topic = some j) ∨ j = i ∧ topic = r.args.responseTopic) :
    Adds s s' i r := by
  intro groupId' c' topic j hc' hlookup
  rw [hs] at hc'
  by_cases hg : groupId' = groupId
  · subst hg
    rw [AList.lookup_insert] at hc'
    cases hc'
    exact hc topic j hlookup
  · rw [AList.lookup_insert_ne hg] at hc'
    exact .inl ⟨c', hc', hlookup⟩

/-- `subscribe` of a consumer sets the handler of the topic. -/
theorem topicHandlers_subscribe (c : Consumer) (groupId topicName : String) (handler : Nat) :
    (c.subscribe groupId topicName handler).1.topicHandlers =
      c.topicHandlers.insert topicName handler := by
  unfold Consumer.subscribe
  split <;> rfl

theorem adds_subscribeConsumer (s : Infrastructure) (i : Nat) (r : Request) (groupId : String) :
    Adds s (s.subscribeConsumer i r groupId) i r := by
  unfold Infrastructure.subscribeConsumer
  split
  · exact .same rfl
  · rename_i c hc
    have hinsert : ((s.withConsumer groupId (c.subscribe groupId r.args.responseTopic i).1).goOn i r
        (c.subscribe groupId r.args.responseTopic i).2).consumerInstances =
          s.consumerInstances.insert groupId (c.subscribe groupId r.args.responseTopic i).1 := rfl
    refine .withConsumer hinsert fun topic j hlookup => ?_
    rw [topicHandlers_subscribe] at hlookup
    by_cases ht : topic = r.args.responseTopic
    · subst ht
      rw [AList.lookup_insert] at hlookup
      cases hlookup
      exact .inr ⟨rfl, rfl⟩
    · rw [AList.lookup_insert_ne ht] at hlookup
      exact .inl ⟨c, hc, hlookup⟩

theorem adds_subscribeTopic (s : Infrastructure) (i : Nat) (r : Request) :
    Adds s (s.subscribeTopic i r) i r := by
  unfold Infrastructure.subscribeTopic
  dsimp only
  split
  · refine .withConsumer rfl fun topic j hlookup => ?_
    cases hlookup
  · exact adds_subscribeConsumer s i r _

theorem adds_resume (s : Infrastructure) (i : Nat) (r : Request) (answer : Except String Bool) :
    Adds s (s.resume i r answer) i r := by
  unfold Infrastructure.resume
  split
  · exact .same rfl
  · exact .same rfl
  · exact .same rfl
  · split
    · exact .same rfl
    · split <;> exact .same rfl
  · exact adds_subscribeTopic s i r
  · exact .same rfl
  · exact adds_subscribeTopic s i r
  · exact .same rfl
  · exact adds_subscribeConsumer s i r _
  · split
    · exact .same rfl
    · rename_i c hc
      exact .withConsumer rfl fun topic j hlookup => .inl ⟨c, hc, hlookup⟩
  · exact .same rfl
  · split
    · exact .same rfl
    · rename_i c hc
      split
      · exact .same rfl
      · exact .withConsumer rfl fun topic j hlookup => .inl ⟨c, hc, hlookup⟩
  · split
    · exact .same rfl
    · rename_i c hc
      exact .withConsumer rfl fun topic j hlookup => .inl ⟨c, hc, hlookup⟩
  · exact .same rfl

theorem handled_initial : Handled {} := by
  intro groupId c topic i hc
  cases hc

theorem Handled.fire (hh : Handled s) (h : Sound s) {label : Label}
    (hf : s.fire label = some s') : Handled s' := by
  have hasked := (h.tells hf).asked
  have hold : ∀ {i : Nat} {args : KafkaRequestOptions} {id : String},
      s.asked[i]? = some (args, id) → s'.asked[i]? = some (args, id) := by
    intro i args id hget
    rw [hasked, List.getElem?_append_left (List.getElem?_eq_some_iff.mp hget).1, hget]
  have hsame : s'.consumerInstances = s.consumerInstances → Handled s' := by
    intro hs groupId c topic i hc hlookup
    obtain ⟨args, id, hget, ht⟩ := hh groupId c topic i (hs ▸ hc) hlookup
    exact ⟨args, id, hold hget, ht⟩
  cases label with
  | connected =>
    cases hf
    exact hsame rfl
  | requestResponse args ids =>
    unfold Infrastructure.fire at hf
    dsimp only at hf
    split at hf
    · cases hf
      have hprocess : ∀ (l : List (KafkaRequestOptions × String)) (s : Infrastructure),
          (Infrastructure.processRequests l s).consumerInstances = s.consumerInstances := by
        intro l
        induction l with
        | nil => exact fun s => rfl
        | cons head rest ih => exact fun s => ih (s.processRequest head.1 head.2)
      exact hsame (hprocess _ s)
    · cases hf
  | answer i answer =>
    obtain ⟨r, hr, hf⟩ := Option.bind_eq_some_iff.mp hf
    cases hf
    intro groupId c topic j hc hlookup
    rcases adds_resume s i r answer groupId c topic j hc hlookup with ⟨c', hc', hlookup'⟩ | ⟨rfl, rfl⟩
    · obtain ⟨args, id, hget, ht⟩ := hh groupId c' topic j hc' hlookup'
      exact ⟨args, id, hold hget, ht⟩
    · refine ⟨r.args, r.correlationId, hold ?_, rfl⟩
      rw [Infrastructure.asked, List.getElem?_map, hr]
      rfl
  | timeout i =>
    obtain ⟨r, hr, hf⟩ := Option.bind_eq_some_iff.mp hf
    split at hf
    · cases hf
      exact hsame rfl
    · cases hf
  | message groupId topic value =>
    obtain ⟨c, hc, hf⟩ := Option.bind_eq_some_iff.mp hf
    cases hf
    refine hsame ?_
    unfold Infrastructure.eachMessage
    split
    · unfold Infrastructure.handleResponse
      split
      · rfl
      · split
        · rfl
        · dsimp only
          split
          · rfl
          · unfold Infrastructure.responseHandler
            split <;> rfl
    · rfl

/-! ## Results -/

/-- One correlation id, one request. -/
theorem Sound.args_unique (h : Sound s) {args args' : KafkaRequestOptions} {c : String}
    (hmem : (args, c) ∈ s.asked) (hmem' : (args', c) ∈ s.asked) : args = args' := by
  have hnodup : (s.asked.map Prod.snd).Nodup := by
    rw [Infrastructure.asked, List.map_map]
    exact h.distinct
  exact congrArg Prod.fst (List.inj_on_of_nodup_map hnodup hmem hmem' rfl)

/-- Each result of a call was heard as the response to the request at its place. -/
theorem Sound.heard_of_results (h : Sound s) {call : Call} (hc : call ∈ s.calls)
    {results : List (Option Json)} (hr : s.results call = some results) {j : Nat}
    {args : KafkaRequestOptions} (hj : call.args[j]? = some args) :
    ∃ c message, results[j]? = some message ∧ (args, c) ∈ s.asked ∧
      .response c message ∈ s.history := by
  obtain ⟨hlength, hget⟩ := getElem?_mapM hr
  obtain ⟨hpromises, hcalls⟩ := h.calls call hc
  have hlt : j < results.length := by
    rw [hlength, hpromises]
    exact (List.getElem?_eq_some_iff.mp hj).1
  have hm : results[j]? = some results[j] := List.getElem?_eq_getElem hlt
  have hbind := (hget j).symm.trans hm
  obtain ⟨i, hi, hbind⟩ := Option.bind_eq_some_iff.mp hbind
  obtain ⟨r, hri, rfl⟩ := hcalls j i args hi hj
  have hk := h.kept i r hri
  rw [hri, Option.bind_some] at hbind
  have hfulfilled : r.promise = .fulfilled results[j] := by
    cases hp : r.promise with
    | fulfilled value =>
      rw [hp] at hbind
      exact congrArg _ (Option.some_inj.mp hbind)
    | _ =>
      rw [hp] at hbind
      cases hbind
  obtain ⟨before, between, after, hhistory, -⟩ := answered_of_outcome
    ((hk.requested _).mpr rfl) (fun args' => (hk.requested args').mp)
    (hk.promise.symm.trans hfulfilled)
  refine ⟨r.correlationId, results[j], hm, ?_, ?_⟩
  · exact List.mem_map.mpr ⟨r, List.mem_of_getElem? hri, rfl⟩
  · rw [hhistory]
    simp

/-! ## What is being published -/

/-- An executor that publishes, publishes its request. -/
def Publishing (s : Infrastructure) : Prop :=
  ∀ r ∈ s.requests, ∀ topicName message, r.awaits = .publish topicName message →
    topicName = r.args.requestTopic ∧
    message = (JsonObject.put ∅ "correlationId" (some (.str r.correlationId))).put "message"
      (some (.str r.args.message))

/-- The request does not publish any more. -/
def Request.published (r : Request) : Prop := ∀ topicName message, r.awaits ≠ .publish topicName message

theorem mem_set {r' q : Request} {requests : List Request} (hq : q ∈ requests.set i r')
    (hr : r'.published) : q ∈ requests ∨ q.published := by
  rcases List.mem_or_eq_of_mem_set hq with hq | rfl
  · exact .inl hq
  · exact .inr hr

theorem subscribe_ne_publish (c : Consumer) (groupId topicName : String) (handler : Nat)
    (topicName' : String) (message : JsonObject) :
    (c.subscribe groupId topicName handler).2 ≠ .publish topicName' message := by
  unfold Consumer.subscribe
  split
  · exact nofun
  · dsimp only
    split <;> exact nofun

theorem mem_subscribeConsumer {q : Request} {groupId : String}
    (hq : q ∈ (s.subscribeConsumer i r groupId).requests) : q ∈ s.requests ∨ q.published := by
  unfold Infrastructure.subscribeConsumer at hq
  split at hq
  · exact mem_set hq nofun
  · rename_i c _
    exact mem_set hq (subscribe_ne_publish c groupId r.args.responseTopic i)

theorem mem_subscribeTopic {q : Request} (hq : q ∈ (s.subscribeTopic i r).requests) :
    q ∈ s.requests ∨ q.published := by
  unfold Infrastructure.subscribeTopic at hq
  dsimp only at hq
  split at hq
  · exact mem_set hq nofun
  · exact mem_subscribeConsumer hq

/-- An executor publishes once. -/
theorem mem_resume {q : Request} {answer : Except String Bool}
    (hq : q ∈ (s.resume i r answer).requests) : q ∈ s.requests ∨ q.published := by
  unfold Infrastructure.resume at hq
  split at hq
  · exact .inl hq
  · exact mem_set hq nofun
  · exact mem_set hq nofun
  · split at hq
    · exact mem_set hq nofun
    · split at hq <;> exact mem_set hq nofun
  · exact mem_subscribeTopic hq
  · exact mem_set hq nofun
  · exact mem_subscribeTopic hq
  · exact mem_set hq nofun
  · exact mem_subscribeConsumer hq
  · split at hq
    · exact .inl hq
    · exact mem_set hq nofun
  · exact mem_set hq nofun
  · split at hq
    · exact .inl hq
    · split at hq <;> exact mem_set hq nofun
  · split at hq
    · exact .inl hq
    · exact mem_set hq nofun
  · exact mem_set hq nofun

theorem publishing_initial : Publishing {} := by
  intro r hr
  cases hr

/-- A request is changed, but not what it publishes. -/
theorem Publishing.set (h : Publishing s) (hi : s.requests[i]? = some r) {r' : Request}
    (hs : s'.requests = s.requests.set i r') (hargs : r'.args = r.args)
    (hid : r'.correlationId = r.correlationId) (hawaits : r'.awaits = r.awaits) :
    Publishing s' := by
  intro q hq topicName message heq
  rw [hs] at hq
  rcases List.mem_or_eq_of_mem_set hq with hq | rfl
  · exact h q hq topicName message heq
  · rw [hargs, hid]
    exact h r (List.mem_of_getElem? hi) topicName message (hawaits ▸ heq)

theorem publishing_processRequests (l : List (KafkaRequestOptions × String)) :
    ∀ s : Infrastructure, Publishing s → Publishing (Infrastructure.processRequests l s) := by
  induction l with
  | nil => exact fun s h => h
  | cons head rest ih =>
    obtain ⟨args, id⟩ := head
    intro s h
    refine ih _ fun r hr topicName message heq => ?_
    rcases List.mem_append.mp hr with hr | hr
    · exact h r hr topicName message heq
    · cases List.mem_singleton.mp hr
      dsimp only at heq
      split at heq
      · cases heq
        exact ⟨rfl, rfl⟩
      · cases heq

theorem Publishing.fire (hp : Publishing s) (h : Sound s) {label : Label}
    (hf : s.fire label = some s') : Publishing s' := by
  cases label with
  | connected =>
    cases hf
    exact hp
  | requestResponse args ids =>
    unfold Infrastructure.fire at hf
    dsimp only at hf
    split at hf
    · cases hf
      exact publishing_processRequests _ s hp
    · cases hf
  | answer i answer =>
    obtain ⟨r, hr, hf⟩ := Option.bind_eq_some_iff.mp hf
    cases hf
    intro q hq topicName message heq
    rcases mem_resume hq with hq | hq
    · exact hp q hq topicName message heq
    · exact absurd heq (hq topicName message)
  | timeout i =>
    obtain ⟨r, hr, hf⟩ := Option.bind_eq_some_iff.mp hf
    split at hf
    · cases hf
      exact hp.set hr rfl rfl rfl rfl
    · cases hf
  | message groupId topic value =>
    obtain ⟨c, hc, hf⟩ := Option.bind_eq_some_iff.mp hf
    cases hf
    unfold Infrastructure.eachMessage
    split
    · unfold Infrastructure.handleResponse
      split
      · exact hp
      · split
        · exact hp
        · dsimp only
          split
          · exact hp
          · rename_i j hlookup
            obtain ⟨r, hr, rfl⟩ := h.handlers _ j hlookup
            exact hp.set hr (updates_responseHandler hr _).set rfl rfl rfl
    · exact hp

end InvoiceHub.Kafka
