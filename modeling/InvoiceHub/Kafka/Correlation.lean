import InvoiceHub.Kafka.Infrastructure

/-!
# Every response finds its request

What becomes of the promise of a request is decided by the first of its own events: a response
with its correlation id, its timeout, or a failure (`sound_reachable`).  Whatever happens to other
requests, it stays as it is (`Persists.fire`).
-/

namespace InvoiceHub.Kafka

open Effects

/-! ## What a request makes of the past -/

namespace Event

/-- What the event makes of the pending request with this correlation id. -/
def settles (correlationId : String) : Event → Option Promise
  | requested _ _ => none
  | response id message => if id = correlationId then some (.fulfilled message) else none
  | timeout id => if id = correlationId then some (.rejected "Kafka response timeout") else none
  | failure id error =>
    if id = correlationId then some (.rejected ("Request failed: " ++ error)) else none

/-- The event is the request with this correlation id. -/
def requests (correlationId : String) : Event → Bool
  | requested id _ => id = correlationId
  | _ => false

theorem settles_ne_pending {id : String} {e : Event} {p : Promise} (h : e.settles id = some p) :
    p ≠ .pending := by
  rintro rfl
  cases e <;> simp [settles] at h

end Event

namespace Promise

/-- A promise with an event that may settle it. -/
def andThen : Promise → Option Promise → Promise
  | pending, next => next.getD pending
  | settled, _ => settled

theorem resolve_eq_andThen (p : Promise) (value : Option Json) :
    p.resolve value = p.andThen (some (.fulfilled value)) := by
  cases p <;> rfl

theorem reject_eq_andThen (p : Promise) (error : String) :
    p.reject error = p.andThen (some (.rejected error)) := by
  cases p <;> rfl

theorem andThen_none (p : Promise) : p.andThen none = p := by
  cases p <;> rfl

theorem andThen_of_ne {p : Promise} (h : p ≠ .pending) (next : Option Promise) :
    p.andThen next = p := by
  cases p with
  | pending => exact absurd rfl h
  | _ => rfl

end Promise

/-- What has happened since the request. -/
def since (correlationId : String) : List Event → List Event
  | [] => []
  | e :: rest => if e.requests correlationId then rest else since correlationId rest

/-- The first event that settles the request decides. -/
def outcome (correlationId : String) (history : List Event) : Promise :=
  ((since correlationId history).findSome? (·.settles correlationId)).getD .pending

section Outcome

variable {id : String} {history : List Event}

theorem since_append_of_mem {e : Event} (he : e ∈ history) (hr : e.requests id = true)
    (later : List Event) : since id (history ++ later) = since id history ++ later := by
  induction history with
  | nil => cases he
  | cons first rest ih =>
    rw [List.cons_append, since, since]
    by_cases hfirst : first.requests id = true
    · rw [if_pos hfirst, if_pos hfirst]
    · rw [if_neg hfirst, if_neg hfirst]
      refine ih ((List.mem_cons.mp he).resolve_left ?_)
      rintro rfl
      exact hfirst hr

theorem since_append_of_not_mem (h : ∀ e ∈ history, e.requests id = false) (later : List Event) :
    since id (history ++ later) = since id later := by
  induction history with
  | nil => rfl
  | cons first rest ih =>
    rw [List.cons_append, since, if_neg (by simp [h first])]
    exact ih fun e he => h e (List.mem_cons_of_mem _ he)

/-- A request that has just been made is pending. -/
theorem outcome_requested (h : ∀ e ∈ history, e.requests id = false)
    (args : KafkaRequestOptions) : outcome id (history ++ [.requested id args]) = .pending := by
  rw [outcome, since_append_of_not_mem h, since, if_pos (by simp [Event.requests])]
  rfl

/-- An event settles a request that is pending. -/
theorem outcome_append {r : Event} (hmem : r ∈ history) (hr : r.requests id = true) (e : Event) :
    outcome id (history ++ [e]) = (outcome id history).andThen (e.settles id) := by
  rw [outcome, since_append_of_mem hmem hr, List.findSome?_append, outcome]
  cases hfirst : (since id history).findSome? (·.settles id) with
  | some p =>
    obtain ⟨_, _, _, -, hp, -⟩ := List.findSome?_eq_some_iff.mp hfirst
    exact (Promise.andThen_of_ne (Event.settles_ne_pending hp) _).symm
  | none =>
    rw [Option.none_or, List.findSome?_singleton]
    rfl

end Outcome

/-- The request has been answered with `message`: since it was made, the first event of its own
is a response with this message. -/
def Answered (id : String) (args : KafkaRequestOptions) (message : Option Json)
    (history : List Event) : Prop :=
  ∃ before between after,
    history = before ++ .requested id args :: (between ++ .response id message :: after) ∧
      ∀ e ∈ between, e.settles id = none

section Answered

variable {id : String} {history : List Event}

theorem since_split {e : Event} (he : e ∈ history) (hr : e.requests id = true) :
    ∃ before first, history = before ++ first :: since id history ∧ first.requests id = true := by
  induction history with
  | nil => cases he
  | cons first rest ih =>
    rw [since]
    by_cases hfirst : first.requests id = true
    · rw [if_pos hfirst]
      exact ⟨[], first, rfl, hfirst⟩
    · rw [if_neg hfirst]
      obtain ⟨before, next, hrest, hnext⟩ := ih ((List.mem_cons.mp he).resolve_left
        (by rintro rfl; exact hfirst hr))
      exact ⟨first :: before, next, congrArg (first :: ·) hrest, hnext⟩

/-- Only a response fulfils a promise. -/
theorem settles_fulfilled {e : Event} {message : Option Json}
    (h : e.settles id = some (.fulfilled message)) : e = .response id message := by
  cases e with
  | requested => cases h
  | response id' message' =>
    dsimp only [Event.settles] at h
    split at h
    · rename_i hid
      obtain rfl := hid
      cases h
      rfl
    · cases h
  | timeout id' | failure id' error =>
    dsimp only [Event.settles] at h
    split at h <;> cases h

theorem answered_of_outcome {args : KafkaRequestOptions} {message : Option Json}
    (hmem : .requested id args ∈ history)
    (hunique : ∀ args', .requested id args' ∈ history → args' = args)
    (h : outcome id history = .fulfilled message) : Answered id args message history := by
  obtain ⟨before, first, hsplit, hfirst⟩ := since_split hmem (decide_eq_true rfl)
  unfold outcome at h
  cases hsome : (since id history).findSome? (·.settles id) with
  | none =>
    rw [hsome] at h
    cases h
  | some p =>
    rw [hsome, Option.getD_some] at h
    subst h
    obtain ⟨between, e, after, hsince, he, hbetween⟩ := List.findSome?_eq_some_iff.mp hsome
    obtain rfl := settles_fulfilled he
    cases first with
    | requested id' args' =>
      obtain rfl : id' = id := of_decide_eq_true hfirst
      rw [hsince] at hsplit
      obtain rfl := hunique args' (by rw [hsplit]; simp)
      exact ⟨before, between, after, hsplit, hbetween⟩
    | _ => cases hfirst

end Answered

/-! ## The invariant -/

/-- What is kept of request `i`. -/
structure Kept (s : Infrastructure) (i : Nat) (r : Request) : Prop where
  requested : ∀ args, .requested r.correlationId args ∈ s.history ↔ args = r.args
  promise : r.promise = outcome r.correlationId s.history
  /-- Its response handler is registered as long as its timer is set. -/
  handler : s.responseHandlers.lookup r.correlationId = if r.timeout then some i else none
  pending : r.promise = .pending → r.timeout = true
  fulfilled : ∀ message, r.promise = .fulfilled message → r.timeout = false
  timedOut : .timeout r.correlationId ∈ s.history → r.timeout = false

structure Sound (s : Infrastructure) : Prop where
  distinct : (s.requests.map (·.correlationId)).Nodup
  kept : ∀ i r, s.requests[i]? = some r → Kept s i r
  /-- Every registered handler is that of a request. -/
  handlers : ∀ id i, s.responseHandlers.lookup id = some i →
    ∃ r : Request, s.requests[i]? = some r ∧ r.correlationId = id
  own : ∀ id e, e ∈ s.history → e.requests id = true ∨ e = .timeout id →
    id ∈ s.requests.map (·.correlationId)
  calls : ∀ call ∈ s.calls, call.promises.length = call.args.length ∧
    ∀ (j i : Nat) args, call.promises[j]? = some i → call.args[j]? = some args →
      ∃ r : Request, s.requests[i]? = some r ∧ r.args = args

section Steps

variable {s s' : Infrastructure} {i : Nat} {r : Request}

/-- Where its executor stands does not matter to a request. -/
def Request.book (r : Request) : Request := { r with awaits := .nothing }

/-- Handlers, requests, calls and history say all that is kept. -/
structure SameBook (s s' : Infrastructure) : Prop where
  responseHandlers : s'.responseHandlers = s.responseHandlers
  requests : s'.requests.map Request.book = s.requests.map Request.book
  calls : s'.calls = s.calls
  history : s'.history = s.history

namespace SameBook

theorem refl (s : Infrastructure) : SameBook s s := ⟨rfl, rfl, rfl, rfl⟩

theorem withConsumer (groupId : String) (c : Consumer) : SameBook s (s.withConsumer groupId c) :=
  ⟨rfl, rfl, rfl, rfl⟩

theorem goOn (hb : SameBook s s') (hs : s'.requests = s.requests) (hi : s.requests[i]? = some r)
    (awaits : Awaits) : SameBook s (s'.goOn i r awaits) := by
  refine ⟨hb.responseHandlers, ?_, hb.calls, hb.history⟩
  obtain ⟨hlt, hget⟩ := List.getElem?_eq_some_iff.mp hi
  have hlt' : i < (s.requests.map Request.book).length := by
    rw [List.length_map]
    exact hlt
  have hbook : (s.requests.map Request.book)[i] = Request.book { r with awaits } := by
    rw [List.getElem_map, hget]
    rfl
  change (s'.requests.set i { r with awaits }).map _ = _
  rw [hs, List.map_set, ← hbook, List.set_getElem_self]

/-- A request of the one state is, but for where it stands, that of the other. -/
theorem get (hb : SameBook s s') {r' : Request} (h : s'.requests[i]? = some r') :
    ∃ r, s.requests[i]? = some r ∧ r.book = r'.book := by
  have hmap := congrArg (·[i]?) hb.requests
  rw [List.getElem?_map, List.getElem?_map, h, Option.map_some] at hmap
  obtain ⟨r, hr, hbook⟩ := Option.map_eq_some_iff.mp hmap.symm
  exact ⟨r, hr, hbook⟩

theorem symm (hb : SameBook s s') : SameBook s' s :=
  ⟨hb.responseHandlers.symm, hb.requests.symm, hb.calls.symm, hb.history.symm⟩

theorem correlationIds (hb : SameBook s s') :
    s'.requests.map (·.correlationId) = s.requests.map (·.correlationId) := by
  have hmap := congrArg (List.map (·.correlationId)) hb.requests
  simpa only [List.map_map, Function.comp_def, Request.book] using hmap

theorem kept (hb : SameBook s s') {r' : Request} (h : Kept s i r) (hbook : r.book = r'.book) :
    Kept s' i r' := by
  have hargs : r.args = r'.args :=
    (congrArg Request.args hbook : r.book.args = r'.book.args)
  have hid : r.correlationId = r'.correlationId :=
    (congrArg Request.correlationId hbook : r.book.correlationId = r'.book.correlationId)
  have htimeout : r.timeout = r'.timeout :=
    (congrArg Request.timeout hbook : r.book.timeout = r'.book.timeout)
  have hpromise : r.promise = r'.promise :=
    (congrArg Request.promise hbook : r.book.promise = r'.book.promise)
  obtain ⟨h₁, h₂, h₃, h₄, h₅, h₆⟩ := h
  rw [hid, hargs] at h₁
  rw [hid, hpromise] at h₂
  rw [hid, htimeout] at h₃
  rw [hpromise, htimeout] at h₄ h₅
  rw [hid, htimeout] at h₆
  rw [← hb.history] at h₁ h₂ h₆
  rw [← hb.responseHandlers] at h₃
  exact ⟨h₁, h₂, h₃, h₄, h₅, h₆⟩

theorem sound (hb : SameBook s s') (h : Sound s) : Sound s' := by
  refine ⟨hb.correlationIds ▸ h.distinct, ?_, ?_, ?_, ?_⟩
  · intro i r' hi
    obtain ⟨r, hr, hbook⟩ := hb.get hi
    exact hb.kept (h.kept i r hr) hbook
  · intro id i hlookup
    rw [hb.responseHandlers] at hlookup
    obtain ⟨r, hr, hid⟩ := h.handlers id i hlookup
    obtain ⟨r', hr', hbook⟩ := hb.symm.get hr
    exact ⟨r', hr', (congrArg Request.correlationId hbook).trans hid⟩
  · rw [hb.history, hb.correlationIds]
    exact h.own
  · rw [hb.calls]
    intro call hcall
    refine ⟨(h.calls call hcall).1, fun j i args hj hargs => ?_⟩
    obtain ⟨r, hr, hrargs⟩ := (h.calls call hcall).2 j i args hj hargs
    obtain ⟨r', hr', hbook⟩ := hb.symm.get hr
    exact ⟨r', hr', (congrArg Request.args hbook).trans hrargs⟩

end SameBook

/-- The executor of a request, resumed, goes on or fails; besides, it changes consumers. -/
theorem resume_cases (hi : s.requests[i]? = some r) (answer : Except String Bool) :
    SameBook s (s.resume i r answer) ∨ ∃ s' error, SameBook s s' ∧ s'.requests = s.requests ∧
      s.resume i r answer = s'.catchError i r error := by
  have hsubscribe : ∀ groupId, SameBook s (s.subscribeConsumer i r groupId) ∨
      ∃ s' error, SameBook s s' ∧ s'.requests = s.requests ∧
        s.subscribeConsumer i r groupId = s'.catchError i r error := by
    intro groupId
    unfold Infrastructure.subscribeConsumer
    split
    · exact .inr ⟨s, _, .refl s, rfl, rfl⟩
    · exact .inl (.goOn (.withConsumer _ _) rfl hi _)
  have htopic : SameBook s (s.subscribeTopic i r) ∨
      ∃ s' error, SameBook s s' ∧ s'.requests = s.requests ∧
        s.subscribeTopic i r = s'.catchError i r error := by
    unfold Infrastructure.subscribeTopic
    dsimp only
    split
    · exact .inl (.goOn (.withConsumer _ _) rfl hi _)
    · exact hsubscribe _
  unfold Infrastructure.resume
  split
  · exact .inl (.refl s)
  · exact .inr ⟨s, _, .refl s, rfl, rfl⟩
  · exact .inr ⟨s, _, .refl s, rfl, rfl⟩
  · split
    · exact .inl (.goOn (.refl s) rfl hi _)
    · split <;> exact .inl (.goOn (.refl s) rfl hi _)
  · exact htopic
  · exact .inl (.goOn (.refl s) rfl hi _)
  · exact htopic
  · exact .inr ⟨s, _, .refl s, rfl, rfl⟩
  · exact hsubscribe _
  · split
    · exact .inl (.refl s)
    · exact .inl (.goOn (.withConsumer _ _) rfl hi _)
  · exact .inr ⟨s, _, .refl s, rfl, rfl⟩
  · split
    · exact .inl (.refl s)
    · split
      · exact .inl (.goOn (.refl s) rfl hi _)
      · exact .inl (.goOn (.withConsumer _ _) rfl hi _)
  · split
    · exact .inl (.refl s)
    · exact .inr ⟨_, _, .withConsumer _ _, rfl, rfl⟩
  · exact .inl (.goOn (.refl s) rfl hi _)

/-- Two requests with one correlation id are one. -/
theorem Sound.index_eq (h : Sound s) {j : Nat} {r' : Request} (hi : s.requests[i]? = some r)
    (hj : s.requests[j]? = some r') (hid : r'.correlationId = r.correlationId) : j = i := by
  have hlt : j < (s.requests.map (·.correlationId)).length := by
    rw [List.length_map]
    exact (List.getElem?_eq_some_iff.mp hj).1
  refine (List.getElem?_inj hlt h.distinct).mp ?_
  rw [List.getElem?_map, List.getElem?_map, hi, hj, Option.map_some, Option.map_some, hid]

/-- What changes for request `i` in a step: its promise by the event, its timer, where it
stands. -/
structure Updates (s s' : Infrastructure) (i : Nat) (r r' : Request) (e : Event) : Prop where
  get : s.requests[i]? = some r
  set : s'.requests = s.requests.set i r'
  calls : s'.calls = s.calls
  history : s'.history = s.history ++ [e]
  args : r'.args = r.args
  correlationId : r'.correlationId = r.correlationId
  promise : r'.promise = r.promise.andThen (e.settles r.correlationId)
  /-- The event is another request's in nothing. -/
  others : ∀ id, id ≠ r.correlationId → e.settles id = none ∧ e ≠ .timeout id
  response : ∀ id, e.requests id = false
  handlers : ∀ id, id ≠ r.correlationId →
    s'.responseHandlers.lookup id = s.responseHandlers.lookup id
  handler : s'.responseHandlers.lookup r.correlationId = if r'.timeout then some i else none
  /-- The timer is cleared by what fulfils the promise, and by its own firing. -/
  timeout : r'.timeout = true → r.timeout = true
  pending : r'.promise = .pending → r'.timeout = true
  cleared : (∀ error, e ≠ .failure r.correlationId error) → r'.timeout = false

namespace Updates

variable {r' : Request} {e : Event} (hu : Updates s s' i r r' e)

include hu

theorem lt : i < s.requests.length := (List.getElem?_eq_some_iff.mp hu.get).1

theorem getElem?_self : s'.requests[i]? = some r' := by
  rw [hu.set, List.getElem?_set_self hu.lt]

theorem getElem?_of_ne {j : Nat} (hj : j ≠ i) : s'.requests[j]? = s.requests[j]? := by
  rw [hu.set, List.getElem?_set_ne hj.symm]

theorem correlationIds :
    s'.requests.map (·.correlationId) = s.requests.map (·.correlationId) := by
  have hlt : i < (s.requests.map (·.correlationId)).length := by
    rw [List.length_map]
    exact hu.lt
  have hget : (s.requests.map (·.correlationId))[i] = r.correlationId := by
    rw [List.getElem_map]
    exact congrArg _ (List.getElem?_eq_some_iff.mp hu.get).2
  rw [hu.set, List.map_set, hu.correlationId, ← hget, List.set_getElem_self]

/-- The request of a correlation id, before and after. -/
theorem requested_iff (id : String) (args : KafkaRequestOptions) :
    .requested id args ∈ s'.history ↔ .requested id args ∈ s.history := by
  rw [hu.history, List.mem_append, List.mem_singleton, or_iff_left]
  rintro rfl
  have hfalse := hu.response id
  simp [Event.requests] at hfalse

theorem kept_self (hk : Kept s i r) : Kept s' i r' := by
  have htimeout (h : r.timeout = false) : r'.timeout = false := by
    by_contra hne
    rw [hu.timeout (eq_true_of_ne_false hne)] at h
    cases h
  refine ⟨?_, ?_, ?_, hu.pending, ?_, ?_⟩
  · intro args
    rw [hu.correlationId, hu.requested_iff, hu.args]
    exact hk.requested args
  · rw [hu.correlationId, hu.history, outcome_append ((hk.requested _).mpr rfl)
      (decide_eq_true rfl), ← hk.promise]
    exact hu.promise
  · rw [hu.correlationId]
    exact hu.handler
  · intro message hm
    by_contra hne
    -- the timer is still set, so the event was a failure
    have hset : r.timeout = true := hu.timeout (eq_true_of_ne_false hne)
    obtain ⟨error, rfl⟩ : ∃ error, e = .failure r.correlationId error := by
      by_contra hnot
      exact hne (hu.cleared (not_exists.mp hnot))
    rw [hu.promise] at hm
    cases hp : r.promise with
    | pending =>
      rw [hp] at hm
      simp [Event.settles, Promise.andThen] at hm
    | fulfilled value =>
      rw [hk.fulfilled value hp] at hset
      cases hset
    | rejected error =>
      rw [hp] at hm
      cases hm
  · rw [hu.correlationId, hu.history, List.mem_append, List.mem_singleton]
    rintro (hmem | rfl)
    · exact htimeout (hk.timedOut hmem)
    · exact hu.cleared nofun

theorem kept_other {j : Nat} {q : Request} (hk : Kept s j q)
    (hid : q.correlationId ≠ r.correlationId) : Kept s' j q := by
  obtain ⟨hsettles, htimeout⟩ := hu.others _ hid
  refine ⟨?_, ?_, ?_, hk.pending, hk.fulfilled, ?_⟩
  · intro args
    rw [hu.requested_iff]
    exact hk.requested args
  · rw [hu.history, outcome_append ((hk.requested _).mpr rfl) (decide_eq_true rfl), hsettles,
      Promise.andThen_none]
    exact hk.promise
  · rw [hu.handlers _ hid]
    exact hk.handler
  · rw [hu.history, List.mem_append, List.mem_singleton]
    rintro (hmem | hlast)
    · exact hk.timedOut hmem
    · exact absurd hlast.symm htimeout

theorem sound (h : Sound s) : Sound s' := by
  have hk := h.kept i r hu.get
  refine ⟨hu.correlationIds ▸ h.distinct, ?_, ?_, ?_, ?_⟩
  · intro j q hj
    by_cases hji : j = i
    · subst hji
      obtain rfl := Option.some_inj.mp (hu.getElem?_self.symm.trans hj)
      exact hu.kept_self hk
    · rw [hu.getElem?_of_ne hji] at hj
      exact hu.kept_other (h.kept j q hj) fun hid => hji (h.index_eq hu.get hj hid)
  · intro id j hlookup
    by_cases hid : id = r.correlationId
    · subst hid
      rw [hu.handler] at hlookup
      split at hlookup
      · obtain rfl := Option.some_inj.mp hlookup
        exact ⟨r', hu.getElem?_self, hu.correlationId⟩
      · cases hlookup
    · rw [hu.handlers id hid] at hlookup
      obtain ⟨q, hq, hqid⟩ := h.handlers id j hlookup
      have hji : j ≠ i := by
        rintro rfl
        obtain rfl := Option.some_inj.mp (hu.get.symm.trans hq)
        exact hid hqid.symm
      exact ⟨q, by rw [hu.getElem?_of_ne hji, hq], hqid⟩
  · intro id e' hmem hown
    rw [hu.correlationIds]
    rw [hu.history, List.mem_append, List.mem_singleton] at hmem
    rcases hmem with hmem | rfl
    · exact h.own id e' hmem hown
    · have hid : id = r.correlationId := by
        by_contra hne
        rcases hown with hreq | htimeout
        · rw [hu.response id] at hreq
          cases hreq
        · exact (hu.others id hne).2 htimeout
      rw [hid]
      exact List.mem_map.mpr ⟨r, List.mem_of_getElem? hu.get, rfl⟩
  · rw [hu.calls]
    intro call hcall
    refine ⟨(h.calls call hcall).1, fun j k args hj hargs => ?_⟩
    obtain ⟨q, hq, hqargs⟩ := (h.calls call hcall).2 j k args hj hargs
    by_cases hk : k = i
    · subst hk
      obtain rfl := Option.some_inj.mp (hu.get.symm.trans hq)
      exact ⟨r', hu.getElem?_self, hu.args.trans hqargs⟩
    · exact ⟨q, by rw [hu.getElem?_of_ne hk, hq], hqargs⟩

end Updates

/-! ### The steps -/

theorem updates_catchError (h : Sound s) (hi : s.requests[i]? = some r) (error : String) :
    Updates s (s.catchError i r error) i r
      { r with promise := r.promise.reject ("Request failed: " ++ error), awaits := .nothing }
      (.failure r.correlationId error) where
  get := hi
  set := rfl
  calls := rfl
  history := rfl
  args := rfl
  correlationId := rfl
  promise := by
    rw [Promise.reject_eq_andThen]
    simp [Event.settles]
  others id hid := ⟨if_neg hid.symm, nofun⟩
  response _ := rfl
  handlers _ _ := rfl
  handler := (h.kept i r hi).handler
  timeout := id
  pending hp := by
    refine (h.kept i r hi).pending ?_
    cases hr : r.promise with
    | pending => rfl
    | _ =>
      rw [hr] at hp
      cases hp
  cleared hne := absurd rfl (hne error)

theorem updates_fireTimeout (hi : s.requests[i]? = some r) :
    Updates s (s.fireTimeout i r) i r
      { r with timeout := false, promise := r.promise.reject "Kafka response timeout" }
      (.timeout r.correlationId) where
  get := hi
  set := rfl
  calls := rfl
  history := rfl
  args := rfl
  correlationId := rfl
  promise := by
    rw [Promise.reject_eq_andThen]
    simp [Event.settles]
  others id hid := ⟨if_neg hid.symm, fun h => hid (Event.timeout.inj h).symm⟩
  response _ := rfl
  handlers id hid := AList.lookup_erase_ne hid
  handler := AList.lookup_erase _ _
  timeout h := nomatch h
  pending hp := by
    cases hr : r.promise <;> rw [hr] at hp <;> cases hp
  cleared _ := rfl

theorem updates_responseHandler (hi : s.requests[i]? = some r) (message : Option Json) :
    Updates s ((s.note (.response r.correlationId message)).responseHandler i message) i r
      { r with timeout := false, promise := r.promise.resolve message }
      (.response r.correlationId message) := by
  unfold Infrastructure.responseHandler Infrastructure.note
  dsimp only
  rw [hi]
  exact
    { get := hi
      set := rfl
      calls := rfl
      history := rfl
      args := rfl
      correlationId := rfl
      promise := by
        rw [Promise.resolve_eq_andThen]
        simp [Event.settles]
      others := fun id hid => ⟨if_neg hid.symm, nofun⟩
      response := fun _ => rfl
      handlers := fun id hid => AList.lookup_erase_ne hid
      handler := AList.lookup_erase _ _
      timeout := nofun
      pending := fun hp => by
        cases hr : r.promise <;> rw [hr] at hp <;> cases hp
      cleared := fun _ => rfl }

/-- A response that finds no handler has come before, or too late, or is another's. -/
theorem Sound.unanswered (h : Sound s) {id : String}
    (hnone : s.responseHandlers.lookup id = none) (message : Option Json) :
    Sound (s.note (.response id message)) := by
  have hmem (e : Event) (he : e ≠ .response id message) :
      e ∈ (s.note (.response id message)).history ↔ e ∈ s.history := by
    simp [Infrastructure.note, he]
  refine ⟨h.distinct, ?_, h.handlers, ?_, h.calls⟩
  · intro i r hi
    have hk := h.kept i r hi
    refine ⟨?_, ?_, hk.handler, hk.pending, hk.fulfilled, ?_⟩
    · intro args
      rw [hmem (.requested _ args) nofun]
      exact hk.requested args
    · change r.promise = outcome r.correlationId (s.history ++ [_])
      rw [outcome_append ((hk.requested _).mpr rfl) (decide_eq_true rfl), ← hk.promise]
      by_cases hid : id = r.correlationId
      · -- its timer is not set any more, so it has settled
        subst hid
        have hsettled : r.promise ≠ .pending := by
          intro hp
          have hhandler := hk.handler
          rw [hk.pending hp, hnone] at hhandler
          cases hhandler
        exact (Promise.andThen_of_ne hsettled _).symm
      · rw [show Event.settles r.correlationId (.response id message) = none from if_neg hid,
          Promise.andThen_none]
    · rw [hmem (.timeout _) nofun]
      exact hk.timedOut
  · intro id' e he hown
    refine h.own id' e ((hmem e ?_).mp he) hown
    rintro rfl
    rcases hown with hr | ht
    · cases hr
    · cases ht

theorem Sound.handleResponse (h : Sound s) (responseMessage : Option Json) :
    Sound (s.handleResponse responseMessage) := by
  unfold Infrastructure.handleResponse
  split
  · exact h
  · split
    · exact h
    · rename_i correlationId _
      dsimp only
      split
      · rename_i hnone
        exact h.unanswered hnone _
      · rename_i i hlookup
        obtain ⟨r, hr, rfl⟩ := h.handlers _ i hlookup
        exact (updates_responseHandler hr _).sound h

section Request

variable {id : String} (args : KafkaRequestOptions)

theorem getElem?_processRequest {j : Nat} {q : Request}
    (h : (s.processRequest args id).requests[j]? = some q) :
    s.requests[j]? = some q ∨ j = s.requests.length ∧ q.args = args ∧ q.correlationId = id ∧
      q.timeout = true ∧ q.promise = .pending := by
  unfold Infrastructure.processRequest at h
  dsimp only at h
  rw [List.getElem?_append] at h
  split at h
  · exact .inl h
  · rename_i hlt
    cases hj : j - s.requests.length with
    | zero =>
      rw [hj] at h
      obtain rfl := Option.some_inj.mp h
      exact .inr ⟨by omega, rfl, rfl, rfl, rfl⟩
    | succ n =>
      rw [hj] at h
      cases h

theorem Sound.processRequest (h : Sound s) (hid : id ∉ s.requests.map (·.correlationId)) :
    Sound (s.processRequest args id) := by
  have hmem (e : Event) (he : e ≠ .requested id args) :
      e ∈ (s.processRequest args id).history ↔ e ∈ s.history := by
    simp [Infrastructure.processRequest, he]
  have hfresh (e : Event) (he : e ∈ s.history) : e.requests id = false ∧ e ≠ .timeout id :=
    ⟨eq_false_of_ne_true fun hr => hid (h.own id e he (.inl hr)),
      fun ht => hid (h.own id e he (.inr ht))⟩
  have hold {j : Nat} {q : Request} (hj : s.requests[j]? = some q) :
      (s.processRequest args id).requests[j]? = some q := by
    unfold Infrastructure.processRequest
    dsimp only
    rw [List.getElem?_append_left (List.getElem?_eq_some_iff.mp hj).1, hj]
  have hne {j : Nat} {q : Request} (hj : s.requests[j]? = some q) : q.correlationId ≠ id := by
    rintro rfl
    exact hid (List.mem_map.mpr ⟨q, List.mem_of_getElem? hj, rfl⟩)
  have hids : (s.processRequest args id).requests.map (·.correlationId) =
      s.requests.map (·.correlationId) ++ [id] := by
    simp [Infrastructure.processRequest]
  refine ⟨?_, ?_, ?_, ?_, ?_⟩
  · rw [hids, ← List.concat_eq_append]
    exact h.distinct.concat hid
  · intro j q hj
    rcases getElem?_processRequest args hj with hj | ⟨rfl, rfl, rfl, htimeout, hpending⟩
    · -- another request
      have hk := h.kept j q hj
      refine ⟨?_, ?_, ?_, hk.pending, hk.fulfilled, ?_⟩
      · intro args'
        rw [hmem _ fun he => hne hj (Event.requested.inj he).1]
        exact hk.requested args'
      · change q.promise = outcome q.correlationId (s.history ++ [_])
        rw [outcome_append ((hk.requested _).mpr rfl) (decide_eq_true rfl), ← hk.promise]
        exact (Promise.andThen_none _).symm
      · exact (AList.lookup_insert_ne (hne hj)).trans hk.handler
      · rw [hmem (.timeout _) nofun]
        exact hk.timedOut
    · -- the new one
      refine ⟨?_, ?_, ?_, fun _ => htimeout, ?_, ?_⟩
      · intro args'
        by_cases ha : args' = q.args
        · simp [Infrastructure.processRequest, ha]
        · rw [hmem _ fun he => ha (Event.requested.inj he).2]
          refine iff_of_false (fun he => ?_) ha
          have hfalse := (hfresh _ he).1
          simp [Event.requests] at hfalse
      · change q.promise = outcome q.correlationId (s.history ++ [_])
        rw [hpending, outcome_requested fun e he => (hfresh e he).1]
      · rw [htimeout]
        exact AList.lookup_insert _
      · intro message hm
        rw [hpending] at hm
        cases hm
      · rw [hmem (.timeout _) nofun]
        exact fun he => absurd rfl (hfresh _ he).2
  · intro id' j hlookup
    by_cases hid' : id' = id
    · subst hid'
      obtain rfl := Option.some_inj.mp ((AList.lookup_insert _).symm.trans hlookup)
      exact ⟨_, List.getElem?_concat_length, rfl⟩
    · obtain ⟨q, hq, hqid⟩ := h.handlers id' j ((AList.lookup_insert_ne hid').symm.trans hlookup)
      exact ⟨q, hold hq, hqid⟩
  · intro id' e he hown
    rw [hids, List.mem_append, List.mem_singleton]
    by_cases hnew : e = .requested id args
    · subst hnew
      rcases hown with hr | ht
      · exact .inr (of_decide_eq_true hr).symm
      · cases ht
    · exact .inl (h.own id' e ((hmem e hnew).mp he) hown)
  · intro call hcall
    refine ⟨(h.calls call hcall).1, fun j i args' hj hargs => ?_⟩
    obtain ⟨q, hq, hqargs⟩ := (h.calls call hcall).2 j i args' hj hargs
    exact ⟨q, hold hq, hqargs⟩

end Request

/-- The requests of one call are appended in order. -/
theorem requests_processRequests (l : List (KafkaRequestOptions × String)) :
    ∀ s : Infrastructure, ∃ added, (Infrastructure.processRequests l s).requests =
      s.requests ++ added ∧ added.map (·.args) = l.map Prod.fst := by
  induction l with
  | nil => exact fun s => ⟨[], (List.append_nil _).symm, rfl⟩
  | cons head rest ih =>
    obtain ⟨args, id⟩ := head
    intro s
    obtain ⟨added, hadded, hargs⟩ := ih (s.processRequest args id)
    obtain ⟨r, hr, hrargs⟩ : ∃ r : Request, (s.processRequest args id).requests =
        s.requests ++ [r] ∧ r.args = args := ⟨_, rfl, rfl⟩
    rw [hr, List.append_assoc] at hadded
    exact ⟨r :: added, hadded, by rw [List.map_cons, hargs, hrargs, List.map_cons]⟩

theorem Sound.processRequests (l : List (KafkaRequestOptions × String)) :
    ∀ s : Infrastructure, Sound s →
      (s.requests.map (·.correlationId) ++ l.map Prod.snd).Nodup →
        Sound (Infrastructure.processRequests l s) := by
  induction l with
  | nil => exact fun s h _ => h
  | cons head rest ih =>
    obtain ⟨args, id⟩ := head
    intro s h hn
    have hid : id ∉ s.requests.map (·.correlationId) := fun hmem =>
      (List.nodup_append.mp hn).2.2 id hmem id (List.mem_cons_self ..) rfl
    refine ih _ (h.processRequest args hid) ?_
    simpa [Infrastructure.processRequest] using hn

theorem Sound.requestResponse (h : Sound s) {args : List KafkaRequestOptions} {ids : List String}
    (hlength : ids.length = args.length)
    (hn : (s.requests.map (·.correlationId) ++ ids).Nodup) :
    Sound (s.requestResponse args ids) := by
  have hzip : (args.zip ids).map Prod.snd = ids := List.map_snd_zip (by omega)
  have hs := Sound.processRequests (args.zip ids) s h (by rwa [hzip])
  obtain ⟨added, hadded, hargs⟩ := requests_processRequests (args.zip ids) s
  rw [List.map_fst_zip (by omega)] at hargs
  refine ⟨hs.distinct, fun i r hi => ?_, hs.handlers, hs.own, ?_⟩
  · obtain ⟨h₁, h₂, h₃, h₄, h₅, h₆⟩ := hs.kept i r hi
    exact ⟨h₁, h₂, h₃, h₄, h₅, h₆⟩
  · intro call hcall
    rcases List.mem_append.mp hcall with hcall | hcall
    · exact hs.calls call hcall
    · obtain rfl := List.mem_singleton.mp hcall
      refine ⟨List.length_range', fun j i arg hj harg => ?_⟩
      obtain ⟨hlt, rfl⟩ := List.getElem?_eq_some_iff.mp hj
      rw [List.getElem_range', Nat.one_mul]
      rw [← hargs, List.getElem?_map] at harg
      obtain ⟨r, hr, hrarg⟩ := Option.map_eq_some_iff.mp harg
      refine ⟨r, ?_, hrarg⟩
      change (Infrastructure.processRequests _ s).requests[_]? = _
      rw [hadded, List.getElem?_append_right (Nat.le_add_right _ _), Nat.add_sub_cancel_left, hr]

/-- Every step keeps the invariant. -/
theorem Sound.fire (h : Sound s) {label : Label} (hf : s.fire label = some s') : Sound s' := by
  cases label with
  | connected =>
    obtain rfl := Option.some_inj.mp hf
    have hb : SameBook s { s with isInitialized := true } := ⟨rfl, rfl, rfl, rfl⟩
    exact hb.sound h
  | requestResponse args ids =>
    unfold Infrastructure.fire at hf
    dsimp only at hf
    split at hf
    · rename_i hn
      obtain rfl := Option.some_inj.mp hf
      exact h.requestResponse hn.1 hn.2
    · cases hf
  | answer i answer =>
    obtain ⟨r, hr, hf⟩ := Option.bind_eq_some_iff.mp hf
    obtain rfl := Option.some_inj.mp hf
    rcases resume_cases hr answer with hb | ⟨t, error, hb, ht, heq⟩
    · exact hb.sound h
    · rw [heq]
      exact (updates_catchError (hb.sound h) (by rw [ht, hr]) error).sound (hb.sound h)
  | timeout i =>
    obtain ⟨r, hr, hf⟩ := Option.bind_eq_some_iff.mp hf
    split at hf
    · obtain rfl := Option.some_inj.mp hf
      exact (updates_fireTimeout hr).sound h
    · cases hf
  | message groupId topic value =>
    obtain ⟨c, -, hf⟩ := Option.bind_eq_some_iff.mp hf
    obtain rfl := Option.some_inj.mp hf
    unfold Infrastructure.eachMessage
    split
    · exact h.handleResponse _
    · exact h

/-! ### Settled promises -/

/-- What has settled stays as it is. -/
def Persists (s s' : Infrastructure) : Prop :=
  ∀ (i : Nat) r, s.requests[i]? = some r → r.promise ≠ .pending →
    ∃ r', s'.requests[i]? = some r' ∧ r'.promise = r.promise

theorem Persists.refl (s : Infrastructure) : Persists s s := fun _ r hi _ => ⟨r, hi, rfl⟩

theorem SameBook.persists (hb : SameBook s s') : Persists s s' := by
  intro i r hi _
  obtain ⟨r', hr', hbook⟩ := hb.symm.get hi
  exact ⟨r', hr', (congrArg Request.promise hbook : r'.book.promise = r.book.promise)⟩

theorem Updates.persists {r' : Request} {e : Event} (hu : Updates s s' i r r' e) :
    Persists s s' := by
  intro j q hj hp
  by_cases hji : j = i
  · subst hji
    obtain rfl := Option.some_inj.mp (hu.get.symm.trans hj)
    exact ⟨r', hu.getElem?_self, hu.promise.trans (Promise.andThen_of_ne hp _)⟩
  · exact ⟨q, by rw [hu.getElem?_of_ne hji, hj], rfl⟩

theorem Persists.fire (h : Sound s) {label : Label} (hf : s.fire label = some s') :
    Persists s s' := by
  cases label with
  | connected =>
    obtain rfl := Option.some_inj.mp hf
    exact .refl s
  | requestResponse args ids =>
    unfold Infrastructure.fire at hf
    dsimp only at hf
    split at hf
    · obtain rfl := Option.some_inj.mp hf
      obtain ⟨added, hadded, -⟩ := requests_processRequests (args.zip ids) s
      intro i r hi _
      refine ⟨r, ?_, rfl⟩
      change (Infrastructure.processRequests _ s).requests[_]? = _
      rw [hadded, List.getElem?_append_left (List.getElem?_eq_some_iff.mp hi).1, hi]
    · cases hf
  | answer i answer =>
    obtain ⟨r, hr, hf⟩ := Option.bind_eq_some_iff.mp hf
    obtain rfl := Option.some_inj.mp hf
    rcases resume_cases hr answer with hb | ⟨t, error, hb, ht, heq⟩
    · exact hb.persists
    · rw [heq]
      have hu := updates_catchError (hb.sound h) (by rw [ht, hr]) error
      intro j q hj hp
      rw [← ht] at hj
      exact hu.persists j q hj hp
  | timeout i =>
    obtain ⟨r, hr, hf⟩ := Option.bind_eq_some_iff.mp hf
    split at hf
    · obtain rfl := Option.some_inj.mp hf
      exact (updates_fireTimeout hr).persists
    · cases hf
  | message groupId topic value =>
    obtain ⟨c, -, hf⟩ := Option.bind_eq_some_iff.mp hf
    obtain rfl := Option.some_inj.mp hf
    unfold Infrastructure.eachMessage
    split
    · unfold Infrastructure.handleResponse
      split
      · exact .refl s
      · split
        · exact .refl s
        · dsimp only
          split
          · exact .refl s
          · rename_i i hlookup
            obtain ⟨r, hr, rfl⟩ := h.handlers _ i hlookup
            exact (updates_responseHandler hr _).persists
    · exact .refl s

end Steps

/-! ## In every run -/

theorem sound_reachable {s : Infrastructure} (h : machine.Reachable (fun _ _ => true) s) :
    Sound s := by
  refine h.induction ?_ fun s s' _ hs ⟨label, _, hf⟩ => hs.fire hf
  refine ⟨List.nodup_nil, ?_, ?_, ?_, ?_⟩
  · intro i r hi
    cases hi
  · intro id i hi
    cases hi
  · intro id e he
    cases he
  · intro call hcall
    cases hcall

theorem persists_steps {s s' : Infrastructure} (h : Sound s)
    (hs : Relation.ReflTransGen (machine.Step fun _ _ => true) s s') : Persists s s' := by
  have hboth : Sound s' ∧ Persists s s' := by
    induction hs with
    | refl => exact ⟨h, .refl s⟩
    | tail _ hst ih =>
      obtain ⟨hmid, hpersists⟩ := ih
      obtain ⟨label, -, hf⟩ := hst
      refine ⟨hmid.fire hf, fun i r hi hp => ?_⟩
      obtain ⟨r', hi', hr'⟩ := hpersists i r hi hp
      obtain ⟨r'', hi'', hr''⟩ := Persists.fire hmid hf i r' hi' (hr' ▸ hp)
      exact ⟨r'', hi'', hr''.trans hr'⟩
  exact hboth.2

/-- No cross-talk: what has become of a request is decided by the first event of its own; it is
fulfilled with the message of a response that carries its correlation id, and so is each result of
`requestResponse`, for the request at its place; a promise settles once; a request that is
fulfilled or has timed out has no handler. -/
theorem no_cross_talk {s : Infrastructure} (h : machine.Reachable (fun _ _ => true) s) :
    (∀ r ∈ s.requests, r.promise = outcome r.correlationId s.history) ∧
    (∀ r ∈ s.requests, ∀ message, r.promise = .fulfilled message →
      Answered r.correlationId r.args message s.history) ∧
    (∀ s', Relation.ReflTransGen (machine.Step fun _ _ => true) s s' → Persists s s') ∧
    (∀ r ∈ s.requests,
      (∃ message, r.promise = .fulfilled message) ∨ .timeout r.correlationId ∈ s.history →
        s.responseHandlers.lookup r.correlationId = none) ∧
    ∀ call ∈ s.calls, ∀ results, s.results call = some results →
      results.length = call.args.length ∧
      ∀ (j : Nat) args message, call.args[j]? = some args → results[j]? = some message →
        ∃ (i : Nat) (r : Request), call.promises[j]? = some i ∧ s.requests[i]? = some r ∧
          r.args = args ∧ Answered r.correlationId args message s.history := by
  have hs := sound_reachable h
  have hkept : ∀ r ∈ s.requests, ∃ i, Kept s i r := by
    intro r hr
    obtain ⟨i, hi⟩ := List.getElem?_of_mem hr
    exact ⟨i, hs.kept i r hi⟩
  have hanswered : ∀ r ∈ s.requests, ∀ message, r.promise = .fulfilled message →
      Answered r.correlationId r.args message s.history := by
    intro r hr message hm
    obtain ⟨i, hk⟩ := hkept r hr
    exact answered_of_outcome ((hk.requested _).mpr rfl) (fun args' => (hk.requested args').mp)
      (hk.promise.symm.trans hm)
  refine ⟨?_, hanswered, fun s' => persists_steps hs, ?_, ?_⟩
  · intro r hr
    obtain ⟨i, hk⟩ := hkept r hr
    exact hk.promise
  · intro r hr hover
    obtain ⟨i, hk⟩ := hkept r hr
    have htimeout : r.timeout = false := by
      rcases hover with ⟨message, hm⟩ | hmem
      · exact hk.fulfilled message hm
      · exact hk.timedOut hmem
    rw [hk.handler, htimeout]
    rfl
  · intro call hcall results hresults
    obtain ⟨hlength, hget⟩ := getElem?_mapM hresults
    obtain ⟨hpromises, hcalls⟩ := hs.calls call hcall
    refine ⟨hlength.trans hpromises, fun j args message hargs hm => ?_⟩
    rw [hget] at hm
    obtain ⟨i, hi, hm⟩ := Option.bind_eq_some_iff.mp hm
    obtain ⟨r, hr, rfl⟩ := hcalls j i args hi hargs
    refine ⟨i, r, hi, hr, rfl, hanswered r (List.mem_of_getElem? hr) message ?_⟩
    rw [hr, Option.bind_some] at hm
    cases hp : r.promise with
    | fulfilled value =>
      rw [hp] at hm
      exact congrArg _ (Option.some_inj.mp hm)
    | _ =>
      rw [hp] at hm
      cases hm

/-! ## A run -/

/-- The response on a topic to the request with this correlation id. -/
def responseTo (correlationId message : String) : Option (Option Json) :=
  some (some (.obj [("correlationId", .str correlationId), ("message", .str message)]))

/-- A user and an order are fetched.  The response about the order comes first, and twice; a
response to another service comes before that about the user. -/
def fetched : List Label :=
  [.connected,
   .requestResponse
    [⟨"fetch-user-request", "u", "fetch-user-response", some "user-group", 10000⟩,
     ⟨"fetch-order-request", "o", "fetch-order-response", some "order-group", 10000⟩]
    ["x", "y"]] ++
  (List.range 2).flatMap (fun i => List.replicate 5 (.answer i (.ok true))) ++
  [.message "order-group" "fetch-order-response" (responseTo "y" "order"),
   .message "order-group" "fetch-order-response" (responseTo "y" "order again"),
   .message "user-group" "fetch-user-response" (responseTo "z" "another user"),
   .message "user-group" "fetch-user-response" (responseTo "x" "user")]

theorem isSome_fetched :
    (machine.run (fun _ _ => true) machine.initial fetched).isSome = true := by
  decide +kernel

/-- In this run both requests are answered. -/
theorem no_cross_talk_fetched :
    ∃ s : Infrastructure, s.requests.length = 2 ∧
      (∀ r ∈ s.requests, r.promise.value?.isSome = true) ∧
      ∀ r ∈ s.requests, ∀ message, r.promise = .fulfilled message →
        Answered r.correlationId r.args message s.history :=
  ⟨_, by decide +kernel, by decide +kernel,
    (no_cross_talk (Machine.reachable_run fetched isSome_fetched)).2.1⟩

end InvoiceHub.Kafka
