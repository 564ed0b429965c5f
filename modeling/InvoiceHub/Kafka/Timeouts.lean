import InvoiceHub.Kafka.Handlers

/-!
# How long a request may take

Each request has a timer.  Where timers fire when they are due, a request that nobody answers is
rejected once its `timeoutMs` are over, whatever Kafka does with it, and leaves no handler behind.
-/

namespace InvoiceHub.Kafka

open Effects

/-! ## Runs with a clock -/

namespace Timed

/-- A `KafkaInfrastructure` with a clock that counts milliseconds; `made` says when each request
was. -/
structure Service where
  kafka : Infrastructure := {}
  now : Nat := 0
  made : List Nat := []

/-- A step of a run. -/
inductive Label where
  | step (label : Kafka.Label)
  | tick (ms : Nat)

/-- What a label does where it is enabled. -/
def fire (s : Service) : Label → Option Service
  | .step label => (s.kafka.fire label).map fun kafka =>
    { s with kafka, made := s.made ++ label.asks.map fun _ => s.now }
  | .tick ms => some { s with now := s.now + ms }

/-- The same, with its clock. -/
def machine : Machine Service Label where
  initial := {}
  fire := fire

/-- No timer is overdue by more than `late` milliseconds. -/
def OnTime (late : Nat) (s : Service) : Bool :=
  (s.kafka.requests.zip s.made).all fun (r, made) =>
    !r.timeout || s.now ≤ made + r.args.timeoutMs + late

/-- The runs in which timers fire when they are due, or little later. -/
def punctual (late : Nat) : machine.Policy :=
  fun s label => (fire s label).all (OnTime late)

end Timed

/-! ## What is left of a request -/

section Timed

variable {s s' : Timed.Service} {late : Nat}

/-- What holds of the service. -/
structure Attended (late : Nat) (s : Timed.Service) : Prop where
  sound : Sound s.kafka
  made : s.made.length = s.kafka.requests.length
  onTime : Timed.OnTime late s = true

theorem length_asked (s : Infrastructure) : s.asked.length = s.requests.length :=
  List.length_map _

theorem Attended.fire (h : Attended late s) {label : Timed.Label}
    (hf : Timed.fire s label = some s') (hi : Timed.OnTime late s' = true) :
    Attended late s' := by
  cases label with
  | step label =>
    obtain ⟨kafka, hkafka, rfl⟩ := Option.map_eq_some_iff.mp hf
    refine ⟨h.sound.fire hkafka, ?_, hi⟩
    have hasked := congrArg List.length (h.sound.tells hkafka).asked
    rw [List.length_append, length_asked, length_asked] at hasked
    rw [List.length_append, List.length_map, h.made]
    exact hasked.symm
  | tick ms =>
    cases hf
    exact ⟨h.sound, h.made, hi⟩

theorem attended_reachable (hs : Timed.machine.Reachable (Timed.punctual late) s) :
    Attended late s := by
  have hsound : Sound {} := sound_reachable .refl
  refine hs.induction ⟨hsound, rfl, rfl⟩ fun s s' _ h ⟨label, hp, hf⟩ => ?_
  have hf : Timed.fire s label = some s' := hf
  refine h.fire hf ?_
  unfold Timed.punctual at hp
  rw [hf] at hp
  exact hp

/-- The timer of a request is set only as long as it is not due. -/
theorem Attended.young (h : Attended late s) {i made : Nat} {r : Request}
    (hr : s.kafka.requests[i]? = some r) (hmade : s.made[i]? = some made)
    (ht : r.timeout = true) : s.now ≤ made + r.args.timeoutMs + late := by
  have hmem : (r, made) ∈ s.kafka.requests.zip s.made :=
    List.mem_of_getElem? (List.getElem?_zip_eq_some.mpr ⟨hr, hmade⟩)
  have honTime := List.all_eq_true.mp h.onTime _ hmem
  dsimp only at honTime
  rw [ht] at honTime
  exact of_decide_eq_true honTime

/-- A request that was made longer ago than its `timeoutMs` is settled and has no handler. -/
theorem Attended.settled (h : Attended late s) {i made : Nat} {r : Request}
    (hr : s.kafka.requests[i]? = some r) (hmade : s.made[i]? = some made)
    (hover : made + r.args.timeoutMs + late < s.now) :
    r.promise ≠ .pending ∧ s.kafka.responseHandlers.lookup r.correlationId = none := by
  have hkept := h.sound.kept i r hr
  have htimeout : r.timeout = false := by
    by_contra ht
    exact absurd (h.young hr hmade (eq_true_of_ne_false ht)) (Nat.not_le_of_gt hover)
  refine ⟨fun hp => ?_, ?_⟩
  · rw [hkept.pending hp] at htimeout
    cases htimeout
  · rw [hkept.handler, htimeout]
    rfl

/-- A handler that is registered is that of a young request. -/
theorem Attended.registered (h : Attended late s) {id : String} {i : Nat}
    (hl : s.kafka.responseHandlers.lookup id = some i) :
    ∃ (r : Request) (made : Nat), s.kafka.requests[i]? = some r ∧ s.made[i]? = some made ∧
      r.correlationId = id ∧ s.now ≤ made + r.args.timeoutMs + late := by
  obtain ⟨r, hr, rfl⟩ := h.sound.handlers id i hl
  obtain ⟨hlt, -⟩ := List.getElem?_eq_some_iff.mp hr
  have hmade := List.getElem?_eq_getElem (h.made.symm ▸ hlt : i < s.made.length)
  have htimeout : r.timeout = true := by
    by_contra ht
    have hhandler := (h.sound.kept i r hr).handler
    rw [eq_false_of_ne_true ht, hl] at hhandler
    cases hhandler
  exact ⟨r, _, hr, hmade, rfl, h.young hr hmade htimeout⟩

theorem exists_mapM {α β : Type} {f : α → Option β} {l : List α} (h : ∀ a ∈ l, ∃ b, f a = some b) :
    ∃ results, l.mapM f = some results := by
  induction l with
  | nil => exact ⟨[], rfl⟩
  | cons a l ih =>
    obtain ⟨b, hb⟩ := h a List.mem_cons_self
    obtain ⟨results, hresults⟩ := ih fun a ha => h a (List.mem_cons_of_mem _ ha)
    exact ⟨b :: results, by rw [List.mapM_cons, hb, hresults]; rfl⟩

/-- `Promise.all` settles once all requests of a call are due. -/
theorem Attended.answered (h : Attended late s) {call : Call} (hcall : call ∈ s.kafka.calls)
    (hover : ∀ i ∈ call.promises, ∀ (r : Request) (made : Nat), s.kafka.requests[i]? = some r →
      s.made[i]? = some made → made + r.args.timeoutMs + late < s.now) :
    (∃ results, s.kafka.results call = some results) ∨ ∃ i ∈ call.promises, ∃ r error,
      s.kafka.requests[i]? = some r ∧ r.promise = .rejected error := by
  by_contra hno
  rw [not_or] at hno
  obtain ⟨hresults, hrejected⟩ := hno
  refine hresults (exists_mapM fun i hi => ?_)
  obtain ⟨j, hj⟩ := List.getElem?_of_mem hi
  obtain ⟨hlength, hrequests⟩ := h.sound.calls call hcall
  have hlt : j < call.args.length := hlength ▸ (List.getElem?_eq_some_iff.mp hj).1
  obtain ⟨r, hr, -⟩ := hrequests j i _ hj (List.getElem?_eq_getElem hlt)
  have hmade := List.getElem?_eq_getElem
    (h.made.symm ▸ (List.getElem?_eq_some_iff.mp hr).1 : i < s.made.length)
  have hsettled := (h.settled hr hmade (hover i hi r _ hr hmade)).1
  rw [hr, Option.bind_some]
  cases hp : r.promise with
  | pending => exact absurd hp hsettled
  | fulfilled value => exact ⟨value, rfl⟩
  | rejected error => exact absurd ⟨i, hi, r, error, hr, hp⟩ hrejected

/-- Whatever Kafka does: a request is settled when its `timeoutMs` are over, a call of
`requestResponse` when those of all its requests are, and there are never more handlers than
requests that are not due. -/
theorem requests_settle_in_time (hs : Timed.machine.Reachable (Timed.punctual late) s) :
    (∀ (i made : Nat) (r : Request), s.kafka.requests[i]? = some r → s.made[i]? = some made →
      made + r.args.timeoutMs + late < s.now → r.promise ≠ .pending) ∧
    (∀ id i, s.kafka.responseHandlers.lookup id = some i → ∃ (r : Request) (made : Nat),
      s.kafka.requests[i]? = some r ∧ s.made[i]? = some made ∧ r.correlationId = id ∧
      s.now ≤ made + r.args.timeoutMs + late) ∧
    ∀ call ∈ s.kafka.calls, (∀ i ∈ call.promises, ∀ (r : Request) (made : Nat),
        s.kafka.requests[i]? = some r → s.made[i]? = some made →
        made + r.args.timeoutMs + late < s.now) →
      (∃ results, s.kafka.results call = some results) ∨ ∃ i ∈ call.promises, ∃ r error,
        s.kafka.requests[i]? = some r ∧ r.promise = .rejected error := by
  have h := attended_reachable hs
  exact ⟨fun i made r hr hmade hover => (h.settled hr hmade hover).1,
    fun id i hl => h.registered hl, fun call hcall hover => h.answered hcall hover⟩

end Timed

/-! ## A run -/

/-- A user and an order are fetched; only the order is answered. -/
def halfAnswered : List Timed.Label :=
  [.step .connected,
   .step (.requestResponse
    [⟨"fetch-user-request", "u", "fetch-user-response", some "user-group", 10000⟩,
     ⟨"fetch-order-request", "o", "fetch-order-response", some "order-group", 10000⟩]
    ["x", "y"])] ++
  (List.range 2).flatMap (fun i => List.replicate 5 (.step (.answer i (.ok true)))) ++
  [.tick 10000, .step (.message "order-group" "fetch-order-response" (responseTo "y" "order")),
   .step (.timeout 0), .tick 1]

theorem requests_settle_in_time_halfAnswered :
    ∃ s, Timed.machine.run (Timed.punctual 0) Timed.machine.initial halfAnswered = some s ∧
      s.kafka.requests.length = 2 ∧
      ∀ (i made : Nat) (r : Request), s.kafka.requests[i]? = some r → s.made[i]? = some made →
        made + r.args.timeoutMs + 0 < s.now → r.promise ≠ .pending := by
  have hrun : (Timed.machine.run (Timed.punctual 0) Timed.machine.initial halfAnswered).any
      (fun s => s.kafka.requests.length = 2) = true := by decide +kernel
  obtain ⟨s, hs, hlength⟩ := (Option.any_eq_true _ _).mp hrun
  exact ⟨s, hs, of_decide_eq_true hlength,
    (requests_settle_in_time (Machine.run_steps halfAnswered hs)).1⟩

end InvoiceHub.Kafka
