import InvoiceHub.Effects.Log
import InvoiceHub.Platform.Components

/-!
# Deliveries

A consumer group reads the logs of all parties.  Where no group is handed a message twice, it is
handed no more messages of a kind than were published (`Once.handed_le_posted`), and as many once
the platform is quiescent (`posted_le_handed`).
-/

namespace InvoiceHub

open Effects Transaction Services

/-- No group is handed a message twice, no call fails, and users have ids. -/
def Platform.reliable : Policy := fun s label =>
  match label with
  | .createOrder userId _ => decide (userId ≠ "")
  | .deliver group _ source index => decide (⟨group, source, index⟩ ∉ s.delivered)
  | .order (.reject _) => false
  | .order (.abandon _) => false
  | .invoice (.reject _) => false
  | .invoice (.abandon _) => false
  | .reject _ => false
  | .abandon _ => false
  | _ => true

namespace Hub

variable {h h' : Hub} {label : Platform.Label} {p : EventMessage → Bool}

/-! ## Logs and places -/

/-- All that publish. -/
def sources : List Source := [.orderCoordinator, .invoiceCoordinator, .services]

theorem mem_sources (source : Source) : source ∈ sources := by
  cases source <;> decide

/-- The places that the messages handed to a group have in the logs. -/
def places (h : Hub) (group : GroupIds) : List (Source × Nat) :=
  (h.delivered.filter (·.group = group)).map fun d => (d.source, d.index)

/-- How many messages with the property were published. -/
def posted (h : Hub) (p : EventMessage → Bool) : Nat := Effects.posted sources h.published p

/-- How many of them the group was handed. -/
def handed (h : Hub) (group : GroupIds) (p : EventMessage → Bool) : Nat :=
  Effects.handed h.published (h.places group) p

theorem mem_places {group : GroupIds} {source : Source} {index : Nat} :
    (source, index) ∈ h.places group ↔ ⟨group, source, index⟩ ∈ h.delivered := by
  simp only [places, List.mem_map, List.mem_filter, Prod.mk.injEq, decide_eq_true_eq]
  constructor
  · rintro ⟨⟨_, _, _⟩, ⟨hmem, rfl⟩, rfl, rfl⟩
    exact hmem
  · intro hmem
    exact ⟨_, ⟨hmem, rfl⟩, rfl, rfl⟩

/-- The messages of a coordinator that have the property. -/
def publishes (p : EventMessage → Bool) : Entry → Bool
  | .published publication => p publication.event
  | _ => false

theorem countP_messages (history : List Entry) (p : EventMessage → Bool) :
    (Platform.messages history).countP p = history.countP (publishes p) := by
  rw [Platform.messages, List.countP_filterMap]
  refine List.countP_congr fun entry _ => ?_
  cases entry with
  | published publication => rfl
  | _ => simp [publishes]

/-- What each of the parties published. -/
theorem posted_eq (h : Hub) (p : EventMessage → Bool) :
    h.posted p = h.order.world.history.countP (publishes p) +
      h.invoice.world.history.countP (publishes p) + h.db.published.countP p := by
  have hlogs : sources.flatMap h.published = Platform.messages h.order.world.history ++
      (Platform.messages h.invoice.world.history ++ (h.db.published ++ [])) := rfl
  rw [← countP_messages, ← countP_messages, posted, Effects.posted, hlogs, List.append_nil,
    List.countP_append, List.countP_append, Nat.add_assoc]

/-! ## Steps -/

/-- What the delivery of a message adds to what was delivered. -/
theorem Moves.delivered_cases (hm : h.Moves label h') : h'.delivered = h.delivered ∨
    ∃ group subject source index event, label = .deliver group subject source index ∧
      h.Carries source index subject event ∧
      h'.delivered = h.delivered ++ [⟨group, source, index⟩] := by
  cases hm with
  | orderReceives hc _ _ => exact .inr ⟨_, _, _, _, _, rfl, hc, rfl⟩
  | invoiceReceives hc _ _ => exact .inr ⟨_, _, _, _, _, rfl, hc, rfl⟩
  | update hc => exact .inr ⟨_, _, _, _, _, rfl, hc, rfl⟩
  | generate hc => exact .inr ⟨_, _, _, _, _, rfl, hc, rfl⟩
  | notify hc => exact .inr ⟨_, _, _, _, _, rfl, hc, rfl⟩
  | _ => exact .inl rfl

/-- No message was handed to a group twice, and none before it was published. -/
structure Once (h : Hub) : Prop where
  nodup : h.delivered.Nodup
  published : ∀ d ∈ h.delivered, d.index < (h.published d.source).length

namespace Once

theorem initial : Once initial := ⟨.nil, fun _ hmem => nomatch hmem⟩

theorem moves (ho : Once h) (hm : h.Moves label h')
    (hp : Platform.reliable h.toPlatform label = true) : Once h' := by
  have hgrows : ∀ source, (h.published source).length ≤ (h'.published source).length := by
    intro source
    obtain ⟨added, hadded⟩ := hm.published_grows source
    rw [hadded, List.length_append]
    exact Nat.le_add_right _ _
  rcases hm.delivered_cases with hd | ⟨group, subject, source, index, event, rfl, hc, hd⟩
  · refine ⟨hd ▸ ho.nodup, fun d hmem => ?_⟩
    exact Nat.lt_of_lt_of_le (ho.published d (hd ▸ hmem)) (hgrows _)
  · have hnew : (⟨group, source, index⟩ : Delivery) ∉ h.delivered := of_decide_eq_true hp
    refine ⟨?_, fun d hmem => ?_⟩
    · rw [hd, List.nodup_append]
      refine ⟨ho.nodup, List.nodup_singleton _, ?_⟩
      rintro d hmem _ hlast rfl
      rw [List.mem_singleton.mp hlast] at hmem
      exact hnew hmem
    · rw [hd] at hmem
      rcases List.mem_append.mp hmem with hmem | hmem
      · exact Nat.lt_of_lt_of_le (ho.published d hmem) (hgrows _)
      · rw [List.mem_singleton.mp hmem]
        exact Nat.lt_of_lt_of_le (List.getElem?_eq_some_iff.mp hc.message).1 (hgrows _)

theorem nodup_places (ho : Once h) (group : GroupIds) : (h.places group).Nodup := by
  refine (ho.nodup.filter _).map_on fun d hd d' hd' heq => ?_
  have hgroup := of_decide_eq_true (List.mem_filter.mp hd).2
  have hgroup' := of_decide_eq_true (List.mem_filter.mp hd').2
  cases d
  cases d'
  cases heq
  cases hgroup
  cases hgroup'
  rfl

/-- What was handed out stays as it was published. -/
theorem handed_published (ho : Once h) (hm : h.Moves label h') (group : GroupIds)
    (p : EventMessage → Bool) :
    Effects.handed h'.published (h.places group) p = h.handed group p := by
  refine handed_grows (fun place hmem => ?_) fun source => ?_
  · obtain ⟨source, index⟩ := place
    exact ho.published _ (mem_places.mp hmem)
  · obtain ⟨added, hadded⟩ := hm.published_grows source
    exact ⟨added, hadded.symm⟩

/-- A step that delivers nothing hands out nothing. -/
theorem handed_stays (ho : Once h) (hm : h.Moves label h') (hd : h'.delivered = h.delivered)
    (group : GroupIds) (p : EventMessage → Bool) : h'.handed group p = h.handed group p := by
  rw [← ho.handed_published hm]
  unfold handed places
  rw [hd]

/-- A delivery hands its message to its group. -/
theorem handed_deliver (ho : Once h) (hm : h.Moves label h') {group : GroupIds}
    {subject : Subjects} {source : Source} {index : Nat} {event : EventMessage}
    (hc : h.Carries source index subject event)
    (hd : h'.delivered = h.delivered ++ [⟨group, source, index⟩]) (reader : GroupIds)
    (p : EventMessage → Bool) :
    h'.handed reader p =
      h.handed reader p + if group = reader ∧ p event = true then 1 else 0 := by
  have hplaces : h'.places reader =
      h.places reader ++ if group = reader then [(source, index)] else [] := by
    unfold places
    rw [hd, List.filter_append, List.map_append]
    by_cases hg : group = reader
    · simp [hg]
    · simp [hg]
  have hget := (hc.moves hm).message
  rw [handed, hplaces, ← ho.handed_published hm]
  by_cases hg : group = reader
  · simp [Effects.handed, List.countP_append, List.countP_singleton, hg, hget]
  · simp [hg]

/-! ## What was handed out -/

theorem handed_le_posted (ho : Once h) (group : GroupIds) (p : EventMessage → Bool) :
    h.handed group p ≤ h.posted p :=
  Effects.handed_le_posted mem_sources (ho.nodup_places group)

/-- As long as one of them has not been handed to the group, they are fewer. -/
theorem handed_lt_posted (ho : Once h) {group : GroupIds} {subject : Subjects} {source : Source}
    {index : Nat} {event : EventMessage} (hc : h.Carries source index subject event)
    (hnew : ⟨group, source, index⟩ ∉ h.delivered) (hp : p event = true) :
    h.handed group p < h.posted p := by
  have hplace : (h.published source)[index]?.any p = true := by
    rw [hc.message]
    exact hp
  have hnotin : (source, index) ∉ h.places group := fun hmem => hnew (mem_places.mp hmem)
  exact Effects.handed_lt_posted mem_sources (ho.nodup_places group) hnotin hplace

end Once

/-- A quiescent platform has handed out all messages to which the group subscribes. -/
theorem posted_le_handed (hq : h.toPlatform.quiescent = true) {group : GroupIds}
    (hp : ∀ event, p event = true → ∃ subject handler,
      subscription group subject = some handler ∧ event.topicName = subject.value) :
    h.posted p ≤ h.handed group p := by
  refine Effects.posted_le_handed (by decide) fun ⟨source, index⟩ hplace => ?_
  obtain ⟨event, hget, hevent⟩ := (Option.any_eq_true _ _).mp hplace
  obtain ⟨subject, handler, hsub, ht⟩ := hp event hevent
  exact mem_places.mpr (Platform.mem_delivered_of_quiescent hq hget hsub ht)

end Hub

end InvoiceHub
