import InvoiceHub.Effects.Guard
import InvoiceHub.Transaction.Law

/-!
# The cluster keeps a law

If the records that are started satisfy a law, and what happens in a run is what the law takes to
have happened, all stored records satisfy it (`Lawful.initial`, `Lawful.fire`), and so do the
records that publications are about (`Reported.fire`) and all that were ever written
(`Recorded.fire`).
-/

namespace InvoiceHub.Transaction

open Effects

/-! ## The guard of a law -/

/-- The calls the tasks of an activity await. -/
def Law.Permits (L : Law) : Activity → Call → Prop
  | .startTransaction transactionId => L.Issues (transactionKey (some transactionId))
  | .handler _ _ event => L.Issues (transactionKey event.transactionId)
  | .unawaited call => fun op => op = call ∧ L.Spawns call
  | .checkTimeouts => fun op =>
    match op with
    | .set _ _ => False
    | .publish _ => False
    | _ => True

/-- What the reads of an activity find. -/
def Facts.reads (F : Facts) : Activity → Option SerializedTransaction → Prop
  | .handler _ subject _ => F.found subject
  | _ => fun _ => True

/-- What the tasks of the cluster keep to under a law. -/
def Law.guard (L : Law) : Guard Activity Call Call.Res Activity.background where
  answer activity := L.Answer (L.facts.reads activity)
  permits := L.Permits
  spawns _ := L.Spawns
  started h := ⟨rfl, h⟩

/-- The facts hold of the step. -/
structure Facts.Cover (F : Facts) (s : Cluster) (label : Cluster.Label) (s' : Cluster) : Prop where
  happened : ∀ entry ∈ s'.world.history, F.happened entry
  found : ∀ j date activity key ok err, label = .advance j date →
    s.tasks[j]? = some ⟨activity, .call (.get key) ok err⟩ →
      F.reads activity (s.world.redis.lookup key)

/-- Where nothing is known nothing is wrong. -/
theorem Facts.cover_any {s s' : Cluster} {label : Cluster.Label} : Facts.any.Cover s label s' where
  happened := fun _ _ => trivial
  found := by
    intro j date activity key ok err _ _
    cases activity <;> exact trivial

/-- The stored records satisfy the law and every task keeps to it. -/
structure Lawful (L : Law) (s : Cluster) : Prop where
  stored : ∀ key, L.holds key (s.world.redis.lookup key)
  tasks : ∀ task ∈ s.tasks, L.guard.Keeps task

section Pool

variable {L : Law} {activity : Activity} {store : Store} {date : Date} {op : Call}

/-- An activity writes under its own key, and what the law allows there. -/
theorem permits_set {key : String} {value : SerializedTransaction}
    (h : L.Permits activity (.set key value)) :
    activity.key = some key ∧ L.holds key (some value) := by
  cases activity with
  | startTransaction t =>
    obtain ⟨rfl, hw⟩ := h
    exact ⟨rfl, hw⟩
  | handler c subject event =>
    obtain ⟨rfl, hw⟩ := h
    exact ⟨rfl, hw⟩
  | unawaited call =>
    obtain ⟨rfl, hs⟩ := h
    exact hs.elim
  | checkTimeouts => exact h.elim

/-- What an activity publishes announces its own record, or is not awaited. -/
theorem permits_publish {p : Publication} (h : L.Permits activity (.publish p)) :
    (activity.key = some (transactionKey p.transactionId) ∧
      L.Announced (transactionKey p.transactionId) p) ∨ L.Mentioned p := by
  cases activity with
  | startTransaction t =>
    refine .inl ⟨congrArg some h.key.symm, ?_⟩
    rw [h.key]
    exact h
  | handler c subject event =>
    refine .inl ⟨congrArg some h.key.symm, ?_⟩
    rw [h.key]
    exact h
  | unawaited call =>
    obtain ⟨rfl, hs⟩ := h
    exact .inr hs
  | checkTimeouts => exact h.elim

theorem holds_perform (activity : Activity) (h : ∀ key, L.holds key (store.redis.lookup key))
    (hop : L.Permits activity op) (key : String) :
    L.holds key ((perform activity date op store).2.redis.lookup key) := by
  cases op with
  | set k v =>
    change L.holds key ((store.redis.insert k v).lookup key)
    by_cases hk : key = k
    · subst hk
      rw [AList.lookup_insert]
      exact (permits_set hop).2
    · rw [AList.lookup_insert_ne hk]
      exact h key
  | _ => exact h key

theorem admits_startTransaction (t : String) :
    L.guard.Admits (.startTransaction t) (handleProgressTransaction (some t)) :=
  allows_handleProgressTransaction rfl

theorem admits_handle (clientId : ClientIds) {subject : Subjects} {event : TransactionEvent}
    (h : L.facts.happened (.received subject event)) :
    L.guard.Admits (.handler clientId subject event) (handle clientId subject event) :=
  allows_handle clientId ⟨h, rfl⟩

theorem admits_checkTimeouts : L.guard.Admits .checkTimeouts checkTimeouts := by
  refine (Prog.guarded_call _ _ _).mpr ⟨trivial, fun keys _ => ?_, trivial⟩
  refine (Prog.guarded_call _ _ _).mpr ⟨trivial, fun now _ => ?_, trivial⟩
  exact guarded_checkTimeoutsOf now keys fun _ => trivial

/-- The answers that are given are those that the facts let a task rely on. -/
theorem Lawful.answer {s s' : Cluster} {j : Nat} (h : Lawful L s)
    (hf : s.fire (.advance j date) = some s') (hc : L.facts.Cover s (.advance j date) s')
    {ok : op.Res → Async Unit} {err : Async Unit}
    (hj : s.tasks[j]? = some ⟨activity, .call op ok err⟩) :
    L.Answer (L.facts.reads activity) op (perform activity date op s.world).1 := by
  cases op with
  | get key => exact ⟨h.stored key, hc.found j date activity key ok err rfl hj⟩
  | set key value =>
    refine hc.happened _ ?_
    have hf : Pool.advance Activity.background perform s j date = some s' := hf
    simp only [Pool.advance, hj] at hf
    cases hf
    exact List.mem_append_right _ (List.mem_singleton.mpr rfl)
  | _ => trivial

/-- Every step keeps a law that allows the records which are started. -/
theorem Lawful.fire {s s' : Cluster} {label : Cluster.Label} (h : Lawful L s)
    (hf : s.fire label = some s') (hc : L.facts.Cover s label s')
    (hstart : ∀ options t date, label = .start options t date →
      L.holds (transactionKey (some t)) (some (newTransaction options t date).serialize)) :
    Lawful L s' := by
  cases label with
  | start options t date =>
    unfold Cluster.fire at hf
    dsimp only at hf
    split at hf
    · cases hf
      refine ⟨?_, Guard.keeps_begin h.tasks (admits_startTransaction t)⟩
      exact holds_perform (.startTransaction t) h.stored ⟨rfl, hstart options t date rfl⟩
    · cases hf
  | deliver clientId subject event =>
    cases hf
    refine ⟨h.stored, Guard.keeps_begin h.tasks (admits_handle clientId ?_)⟩
    exact hc.happened _ (List.mem_append_right _ (List.mem_singleton.mpr rfl))
  | checkTimeouts =>
    cases hf
    exact ⟨h.stored, Guard.keeps_begin h.tasks admits_checkTimeouts⟩
  | advance j date =>
    refine ⟨?_, Guard.keeps_advance h.tasks hf fun tag op ok err hj _ => h.answer hf hc hj⟩
    obtain ⟨tag, op, ok, err, before, after, hs, _, hw, -⟩ := Pool.advance_cases hf
    have hkeeps : L.guard.Keeps ⟨tag, .call op ok err⟩ := h.tasks _ (by simp [hs])
    rw [hw]
    exact holds_perform tag h.stored hkeeps.permits
  | reject j =>
    obtain ⟨_, _, _, _, _, _, _, _, hw, -⟩ := Pool.reject_cases hf
    exact ⟨by rw [hw]; exact h.stored, Guard.keeps_reject h.tasks hf⟩
  | abandon j =>
    obtain ⟨_, _, _, _, _, hw, -⟩ := Pool.abandon_cases hf
    exact ⟨by rw [hw]; exact h.stored, Guard.keeps_abandon h.tasks hf⟩

theorem Lawful.initial (h : ∀ key, L.holds key none) : Lawful L Cluster.initial where
  stored := h
  tasks := by
    intro task ht
    cases ht

/-- What has been published announces or mentions records of the law. -/
def Reported (L : Law) (s : Cluster) : Prop :=
  ∀ p, .published p ∈ s.world.history →
    L.Announced (transactionKey p.transactionId) p ∨ L.Mentioned p

theorem Reported.initial : Reported L Cluster.initial := by
  intro p hp
  cases hp

theorem Reported.fire {s s' : Cluster} {label : Cluster.Label} (h : Reported L s)
    (hl : Lawful L s) (hf : s.fire label = some s') : Reported L s' := by
  intro p hp
  obtain ⟨added, hh, ha⟩ := Cluster.history_fire hf
  rw [hh, List.mem_append] at hp
  rcases hp with hp | hp
  · exact h p hp
  · cases ha _ hp with
    | published hj =>
      exact (permits_publish (hl.tasks _ (List.mem_of_getElem? hj)).permits).imp And.right id

/-- All that has been written satisfies the law. -/
def Recorded (L : Law) (s : Cluster) : Prop :=
  ∀ key value, .stored key value ∈ s.world.history → L.holds key (some value)

theorem Recorded.initial : Recorded L Cluster.initial := by
  intro key value hv
  cases hv

theorem Recorded.fire {s s' : Cluster} {label : Cluster.Label} (h : Recorded L s)
    (hl : Lawful L s) (hf : s.fire label = some s')
    (hstart : ∀ options t date, label = .start options t date →
      L.holds (transactionKey (some t)) (some (newTransaction options t date).serialize)) :
    Recorded L s' := by
  intro key value hv
  obtain ⟨added, hh, ha⟩ := Cluster.history_fire hf
  rw [hh, List.mem_append] at hv
  rcases hv with hv | hv
  · exact h key value hv
  · cases ha _ hv with
    | first options t date => exact hstart options t date rfl
    | stored hj => exact (permits_set (hl.tasks _ (List.mem_of_getElem? hj)).permits).2

/-- Whatever runs, records lie under their own keys. -/
theorem keyed_reachable {policy : Cluster.Policy} {s : Cluster}
    (h : Cluster.Reachable policy s) : Lawful Law.keyedOnly s :=
  h.induction (.initial fun _ _ hv => by cases hv) fun _ _ _ hk ⟨_, _, hf⟩ =>
    hk.fire hf Facts.cover_any fun _ _ _ _ _ hv => by
      cases hv
      exact wellKeyed_serialize _

end Pool

end InvoiceHub.Transaction
