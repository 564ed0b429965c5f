import InvoiceHub.Transaction.OwnMessages
import InvoiceHub.Transaction.Origin

/-!
# A coordinator that observes

A coordinator that starts no transactions makes up its records from the messages of another
one.  Each status it stores is explained by what it has received (`replica_reachable`), and it
announces nothing unless it has received both a completion and the start of a compensation
(`replica_own`).
-/

namespace InvoiceHub.Transaction

open Effects

/-- An event of the topic has been received. -/
def Received (subject : Subjects) (ℓ : View) : Prop :=
  ∃ event, .received subject event ∈ ℓ.history

theorem Received.apply {subject : Subjects} {ℓ : View} (h : Received subject ℓ) (entry : Entry) :
    Received subject (ℓ.apply entry) := by
  obtain ⟨event, hmem⟩ := h
  exact ⟨event, List.mem_append_left _ hmem⟩

theorem received_apply (subject : Subjects) (event : TransactionEvent) (ℓ : View) :
    Received subject (ℓ.apply (.received subject event)) :=
  ⟨event, List.mem_append_right _ (List.mem_singleton.mpr rfl)⟩

/-- A completion and the start of a compensation have been received. -/
def Contradicted (ℓ : View) : Prop :=
  Received .TRANSACTION_COMPLETED ℓ ∧ Received .TRANSACTION_COMPENSATION_START ℓ

/-- What must have been received for a status to be stored. -/
def Explained : DistributedTransactionStatus → View → Prop
  | .COMPLETED, ℓ => Received .TRANSACTION_COMPLETED ℓ
  | .COMPENSATING, ℓ => Received .TRANSACTION_COMPENSATION_START ℓ
  | .COMPENSATED, ℓ => Received .TRANSACTION_COMPENSATION_COMPLETED ℓ ∨ Contradicted ℓ
  | _, _ => False

theorem Explained.apply {status : DistributedTransactionStatus} {ℓ : View}
    (h : Explained status ℓ) (entry : Entry) : Explained status (ℓ.apply entry) := by
  cases status with
  | COMPLETED => exact Received.apply h entry
  | COMPENSATING => exact Received.apply h entry
  | COMPENSATED => exact h.imp (·.apply entry) fun ⟨hc, hs⟩ => ⟨hc.apply entry, hs.apply entry⟩
  | _ => exact h

/-- The record of a transaction that was started elsewhere. -/
structure Replica (ℓ : View) : Prop where
  steps : ∀ v, ℓ.record = some v → v.steps = []
  explained : ∀ v, ℓ.record = some v → Explained v.status ℓ
  published : ∀ p, .published p ∈ ℓ.history → Contradicted ℓ

namespace Replica

variable {ℓ : View}

theorem received (h : Replica ℓ) (subject : Subjects) (event : TransactionEvent) :
    Replica (ℓ.apply (.received subject event)) := by
  refine ⟨h.steps, fun v hv => (h.explained v hv).apply _, fun p hp => ?_⟩
  rcases List.mem_append.mp hp with hp | hp
  · obtain ⟨hc, hs⟩ := h.published p hp
    exact ⟨hc.apply _, hs.apply _⟩
  · cases List.mem_singleton.mp hp

/-- A write that is explained. -/
theorem store (h : Replica ℓ) (key : String) {value : SerializedTransaction}
    (hs : value.steps = []) (he : Explained value.status ℓ) :
    Replica (ℓ.apply (.stored key value)) := by
  refine ⟨?_, ?_, fun p hp => ?_⟩
  · rintro _ ⟨⟩
    exact hs
  · rintro _ ⟨⟩
    exact he.apply _
  · rcases List.mem_append.mp hp with hp | hp
    · obtain ⟨hc, hs⟩ := h.published p hp
      exact ⟨hc.apply _, hs.apply _⟩
    · cases List.mem_singleton.mp hp

theorem publish (h : Replica ℓ) (p : Publication) (hc : Contradicted ℓ) :
    Replica (ℓ.apply (.published p)) :=
  ⟨h.steps, fun v hv => (h.explained v hv).apply _, fun _ _ => ⟨hc.1.apply _, hc.2.apply _⟩⟩

/-- A minimal record, where an event of its topic has been received. -/
theorem minimal (h : Replica ℓ) (clientId : ClientIds) (event : TransactionEvent)
    (status : DistributedTransactionStatus) (he : Explained status ℓ) (startedAt : Date)
    (completedAt : Option Date) :
    View.Along Replica Replica ℓ (writtenMinimal clientId event status startedAt completedAt) := by
  unfold writtenMinimal
  split
  · exact ⟨h, h⟩
  · exact ⟨h, h.store _ rfl he, h.store _ rfl he⟩

/-- The handler of an event keeps the record explained. -/
theorem react (h : Replica ℓ) (clientId : ClientIds) (event : TransactionEvent)
    {subject : Subjects} (hr : Received subject ℓ) (notified : Bool) (dates : Nat → Date) :
    View.Along Replica Replica ℓ (Transaction.react clientId subject event
      (ℓ.record.bind SerializedTransaction.read) notified dates) := by
  rcases read_cases ℓ.record with hn | ⟨r, hread, hrec⟩
  · rw [hn]
    cases subject with
    | TRANSACTION_COMPENSATION_START => exact h.minimal clientId event .COMPENSATING hr _ _
    | TRANSACTION_COMPENSATION_COMPLETED =>
      exact h.minimal clientId event .COMPENSATED (Or.inl hr) _ _
    | TRANSACTION_COMPLETED => exact h.minimal clientId event .COMPLETED hr _ _
    | _ => exact ⟨h, h⟩
  · rw [hread]
    have hsteps : r.steps = [] := h.steps _ hrec
    have hexplained : Explained r.status ℓ := h.explained _ hrec
    have hnone : r.steps[r.currentStep]? = none := by
      rw [hsteps]
      rfl
    cases subject with
    | TRANSACTION_STEP_COMPLETED =>
      simp only [Transaction.react, hnone]
      exact ⟨h, h⟩
    | TRANSACTION_STEP_FAILED =>
      simp only [Transaction.react, hnone]
      exact ⟨h, h⟩
    | TRANSACTION_COMPENSATION_START =>
      simp only [Transaction.react]
      split
      · exact ⟨h, h⟩
      · rename_i hs
        -- nothing but a completion explains the record
        have hc : Contradicted ℓ := by
          cases hst : r.status with
          | COMPLETED =>
            rw [hst] at hexplained
            exact ⟨hexplained, hr⟩
          | COMPENSATING => exact absurd (.inl hst) hs
          | COMPENSATED => exact absurd (.inr hst) hs
          | _ =>
            rw [hst] at hexplained
            exact hexplained.elim
        have h₁ : Replica (ℓ.apply (written (beginCompensation r))) :=
          h.store _ hsteps (show Explained .COMPENSATING ℓ from hr)
        have h₂ := h₁.publish ⟨.handleExecuteCompensation, event.transactionId,
          outcomeMessage .TRANSACTION_COMPENSATION_COMPLETED event.transactionId
            event.processType⟩ ⟨hc.1.apply _, hc.2.apply _⟩
        exact ⟨h, h₁, h₂, h₂⟩
    | TRANSACTION_COMPENSATION_COMPLETED =>
      simp only [Transaction.react]
      split
      · exact ⟨h, h⟩
      · have h₁ : Replica (ℓ.apply (written (close r .COMPENSATED (dates 0)))) :=
          h.store _ hsteps (show Explained .COMPENSATED ℓ from .inl hr)
        exact ⟨h, h₁, h₁⟩
    | TRANSACTION_COMPLETED =>
      simp only [Transaction.react]
      split
      · exact ⟨h, h⟩
      · rename_i hs
        have he : Explained .COMPENSATED ℓ := by
          cases hst : r.status with
          | COMPLETED => exact absurd hst hs
          | COMPENSATING =>
            rw [hst] at hexplained
            exact .inr ⟨hr, hexplained⟩
          | COMPENSATED =>
            rw [hst] at hexplained
            exact hexplained
          | _ =>
            rw [hst] at hexplained
            exact hexplained.elim
        have h₁ : Replica (ℓ.apply (written (close r .COMPENSATED (dates 0)))) :=
          h.store _ hsteps he
        exact ⟨h, h₁, h₁⟩
    | TRANSACTION_TIMEOUT =>
      simp only [Transaction.react]
      split
      · rename_i hs
        rw [hs] at hexplained
        exact hexplained.elim
      · exact ⟨h, h⟩
    | _ => exact ⟨h, h⟩

end Replica

/-! ## Runs -/

/-- Nothing is started, and handlers of one transaction do not overlap. -/
def replicaPolicy : Cluster.Policy := fun s label =>
  match label with
  | .start .. => false
  | .deliver _ _ event => s.idle (transactionKey event.transactionId)
  | _ => true

theorem replica_discipline (t : String) :
    Discipline replicaPolicy t Replica Replica True where
  initial := ⟨nofun, nofun, nofun⟩
  stopped := fun _ _ h => h
  fails := fun _ _ _ _ _ _ => trivial
  stops := fun _ _ _ _ _ _ => trivial
  exclusive := by
    intro s clientId subject event hp hk
    rw [← hk]
    exact hp
  start := fun s options date _ hp => nomatch hp
  deliver := by
    intro s clientId subject event _ _ _ h notified dates _
    exact (h.received subject event).react clientId event (received_apply subject event _)
      notified dates

/-- The records of a coordinator that observes are explained by what it has received. -/
theorem replica_reachable {s : Cluster} (h : Cluster.Reachable replicaPolicy s) (t : String) :
    Replica (s.world.view t) :=
  ((replica_discipline t).always h).elim id id

/-- It announces on an own topic only what it has received contradicting messages about. -/
theorem replica_own {s : Cluster} (h : Cluster.Reachable replicaPolicy s) {p : Publication}
    (hp : .published p ∈ s.world.history) {subject : Subjects} {method : Publisher}
    (hm : ownMethod subject = some method) (ht : p.event.topicName = subject.value) :
    Contradicted (s.world.view (p.transactionId.getD "undefined")) := by
  have hreported := (unreserved_reachable (fun _ _ _ _ hs => absurd hs Bool.false_ne_true) h).2 p hp
  obtain ⟨hpub, -⟩ := own_of_reported hm hreported ht
  refine (replica_reachable h _).published p (List.mem_filter.mpr ⟨hp, ?_⟩)
  have hkey : transactionKey p.transactionId =
      transactionKey (some (p.transactionId.getD "undefined")) :=
    transactionKey_eq_iff.mpr rfl
  have hawaited : p.publisher.awaited = true := by
    rw [hpub]
    cases subject <;> cases hm <;> rfl
  simp [Entry.concerns, ← hkey, hawaited]

end InvoiceHub.Transaction
