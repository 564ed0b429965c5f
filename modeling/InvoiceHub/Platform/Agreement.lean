import InvoiceHub.Platform.Orders
import InvoiceHub.Transaction.Replica
import InvoiceHub.Transaction.Unfailed

/-!
# The two coordinators agree

The coordinator of the invoice service starts no transactions: it makes up its records from the
announcements of the other one.  Nothing contradictory is ever announced, so it announces
nothing itself, and each outcome that it records is that of the order service
(`observed_reachable`).
-/

namespace InvoiceHub

open Effects Transaction Services

/-! ## Runs without overlap -/

/-- No handler of the group is at work on the record that the message names. -/
def Platform.undisturbed (s : Platform) (message : JsonObject) : GroupIds → Bool
  | .ORDER_SERVICE_TRANSACTION_GROUP =>
    s.order.idle (transactionKey (TransactionEvent.ofMessage message).transactionId)
  | .INVOICE_SERVICE_TRANSACTION_GROUP =>
    s.invoice.idle (transactionKey (TransactionEvent.ofMessage message).transactionId)
  | .INVOICE_SERVICE_APP_GROUP => true

/-- The handlers of a coordinator do not overlap on one transaction. -/
def serialDeliveries : Platform.Policy := fun s label =>
  match label with
  | .deliver group subject source index =>
    decide (subject ∉ coordinatorTopics) ||
      ((s.published source)[index]?).all fun event => s.undisturbed event.message group
  | _ => true

namespace Hub

variable {h h' : Hub} {label : Platform.Label}

theorem Carries.undisturbed {group : GroupIds} {subject : Subjects} {source : Source} {index : Nat}
    {event : EventMessage} (hc : h.Carries source index subject event)
    (ht : subject ∈ coordinatorTopics)
    (hp : serialDeliveries h.toPlatform (.deliver group subject source index) = true) :
    h.toPlatform.undisturbed event.message group = true := by
  have hget : (h.toPlatform.published source)[index]? = some event := hc.message
  simpa [serialDeliveries, ht, hget] using hp

/-! ## What the coordinators observe -/

/-- What the coordinator of the invoice service knows of a transaction, the other one has
announced. -/
structure Observed (h : Hub) : Prop where
  sound : Sound h
  order : Cluster.Reachable unfailedPolicy h.order
  invoice : Cluster.Reachable replicaPolicy h.invoice
  relayed : ∀ subject event method, ownMethod subject = some method →
    .received subject event ∈ h.invoice.world.history →
      wasPublished h.order.world.history subject event = true

namespace Observed

theorem closed (ho : Observed h) : Cluster.Reachable closedPolicy h.order :=
  ho.order.mono unfailed_closed

/-- A received announcement has been made for its transaction. -/
theorem announcing (ho : Observed h) {subject : Subjects} {method : Publisher}
    (hm : ownMethod subject = some method) {t : String}
    (hr : Received subject (h.invoice.world.view t)) : Announcing method (h.order.world.view t) := by
  obtain ⟨event, hmem⟩ := hr
  obtain ⟨hmem, hkey⟩ := List.mem_filter.mp hmem
  exact announced_of_wasPublished (fun _ _ hl => hl) ho.closed hm
    (ho.relayed subject event method hm hmem) (beq_iff_eq.mp hkey)

/-- No announcement contradicts another. -/
theorem not_contradicted (ho : Observed h) (t : String) :
    ¬Contradicted (h.invoice.world.view t) := by
  rintro ⟨hcompleted, hstart⟩
  have hc := ho.announcing rfl hcompleted
  have hs := ho.announcing rfl hstart
  rcases unfailed_reachable ho.order t with hu | ⟨r, hr⟩
  · exact hu.not_announcing _ hc
  · have hf := hr.decided.started hs
    rw [hr.decided.completed hc] at hf
    exact not_failing_completed hf

/-- All announcements are those of the order service. -/
theorem announced (ho : Observed h) {source : Source} {index : Nat} {subject : Subjects}
    {event : EventMessage} (hc : h.Carries source index subject event) {method : Publisher}
    (hm : ownMethod subject = some method) :
    wasPublished h.order.world.history subject (TransactionEvent.ofMessage event.message) =
      true := by
  obtain ⟨hget, ht⟩ := hc
  have hmem := List.mem_of_getElem? hget
  cases source with
  | orderCoordinator =>
    obtain ⟨p, hp, rfl⟩ := mem_messages hmem
    exact List.any_eq_true.mpr ⟨_, hp, by simp [ht]⟩
  | invoiceCoordinator =>
    obtain ⟨p, hp, rfl⟩ := mem_messages hmem
    exact absurd (replica_own ho.invoice hp hm ht) (ho.not_contradicted _)
  | services =>
    rcases ho.sound.services.subject_cases hmem ht with rfl | rfl
    · cases hm
    · cases hm

theorem initial : Observed initial :=
  ⟨.initial, .refl, .refl, fun _ _ _ _ hmem => nomatch hmem⟩

theorem moves (ho : Observed h) (hm : h.Moves label h')
    (hp : serialDeliveries h.toPlatform label = true) : Observed h' := by
  have hpublished : ∀ {subject event},
      wasPublished h.order.world.history subject event = true →
        wasPublished h'.order.world.history subject event = true := by
    intro subject event hw
    obtain ⟨entry, hmem, he⟩ := List.any_eq_true.mp hw
    rcases hm.order_cases with heq | ⟨l, -, hf⟩
    · rw [heq]
      exact hw
    · obtain ⟨added, hh, -⟩ := Cluster.history_fire hf
      rw [hh]
      exact List.any_eq_true.mpr ⟨entry, List.mem_append_left _ hmem, he⟩
  refine ⟨ho.sound.moves hm, ?_, ?_, ?_⟩
  · refine hm.order_reachable ho.order fun l hl => ?_
    cases hl with
    | start choice hjobs hu =>
      simp only [unfailedPolicy, closedPolicy, ownPolicy, steps_sagaOptions]
      decide
    | receive hc ht =>
      rename_i subject source index event
      have hidle : h.order.idle _ = true := hc.undisturbed ht hp
      have hown : ownMethod subject = none ∨ wasPublished h.order.world.history subject
          (TransactionEvent.ofMessage event.message) = true := by
        cases hown : ownMethod subject with
        | none => exact .inl rfl
        | some method => exact .inr (ho.announced hc hown)
      have hf : subject ≠ .TRANSACTION_STEP_FAILED := by
        rintro rfl
        exact ho.sound.not_failed hc
      simp [unfailedPolicy, closedPolicy, ownPolicy, hidle, hown, hf]
    | internal hi =>
      cases l with
      | start options t date => cases hi
      | deliver clientId subject event => cases hi
      | _ => rfl
  · refine hm.invoice_reachable ho.invoice fun l hl => ?_
    cases hl with
    | receive hc ht => exact hc.undisturbed ht hp
    | internal hi =>
      cases l with
      | start options t date => cases hi
      | deliver clientId subject event => cases hi
      | _ => rfl
  · intro subject event method hown hmem
    rcases hm.invoice_cases with heq | ⟨l, hl, hf⟩
    · exact hpublished (ho.relayed subject event method hown (heq ▸ hmem))
    · obtain ⟨added, hh, ha⟩ := Cluster.history_fire hf
      rw [hh, List.mem_append] at hmem
      rcases hmem with hmem | hmem
      · exact hpublished (ho.relayed subject event method hown hmem)
      · obtain ⟨clientId, rfl⟩ := (ha _ hmem).of_received
        cases hl with
        | receive hc ht => exact hpublished (ho.announced hc hown)
        | internal hi => cases hi

end Observed

theorem observed_reachable {s : Platform} (hs : Platform.Reachable serialDeliveries s) :
    ∃ h : Hub, s = h.toPlatform ∧ Observed h :=
  induction .initial (fun _ _ _ _ ho hp hm => ho.moves hm hp) hs

end Hub

/-! ## Agreement -/

/-- The two records of `t` agree on the outcome. -/
structure OutcomesAgree (s : Platform) (t : String) : Prop where
  completed : Platform.recordStatus s.invoice t = some .COMPLETED → Platform.recordStatus s.order t = some .COMPLETED
  compensated : Platform.recordStatus s.invoice t = some .COMPENSATED →
    Platform.recordStatus s.order t = some .COMPENSATED
  order_completed : Platform.recordStatus s.order t = some .COMPLETED →
    Platform.recordStatus s.invoice t ≠ some .COMPENSATING ∧ Platform.recordStatus s.invoice t ≠ some .COMPENSATED
  invoice_completed : Platform.recordStatus s.invoice t = some .COMPLETED →
    Platform.recordStatus s.order t ≠ some .COMPENSATING ∧ Platform.recordStatus s.order t ≠ some .COMPENSATED

/-- In every run the records of a transaction agree, whatever is delivered again and in whichever
order. -/
theorem coordinators_agree {s : Platform} (hs : Platform.Reachable serialDeliveries s)
    {t : String} {options : TransactionOptions} (hc : .created t options ∈ s.order.world.history) :
    OutcomesAgree s t := by
  obtain ⟨h, rfl, ho⟩ := Hub.observed_reachable hs
  have hreplica := replica_reachable ho.invoice t
  have hexplained : ∀ {status}, Platform.recordStatus h.invoice t = some status →
      Explained status (h.invoice.world.view t) := by
    intro status hstatus
    obtain ⟨v, hv, rfl⟩ := Option.map_eq_some_iff.mp hstatus
    exact hreplica.explained v hv
  obtain ⟨r, hr⟩ : ∃ r, Unfailed r (h.order.world.view t) := by
    rcases unfailed_reachable ho.order t with hu | hr
    · obtain ⟨subject, event, he⟩ := hu.history _ (Lifecycle.created_mem_view hc)
      cases he
    · exact hr
  have hstatus : Platform.recordStatus h.order t = some r.status :=
    congrArg (Option.map SerializedTransaction.status) hr.decided.record
  have hcompleted : Platform.recordStatus h.invoice t = some .COMPLETED → r.status = .COMPLETED :=
    fun hi => hr.decided.completed (ho.announcing rfl (hexplained hi))
  have hcompensated : Platform.recordStatus h.invoice t = some .COMPENSATED → r.status = .COMPENSATED := by
    intro hi
    rcases hexplained hi with hreceived | hcontra
    · exact hr.announced (ho.announcing rfl hreceived)
    · exact absurd hcontra (ho.not_contradicted t)
  have hcompensating : Platform.recordStatus h.invoice t = some .COMPENSATING → Failing r.status :=
    fun hi => hr.decided.started (ho.announcing rfl (hexplained hi))
  refine ⟨?_, ?_, ?_, ?_⟩
  · intro hi
    exact hstatus.trans (congrArg some (hcompleted hi))
  · intro hi
    exact hstatus.trans (congrArg some (hcompensated hi))
  · intro hcomp
    obtain hcomp : r.status = .COMPLETED := Option.some_inj.mp (hstatus.symm.trans hcomp)
    refine ⟨fun hi => ?_, fun hi => ?_⟩
    · have hf := hcompensating hi
      rw [hcomp] at hf
      exact not_failing_completed hf
    · rw [hcompensated hi] at hcomp
      cases hcomp
  · intro hi
    change Platform.recordStatus h.order t ≠ _ ∧ Platform.recordStatus h.order t ≠ _
    rw [hstatus, hcompleted hi]
    exact ⟨nofun, nofun⟩

/-- The compensation is announced to the invoice service, its end first. -/
def announcedCompensation : List Platform.Label := List.flatten
  [compensatedOrder,
    [.deliver .INVOICE_SERVICE_TRANSACTION_GROUP .TRANSACTION_COMPENSATION_COMPLETED
      .orderCoordinator 5],
    List.replicate 4 (.invoice (.advance 0 0)),
    [.deliver .INVOICE_SERVICE_TRANSACTION_GROUP .TRANSACTION_COMPENSATION_START
      .orderCoordinator 4],
    List.replicate 1 (.invoice (.advance 0 0))]

theorem isSome_announcedCompensation :
    (Platform.run serialDeliveries announcedCompensation).isSome = true := by
  decide +kernel

/-- Both records are compensated. -/
def compensatedTwice : Platform :=
  (Platform.run serialDeliveries announcedCompensation).get isSome_announcedCompensation

theorem reachable_compensatedTwice : Platform.Reachable serialDeliveries compensatedTwice :=
  Machine.reachable_run announcedCompensation isSome_announcedCompensation

theorem coordinators_agree_compensatedTwice : OutcomesAgree compensatedTwice "t" := by
  have hcreated : compensatedTwice.order.world.history.any (startsSaga "t" "a") = true := by
    decide +kernel
  obtain ⟨options, hmem, -⟩ := exists_created hcreated
  exact coordinators_agree reachable_compensatedTwice hmem

example : Platform.recordStatus compensatedTwice.order "t" = some .COMPENSATED ∧
    Platform.recordStatus compensatedTwice.invoice "t" = some .COMPENSATED := by decide +kernel

end InvoiceHub
