import InvoiceHub.Domain.RoundTrip
import InvoiceHub.Transaction.Issues

/-!
# Every stored record is readable

As long as the events name their transaction, and no process type outside the enumeration,
whatever a coordinator writes is the serialization of a transaction, under its own key
(`readable_reachable`).
-/

namespace InvoiceHub.Transaction

open Effects

/-! ## What the handlers write -/

/-- The event names its transaction; a process type it carries is one of the enumeration. -/
def wellFormed (event : TransactionEvent) : Bool :=
  event.transactionId.isSome && event.processType.all fun text => (toProcessType text).isSome

/-- What is written is a transaction, under its own key. -/
def Writes : Call → Prop
  | .set key value => ∃ transaction : DistributedTransaction,
    key = transactionKey (some transaction.transactionId) ∧ value = transaction.serialize
  | _ => True

/-- A program writes transactions only, whatever it reads. -/
def WritesOnly {α : Type} (p : Async α) : Prop := p.Guarded (fun _ _ => True) Writes Writes

section Writes

variable {id : Option String} {clientId : ClientIds} {subject : Subjects}
  {event : TransactionEvent} {op : Call}

/-- What is issued for a well-formed event writes transactions only: its minimal records are
transactions as well. -/
theorem Issues.writes (hop : Issues clientId subject event op) (h : wellFormed event = true) :
    Writes op := by
  cases hop with
  | progress r _ => exact ⟨r, rfl, rfl⟩
  | @close r _ => exact ⟨r, rfl, rfl⟩
  | @minimal text status startedAt completedAt hp _ =>
    obtain ⟨hsome, hall⟩ := Bool.and_eq_true_iff.mp h
    obtain ⟨transactionId, hid⟩ := Option.isSome_iff_exists.mp hsome
    obtain ⟨type, htype⟩ := Option.isSome_iff_exists.mp (Option.all_eq_true _ _ |>.mp hall text hp)
    have hvalue : type.value = text := by simpa using List.find?_some htype
    rw [hid, ← hvalue]
    exact ⟨{ transactionId, processType := type, status, startedAt, completedAt
             currentStep := 0, steps := [], initiatedBy := clientId.value, payload := ∅ },
      rfl, rfl⟩
  | _ => trivial

theorem IssuesOnly.writes {p : Async Unit} (hp : IssuesOnly clientId subject event p)
    (h : wellFormed event = true) : WritesOnly p :=
  hp.mono (fun _ _ hr => hr) (fun _ hop => hop.writes h) fun _ hop => hop.writes h

theorem writes_handleProgressTransaction : WritesOnly (handleProgressTransaction id) :=
  have hissues : IssuesOnly .ORDER_SERVICE .TRANSACTION_STEP_COMPLETED { transactionId := some "" }
      (handleProgressTransaction id) := issues_handleProgressTransaction rfl
  hissues.writes rfl

/-- Whatever they read, the handlers of well-formed events write transactions only. -/
theorem writes_handle (clientId : ClientIds) (subject : Subjects) {event : TransactionEvent}
    (h : wellFormed event = true) : WritesOnly (handle clientId subject event) :=
  (issues_handle clientId subject event).writes h

theorem writes_checkTimeouts : WritesOnly checkTimeouts :=
  have hissues : IssuesOnly .ORDER_SERVICE .TRANSACTION_TIMEOUT { transactionId := some "" }
      checkTimeouts := issues_checkTimeouts
  hissues.writes rfl

end Writes

/-! ## Runs -/

namespace Cluster

/-- The events that are delivered are well formed. -/
def wellFormed : Policy := fun _ label =>
  match label with
  | .deliver _ _ event => Transaction.wellFormed event
  | _ => true

end Cluster

/-- What the tasks of a run keep to. -/
def writing : Guard Activity Call Call.Res Activity.background where
  answer _ _ _ := True
  permits _ := Writes
  spawns _ := Writes
  started h := h

/-- What has been written are transactions, and what is running writes nothing else. -/
structure Readable (s : Cluster) : Prop where
  stored : ∀ key value, .stored key value ∈ s.world.history → Writes (.set key value)
  tasks : ∀ task ∈ s.tasks, writing.Keeps task

theorem readable_initial : Readable Cluster.initial where
  stored := by
    intro key value h
    cases h
  tasks := by
    intro task h
    cases h

theorem Readable.fire {s s' : Cluster} {label : Cluster.Label} (h : Readable s)
    (hp : Cluster.wellFormed s label = true) (hf : s.fire label = some s') : Readable s' where
  stored := by
    intro key value hv
    obtain ⟨added, hh, ha⟩ := Cluster.history_fire hf
    rw [hh, List.mem_append] at hv
    rcases hv with hv | hv
    · exact h.stored key value hv
    · cases ha _ hv with
      | first options t date => exact ⟨newTransaction options t date, rfl, rfl⟩
      | stored hj => exact (h.tasks _ (List.mem_of_getElem? hj)).permits
  tasks := by
    refine keeps_fire (fun _ _ _ => trivial) (fun t => writes_handleProgressTransaction) ?_
      writes_checkTimeouts h.tasks hf
    rintro clientId subject event rfl
    exact writes_handle clientId subject hp

theorem readable_reachable {s : Cluster} (h : Cluster.Reachable Cluster.wellFormed s) :
    Readable s :=
  h.induction readable_initial fun _ _ _ hs ⟨_, hp, hf⟩ => hs.fire hp hf

/-! ## Reading back -/

open Serialization in
/-- A transaction that is stored reads back the same, and in every run with well-formed events
whatever has been written under a key is a transaction whose text reads back under that key. -/
theorem stored_reads_back {D : Type} (runtime : Runtime D) (hl : runtime.Lawful) :
    (∀ (transaction : Record D) (redis : Texts), IsRecord transaction →
      ∃ id stored read, transaction.get "transactionId" = .property (.json (.str id)) ∧
        Serialization.storeTransactionState runtime (fun id => transactionKey (some id)) redis
          transaction = some stored ∧
        Serialization.getTransactionState runtime (fun id => transactionKey (some id)) stored id =
          some read ∧ read.Equal transaction) ∧
    ∀ s : Cluster, Cluster.Reachable Cluster.wellFormed s →
      ∀ key value, .stored key value ∈ s.world.history →
        ∃ transaction, value.read = some transaction ∧
          ∀ redis : Texts, ∃ stored read,
            Serialization.storeTransactionState runtime (fun id => transactionKey (some id)) redis
              (ofTransaction runtime transaction) = some stored ∧
            Serialization.getTransactionByKey runtime stored key = some read ∧
            read.Equal (ofTransaction runtime transaction) := by
  refine ⟨fun transaction redis h => h.getTransactionState hl _ redis, ?_⟩
  intro s hs key value hv
  obtain ⟨transaction, rfl, rfl⟩ := (readable_reachable hs).stored key value hv
  refine ⟨transaction, DistributedTransaction.read_serialize transaction, fun redis => ?_⟩
  obtain ⟨id, stored, read, hid, hstored, hread, heq⟩ :=
    (isRecord_ofTransaction runtime transaction).getTransactionState hl
      (fun id => transactionKey (some id)) redis
  rw [get_transactionId] at hid
  cases hid
  exact ⟨stored, read, hstored, hread, heq⟩

/-- A valid date, by the text of it. -/
abbrev IsoDate := { text : String // text.toList.getLast? = some 'Z' }

theorem getLast?_toISOString (date : Date) :
    (Date.toISOString date).toList.getLast? = some 'Z' := by
  obtain ⟨front, h⟩ : ∃ front, Date.toISOString date = front ++ "Z" := ⟨_, rfl⟩
  have hz : "Z".toList = ['Z'] := by decide
  rw [h, String.toList_append, hz, List.getLast?_concat]

/-- A runtime whose dates are their texts. -/
def isoRuntime : Serialization.Runtime IsoDate where
  ofTime date := ⟨Date.toISOString date, getLast?_toISOString date⟩
  toISOString date := date.val
  newDate
    | .str text => if h : text.toList.getLast? = some 'Z' then some ⟨text, h⟩ else none
    | _ => none
  text _ := "[object Object]"

theorem isoRuntime_lawful : isoRuntime.Lawful where
  newDate_toISOString date := dif_pos date.property
  toISOString_ne date := by
    intro h
    have hlast := date.property
    rw [show date.val = "" from h] at hlast
    cases hlast

/-- A transaction whose first step was completed and whose second one failed. -/
def failedTransaction : DistributedTransaction where
  transactionId := "t"
  processType := .ORDER_APPROVAL
  status := .FAILED
  startedAt := 1740857466779
  currentStep := 1
  initiatedBy := "user"
  payload := JsonObject.put ∅ "orderId" (some (.str "order"))
  steps :=
    [{ name := "order_approval_step_invoice_generate", service := .INVOICE_SERVICE,
       status := .COMPLETED, startedAt := some 1740857466779, completedAt := some 1740857467002 },
     { name := "order_approval_step_update_order_status", service := .ORDER_SERVICE,
       status := .FAILED, startedAt := some 1740857467003, error := some "unreachable" }]
  error := some "unreachable"

open Serialization in
theorem stored_reads_back_failed :
    ∃ id stored read, Record.get (ofTransaction isoRuntime failedTransaction) "transactionId" =
        .property (.json (.str id)) ∧
      Serialization.storeTransactionState isoRuntime (fun id => transactionKey (some id)) ∅
        (ofTransaction isoRuntime failedTransaction) = some stored ∧
      Serialization.getTransactionState isoRuntime (fun id => transactionKey (some id)) stored id =
        some read ∧ read.Equal (ofTransaction isoRuntime failedTransaction) :=
  (stored_reads_back isoRuntime isoRuntime_lawful).1 _ ∅
    (isRecord_ofTransaction isoRuntime failedTransaction)

end InvoiceHub.Transaction
