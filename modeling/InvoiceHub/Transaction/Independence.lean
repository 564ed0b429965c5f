import InvoiceHub.Transaction.Lawful
import InvoiceHub.Transaction.Locality

/-!
# Sagas do not interfere

Handlers run one at a time, each alone.  Inputs for different transactions can be handled in
either order (`Input.run_comm`), and the record of a transaction is made by the inputs for it, up
to the readings of the clock (`runInputs_record`).
-/

namespace InvoiceHub.Transaction

open Effects

/-! ## One input at a time -/

/-- What a coordinator is given. -/
inductive Input where
  /-- `startTransaction` is called; `uuidv4` returns `transactionId`. -/
  | start (options : TransactionOptions) (transactionId : String)
  /-- A process of `clientId` gets an event on the topic `subject`. -/
  | deliver (clientId : ClientIds) (subject : Subjects) (event : TransactionEvent)

namespace Input

/-- The key of the transaction an input names. -/
def key : Input → String
  | start _ transactionId => transactionKey (some transactionId)
  | deliver _ _ event => transactionKey event.transactionId

/-- The entry of an input in the history. -/
def entry : Input → Entry
  | start options transactionId => .created transactionId options
  | deliver _ subject event => .received subject event

/-- What runs for an input. -/
def activity : Input → Activity
  | start _ transactionId => .startTransaction transactionId
  | deliver clientId subject event => .handler clientId subject event

/-- The method that an input calls. -/
def method : Input → Async Unit
  | start options transactionId => do
    let _ ← startTransaction options transactionId
    return ()
  | deliver clientId subject event => handle clientId subject event

/-- The method runs alone; `clock n` is what the clock shows at its `n`-th call. -/
def run (input : Input) (clock : Nat → Date) (store : Store) : Store :=
  input.method.alone Activity.background perform input.activity clock
    { store with history := store.history ++ [input.entry] }

theorem local_method (input : Input) : Local input.key input.method input.method := by
  cases input with
  | start options t => exact (local_startTransaction options t).bind fun _ _ _ => .pure trivial
  | deliver clientId subject event => exact local_handle clientId subject event

end Input

/-- Inputs handled one after the other, each with its own readings of the clock. -/
def runInputs (inputs : List (Input × (Nat → Date))) (store : Store) : Store :=
  inputs.foldl (fun store input => input.1.run input.2 store) store

/-! ## Stores up to the clock -/

/-- The messages published so far. -/
def publications (history : List Entry) : List Publication :=
  history.filterMap fun
    | .published p => some p
    | _ => none

/-- The same records, and the same messages in some order, up to the readings of the clock. -/
structure Store.SameUpToTime (s s' : Store) : Prop where
  records : ∀ key, (s.redis.lookup key).map SerializedTransaction.timeless =
    (s'.redis.lookup key).map SerializedTransaction.timeless
  published : ((publications s.history).map Publication.timeless).Perm
    ((publications s'.history).map Publication.timeless)

/-- Every record lies under its own key. -/
def Store.Keyed (s : Store) : Prop :=
  ∀ key value, s.redis.lookup key = some value → WellKeyed key value

/-- `w` and `w'` come from `s` and `s'` by the same work on the record under `key`. -/
structure Abreast (key : String) (s s' w w' : Store) : Prop where
  record : SameRecord key (w.redis.lookup key) (w'.redis.lookup key)
  frame : ∀ k, k ≠ key → w.redis.lookup k = s.redis.lookup k
  frame' : ∀ k, k ≠ key → w'.redis.lookup k = s'.redis.lookup k
  published : ∃ added,
    (publications w.history).map Publication.timeless =
      (publications s.history).map Publication.timeless ++ added ∧
    (publications w'.history).map Publication.timeless =
      (publications s'.history).map Publication.timeless ++ added

variable {key : String} {s s' w w' : Store}

/-- Calls that are alike do the same work. -/
theorem Abreast.perform {activity activity' : Activity} {date date' : Date} {op op' : Call}
    (hop : Alike key op op') (h : Abreast key s s' w w') :
    AnsweredAlike key op op' (perform activity date op w).1 (perform activity' date' op' w').1 ∧
      Abreast key s s' (perform activity date op w).2 (perform activity' date' op' w').2 := by
  cases hop with
  | get => exact ⟨h.record, h⟩
  | @set value value' hv =>
    obtain ⟨added, hp, hp'⟩ := h.published
    have hadd : ∀ history, publications (history ++ [Entry.stored key value]) =
        publications history := fun history => by simp [publications]
    have hadd' : ∀ history, publications (history ++ [Entry.stored key value']) =
        publications history := fun history => by simp [publications]
    refine ⟨trivial, ?_, ?_, ?_, added, ?_, ?_⟩
    · simpa [Transaction.perform] using hv
    · intro k hk
      exact (AList.lookup_insert_ne hk).trans (h.frame k hk)
    · intro k hk
      exact (AList.lookup_insert_ne hk).trans (h.frame' k hk)
    · exact (congrArg _ (hadd _)).trans hp
    · exact (congrArg _ (hadd' _)).trans hp'
  | @publish p p' hpp =>
    obtain ⟨added, hp, hp'⟩ := h.published
    refine ⟨trivial, h.record, h.frame, h.frame', added ++ [p.timeless], ?_, ?_⟩
    · rw [← List.append_assoc, ← hp]
      simp [Transaction.perform, publications]
    · rw [hpp, ← List.append_assoc, ← hp']
      simp [Transaction.perform, publications]
  | now => exact ⟨trivial, h⟩

/-- An input handled in two stores that agree on its record does the same work in both. -/
theorem Input.abreast_run (input : Input) (s s' : Store) (clock clock' : Nat → Date)
    (h : SameRecord input.key (s.redis.lookup input.key) (s'.redis.lookup input.key)) :
    Abreast input.key s s' (input.run clock s) (input.run clock' s') := by
  have hentry : ∀ history, publications (history ++ [input.entry]) = publications history := by
    intro history
    cases input <;> simp [publications, Input.entry]
  refine input.local_method.alone (W := Abreast input.key s s')
    (fun _ _ _ _ _ _ _ _ hop hW => hW.perform hop) _ _ _ _ ?_
  refine ⟨h, fun _ _ => rfl, fun _ _ => rfl, [], ?_, ?_⟩
  · rw [List.append_nil, hentry]
  · rw [List.append_nil, hentry]

/-- What a handler leaves under other keys, and under its own. -/
theorem Input.keyed_run (input : Input) (clock : Nat → Date) (h : s.Keyed) :
    (input.run clock s).Keyed := by
  have ha := input.abreast_run s s clock clock (.refl fun v hv => h _ v hv)
  intro key value hv
  by_cases hkey : key = input.key
  · subst hkey
    exact ha.record.keyed value hv
  · rw [ha.frame key hkey] at hv
    exact h key value hv

/-- Inputs for different transactions commute. -/
theorem Input.run_comm (input input' : Input) (hne : input.key ≠ input'.key)
    (clock₁ clock₂ clock₁' clock₂' : Nat → Date) (h : s.Keyed) :
    (input'.run clock₂ (input.run clock₁ s)).SameUpToTime
      (input.run clock₁' (input'.run clock₂' s)) := by
  have hself : ∀ key, SameRecord key (s.redis.lookup key) (s.redis.lookup key) :=
    fun key => .refl fun v hv => h key v hv
  -- `input` before and after `input'`
  have h₁ : Abreast input.key s (input'.run clock₂' s) (input.run clock₁ s)
      (input.run clock₁' (input'.run clock₂' s)) := by
    refine input.abreast_run _ _ _ _ ?_
    rw [(input'.abreast_run s s clock₂' clock₂' (hself _)).frame _ hne]
    exact hself _
  -- `input'` after and before `input`
  have h₂ : Abreast input'.key (input.run clock₁ s) s (input'.run clock₂ (input.run clock₁ s))
      (input'.run clock₂' s) := by
    refine input'.abreast_run _ _ _ _ ?_
    rw [(input.abreast_run s s clock₁ clock₁ (hself _)).frame _ hne.symm]
    exact hself _
  constructor
  · intro key
    by_cases hkey : key = input.key
    · subst hkey
      rw [h₂.frame _ hne]
      exact h₁.record.timeless
    · rw [h₁.frame' key hkey]
      by_cases hkey' : key = input'.key
      · subst hkey'
        exact h₂.record.timeless
      · rw [h₂.frame key hkey', h₂.frame' key hkey', h₁.frame key hkey]
  · obtain ⟨added, hp₁, hp₁'⟩ := h₁.published
    obtain ⟨added', hp₂, hp₂'⟩ := h₂.published
    rw [hp₂, hp₁, hp₁', hp₂', List.append_assoc, List.append_assoc]
    exact (List.perm_append_comm).append_left _

/-- The record under a key after a run is made by the inputs that name it. -/
theorem runInputs_record (inputs : List (Input × (Nat → Date))) :
    ∀ (inputs' : List (Input × (Nat → Date))) (s s' : Store), s.Keyed → s'.Keyed →
      inputs'.map Prod.fst = (inputs.map Prod.fst).filter (·.key = key) →
      (s.redis.lookup key).map SerializedTransaction.timeless =
        (s'.redis.lookup key).map SerializedTransaction.timeless →
      ((runInputs inputs s).redis.lookup key).map SerializedTransaction.timeless =
        ((runInputs inputs' s').redis.lookup key).map SerializedTransaction.timeless := by
  induction inputs with
  | nil =>
    intro inputs' s s' _ _ hi h
    rw [List.map_nil, List.filter_nil, List.map_eq_nil_iff] at hi
    subst hi
    exact h
  | cons head rest ih =>
    obtain ⟨input, clock⟩ := head
    intro inputs' s s' hs hs' hi h
    by_cases hkey : input.key = key
    · subst hkey
      rw [List.map_cons, List.filter_cons_of_pos (by simp), List.map_eq_cons_iff] at hi
      obtain ⟨⟨input', clock'⟩, rest', rfl, hinput, hrest⟩ := hi
      obtain rfl : input' = input := hinput
      have ha := input'.abreast_run s s' clock clock' ⟨h, fun v hv => hs _ v hv, fun v hv => hs' _ v hv⟩
      exact ih rest' _ _ (input'.keyed_run clock hs) (input'.keyed_run clock' hs') hrest
        ha.record.timeless
    · rw [List.map_cons, List.filter_cons_of_neg (by simpa using hkey)] at hi
      have ha := input.abreast_run s s clock clock (.refl fun v hv => hs _ v hv)
      refine ih inputs' _ s' (input.keyed_run clock hs) hs' hi ?_
      rw [ha.frame key (Ne.symm hkey)]
      exact h

/-! ## In the runs of the cluster -/

theorem reachable_advances {policy : Cluster.Policy} {s s' : Cluster}
    (hpolicy : ∀ s j date, policy s (.advance j date) = true) (h : Cluster.Reachable policy s)
    (hs : Relation.ReflTransGen
      (fun s s' => ∃ j date, Pool.advance Activity.background perform s j date = some s') s s') :
    Cluster.Reachable policy s' := by
  induction hs with
  | refl => exact h
  | tail _ hst ih =>
    obtain ⟨j, date, hf⟩ := hst
    exact ih.tail ⟨.advance j date, hpolicy _ j date, hf⟩

/-- The cluster handles one input at a time as it is handled alone. -/
theorem reachable_input {s : Cluster} (h : Cluster.Reachable (fun _ _ => true) s)
    (hidle : s.tasks = []) (input : Input) (clock : Nat → Date)
    (hfresh : ∀ options t, input = .start options t →
      s.world.redis.lookup (transactionKey (some t)) = none) :
    Cluster.Reachable (fun _ _ => true) ⟨input.run clock s.world, []⟩ := by
  cases input with
  | deliver clientId subject event =>
    have hstart : Cluster.Reachable (fun _ _ => true) (Pool.begin Activity.background _ _ _) :=
      h.tail ⟨.deliver clientId subject event, rfl, rfl⟩
    rw [Pool.begin, hidle, List.nil_append] at hstart
    exact reachable_advances (fun _ _ _ => rfl) hstart (Prog.advances_alone _ _ _)
  | start options t =>
    have hf : s.fresh t = true := by
      simp [Cluster.fresh, Cluster.idle, Pool.Idle, hfresh options t rfl, hidle]
    have hstart : Cluster.Reachable (fun _ _ => true) (Pool.begin Activity.background _ _ _) :=
      h.tail ⟨.start options t (clock 0), rfl, if_pos hf⟩
    rw [Pool.begin, hidle, List.nil_append] at hstart
    have hrun := reachable_advances (fun _ _ _ => rfl) hstart
      (Prog.advances_alone _ (fun n => clock (n + 2)) _)
    have hmethod : (Input.start options t).method = newDate >>= fun startedAt =>
        storeTransactionState (newTransaction options t startedAt) >>= fun _ =>
          handleProgressTransaction (some t) := by
      simp only [Input.method, startTransaction_eq, bind_assoc, pure_bind, bind_pure_unit]
    unfold Input.run
    rw [hmethod]
    exact hrun

/-- Sagas do not interfere: from any store of any run, inputs for different transactions can be
handled in either order, and the record of a transaction after any inputs is the one made by those
that name it, up to the readings of the clock. -/
theorem sagas_independent {policy : Cluster.Policy} {s : Cluster}
    (h : Cluster.Reachable policy s) :
    (∀ input input' : Input, input.key ≠ input'.key →
      ∀ clock₁ clock₂ clock₁' clock₂' : Nat → Date,
        (input'.run clock₂ (input.run clock₁ s.world)).SameUpToTime
          (input.run clock₁' (input'.run clock₂' s.world))) ∧
    ∀ (t : String) (inputs inputs' : List (Input × (Nat → Date))),
      inputs'.map Prod.fst =
        (inputs.map Prod.fst).filter (·.key = transactionKey (some t)) →
      ((runInputs inputs s.world).redis.lookup (transactionKey (some t))).map
          SerializedTransaction.timeless =
        ((runInputs inputs' s.world).redis.lookup (transactionKey (some t))).map
          SerializedTransaction.timeless := by
  have hkeyed : s.world.Keyed := fun key value hv => (keyed_reachable h).stored key value hv
  constructor
  · intro input input' hne clock₁ clock₂ clock₁' clock₂'
    exact input.run_comm input' hne _ _ _ _ hkeyed
  · intro t inputs inputs' hi
    exact runInputs_record inputs inputs' _ _ hkeyed hkeyed hi rfl

/-- The step of one transaction is completed and another one, unknown, is announced as completed,
at different times. -/
theorem sagas_independent_oneStep :
    ∃ s, Cluster.Reachable (fun _ _ => true) s ∧ s.world.redis.keys ≠ [] ∧
      ((Input.deliver .ORDER_SERVICE .TRANSACTION_COMPLETED
          { transactionId := some "u", processType := some "ORDER_APPROVAL" }).run (fun n => n)
        ((Input.deliver .ORDER_SERVICE .TRANSACTION_STEP_COMPLETED
          { transactionId := some "t"
            stepName := some Subjects.ORDER_APPROVAL_STEP_UPDATE_ORDER_STATUS.value }).run
              (fun n => n) s.world)).SameUpToTime
      ((Input.deliver .ORDER_SERVICE .TRANSACTION_STEP_COMPLETED
          { transactionId := some "t"
            stepName := some Subjects.ORDER_APPROVAL_STEP_UPDATE_ORDER_STATUS.value }).run
              (fun n => n + 7)
        ((Input.deliver .ORDER_SERVICE .TRANSACTION_COMPLETED
          { transactionId := some "u", processType := some "ORDER_APPROVAL" }).run (fun n => n + 5)
            s.world)) := by
  have hrun : Cluster.Reachable (fun _ _ => true) _ := Machine.reachable_run startOneStep (by decide)
  exact ⟨_, hrun, by decide, (sagas_independent hrun).1 _ _ (by decide) _ _ _ _⟩

end InvoiceHub.Transaction
