import InvoiceHub.Transaction.Serial

/-!
# Progress is never lost

Where the handlers of a transaction do not overlap, its stored `currentStep` never decreases
and a closed status is never followed by an open one.  Handlers that overlap write back
records that are stale by then, and both laws fail.
-/

namespace InvoiceHub.Transaction

open Effects

/-- The statuses of a transaction that is not progressed any more. -/
def Closed (status : DistributedTransactionStatus) : Prop :=
  status ∈ [.COMPLETED, .FAILED, .TIMED_OUT, .COMPENSATING, .COMPENSATED]

instance (status : DistributedTransactionStatus) : Decidable (Closed status) :=
  inferInstanceAs (Decidable (_ ∈ _))

theorem closed_iff {status : DistributedTransactionStatus} :
    Closed status ↔ ¬(status = .STARTED ∨ status = .IN_PROGRESS) := by
  cases status <;> decide

/-- The records written in a history, oldest first. -/
def writes (history : List Entry) : List SerializedTransaction :=
  history.filterMap fun
    | .stored _ value => some value
    | _ => none

/-- `w` may be written after `v`. -/
structure Advances (v w : SerializedTransaction) : Prop where
  currentStep : v.currentStep ≤ w.currentStep
  status : Closed v.status → w.status ≠ .STARTED ∧ w.status ≠ .IN_PROGRESS

theorem Advances.closed {v w : SerializedTransaction} (h : Advances v w) (hv : Closed v.status) :
    Closed w.status :=
  closed_iff.mpr fun hw => hw.elim (h.status hv).1 (h.status hv).2

theorem Advances.trans {u v w : SerializedTransaction} (h : Advances u v) (h' : Advances v w) :
    Advances u w where
  currentStep := Nat.le_trans h.currentStep h'.currentStep
  status := fun hu => h'.status (h.closed hu)

/-- Every transition goes forward from the record it is made of. -/
theorem Transition.advances {r r' : DistributedTransaction} (h : Transition r r') :
    Advances r.serialize r'.serialize := by
  cases h with
  | completeStep step date _ => exact ⟨Nat.le_succ _, fun hc => not_or.mp (closed_iff.mp hc)⟩
  | beginStep step date hact _ => exact ⟨Nat.le_refl _, fun hc => absurd hact (closed_iff.mp hc)⟩
  | _ => exact ⟨Nat.le_refl _, fun _ => ⟨nofun, nofun⟩⟩

/-! ## Runs without overlap -/

/-- What is written goes forward from everything written before. -/
structure Forward (ℓ : View) : Prop where
  advances : (writes ℓ.history).Pairwise Advances
  latest : ∀ v ∈ writes ℓ.history, ∃ w, ℓ.record = some w ∧ (v = w ∨ Advances v w)
  unreadable : ∀ v, ℓ.record = some v → v.read = none → v.currentStep = 0

namespace Forward

variable {ℓ : View}

/-- An entry that writes nothing. -/
theorem apply (h : Forward ℓ) {entry : Entry} (hrec : (ℓ.apply entry).record = ℓ.record)
    (hw : writes [entry] = []) : Forward (ℓ.apply entry) := by
  have hwrites : writes (ℓ.apply entry).history = writes ℓ.history := by
    simp only [View.apply, writes, List.filterMap_append] at hw ⊢
    rw [hw, List.append_nil]
  exact ⟨hwrites ▸ h.advances, hwrites ▸ hrec ▸ h.latest, hrec ▸ h.unreadable⟩

/-- A write that goes forward from the record. -/
theorem store (h : Forward ℓ) (key : String) {value : SerializedTransaction}
    (hv : ∀ v, ℓ.record = some v → Advances v value)
    (hu : value.read = none → value.currentStep = 0) : Forward (ℓ.apply (.stored key value)) := by
  have hall : ∀ v ∈ writes ℓ.history, Advances v value := by
    intro v hmem
    obtain ⟨w, hw, rfl | ha⟩ := h.latest v hmem
    · exact hv v hw
    · exact ha.trans (hv w hw)
  have hwrites : writes (ℓ.apply (.stored key value)).history = writes ℓ.history ++ [value] := by
    simp [writes]
  refine ⟨?_, ?_, ?_⟩
  · rw [hwrites, List.pairwise_append]
    refine ⟨h.advances, List.pairwise_singleton _ _, ?_⟩
    intro v hmem w hw
    rw [List.mem_singleton] at hw
    exact hw ▸ hall v hmem
  · intro v hmem
    rw [hwrites, List.mem_append, List.mem_singleton] at hmem
    refine ⟨value, rfl, ?_⟩
    rcases hmem with hmem | rfl
    · exact .inr (hall v hmem)
    · exact .inl rfl
  · rintro v ⟨⟩
    exact hu

/-- Every move of a handler goes forward. -/
theorem move {clientId : ClientIds} {event : TransactionEvent} {subject : Subjects}
    (h : Forward ℓ) {entry : Entry} (hm : Moves clientId event subject ℓ.record entry) :
    Forward (ℓ.apply entry) := by
  cases entry with
  | stored key value =>
    rcases hm.stored with ⟨r, r', hr, ht, rfl⟩ | ⟨hn, h0, hs⟩
    · refine h.store key ?_ fun hu => by simp at hu
      intro v hv
      cases hr.symm.trans hv
      exact ht.advances
    · refine h.store key ?_ fun _ => h0
      intro v hv
      have hread : v.read = none := by
        rw [hv] at hn
        exact hn
      refine ⟨?_, fun _ => not_or.mp hs⟩
      rw [h.unreadable v hv hread]
      exact Nat.zero_le _
  | published p => exact h.apply rfl rfl
  | received subject event => exact h.apply rfl rfl
  | created t options => exact h.apply rfl rfl

end Forward

/-- Handlers of the same transaction do not overlap; anything may be rejected or stopped. -/
def serialPolicy : Cluster.Policy := fun s label =>
  match label with
  | .deliver _ _ event => s.idle (transactionKey event.transactionId)
  | _ => true

theorem forward_discipline (t : String) : Discipline serialPolicy t Forward Forward True where
  initial := ⟨.nil, nofun, nofun⟩
  stopped := fun _ _ h => h
  fails := fun _ _ _ _ _ _ => trivial
  stops := fun _ _ _ _ _ _ => trivial
  exclusive := by
    intro s clientId subject event hp hk
    rw [← hk]
    exact hp
  start := by
    intro s options date _ _ h hnone date'
    have h₀ : Forward ((s.world.view t).apply (.created t options)) := h.apply rfl rfl
    refine along_progress ?_ ?_ rfl date'
    · exact fun ℓ entry he hℓ =>
        hℓ.move (.progress he : Moves .ORDER_SERVICE ⟨some t, none, none, none⟩ _ _ _)
    · refine h₀.store _ ?_ fun hu => by simp at hu
      intro v hv
      cases hnone.symm.trans hv
  deliver := by
    intro s clientId subject event _ _ _ h notified dates _
    exact along_react clientId event subject (fun ℓ entry hm hℓ => hℓ.move hm) (h.apply rfl rfl) notified dates

/-- No lost update, as long as the handlers of a transaction do not overlap. -/
theorem no_lost_update {s : Cluster} (h : Cluster.Reachable serialPolicy s) (t : String) :
    (writes (s.world.view t).history).Pairwise Advances :=
  (((forward_discipline t).always h).elim id id).advances

theorem isSome_serial_completedTwoSteps :
    (Cluster.run serialPolicy completedTwoSteps).isSome = true := by
  decide +kernel

theorem no_lost_update_completedTwoSteps :
    (writes (((Cluster.run serialPolicy completedTwoSteps).get
      isSome_serial_completedTwoSteps).world.view "t").history).Pairwise Advances :=
  no_lost_update (Machine.reachable_run _ _) "t"

/-- The handler of a completion reads the record, then that of a timeout reads and writes it, then
the first one writes back what it has read: the timeout is lost. -/
def overlap : List Cluster.Label :=
  startOneStep ++ [stepCompleted, .advance 0 0,
    .deliver .ORDER_SERVICE .TRANSACTION_TIMEOUT { transactionId := some "t" },
    .advance 1 0, .advance 1 0, .advance 0 0, .advance 0 0]

/-- Handlers of one transaction that overlap lose an update. -/
theorem lost_update :
    ∃ s, Cluster.Reachable (fun _ _ => true) s ∧
      ¬(writes (s.world.view "t").history).Pairwise Advances := by
  refine ⟨_, Machine.reachable_run overlap (by decide), fun h => ?_⟩
  have hstatus := (List.pairwise_map (f := SerializedTransaction.status)
    (R := fun a b => Closed a → b ≠ .STARTED ∧ b ≠ .IN_PROGRESS)).mpr (h.imp Advances.status)
  revert hstatus
  decide

end InvoiceHub.Transaction
