import InvoiceHub.Transaction.Serial

/-!
# From the start of a transaction on

What the handlers of a transaction keep from the moment it has been started
(`Lifecycle.always`).  Before that, events that name its id may have been received, but nothing has
been written under it.
-/

namespace InvoiceHub.Transaction

open Effects

/-- `t` has not been started; if it has no record, nothing has happened to it either. -/
structure Unstarted (t : String) (ℓ : View) : Prop where
  created : ∀ options, .created t options ∉ ℓ.history
  untouched : ℓ.record = none → ∀ entry ∈ ℓ.history, ∃ subject event,
    entry = .received subject event

/-- `t` has been started with `options`, once. -/
def StartedWith (t : String) (options : TransactionOptions) (ℓ : View) : Prop :=
  ∀ options', .created t options' ∈ ℓ.history ↔ options' = options

section Moves

variable {t : String} {clientId : ClientIds} {event : TransactionEvent} {subject : Subjects}
  {content : Option SerializedTransaction} {entry : Entry}

theorem Moves.not_created (h : Moves clientId event subject content entry)
    (options : TransactionOptions) : .created t options ≠ entry := by
  rintro rfl
  cases h with
  | progress h => cases h

theorem Moves.record_ne_none {ℓ : View} (h : Moves clientId event subject ℓ.record entry) :
    (ℓ.apply entry).record ≠ none := by
  generalize hc : ℓ.record = content at h
  cases entry with
  | stored key value => exact nofun
  | published p =>
    cases h with
    | progress h => cases h <;> simp [hc]
    | _ => simp [hc]
  | received subject event =>
    cases h with
    | progress h => cases h
  | created t options => exact absurd rfl (h.not_created options)

theorem Unstarted.move {ℓ : View} (h : Unstarted t ℓ)
    (hm : Moves clientId event subject ℓ.record entry) : Unstarted t (ℓ.apply entry) where
  created := by
    intro options hmem
    rcases List.mem_append.mp hmem with hmem | hmem
    · exact h.created options hmem
    · exact hm.not_created options (List.mem_singleton.mp hmem)
  untouched := fun hn => absurd hn hm.record_ne_none

theorem StartedWith.move {options : TransactionOptions} {ℓ : View}
    (h : StartedWith t options ℓ) (hm : Moves clientId event subject ℓ.record entry) :
    StartedWith t options (ℓ.apply entry) := by
  intro options'
  rw [← h options']
  refine ⟨fun hmem => ?_, fun hmem => List.mem_append_left _ hmem⟩
  rcases List.mem_append.mp hmem with hmem | hmem
  · exact hmem
  · exact absurd (List.mem_singleton.mp hmem) (hm.not_created options')

end Moves

/-- What a policy must ensure for `J` and `I` to hold of `t` from its start on. -/
structure Lifecycle (policy : Cluster.Policy) (t : String) (J I : TransactionOptions → View → Prop)
    (F : Prop) : Prop where
  stopped : F → ∀ options v, J options v → I options v
  record : ∀ options v, I options v → v.record ≠ none
  fails : ∀ s j task, policy s (.reject j) = true → s.tasks[j]? = some task →
    task.tag.key = some (transactionKey (some t)) → F
  stops : ∀ s j task, policy s (.abandon j) = true → s.tasks[j]? = some task →
    task.tag.key = some (transactionKey (some t)) → F
  exclusive : ∀ s clientId subject event, policy s (.deliver clientId subject event) = true →
    transactionKey event.transactionId = transactionKey (some t) →
      s.idle (transactionKey (some t)) = true
  start : ∀ s options date, Cluster.Reachable policy s →
    policy s (.start options t date) = true → Unstarted t (s.world.view t) →
    (s.world.view t).record = none → ∀ date',
      View.Along (J options) (I options) (((s.world.view t).apply (.created t options)).apply
        (written (newTransaction options t date))) (progress (some t)
          (newTransaction options t date) date')
  deliver : ∀ s clientId subject event options, Cluster.Reachable policy s →
    policy s (.deliver clientId subject event) = true →
    transactionKey event.transactionId = transactionKey (some t) →
    .created t options ∈ (s.world.view t).history → I options (s.world.view t) →
    ∀ notified dates, (¬F → notified = true) →
      View.Along (J options) (I options) ((s.world.view t).apply (.received subject event))
        (react clientId subject event
          ((s.world.view t).record.bind SerializedTransaction.read) notified dates)

namespace Lifecycle

variable {policy : Cluster.Policy} {t : String} {J I : TransactionOptions → View → Prop}
  {F : Prop} {s : Cluster} {options : TransactionOptions}

/-- `P` once `t` has been started. -/
def Since (t : String) (P : TransactionOptions → View → Prop) (ℓ : View) : Prop :=
  Unstarted t ℓ ∨ ∃ options, StartedWith t options ℓ ∧ P options ℓ

theorem discipline (l : Lifecycle policy t J I F) :
    Discipline policy t (Since t J) (Since t I) F where
  initial := .inl ⟨fun _ => List.not_mem_nil, fun _ _ h => absurd h List.not_mem_nil⟩
  stopped := fun hF v h => h.imp id fun ⟨options, hc, hJ⟩ =>
    ⟨options, hc, l.stopped hF options v hJ⟩
  fails := l.fails
  stops := l.stops
  exclusive := l.exclusive
  start := by
    intro s options date hr hp hI hnone date'
    rcases hI with hu | ⟨options', -, hI⟩
    · have hcreated : StartedWith t options (((s.world.view t).apply (.created t options)).apply
          (written (newTransaction options t date))) := by
        intro options'
        simp [View.apply, written, hu.created options']
      have halong := along_progress (fun ℓ entry he hℓ =>
        StartedWith.move hℓ (.progress he : Moves .ORDER_SERVICE ⟨some t, none, none, none⟩ _ _ _))
        hcreated rfl date'
      exact (halong.and (l.start s options date hr hp hu hnone date')).mono
        (fun ℓ h => .inr ⟨options, h⟩) (fun ℓ h => .inr ⟨options, h⟩)
    · exact absurd hnone (l.record options' _ hI)
  deliver := by
    intro s clientId subject event hr hp hk hI notified dates hn
    rcases hI with hu | ⟨options, hc, hI⟩
    · have hreceived : Unstarted t ((s.world.view t).apply (.received subject event)) := by
        refine ⟨?_, ?_⟩
        · intro options hmem
          rcases List.mem_append.mp hmem with hmem | hmem
          · exact hu.created options hmem
          · cases List.mem_singleton.mp hmem
        · intro hnone entry hmem
          rcases List.mem_append.mp hmem with hmem | hmem
          · exact hu.untouched hnone entry hmem
          · exact ⟨subject, event, List.mem_singleton.mp hmem⟩
      exact (along_react clientId event subject (fun ℓ entry hm hℓ => hℓ.move hm) hreceived
        notified dates).mono
        (fun ℓ h => .inl h) (fun ℓ h => .inl h)
    · have hcreated : StartedWith t options
          ((s.world.view t).apply (.received subject event)) := by
        intro options'
        rw [← hc options']
        simp [View.apply]
      have halong := along_react clientId event subject
        (fun ℓ entry hm hℓ => StartedWith.move hℓ hm) hcreated notified dates
      exact (halong.and (l.deliver s clientId subject event options hr hp hk
        ((hc options).mpr rfl) hI notified dates hn)).mono
        (fun ℓ h => .inr ⟨options, h⟩) (fun ℓ h => .inr ⟨options, h⟩)

theorem created_mem_view (h : .created t options ∈ s.world.history) :
    .created t options ∈ (s.world.view t).history :=
  List.mem_filter.mpr ⟨h, by simp [Entry.concerns]⟩

theorem of_since {P : TransactionOptions → View → Prop}
    (hc : .created t options ∈ s.world.history) (h : Since t P (s.world.view t)) :
    P options (s.world.view t) := by
  rcases h with hu | ⟨options', hs, hP⟩
  · exact absurd (created_mem_view hc) (hu.created options)
  · rwa [(hs options).mp (created_mem_view hc)]

/-- Once `t` has been started, `I` holds whenever no handler of it runs, and `J` while one runs. -/
theorem reachable (l : Lifecycle policy t J I F) (h : Cluster.Reachable policy s)
    (hc : .created t options ∈ s.world.history) :
    (s.idle (transactionKey (some t)) = true → I options (s.world.view t)) ∧
      (s.idle (transactionKey (some t)) = false → J options (s.world.view t)) :=
  ⟨fun hi => of_since hc ((l.discipline.reachable h).1 hi),
    fun hi => of_since hc ((l.discipline.reachable h).2 hi)⟩

theorem always (l : Lifecycle policy t J I F) (h : Cluster.Reachable policy s)
    (hc : .created t options ∈ s.world.history) :
    I options (s.world.view t) ∨ J options (s.world.view t) :=
  (l.discipline.always h).imp (of_since hc) (of_since hc)

end Lifecycle

end InvoiceHub.Transaction
