import InvoiceHub.Transaction.Issues
import InvoiceHub.Transaction.Origin

/-!
# A coordinator that starts nothing completes nothing

Where no transaction is started all records are made up, and made up records have no steps.  So
the handler of `TRANSACTION_STEP_COMPLETED` finds no step to complete, and no other handler
announces a completion.
-/

namespace InvoiceHub.Transaction

open Effects

variable {policy : Cluster.Policy} {s s' : Cluster}

/-- The records of such a coordinator have no steps. -/
theorem passive_steps (hp : ∀ s label, policy s label = true → passivePolicy s label = true)
    (h : Cluster.Reachable policy s) {key : String} {value : SerializedTransaction}
    (hv : s.world.redis.lookup key = some value) : value.steps = [] := by
  by_contra hne
  obtain ⟨hlawful, -⟩ := stemming_reachable h fun _ _ hmem => hmem
  obtain ⟨t, options, hC, -⟩ := (hlawful.stored key).2 value hv hne
  exact passive_not_created hp h t options hC

/-- Tasks that find no steps and announce no completion. -/
def stepless : Guard Activity Call Call.Res Activity.background where
  answer _ op r :=
    match op, r with
    | .get _, content => ∀ value, content = some value → value.steps = []
    | _, _ => True
  permits _ op := ∀ p, op = .publish p → p.publisher ≠ .handleCompleteTransaction
  spawns _ op := ∀ p, op = .publish p → p.publisher ≠ .handleCompleteTransaction
  started h := h

/-- Only the handler of `TRANSACTION_STEP_COMPLETED` could announce a completion. -/
theorem stepless_of_issues {activity : Activity} {clientId : ClientIds} {subject : Subjects}
    {event : TransactionEvent} (hs : subject ≠ .TRANSACTION_STEP_COMPLETED) {p : Async Unit}
    (hp : IssuesOnly clientId subject event p) : stepless.Admits activity p := by
  have hop : ∀ op, Issues clientId subject event op →
      ∀ p, op = .publish p → p.publisher ≠ .handleCompleteTransaction := by
    rintro op hop p rfl
    cases hop with
    | command _ hsub => exact absurd hsub hs
    | publish id message hne => exact hne.2
  exact hp.mono (fun _ _ _ => trivial) hop hop

theorem stepless_handle (activity : Activity) (clientId : ClientIds) (subject : Subjects)
    (event : TransactionEvent) : stepless.Admits activity (handle clientId subject event) := by
  by_cases hs : subject = .TRANSACTION_STEP_COMPLETED
  · subst hs
    change stepless.Admits activity (handleTransactionStepCompleted event)
    unfold handleTransactionStepCompleted
    rw [getTransactionState_bind]
    refine (Prog.guarded_call _ _ _).mpr ⟨nofun, fun content hcontent => ?_, trivial⟩
    rcases read_cases content with hnone | ⟨r, hread, rfl⟩
    · rw [hnone]
      exact trivial
    · have hnil : r.steps = [] := hcontent _ rfl
      rw [hread]
      simp only [hnil, List.getElem?_nil]
      exact trivial
  · exact stepless_of_issues hs (issues_handle clientId subject event)

theorem stepless_reachable (hp : ∀ s label, policy s label = true → passivePolicy s label = true)
    (h : Cluster.Reachable policy s) : ∀ task ∈ s.tasks, stepless.Keeps task := by
  induction h with
  | refl => exact fun _ hmem => nomatch hmem
  | tail hr hst ih =>
    obtain ⟨label, hl, hf⟩ := hst
    cases label with
    | start options t date => cases hp _ _ hl
    | deliver clientId subject event =>
      cases hf
      exact Guard.keeps_begin ih (stepless_handle _ clientId subject event)
    | checkTimeouts =>
      cases hf
      have hissues : IssuesOnly .ORDER_SERVICE .TRANSACTION_TIMEOUT { transactionId := none }
          checkTimeouts := issues_checkTimeouts
      exact Guard.keeps_begin ih (stepless_of_issues (by decide) hissues)
    | advance j date =>
      refine Guard.keeps_advance ih hf fun tag op ok err hj _ => ?_
      cases op with
      | get key => exact fun value hv => passive_steps hp hr hv
      | _ => trivial
    | reject j => exact Guard.keeps_reject ih hf
    | abandon j => exact Guard.keeps_abandon ih hf

/-- It announces no completion. -/
theorem passive_not_completing
    (hp : ∀ s label, policy s label = true → passivePolicy s label = true)
    (h : Cluster.Reachable policy s) {p : Publication} (hmem : .published p ∈ s.world.history) :
    p.publisher ≠ .handleCompleteTransaction := by
  induction h with
  | refl => cases hmem
  | tail hr hst ih =>
    obtain ⟨label, -, hf⟩ := hst
    obtain ⟨added, hh, ha⟩ := Cluster.history_fire hf
    rw [hh, List.mem_append] at hmem
    rcases hmem with hmem | hmem
    · exact ih hmem
    · cases ha _ hmem with
      | published hj =>
        exact (stepless_reachable hp hr _ (List.mem_of_getElem? hj)).permits p rfl

end InvoiceHub.Transaction
