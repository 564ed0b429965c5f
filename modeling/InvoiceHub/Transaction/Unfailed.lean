import InvoiceHub.Transaction.Outcome

/-!
# Transactions whose steps do not fail

In a closed run without `TRANSACTION_STEP_FAILED` a transaction fails by timing out only, and
then it has a step left.  Once its compensation is announced as completed, it stays compensated.
-/

namespace InvoiceHub.Transaction

open Effects

/-- Closed runs of transactions with steps, none of which is reported to fail. -/
def unfailedPolicy : Cluster.Policy := fun s label =>
  closedPolicy s label &&
    match label with
    | .start options _ _ => !options.steps.isEmpty
    | .deliver _ subject _ => subject != .TRANSACTION_STEP_FAILED
    | _ => true

theorem unfailed_closed (s : Cluster) (label : Cluster.Label)
    (h : unfailedPolicy s label = true) : closedPolicy s label = true :=
  (Bool.and_eq_true_iff.mp h).1

/-- The record `r` of a transaction no step of which is reported to fail. -/
structure Unfailed (r : DistributedTransaction) (ℓ : View) : Prop where
  decided : Decided r ℓ
  steps : r.steps ≠ []
  announced : Announcing .handleExecuteCompensation ℓ → r.status = .COMPENSATED

namespace Unfailed

variable {r r' : DistributedTransaction} {ℓ : View}

/-- An entry that does not announce the end of a compensation. -/
theorem pass (h : Unfailed r ℓ) {entry : Entry} (hd : Decided r (ℓ.apply entry))
    (hp : ∀ p, entry = .published p → p.publisher ≠ .handleExecuteCompensation) :
    Unfailed r (ℓ.apply entry) := by
  refine ⟨hd, h.steps, fun ha => ?_⟩
  rcases announcing_apply.mp ha with ha | ⟨p, he, hm⟩
  · exact h.announced ha
  · exact absurd hm (hp p he)

/-- A write that leaves a compensated record compensated. -/
theorem store (h : Unfailed r ℓ) (hd : Decided r' (ℓ.apply (written r'))) (ht : Transition r r')
    (hs : r.status = .COMPENSATED → r'.status = .COMPENSATED) :
    Unfailed r' (ℓ.apply (written r')) := by
  refine ⟨hd, ?_, fun ha => ?_⟩
  · intro hnil
    have hdeclared := ht.declared
    rw [hnil] at hdeclared
    exact h.steps (List.map_eq_nil_iff.mp hdeclared.symm)
  · rcases announcing_apply.mp ha with ha | ⟨p, he, -⟩
    · exact hs (h.announced ha)
    · cases he

theorem not_compensated_of_active (hact : Active r) : r.status ≠ .COMPENSATED := by
  rcases hact with hs | hs <;> rw [hs] <;> decide

theorem progress (h : Unfailed r ℓ) {id : Option String} {entry : Entry}
    (hm : Progresses id ℓ.record entry) : ∃ r', Unfailed r' (ℓ.apply entry) := by
  obtain ⟨q, hq⟩ := h.decided.progress hm
  generalize hc : ℓ.record = content at hm
  have hsame : ∀ {q : DistributedTransaction}, ℓ.record = some q.serialize → r = q :=
    fun hq => serialize_inj (Option.some_inj.mp (h.decided.record.symm.trans hq))
  cases hm with
  | beginStep date hact hstep =>
    obtain rfl := hsame hc
    exact ⟨_, h.store (decided_of_written hq) (.beginStep _ date hact hstep)
      fun hst => absurd hst (not_compensated_of_active hact)⟩
  | command step _ _ =>
    exact ⟨r, h.pass (h.decided.publish_neutral (.inl rfl)) (by rintro p ⟨⟩ hp; cases hp)⟩
  | complete date hact _ =>
    obtain rfl := hsame hc
    exact ⟨_, h.store (decided_of_written hq) (.complete date)
      fun hst => absurd hst (not_compensated_of_active hact)⟩
  | completed hst =>
    obtain rfl := hsame hc
    exact ⟨r, h.pass (h.decided.publish_completed hst) (by rintro p ⟨⟩ hp; cases hp)⟩

/-- Every handler of another event than a failed step leaves a compensated record compensated. -/
theorem move (h : Unfailed r ℓ) {clientId : ClientIds} {event : TransactionEvent}
    {subject : Subjects} {entry : Entry} (hs : Sanctioned subject ℓ)
    (hf : subject ≠ .TRANSACTION_STEP_FAILED)
    (hm : Moves clientId event subject ℓ.record entry) : ∃ r', Unfailed r' (ℓ.apply entry) := by
  obtain ⟨q, hq⟩ := h.decided.move hs hm
  generalize hc : ℓ.record = content at hm
  have hsame : ∀ {q : DistributedTransaction}, ℓ.record = some q.serialize → r = q :=
    fun hq => serialize_inj (Option.some_inj.mp (h.decided.record.symm.trans hq))
  cases hm with
  | completeStep date hstep _ =>
    obtain rfl := hsame hc
    exact ⟨_, h.store (decided_of_written hq) (.completeStep _ date hstep) id⟩
  | progress hm => exact h.progress (hc ▸ hm)
  | failStep _ => exact absurd rfl hf
  | timeOut hst =>
    obtain rfl := hsame hc
    refine ⟨_, h.store (decided_of_written hq) (.timeOut hst) fun hcomp => ?_⟩
    rw [hst] at hcomp
    cases hcomp
  | notification errorMessage date =>
    exact ⟨r, h.pass (h.decided.publish_neutral (.inr rfl)) (by rintro p ⟨⟩ hp; cases hp)⟩
  | compensationStart step hst _ =>
    obtain rfl := hsame hc
    have hfailing : Failing r.status := by
      rcases hst with hst | hst <;> rw [hst] <;> decide
    exact ⟨r, h.pass (h.decided.publish_started hfailing)
      (by rintro p ⟨⟩ hp; cases hp)⟩
  | beginCompensation hst =>
    obtain rfl := hsame hc
    exact ⟨_, h.store (decided_of_written hq) .beginCompensation
      fun hcomp => absurd (.inr hcomp) hst⟩
  | compensate date _ =>
    obtain rfl := hsame hc
    exact ⟨_, h.store (decided_of_written hq) (.compensate date) fun _ => rfl⟩
  | compensated hst =>
    obtain rfl := hsame hc
    have hcomp : r.status = .COMPENSATED := hst.resolve_right fun hnil => h.steps hnil.2
    have hfailing : Failing r.status := by
      rw [hcomp]
      decide
    exact ⟨r, h.decided.publish_compensated hfailing, h.steps, fun _ => hcomp⟩
  | closeCompensated date _ =>
    obtain rfl := hsame hc
    exact ⟨_, h.store (decided_of_written hq) (.compensated date) fun _ => rfl⟩
  | closeCompleted date hst =>
    obtain rfl := hsame hc
    exact absurd (h.decided.completed (hs _ rfl)) hst
  | minimal processType startedAt completedAt hn _ =>
    rw [← hc, h.decided.record] at hn
    simp at hn

end Unfailed

theorem Untouched.unfailed {ℓ : View} (h : Untouched ℓ) {options : TransactionOptions}
    (hne : options.steps ≠ []) (t : String) (date : Date) :
    Unfailed (newTransaction options t date)
      ((ℓ.apply (.created t options)).apply (written (newTransaction options t date))) := by
  have hd := h.start options t date
  refine ⟨hd, ?_, fun ha => absurd (hd.compensated ha) (show ¬Failing .STARTED by decide)⟩
  simpa [newTransaction] using hne

theorem unfailed_discipline (t : String) :
    Discipline unfailedPolicy t (fun ℓ => Untouched ℓ ∨ ∃ r, Unfailed r ℓ)
      (fun ℓ => Untouched ℓ ∨ ∃ r, Unfailed r ℓ) True := by
  refine closed_discipline unfailed_closed t (fun ℓ => ∃ r, Unfailed r ℓ) ?_ ?_ ?_ ?_
  · intro s ℓ options date hd h
    have hne : options.steps ≠ [] := by
      simpa using (Bool.and_eq_true_iff.mp hd).2
    exact ⟨_, h.unfailed hne t date⟩
  · exact fun ℓ entry he ⟨_, hr⟩ => hr.progress he
  · rintro ℓ ⟨r, hr⟩ hn
    cases hr.decided.record.symm.trans hn
  · rintro s clientId subject event - hd hk ⟨r, h⟩ hs notified dates
    have hf : subject ≠ .TRANSACTION_STEP_FAILED := by
      simpa using (Bool.and_eq_true_iff.mp hd).2
    have hreceived : ∃ r, Unfailed r ((s.world.view t).apply (.received subject event)) :=
      ⟨r, h.pass (h.decided.pass rfl rfl nofun) nofun⟩
    exact (along_react (I := fun ℓ => Sanctioned subject ℓ ∧ ∃ r, Unfailed r ℓ) clientId event
      subject (fun ℓ entry hm ⟨hs, r, hr⟩ => ⟨hs.apply entry, hr.move hs hf hm⟩)
      ⟨hs.apply _, hreceived⟩ notified dates).mono (fun _ h => h.2) (fun _ h => h.2)

/-- Every transaction of such a run is untouched or unfailed. -/
theorem unfailed_reachable {s : Cluster} (h : Cluster.Reachable unfailedPolicy s) (t : String) :
    Untouched (s.world.view t) ∨ ∃ r, Unfailed r (s.world.view t) :=
  ((unfailed_discipline t).always h).elim id id

end InvoiceHub.Transaction
