import InvoiceHub.Transaction.Commands
import InvoiceHub.Transaction.Issues

/-!
# No step is commanded twice

Two kinds of tasks progress a transaction: `startTransaction` and the handler of
`TRANSACTION_STEP_COMPLETED`.  Where those of one transaction do not overlap, it commands a step at
most once, whichever calls fail and whatever the other handlers write meanwhile: `currentStep` has
moved on before the next command is published, and the other handlers only close the record.
-/

namespace InvoiceHub.Transaction

open Effects

/-- The activities that progress the transaction under `key`. -/
def progresses (key : String) : Activity → Bool
  | .startTransaction t => transactionKey (some t) == key
  | .handler _ .TRANSACTION_STEP_COMPLETED event => transactionKey event.transactionId == key
  | _ => false

theorem key_of_progresses {key : String} {activity : Activity}
    (h : progresses key activity = true) : activity.key = some key := by
  cases activity with
  | startTransaction u => exact congrArg some (beq_iff_eq.mp h)
  | handler clientId subject event =>
    cases subject with
    | TRANSACTION_STEP_COMPLETED => exact congrArg some (beq_iff_eq.mp h)
    | _ => cases h
  | _ => cases h

/-- A step that is reported completed finds nobody progressing its transaction. -/
def pacedPolicy : Cluster.Policy := fun s label =>
  match label with
  | .deliver _ .TRANSACTION_STEP_COMPLETED event =>
    Pool.Idle (progresses (transactionKey event.transactionId)) s.tasks
  | _ => true

/-! ## Interference -/

/-- What the other handlers do to a transaction: they command nothing, and may close its record. -/
structure Interferes (v v' : View) : Prop where
  history : v.history ⊆ v'.history
  commands : commands v'.history = commands v.history
  record : v'.record = v.record ∨ ∃ value, v'.record = some value ∧ Closed value.status

namespace Interferes

variable {v v' v'' : View}

theorem refl (v : View) : Interferes v v := ⟨List.Subset.refl _, rfl, .inl rfl⟩

theorem trans (h : Interferes v v') (h' : Interferes v' v'') : Interferes v v'' where
  history := List.Subset.trans h.history h'.history
  commands := h'.commands.trans h.commands
  record := by
    rcases h'.record with heq | hclosed
    · rw [heq]
      exact h.record
    · exact .inr hclosed

/-- An entry that is neither a command nor the write of an open record. -/
theorem entry (v : View) (entry : Entry) (hc : Transaction.commands [entry] = [])
    (hw : ∀ key value, entry = .stored key value → Closed value.status) :
    Interferes v (v.apply entry) where
  history := List.subset_append_left _ _
  commands := by
    simp only [View.apply, Transaction.commands, List.filterMap_append] at hc ⊢
    rw [hc, List.append_nil]
  record := by
    cases entry with
    | stored key value => exact .inr ⟨value, rfl, hw key value rfl⟩
    | _ => exact .inl rfl

/-- So are the calls of a handler that progresses nothing. -/
theorem issued {t : String} {J : View → Prop} {F : Prop} {clientId : ClientIds}
    {subject : Subjects} {event : TransactionEvent} {op : Call} {r : op.Res}
    (hop : Issues clientId subject event op) (hs : subject ≠ .TRANSACTION_STEP_COMPLETED)
    (hstep : (localRules t J F).step op v r v') : Interferes v v' := by
  cases hop with
  | get key =>
    obtain ⟨-, rfl⟩ := hstep
    exact .refl v'
  | getKeysByPattern =>
    cases hstep
    exact .refl v
  | now =>
    cases hstep
    exact .refl v
  | progress r hsub => exact absurd hsub hs
  | close hr =>
    cases hstep
    exact .entry v _ rfl (by rintro _ _ ⟨⟩; exact hr)
  | minimal startedAt completedAt _ hst =>
    cases hstep
    exact .entry v _ rfl (by rintro _ _ ⟨⟩; exact hst)
  | command p hsub => exact absurd hsub hs
  | publish id message hp =>
    cases hstep
    exact .entry v _ (by simp [Transaction.commands, isCommand, hp.1]) (by rintro _ _ ⟨⟩)

end Interferes

/-- What holds of a transaction while others interfere. -/
structure Stable (J : View → Prop) : Prop where
  interferes : ∀ {v v'}, Interferes v v' → J v → J v'

/-- The rules of a task that progresses `t`: `J` holds at every await, whatever others do. -/
abbrev sharedRules (t : String) (J : View → Prop) : Rules Call Call.Res View :=
  (localRules t J True).among Interferes

section Shared

variable {t : String} {J I : View → Prop} {id : Option String} {v : View} {α : Type}

theorem Stable.absorbs (hJ : Stable J) : (localRules t J True).Absorbs Interferes where
  trans := fun _ _ _ h h' => h.trans h'
  allow := fun _ _ _ h hv => hJ.interferes h hv
  spawns := fun _ _ _ _ _ => trivial

/-- Who is at work keeps to the shared rules while others interfere. -/
theorem Stable.served (hJ : Stable J) (hI : Stable I) {mine : Activity → Bool}
    {tasks : List (Task Activity Call Call.Res)} {v' : View} (hv : Interferes v v')
    (h : Pool.Served mine (sharedRules t J) I v tasks) :
    Pool.Served mine (sharedRules t J) I v' tasks :=
  h.among hJ.absorbs hv fun hi => hI.interferes hv hi

theorem shared_getTransactionState (hid : transactionKey id = transactionKey (some t))
    {f : Option DistributedTransaction → Async α} (hJ : J v) (hI : I v)
    (h : ∀ v', Interferes v v' →
      (f (v'.record.bind SerializedTransaction.read)).wp (sharedRules t J) (fun _ => I) v') :
    (getTransactionState id >>= f).wp (sharedRules t J) (fun _ => I) v := by
  rw [getTransactionState_bind]
  refine (Prog.wp_call _ _ _).mpr ⟨hJ, ?_, fun _ => hI⟩
  rintro r v' ⟨v₁, hv₁, hr, rfl⟩
  rw [hr hid]
  exact h v' hv₁

theorem shared_newDate (hJs : Stable J) (hIs : Stable I) {f : Date → Async α} (hJ : J v) (hI : I v)
    (h : ∀ date, (f date).wp (sharedRules t J) (fun _ => I) v) :
    (newDate >>= f).wp (sharedRules t J) (fun _ => I) v := by
  refine (Prog.wp_call _ _ _).mpr ⟨hJ, ?_, fun _ => hI⟩
  rintro date v' ⟨v₁, hv₁, rfl⟩
  exact Prog.wp_among hJs.absorbs hv₁ (fun _ => hIs.interferes hv₁) (h date)

theorem shared_store (r : DistributedTransaction) {f : Unit → Async α} (hJ : J v) (hI : I v)
    (h : ∀ v', Interferes v v' → (f ()).wp (sharedRules t J) (fun _ => I) (v'.apply (written r))) :
    (storeTransactionState r >>= f).wp (sharedRules t J) (fun _ => I) v := by
  refine (Prog.wp_call _ _ _).mpr ⟨hJ, ?_, fun _ => hI⟩
  rintro _ v' ⟨v₁, hv₁, rfl⟩
  exact h v₁ hv₁

/-- A publication at the end. -/
theorem shared_publish (p : Publication) (hJ : J v) (hI : I v)
    (h : ∀ v', Interferes v v' → I (v'.apply (.published p))) :
    (publish p).wp (sharedRules t J) (fun _ => I) v := by
  refine (Prog.wp_call _ _ _).mpr ⟨hJ, ?_, fun _ => hI⟩
  rintro _ v' ⟨v₁, hv₁, rfl⟩
  exact h v₁ hv₁

/-- `handleCompleteTransaction` closes the record and commands nothing. -/
theorem shared_handleCompleteTransaction (hid : transactionKey id = transactionKey (some t))
    (hJs : Stable J) (hIs : Stable I) (hJI : ∀ v, J v → I v) (hJ : J v) {a : α} :
    (handleCompleteTransaction id >>= fun _ => pure a).wp (sharedRules t J) (fun _ => I) v := by
  unfold handleCompleteTransaction eventPublisher
  rw [bind_assoc, bind_assoc]
  refine shared_getTransactionState hid hJ (hJI v hJ) fun v₁ hv₁ => ?_
  have hJ₁ := hJs.interferes hv₁ hJ
  cases v₁.record.bind SerializedTransaction.read with
  | none => exact hJI v₁ hJ₁
  | some r =>
    refine shared_newDate hJs hIs hJ₁ (hJI v₁ hJ₁) fun date => ?_
    refine shared_store (close r .COMPLETED date) hJ₁ (hJI v₁ hJ₁) fun v₂ hv₂ => ?_
    have hJ₂ := hJs.interferes (hv₂.trans (.entry v₂ (written (close r .COMPLETED date)) rfl
      (by rintro _ _ ⟨⟩; exact show Closed .COMPLETED by decide))) hJ₁
    refine (Prog.wp_call _ _ _).mpr ⟨hJ₂, ?_, fun _ => hJI _ hJ₂⟩
    rintro _ v' ⟨v₃, hv₃, rfl⟩
    exact hJI _ (hJs.interferes (hv₃.trans (.entry v₃ _ rfl (by rintro _ _ ⟨⟩))) hJ₂)

/-- What `handleProgressTransaction` must keep: `D` before the record is read, `J` until the
command is published. -/
theorem shared_handleProgressTransaction (hid : transactionKey id = transactionKey (some t))
    (hJs : Stable J) (hIs : Stable I) (hJI : ∀ v, J v → I v) {D : View → Prop} (hDs : Stable D)
    (hDJ : ∀ v, D v → J v) (hD : D v)
    (hstore : ∀ v v' r step date, D v → v.record = some (DistributedTransaction.serialize r) →
      Active r → r.steps[r.currentStep]? = some step → Interferes v v' →
      J (v'.apply (written (beginStep r step date))) ∧
      ∀ v'', Interferes (v'.apply (written (beginStep r step date))) v'' →
        I (v''.apply (.published ⟨.handleProgressTransaction, id, forwardCommand r step⟩))) :
    (handleProgressTransaction id).wp (sharedRules t J) (fun _ => I) v := by
  unfold handleProgressTransaction eventPublisher
  rw [bind_assoc]
  refine shared_getTransactionState hid (hDJ v hD) (hJI v (hDJ v hD)) fun v₁ hv₁ => ?_
  have hD₁ := hDs.interferes hv₁ hD
  have hJ₁ := hDJ v₁ hD₁
  rcases read_cases v₁.record with hnone | ⟨r, hread, hr⟩
  · rw [hnone]
    exact hJI v₁ hJ₁
  · rw [hread]
    dsimp only
    split
    · exact hJI v₁ hJ₁
    · rename_i hst
      have hact : Active r := by
        unfold Active
        tauto
      split
      · rw [bind_assoc]
        exact shared_handleCompleteTransaction hid hJs hIs hJI hJ₁
      · rename_i step hstep
        rw [bind_assoc]
        refine shared_newDate hJs hIs hJ₁ (hJI v₁ hJ₁) fun date => ?_
        rw [bind_assoc]
        refine shared_store (beginStep r step date) hJ₁ (hJI v₁ hJ₁) fun v₂ hv₂ => ?_
        obtain ⟨hJ₂, hI₂⟩ := hstore v₁ v₂ r step date hD₁ hr hact hstep hv₂
        exact shared_publish _ hJ₂ (hJI _ hJ₂) hI₂

end Shared

/-! ## The pace of a transaction -/

/-- No other steps than the first `n` have been commanded, each at most once; while the record of
`t` is open, `n` is at most `ahead` beyond the current step. -/
structure Paced (t : String) (options : TransactionOptions) (n ahead : Nat) (v : View) : Prop where
  /-- Some of these steps may have been skipped, as their publication failed. -/
  sublist : (commands v.history).Sublist
    ((options.steps.take n).map fun step => stepCommand t options.payload step.1)
  record : ∀ r, v.record = some (DistributedTransaction.serialize r) → ¬Closed r.status →
    r.transactionId = t ∧ Shape options r ∧ n ≤ r.currentStep + ahead

namespace Paced

variable {t : String} {options : TransactionOptions} {n ahead : Nat} {r : DistributedTransaction}
  {step : TransactionStep} {v v' : View}

theorem interferes (h : Paced t options n ahead v) (hv : Interferes v v') :
    Paced t options n ahead v' where
  sublist := by
    rw [hv.commands]
    exact h.sublist
  record := by
    intro r hr hopen
    rcases hv.record with heq | ⟨value, hvalue, hclosed⟩
    · exact h.record r (heq ▸ hr) hopen
    · cases hvalue.symm.trans hr
      exact absurd hclosed hopen

theorem hurry (h : Paced t options n 0 v) : Paced t options n 1 v where
  sublist := h.sublist
  record := by
    intro r hr hopen
    obtain ⟨hid, hshape, hle⟩ := h.record r hr hopen
    exact ⟨hid, hshape, Nat.le_succ_of_le hle⟩

/-- A write replaces the record and commands nothing. -/
theorem write (h : Paced t options n ahead v) {r' : DistributedTransaction} {ahead' : Nat}
    (hr' : ¬Closed r'.status →
      r'.transactionId = t ∧ Shape options r' ∧ n ≤ r'.currentStep + ahead') :
    Paced t options n ahead' (v.apply (written r')) where
  sublist := by simpa [commands, written] using h.sublist
  record := by
    intro q hq hopen
    obtain rfl := serialize_inj (Option.some_inj.mp hq)
    exact hr' hopen

/-- The current step has been completed: the next one may be commanded. -/
theorem completeStep (h : Paced t options n 1 v) (hv : Interferes v v')
    (hr : v.record = some r.serialize) (hstep : r.steps[r.currentStep]? = some step) (date : Date) :
    Paced t options n 0 (v'.apply (written (completeStep r step date))) := by
  refine (h.interferes hv).write fun hopen => ?_
  have ht : Transition r (Transaction.completeStep r step date) := .completeStep step date hstep
  obtain ⟨hid, hshape, hle⟩ := h.record r hr fun hclosed => hopen (ht.advances.closed hclosed)
  exact ⟨hid, hshape.transition ht, hle⟩

/-- The current step is begun. -/
theorem beginStep (h : Paced t options n 0 v) (hv : Interferes v v')
    (hr : v.record = some r.serialize) (hact : Active r)
    (hstep : r.steps[r.currentStep]? = some step) (date : Date) :
    Paced t options n 0 (v'.apply (written (beginStep r step date))) := by
  refine (h.interferes hv).write fun _ => ?_
  obtain ⟨hid, hshape, hle⟩ := h.record r hr fun hclosed => closed_iff.mp hclosed hact
  exact ⟨hid, hshape.transition (.beginStep step date hact hstep), hle⟩

/-- The current step is commanded. -/
theorem command (h : Paced t options n 0 v) (hr : v.record = some r.serialize) (hact : Active r)
    (hstep : r.steps[r.currentStep]? = some step) {date : Date} (id : Option String)
    {v₁ v₂ : View} (hv₁ : Interferes v v₁)
    (hv₂ : Interferes (v₁.apply (written (Transaction.beginStep r step date))) v₂) :
    Paced t options (r.currentStep + 1) 1
      (v₂.apply (.published ⟨.handleProgressTransaction, id, forwardCommand r step⟩)) := by
  have hbegun := (h.beginStep hv₁ hr hact hstep date).interferes hv₂
  obtain ⟨hid, hshape, hle⟩ := h.record r hr fun hclosed => closed_iff.mp hclosed hact
  constructor
  · have hdeclared : options.steps[r.currentStep]? = some step.declared := by
      rw [← hshape.declared, List.getElem?_map, hstep]
      rfl
    have hcommands : commands (v₂.apply (.published ⟨.handleProgressTransaction, id,
        forwardCommand r step⟩)).history = commands v₂.history ++ [forwardCommand r step] := by
      simp [commands, isCommand]
    have hcommand : forwardCommand r step = stepCommand t options.payload step.name := by
      rw [← hid, ← hshape.payload]
      rfl
    rw [hcommands, hcommand, List.take_add_one, hdeclared, List.map_append]
    refine List.Sublist.append (hbegun.sublist.trans ?_) (.refl _)
    exact (List.take_sublist_take_left hle).map _
  · intro q hq hopen
    rcases hv₂.record with heq | ⟨value, hvalue, hclosed⟩
    · -- nobody has written since the step was begun
      obtain rfl := serialize_inj (Option.some_inj.mp (hq.symm.trans heq))
      obtain ⟨hid', hshape', -⟩ := hbegun.record _ hq hopen
      exact ⟨hid', hshape', Nat.le_refl _⟩
    · cases hvalue.symm.trans hq
      exact absurd hclosed hopen

end Paced

/-- No step after the current one has been commanded. -/
def Unhurried (t : String) (options : TransactionOptions) (v : View) : Prop :=
  ∃ n, Paced t options n 1 v

theorem stable_paced (t : String) (options : TransactionOptions) (n ahead : Nat) :
    Stable (Paced t options n ahead) :=
  ⟨fun hv h => h.interferes hv⟩

theorem stable_unhurried (t : String) (options : TransactionOptions) :
    Stable (Unhurried t options) :=
  ⟨fun hv ⟨n, h⟩ => ⟨n, h.interferes hv⟩⟩

section Tasks

variable {t : String} {options : TransactionOptions} {n : Nat} {id : Option String} {v : View}

theorem Paced.progress (h : Paced t options n 0 v)
    (hid : transactionKey id = transactionKey (some t)) :
    (handleProgressTransaction id).wp (sharedRules t (Unhurried t options))
      (fun _ => Unhurried t options) v := by
  refine shared_handleProgressTransaction hid (stable_unhurried t options)
    (stable_unhurried t options) (fun _ hv => hv) (stable_paced t options n 0)
    (fun _ hv => ⟨n, hv.hurry⟩) h ?_
  intro v v' r step date hD hr hact hstep hv
  exact ⟨⟨n, (hD.beginStep hv hr hact hstep date).hurry⟩,
    fun v'' hv'' => ⟨_, hD.command hr hact hstep id hv hv''⟩⟩

/-- The handler of `TRANSACTION_STEP_COMPLETED` keeps the pace. -/
theorem Unhurried.stepCompleted (h : Unhurried t options v) {event : TransactionEvent}
    (hid : transactionKey event.transactionId = transactionKey (some t)) :
    (handleTransactionStepCompleted event).wp (sharedRules t (Unhurried t options))
      (fun _ => Unhurried t options) v := by
  have hs := stable_unhurried t options
  refine shared_getTransactionState hid h h fun v₁ hv₁ => ?_
  have h₁ := hs.interferes hv₁ h
  rcases read_cases v₁.record with hnone | ⟨r, hread, hr⟩
  · rw [hnone]
    exact h₁
  · rw [hread]
    dsimp only
    split
    · exact h₁
    · rename_i step hstep
      split
      · exact h₁
      · refine shared_newDate hs hs h₁ h₁ fun date => ?_
        refine shared_store (completeStep r step date) h₁ h₁ fun v₂ hv₂ => ?_
        obtain ⟨n, hn⟩ := h₁
        exact (hn.completeStep hv₂ hr hstep date).progress hid

/-- While `startTransaction` runs nothing has been commanded. -/
structure Uncommanded (t : String) (v : View) : Prop where
  created : ∃ options, .created t options ∈ v.history
  commands : commands v.history = []

theorem stable_uncommanded (t : String) : Stable (Uncommanded t) where
  interferes := by
    rintro v v' hv ⟨⟨options, hc⟩, hn⟩
    exact ⟨⟨options, hv.history hc⟩, hv.commands.trans hn⟩

theorem Uncommanded.progress (h : Uncommanded t v) :
    (handleProgressTransaction (some t)).wp (sharedRules t (Uncommanded t)) (fun _ _ => True) v := by
  have hs := stable_uncommanded t
  refine shared_handleProgressTransaction rfl hs ⟨fun _ _ => trivial⟩ (fun _ _ => trivial) hs
    (fun _ hv => hv) h ?_
  intro v v' r step date hv _ _ _ hvv'
  obtain ⟨⟨options, hc⟩, hn⟩ := hs.interferes hvv' hv
  refine ⟨⟨⟨options, List.mem_append_left _ hc⟩, ?_⟩, fun _ _ => trivial⟩
  simpa [Transaction.commands, written] using hn

end Tasks

/-! ## Runs -/

/-- The activity of a running `startTransaction`. -/
def starts (t : String) : Activity → Bool
  | .startTransaction u => u == t
  | _ => false

section Runs

variable {policy : Cluster.Policy} {s s' : Cluster} {t : String} {options : TransactionOptions}
  {label : Cluster.Label}

/-- The step of a task that progresses `t`. -/
theorem progressing_perform {activity : Activity} {op : Call} {store : Store} {date : Date}
    {J : View → Prop} (hop : Law.keyedOnly.Permits activity op)
    (hp : progresses (transactionKey (some t)) activity = true) :
    (sharedRules t J).step op (store.view t) (perform activity date op store).1
      ((perform activity date op store).2.view t) :=
  ⟨_, .refl _, step_perform hop (key_of_progresses hp)⟩

/-- The step of any other task interferes. -/
theorem interferes_perform {activity : Activity} {op : Call} {store : Store} {date : Date}
    (hop : Law.keyedOnly.Permits activity op) (hi : issuing.permits activity op)
    (hp : progresses (transactionKey (some t)) activity = false) :
    Interferes (store.view t) ((perform activity date op store).2.view t) := by
  by_cases hkey : activity.key = some (transactionKey (some t))
  · have hstep : (localRules t (fun _ => True) True).step op (store.view t)
        (perform activity date op store).1 ((perform activity date op store).2.view t) :=
      step_perform hop hkey
    cases activity with
    | startTransaction u =>
      exact absurd (Option.some_inj.mp hkey) (beq_eq_false_iff_ne.mp hp)
    | handler clientId subject event =>
      refine .issued hi ?_ hstep
      rintro rfl
      exact absurd (Option.some_inj.mp hkey) (beq_eq_false_iff_ne.mp hp)
    | unawaited call => cases hkey
    | checkTimeouts => cases hkey
  · rw [view_perform hop hkey]
    exact .refl _

/-- An arriving event interferes. -/
theorem interferes_received (t : String) (store : Store) (subject : Subjects)
    (event : TransactionEvent) :
    Interferes (store.view t)
      (Store.view t { store with history := store.history ++ [.received subject event] }) := by
  rw [view_received]
  split
  · exact .entry _ _ rfl (by rintro _ _ ⟨⟩)
  · exact .refl _

theorem progresses_background (activity : Activity) (op : Call) :
    progresses (transactionKey (some t)) (activity.background op) = false := rfl

/-- A transaction is started: its view, and that of any other one. -/
theorem begin_of_fresh {date : Date} (hf : s.fire (.start options t date) = some s') :
    s.fresh t = true ∧
      s' = { world := s'.world
             tasks := (Pool.begin Activity.background s (.startTransaction t)
               (handleProgressTransaction (some t))).tasks } ∧
      s'.world.view t = ((s.world.view t).apply (.created t options)).apply
        (written (newTransaction options t date)) ∧
      ∀ u, u ≠ t → s'.world.view u = s.world.view u := by
  unfold Cluster.fire at hf
  dsimp only at hf
  split at hf
  · rename_i hfresh
    cases hf
    exact ⟨hfresh, rfl, view_started t s.world options date,
      fun u hu => view_started_of_ne (Ne.symm hu) s.world options date⟩
  · cases hf

/-- What a task awaits keeps to its handler. -/
theorem permits_reachable (hr : Cluster.Reachable policy s) {j : Nat} {tag : Activity} {op : Call}
    {ok : op.Res → Async Unit} {err : Async Unit} (hj : s.tasks[j]? = some ⟨tag, .call op ok err⟩) :
    Law.keyedOnly.Permits tag op ∧ issuing.permits tag op := by
  have hmem := List.mem_of_getElem? hj
  exact ⟨((keyed_reachable hr).tasks _ hmem).permits, (issuing_reachable hr _ hmem).permits⟩

/-- While nobody progresses `t`, it is unhurried; while somebody does, it is on its way there. -/
abbrev Pacing (t : String) (options : TransactionOptions) (s : Cluster) : Prop :=
  Pool.Served (progresses (transactionKey (some t))) (sharedRules t (Unhurried t options))
    (Unhurried t options) (s.world.view t) s.tasks

theorem Pacing.fire (hr : Cluster.Reachable policy s) (hc : .created t options ∈ s.world.history)
    (h : Pacing t options s) (hp : pacedPolicy s label = true) (hf : s.fire label = some s') :
    Pacing t options s' := by
  cases label with
  | start options' u date =>
    obtain ⟨hfresh, hs', -, hother⟩ := begin_of_fresh hf
    have hu : u ≠ t := by
      rintro rfl
      obtain ⟨r, hrecord, -⟩ := shape_of_stored_record hr hc
      simp [Cluster.fresh, hrecord] at hfresh
    unfold Pacing
    rw [hs']
    dsimp only
    rw [hother t (Ne.symm hu)]
    exact h.begin_other progresses_background (by simpa [progresses] using hu)
  | deliver clientId subject event =>
    cases hf
    have hv := interferes_received t s.world subject event
    have h := (stable_unhurried t options).served (stable_unhurried t options) hv h
    unfold Pacing
    rw [Pool.begin_world]
    by_cases hmine : progresses (transactionKey (some t)) (.handler clientId subject event) = true
    · cases subject with
      | TRANSACTION_STEP_COMPLETED =>
        have hkey := beq_iff_eq.mp hmine
        have hidle : Pool.Idle (progresses (transactionKey (some t))) s.tasks = true := hkey ▸ hp
        exact Pool.Served.begin progresses_background hidle hmine
          ((h.idle hidle).stepCompleted hkey)
      | _ => cases hmine
    · exact h.begin_other progresses_background (Bool.eq_false_iff.mpr hmine)
  | checkTimeouts =>
    cases hf
    exact h.begin_other progresses_background rfl
  | advance j date =>
    refine h.advance progresses_background hf ?_ ?_
    · intro tag op ok err hj hm
      exact progressing_perform (permits_reachable hr hj).1 hm
    · intro tag op ok err hj hm
      exact (stable_unhurried t options).served (stable_unhurried t options)
        (interferes_perform (permits_reachable hr hj).1 (permits_reachable hr hj).2 hm) h
  | reject j => exact h.reject progresses_background hf fun _ _ _ _ _ _ => trivial
  | abandon j => exact h.abandon hf fun _ _ _ _ hop => hop

/-- What is commanded was started. -/
theorem created_of_command (hr : Cluster.Reachable policy s) {p : Publication}
    (hp : .published p ∈ s.world.history) (hc : isCommand p = true) :
    ∃ u options, .created u options ∈ s.world.history ∧
      transactionKey p.transactionId = transactionKey (some u) := by
  have hpub : p.publisher = .handleProgressTransaction := of_decide_eq_true hc
  rcases (stemming_reachable hr fun _ _ hmem => hmem).2 p hp with
    ⟨r, id, hl, hid, ha, -⟩ | ⟨r, -, hm, -⟩
  · cases ha with
    | command step hact hstep =>
      have hne : r.steps ≠ [] := by
        intro hnil
        rw [hnil] at hstep
        cases hstep
      obtain ⟨u, options, hcreated, hu, -⟩ := hl.2 _ rfl hne
      refine ⟨u, options, hcreated, ?_⟩
      rw [← hu]
      exact ((Law.stemming _).key_eq hl).symm
    | _ => cases hpub
  · cases hm <;> cases hpub

/-- A new transaction has commanded nothing. -/
theorem commands_of_fresh (hr : Cluster.Reachable policy s) (hfresh : s.fresh t = true) :
    commands (s.world.view t).history = [] := by
  rw [List.eq_nil_iff_forall_not_mem]
  intro command hmem
  obtain ⟨entry, hentry, hcommand⟩ := List.mem_filterMap.mp hmem
  obtain ⟨hentry, hkey⟩ := List.mem_filter.mp hentry
  cases entry with
  | published p =>
    dsimp only at hcommand
    split at hcommand
    · rename_i hc
      obtain ⟨u, options, hcreated, hu⟩ := created_of_command hr hentry hc
      simp only [Entry.concerns, Bool.and_eq_true, beq_iff_eq] at hkey
      obtain rfl : u = t := transactionKey_some_inj.mp (hu.symm.trans hkey.1)
      obtain ⟨r, hrecord, -⟩ := shape_of_stored_record hr hcreated
      simp [Cluster.fresh, hrecord] at hfresh
    · cases hcommand
  | _ => cases hcommand

theorem idle_of_fresh (hfresh : s.fresh t = true) {mine : Activity → Bool}
    (hmine : ∀ activity, mine activity = true → activity.key = some (transactionKey (some t))) :
    Pool.Idle mine s.tasks = true := by
  simp only [Cluster.fresh, Cluster.idle, Pool.Idle, Bool.and_eq_true, List.all_eq_true,
    Bool.not_eq_true', beq_eq_false_iff_ne] at hfresh ⊢
  intro task htask
  exact Bool.eq_false_iff.mpr fun hm => hfresh.2 task htask (hmine _ hm)

theorem Pacing.start (hr : Cluster.Reachable policy s) {date : Date}
    (hf : s.fire (.start options t date) = some s') : Pacing t options s' := by
  obtain ⟨hfresh, hs', hview, -⟩ := begin_of_fresh hf
  have hpaced : Paced t options 0 0 (s'.world.view t) := by
    rw [hview]
    constructor
    · have hnone := commands_of_fresh hr hfresh
      simp only [Transaction.commands] at hnone
      simp [Transaction.commands, written, hnone]
    · intro r hrecord _
      obtain rfl := serialize_inj (Option.some_inj.mp hrecord)
      exact ⟨rfl, .newTransaction options t date, Nat.zero_le _⟩
  have hmine : progresses (transactionKey (some t)) (.startTransaction t) = true :=
    beq_self_eq_true _
  rw [hs']
  exact Pool.Served.begin progresses_background (idle_of_fresh hfresh fun _ => key_of_progresses)
    hmine (hpaced.progress rfl)

theorem pacing_reachable (h : Cluster.Reachable pacedPolicy s)
    (hc : .created t options ∈ s.world.history) : Pacing t options s := by
  induction h with
  | refl => cases hc
  | tail hr hst ih =>
    obtain ⟨label, hp, hf⟩ := hst
    obtain ⟨added, hh, ha⟩ := Cluster.history_fire hf
    rw [hh] at hc
    rcases List.mem_append.mp hc with hc | hc
    · exact (ih hc).fire hr hc hp hf
    · obtain ⟨date, rfl⟩ := (ha _ hc).of_created
      exact .start hr hf

/-- The forward commands of a transaction are those of some of its steps, each once. -/
theorem commands_sublist (h : Cluster.Reachable pacedPolicy s)
    (hc : .created t options ∈ s.world.history) :
    (commands (s.world.view t).history).Sublist
      (options.steps.map fun step => stepCommand t options.payload step.1) := by
  have hpacing := pacing_reachable h hc
  obtain ⟨n, hn⟩ : Unhurried t options (s.world.view t) := by
    cases hidle : Pool.Idle (progresses (transactionKey (some t))) s.tasks with
    | true => exact hpacing.idle hidle
    | false =>
      obtain ⟨op, hop⟩ := hpacing.busy hidle
      exact hop
  exact hn.sublist.trans ((List.take_sublist _ _).map _)

/-! ## While a transaction is being started -/

theorem starts_background (activity : Activity) (op : Call) :
    starts t (activity.background op) = false := rfl

theorem progresses_of_starts {activity : Activity} (h : starts t activity = true) :
    progresses (transactionKey (some t)) activity = true := by
  cases activity with
  | startTransaction u =>
    obtain rfl := beq_iff_eq.mp h
    exact beq_self_eq_true _
  | _ => cases h

/-- While `startTransaction` runs for `t`, nothing has been commanded. -/
abbrev Starting (t : String) (s : Cluster) : Prop :=
  Pool.Served (starts t) (sharedRules t (Uncommanded t)) (fun _ => True) (s.world.view t) s.tasks

theorem Starting.interferes {v v' : View} {tasks : List (Task Activity Call Call.Res)}
    (hv : Interferes v v')
    (h : Pool.Served (starts t) (sharedRules t (Uncommanded t)) (fun _ => True) v tasks) :
    Pool.Served (starts t) (sharedRules t (Uncommanded t)) (fun _ => True) v' tasks :=
  (stable_uncommanded t).served ⟨fun _ _ => trivial⟩ hv h

/-- Nobody else progresses a transaction that is being started. -/
theorem Starting.alone (hr : Cluster.Reachable pacedPolicy s) (h : Starting t s) {j : Nat}
    {task : Task Activity Call Call.Res} (hj : s.tasks[j]? = some task)
    (hp : progresses (transactionKey (some t)) task.tag = true) (hs : starts t task.tag = false) :
    s.tasks.filter (fun task => starts t task.tag) = [] := by
  rcases h with ⟨hnil, -⟩ | ⟨started, hstarted, hw, hwp⟩
  · exact hnil
  · obtain ⟨op, ⟨options, hc⟩, -⟩ := Prog.wp_waiting hwp hw
    have hcreated : .created t options ∈ s.world.history := (List.mem_filter.mp hc).1
    obtain ⟨before, after, htasks⟩ := List.append_of_mem (List.mem_of_getElem? hj)
    have hpacing := pacing_reachable hr hcreated
    unfold Pacing at hpacing
    rw [htasks] at hpacing
    obtain ⟨hbefore, hafter, -⟩ := hpacing.focus hp
    rw [List.filter_eq_nil_iff] at hbefore hafter ⊢
    intro other hother hstarts
    rw [htasks] at hother
    have hprogresses := progresses_of_starts hstarts
    rcases List.mem_append.mp hother with hother | hother
    · exact hbefore other hother hprogresses
    · rcases List.mem_cons.mp hother with rfl | hother
      · exact absurd hstarts (Bool.eq_false_iff.mp hs)
      · exact hafter other hother hprogresses

theorem starting_reachable (h : Cluster.Reachable pacedPolicy s) (t : String) : Starting t s := by
  induction h with
  | refl => exact .inl ⟨rfl, trivial⟩
  | @tail s s' hr hst ih =>
    obtain ⟨label, hp, hf⟩ := hst
    cases label with
    | start options u date =>
      by_cases hu : u = t
      · subst hu
        obtain ⟨hfresh, hs', hview, -⟩ := begin_of_fresh hf
        have huncommanded : Uncommanded u (s'.world.view u) := by
          rw [hview]
          refine ⟨⟨options, by simp [View.apply]⟩, ?_⟩
          have hnone := commands_of_fresh hr hfresh
          simp only [Transaction.commands] at hnone
          simp [Transaction.commands, written, hnone]
        have hmine : starts u (.startTransaction u) = true := beq_self_eq_true _
        rw [hs']
        exact Pool.Served.begin starts_background
          (idle_of_fresh hfresh fun _ hm => key_of_progresses (progresses_of_starts hm)) hmine
          huncommanded.progress
      · obtain ⟨-, hs', -, hother⟩ := begin_of_fresh hf
        unfold Starting
        rw [hs']
        dsimp only
        rw [hother t (Ne.symm hu)]
        exact ih.begin_other starts_background (beq_eq_false_iff_ne.mpr hu)
    | deliver clientId subject event =>
      cases hf
      exact (Starting.interferes (interferes_received t s.world subject event) ih).begin_other
        starts_background rfl
    | checkTimeouts =>
      cases hf
      exact ih.begin_other starts_background rfl
    | advance j date =>
      refine ih.advance starts_background hf ?_ ?_
      · intro tag op ok err hj hm
        exact progressing_perform (permits_reachable hr hj).1 (progresses_of_starts hm)
      · intro tag op ok err hj hm
        cases hprogresses : progresses (transactionKey (some t)) tag with
        | true => exact .inl ⟨ih.alone hr hj hprogresses hm, trivial⟩
        | false =>
          exact Starting.interferes
            (interferes_perform (permits_reachable hr hj).1 (permits_reachable hr hj).2 hprogresses) ih
    | reject j => exact ih.reject starts_background hf fun _ _ _ _ _ _ => trivial
    | abandon j => exact ih.abandon hf fun _ _ _ _ _ => trivial

/-- A transaction that is being started has commanded nothing. -/
theorem uncommanded_of_starting (h : Cluster.Reachable pacedPolicy s)
    {task : Task Activity Call Call.Res} (hmem : task ∈ s.tasks)
    (htag : task.tag = .startTransaction t) : Uncommanded t (s.world.view t) := by
  have hbusy : Pool.Idle (starts t) s.tasks = false := by
    rw [Pool.Idle, List.all_eq_false]
    exact ⟨task, hmem, by simp [htag, starts]⟩
  obtain ⟨op, hop⟩ := (starting_reachable h t).busy hbusy
  exact hop

end Runs

end InvoiceHub.Transaction
