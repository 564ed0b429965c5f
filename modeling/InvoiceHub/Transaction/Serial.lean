import InvoiceHub.Transaction.Refinement

/-!
# Handlers of one transaction, one at a time

Where the handlers of a transaction do not overlap, its record and its part of the history
evolve as `react` says, whatever the handlers of other transactions do meanwhile.
-/

namespace InvoiceHub.Transaction

open Effects

/-! ## What a call does to a view -/

section Views

variable {t : String} {store : Store} {activity : Activity} {date : Date} {op : Call}

theorem view_received (t : String) (store : Store) (subject : Subjects) (event : TransactionEvent) :
    Store.view t { store with history := store.history ++ [.received subject event] } =
      if transactionKey event.transactionId = transactionKey (some t) then
        (store.view t).apply (.received subject event)
      else store.view t := by
  split
  · rename_i h
    simp [Store.view, Entry.concerns, h]
  · rename_i h
    simp [Store.view, Entry.concerns, h]

/-- The view of a transaction that has been started. -/
theorem view_started (t : String) (store : Store) (options : TransactionOptions) (date : Date) :
    Store.view t (perform (.startTransaction t) date (.set (transactionKey (some t))
      (newTransaction options t date).serialize)
      { store with history := store.history ++ [.created t options] }).2 =
      ((store.view t).apply (.created t options)).apply (written (newTransaction options t date)) := by
  simp [perform, Store.view, Entry.concerns, written, newTransaction]

theorem view_started_of_ne {t u : String} (hu : u ≠ t) (store : Store)
    (options : TransactionOptions) (date : Date) :
    Store.view t (perform (.startTransaction u) date (.set (transactionKey (some u))
      (newTransaction options u date).serialize)
      { store with history := store.history ++ [.created u options] }).2 = store.view t := by
  have hne : transactionKey (some t) ≠ transactionKey (some u) := by
    simpa using fun h => hu h.symm
  simp [perform, Store.view, Entry.concerns, AList.lookup_insert_ne hne, hu]

/-- The calls of a handler of `t` extend its view. -/
theorem step_perform {J : View → Prop} {F : Prop} (hop : Law.keyedOnly.Permits activity op)
    (hk : activity.key = some (transactionKey (some t))) :
    (localRules t J F).step op (store.view t) (perform activity date op store).1
      ((perform activity date op store).2.view t) := by
  cases op with
  | get key =>
    refine ⟨?_, rfl⟩
    rintro rfl
    rfl
  | set key value =>
    have hkey := (permits_set hop).1
    rw [hk] at hkey
    cases hkey
    simp [localRules, perform, Store.view, Entry.concerns]
  | getKeysByPattern => rfl
  | publish p =>
    have hp : transactionKey p.transactionId = transactionKey (some t) ∧
        p.publisher.awaited = true := by
      rcases permits_publish hop with ⟨hkey, ha⟩ | hm
      · rw [hk] at hkey
        exact ⟨(Option.some_inj.mp hkey).symm, ha.awaited⟩
      · cases activity with
        | unawaited call => cases hk
        | checkTimeouts => cases hk
        | startTransaction u => exact ⟨hop.key.trans (Option.some_inj.mp hk), hop.awaited⟩
        | handler c subject event => exact ⟨hop.key.trans (Option.some_inj.mp hk), hop.awaited⟩
    simp [localRules, perform, Store.view, Entry.concerns, hp]
  | now => rfl

/-- The calls of any other task leave it as it is. -/
theorem view_perform (hop : Law.keyedOnly.Permits activity op)
    (hk : activity.key ≠ some (transactionKey (some t))) :
    (perform activity date op store).2.view t = store.view t := by
  cases op with
  | set key value =>
    have hkey := (permits_set hop).1
    have hne : transactionKey (some t) ≠ key := by
      rintro rfl
      exact hk hkey
    simp [perform, Store.view, Entry.concerns, AList.lookup_insert_ne hne, hne.symm]
  | publish p =>
    have hp : ¬(transactionKey p.transactionId = transactionKey (some t) ∧
        p.publisher.awaited = true) := by
      rintro ⟨hkey, ha⟩
      rcases permits_publish hop with ⟨h, -⟩ | hm
      · rw [hkey] at h
        exact hk h
      · rw [hm.awaited] at ha
        cases ha
    simpa [perform, Store.view, Entry.concerns] using hp
  | _ => rfl

end Views

/-! ## Runs -/

/-- What a policy must ensure for the programs of `t` to be verified one at a time: they do not
overlap, each of them, started on an idle transaction, leads from `I` to `I` through `J`, and they
are rejected or stopped only if `F`. -/
structure Regime (policy : Cluster.Policy) (t : String) (J I : View → Prop) (F : Prop) : Prop where
  initial : I ⟨none, []⟩
  stopped : F → ∀ v, J v → I v
  fails : ∀ s j task, policy s (.reject j) = true → s.tasks[j]? = some task →
    task.tag.key = some (transactionKey (some t)) → F
  stops : ∀ s j task, policy s (.abandon j) = true → s.tasks[j]? = some task →
    task.tag.key = some (transactionKey (some t)) → F
  exclusive : ∀ s clientId subject event, policy s (.deliver clientId subject event) = true →
    transactionKey event.transactionId = transactionKey (some t) →
      s.idle (transactionKey (some t)) = true
  start : ∀ s options date, Cluster.Reachable policy s →
    policy s (.start options t date) = true → I (s.world.view t) →
    (s.world.view t).record = none →
      (handleProgressTransaction (some t)).wp (localRules t J F) (fun _ => I)
        (((s.world.view t).apply (.created t options)).apply
          (written (newTransaction options t date)))
  deliver : ∀ s clientId subject event, Cluster.Reachable policy s →
    policy s (.deliver clientId subject event) = true →
    transactionKey event.transactionId = transactionKey (some t) → I (s.world.view t) →
      (handle clientId subject event).wp (localRules t J F) (fun _ => I)
        ((s.world.view t).apply (.received subject event))

namespace Regime

variable {policy : Cluster.Policy} {t : String} {J I : View → Prop} {F : Prop} {s s' : Cluster}

/-- The activities of `t`. -/
def serves (t : String) (activity : Activity) : Bool :=
  activity.key == some (transactionKey (some t))

theorem serves_background (activity : Activity) (op : Call) :
    serves t (activity.background op) = false := by
  simp [serves, Activity.background, Activity.key]

/-- One step of a disciplined run. -/
theorem served_fire (d : Regime policy t J I F) (hr : Cluster.Reachable policy s)
    (h : Pool.Served (serves t) (localRules t J F) I (s.world.view t) s.tasks)
    {label : Cluster.Label} (hp : policy s label = true) (hf : s.fire label = some s') :
    Pool.Served (serves t) (localRules t J F) I (s'.world.view t) s'.tasks := by
  have hkeyed := keyed_reachable hr
  have hpermits : ∀ {j : Nat} {tag : Activity} {op : Call} {ok : op.Res → Async Unit}
      {err : Async Unit}, s.tasks[j]? = some ⟨tag, .call op ok err⟩ →
      Law.keyedOnly.Permits tag op := by
    intro j tag op ok err hj
    exact ((Prog.guarded_call _ _ _).mp (hkeyed.tasks _ (List.mem_of_getElem? hj))).1
  cases label with
  | start options u date =>
    unfold Cluster.fire at hf
    dsimp only at hf
    split at hf
    · rename_i hfresh
      cases hf
      simp only [Cluster.fresh, Bool.and_eq_true, Option.isNone_iff_eq_none] at hfresh
      by_cases hu : u = t
      · subst hu
        refine Pool.Served.begin serves_background hfresh.2 (by simp [serves, Activity.key]) ?_
        rw [Pool.begin_world, view_started]
        exact d.start s options date hr hp (h.idle hfresh.2) hfresh.1
      · rw [Pool.begin_world, view_started_of_ne hu]
        exact h.begin_other serves_background (by simpa [serves, Activity.key] using hu)
    · cases hf
  | deliver clientId subject event =>
    cases hf
    rw [Pool.begin_world, view_received]
    split
    · rename_i hk
      have hi := d.exclusive s clientId subject event hp hk
      exact Pool.Served.begin serves_background hi (by simp [serves, Activity.key, hk])
        (d.deliver s clientId subject event hr hp hk (h.idle hi))
    · rename_i hk
      exact h.begin_other serves_background (by simpa [serves, Activity.key] using hk)
  | checkTimeouts =>
    cases hf
    exact h.begin_other serves_background rfl
  | advance j date =>
    refine h.advance serves_background hf ?_ ?_
    · intro tag op ok err hj hm
      exact step_perform (hpermits hj) (by simpa [serves] using hm)
    · intro tag op ok err hj hm
      rw [view_perform (hpermits hj) (by simpa [serves] using hm)]
      exact h
  | reject j =>
    refine h.reject serves_background hf ?_
    intro tag op ok err hj hm
    exact d.fails s j _ hp hj (by simpa [serves] using hm)
  | abandon j =>
    refine h.abandon hf ?_
    intro task hj hm op
    exact d.stopped (d.stops s j _ hp hj (by simpa [serves] using hm)) _

/-- In a disciplined run `I` holds whenever no handler of `t` runs, and `J` while one runs. -/
theorem reachable (d : Regime policy t J I F) (h : Cluster.Reachable policy s) :
    (s.idle (transactionKey (some t)) = true → I (s.world.view t)) ∧
      (s.idle (transactionKey (some t)) = false → J (s.world.view t)) := by
  have hserved : Pool.Served (serves t) (localRules t J F) I (s.world.view t) s.tasks := by
    induction h with
    | refl => exact .inl ⟨rfl, d.initial⟩
    | tail hr hst ih =>
      obtain ⟨label, hp, hf⟩ := hst
      exact d.served_fire hr ih hp hf
  refine ⟨fun hi => hserved.idle hi, fun hi => ?_⟩
  obtain ⟨op, hJ⟩ := hserved.busy hi
  exact hJ

theorem always (d : Regime policy t J I F) (h : Cluster.Reachable policy s) :
    I (s.world.view t) ∨ J (s.world.view t) := by
  cases hi : s.idle (transactionKey (some t)) with
  | true => exact .inl ((d.reachable h).1 hi)
  | false => exact .inr ((d.reachable h).2 hi)

end Regime

/-- The same for the reactions that the programs of `t` refine. -/
structure Discipline (policy : Cluster.Policy) (t : String) (J I : View → Prop) (F : Prop) :
    Prop where
  initial : I ⟨none, []⟩
  stopped : F → ∀ v, J v → I v
  fails : ∀ s j task, policy s (.reject j) = true → s.tasks[j]? = some task →
    task.tag.key = some (transactionKey (some t)) → F
  stops : ∀ s j task, policy s (.abandon j) = true → s.tasks[j]? = some task →
    task.tag.key = some (transactionKey (some t)) → F
  exclusive : ∀ s clientId subject event, policy s (.deliver clientId subject event) = true →
    transactionKey event.transactionId = transactionKey (some t) →
      s.idle (transactionKey (some t)) = true
  start : ∀ s options date, Cluster.Reachable policy s →
    policy s (.start options t date) = true → I (s.world.view t) →
    (s.world.view t).record = none → ∀ date',
      View.Along J I (((s.world.view t).apply (.created t options)).apply
        (written (newTransaction options t date))) (progress (some t)
          (newTransaction options t date) date')
  deliver : ∀ s clientId subject event, Cluster.Reachable policy s →
    policy s (.deliver clientId subject event) = true →
    transactionKey event.transactionId = transactionKey (some t) → I (s.world.view t) →
    ∀ notified dates, (¬F → notified = true) →
      View.Along J I ((s.world.view t).apply (.received subject event))
        (react clientId subject event
          ((s.world.view t).record.bind SerializedTransaction.read) notified dates)

namespace Discipline

variable {policy : Cluster.Policy} {t : String} {J I : View → Prop} {F : Prop} {s : Cluster}

theorem regime (d : Discipline policy t J I F) : Regime policy t J I F where
  initial := d.initial
  stopped := d.stopped
  fails := d.fails
  stops := d.stops
  exclusive := d.exclusive
  start := fun s options date hr hp hI hnone =>
    wp_started (d.start s options date hr hp hI hnone) d.stopped
  deliver := by
    intro s clientId subject event hr hp hk hI
    refine wp_handle hk ?_ d.stopped (d.deliver s clientId subject event hr hp hk hI)
    intro r hv
    exact (keyed_reachable hr).stored (transactionKey (some t)) _ hv r r.read_serialize

theorem reachable (d : Discipline policy t J I F) (h : Cluster.Reachable policy s) :
    (s.idle (transactionKey (some t)) = true → I (s.world.view t)) ∧
      (s.idle (transactionKey (some t)) = false → J (s.world.view t)) :=
  d.regime.reachable h

theorem always (d : Discipline policy t J I F) (h : Cluster.Reachable policy s) :
    I (s.world.view t) ∨ J (s.world.view t) :=
  d.regime.always h

end Discipline

end InvoiceHub.Transaction
