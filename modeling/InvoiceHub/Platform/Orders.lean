import InvoiceHub.Platform.Components
import InvoiceHub.Transaction.Origin

/-!
# Orders and their sagas

Every row of `orders`, every job that works on one and every saga belongs to an order that
`createOrder` made.
-/

namespace InvoiceHub

open Effects Transaction Services

/-- The order a running `createOrder` works on. -/
def Services.Job.order : Job → Option Order
  | .start order => some order
  | .awaitStarted order _ => some order
  | .cancel order _ => some order
  | .stamp order _ => some order
  | _ => none

/-- The order a job saves. -/
def Services.Job.saved (choice : Choice) : Job → Option Order
  | .insert userId totalAmount =>
    some { userId, totalAmount, status := .PENDING, id := choice.uuid }
  | .cancel order _ => some { order with status := .CANCELLED }
  | .save _ order => some order
  | _ => none

/-- An order as its row holds it. -/
def Services.Order.stored (order : Order) : Order :=
  { order with totalAmount := numeric order.totalAmount }

/-- A job changes the row of the order it saves. -/
theorem Services.Job.order?_answer (job : Job) (choice : Choice) (db : Database) (id : String) :
    (job.answer choice db).2.order? id =
      match job.saved choice with
      | some order => if id = order.id then some order.stored else db.order? id
      | none => db.order? id := by
  have hsave : ∀ order : Order, (db.saveOrder order).order? id =
      if id = order.id then some order.stored else db.order? id := by
    intro order
    split
    · rename_i hid
      subst hid
      exact order?_saveOrder_self db order
    · rename_i hid
      exact order?_saveOrder_of_ne db hid
  cases job with
  | insert _ _ => exact hsave _
  | cancel _ _ => exact hsave _
  | save _ _ => exact hsave _
  | _ => rfl

theorem Services.Job.row_cases {job : Job} {choice : Choice} {db : Database} {id : String}
    {row : Order} (hrow : (job.answer choice db).2.order? id = some row) :
    db.order? id = some row ∨
      ∃ order, job.saved choice = some order ∧ order.id = id ∧ row = order.stored := by
  rw [Job.order?_answer] at hrow
  split at hrow
  · rename_i order hs
    split at hrow
    · rename_i hid
      exact .inr ⟨order, hs, hid.symm, (Option.some_inj.mp hrow).symm⟩
    · exact .inl hrow
  · exact .inl hrow

/-- A row is never removed. -/
theorem Services.Job.row_stays (job : Job) (choice : Choice) {db : Database} {id : String}
    {row : Order} (hrow : db.order? id = some row) :
    ∃ row', (job.answer choice db).2.order? id = some row' := by
  rw [Job.order?_answer]
  split
  · split
    · exact ⟨_, rfl⟩
    · exact ⟨row, hrow⟩
  · exact ⟨row, hrow⟩

namespace Hub

variable {h h' : Hub} {label : Platform.Label}

/-- A row of the table, as it was made of `order`. -/
structure RowOf (order row : Order) : Prop where
  id : row.id = order.id
  userId : row.userId = order.userId
  totalAmount : row.totalAmount = numeric order.totalAmount

/-- Orders stay placed. -/
theorem Moves.placed_mem (hm : h.Moves label h') {order : Order} (hmem : order ∈ h.placed) :
    order ∈ h'.placed := by
  rcases hm.db_cases with ⟨-, hp⟩ | ⟨job, choice, cluster, ha⟩
  · exact hp ▸ hmem
  · exact ha.placed ▸ List.mem_append_left _ hmem

/-- What a step places, an insertion has made. -/
theorem Moves.placed_new (hm : h.Moves label h') {order : Order} (hmem : order ∈ h'.placed) :
    order ∈ h.placed ∨ ∃ userId totalAmount choice cluster,
      h.Answered h' (.insert userId totalAmount) choice cluster ∧
      order = { userId, totalAmount, status := .PENDING, id := choice.uuid } := by
  rcases hm.db_cases with ⟨-, hp⟩ | ⟨job, choice, cluster, ha⟩
  · exact .inl (hp ▸ hmem)
  · rw [ha.placed, List.mem_append] at hmem
    refine hmem.imp_right fun hmem => ?_
    cases job with
    | insert userId totalAmount => exact ⟨_, _, _, _, ha, List.mem_singleton.mp hmem⟩
    | _ => cases hmem

/-- Everything belongs to an order that was placed. -/
structure Consistent (h : Hub) : Prop where
  ids : (h.placed.map (·.id)).Nodup
  uuid : ∀ order ∈ h.placed, Platform.isUuid order.id = true
  pending : ∀ order ∈ h.placed, order.status = .PENDING
  started : ∀ t options, .created t options ∈ h.order.world.history →
    Platform.isUuid t = true ∧ ∃ order ∈ h.placed, options = sagaOptions order
  jobs : ∀ job ∈ h.jobs, ∀ order, job.order = some order → order ∈ h.placed
  saves : ∀ message row, .save message row ∈ h.jobs → ∃ order ∈ h.placed, RowOf order row
  rows : ∀ id row, h.db.order? id = some row → ∃ order ∈ h.placed, RowOf order row
  found : ∀ order ∈ h.placed, ∃ row, h.db.order? order.id = some row

namespace Consistent

theorem initial : Consistent initial where
  ids := .nil
  uuid := fun _ hmem => nomatch hmem
  pending := fun _ hmem => nomatch hmem
  started := fun _ _ hmem => nomatch hmem
  jobs := fun _ hmem => nomatch hmem
  saves := fun _ _ hmem => nomatch hmem
  rows := fun _ _ hrow => nomatch hrow
  found := fun _ hmem => nomatch hmem

/-- The id of an order that is inserted is none of those before. -/
theorem ids_moves (hc : Consistent h) (hm : h.Moves label h') :
    (h'.placed.map (·.id)).Nodup := by
  rcases hm.db_cases with ⟨-, hp⟩ | ⟨job, choice, cluster, ha⟩
  · exact hp ▸ hc.ids
  · rw [ha.placed]
    cases job with
    | insert userId totalAmount =>
      obtain ⟨-, hnone⟩ := coordinate_insert ha.coordinated
      rw [List.map_append, List.nodup_append]
      refine ⟨hc.ids, List.nodup_singleton _, ?_⟩
      rintro id hid _ hmem rfl
      obtain ⟨order, hmem', rfl⟩ := List.mem_map.mp hid
      obtain ⟨row, hrow⟩ := hc.found order hmem'
      rw [List.mem_singleton.mp hmem, hnone] at hrow
      cases hrow
    | _ => simpa [Job.call, Platform.placedBy] using hc.ids

/-- A saga is started for the order of its job. -/
theorem started_moves (hc : Consistent h) (hm : h.Moves label h') {t : String}
    {options : TransactionOptions} (hmem : .created t options ∈ h'.order.world.history) :
    Platform.isUuid t = true ∧ ∃ order ∈ h'.placed, options = sagaOptions order := by
  have hold : .created t options ∈ h.order.world.history →
      Platform.isUuid t = true ∧ ∃ order ∈ h'.placed, options = sagaOptions order := by
    intro hmem
    obtain ⟨hu, order, hmem, ho⟩ := hc.started t options hmem
    exact ⟨hu, order, hm.placed_mem hmem, ho⟩
  rcases hm.order_cases with heq | ⟨l, hl, hf⟩
  · exact hold (heq ▸ hmem)
  · obtain ⟨added, hh, ha⟩ := Cluster.history_fire hf
    rw [hh, List.mem_append] at hmem
    rcases hmem with hmem | hmem
    · exact hold hmem
    · obtain ⟨date, rfl⟩ := (ha _ hmem).of_created
      cases hl with
      | start choice hjobs hu =>
        exact ⟨hu, _, hm.placed_mem (hc.jobs (.start _) (by simp [hjobs]) _ rfl), rfl⟩
      | internal hi => cases hi

/-- A running `createOrder` works on an order that it has placed. -/
theorem jobs_moves (hc : Consistent h) (hm : h.Moves label h') {job : Job} (hmem : job ∈ h'.jobs)
    {order : Order} (horder : job.order = some order) : order ∈ h'.placed := by
  cases hm.job_cases hmem with
  | stays hmem => exact hm.placed_mem (hc.jobs job hmem order horder)
  | insert userId totalAmount => cases horder
  | update _ _ => cases horder
  | generate _ _ => cases horder
  | answer ha hl =>
    cases hl with
    | start userId totalAmount =>
      cases horder
      rw [ha.placed]
      exact List.mem_append_right _ (List.mem_singleton.mpr rfl)
    | awaitStarted placed => exact hm.placed_mem (hc.jobs _ ha.mem order horder)
    | cancel t _ => exact hm.placed_mem (hc.jobs _ ha.mem order horder)
    | stamp placed t => exact hm.placed_mem (hc.jobs _ ha.mem order horder)
    | _ => cases horder

/-- What is about to be saved was found among the rows. -/
theorem saves_moves (hc : Consistent h) (hm : h.Moves label h') {message : JsonObject}
    {row : Order} (hmem : .save message row ∈ h'.jobs) :
    ∃ order ∈ h'.placed, RowOf order row := by
  cases hm.job_cases hmem with
  | stays hmem =>
    obtain ⟨order, hmem, hrow⟩ := hc.saves message row hmem
    exact ⟨order, hm.placed_mem hmem, hrow⟩
  | answer ha hl =>
    cases hl with
    | save target hfound =>
      obtain ⟨order, hmem, hrow⟩ := hc.rows _ _ (Database.order?_of_findOne hfound)
      exact ⟨order, hm.placed_mem hmem, hrow.id, hrow.userId, hrow.totalAmount⟩

/-- What a job saves is the row of a placed order. -/
theorem saved_moves (hc : Consistent h) (hm : h.Moves label h') {job : Job} {choice : Choice}
    {cluster : Cluster} {order : Order} (ha : h.Answered h' job choice cluster)
    (hs : job.saved choice = some order) : ∃ placed ∈ h'.placed, RowOf placed order.stored := by
  cases job with
  | insert userId totalAmount =>
    cases hs
    refine ⟨{ userId, totalAmount, status := .PENDING, id := choice.uuid }, ?_, rfl, rfl, rfl⟩
    rw [ha.placed]
    exact List.mem_append_right _ (List.mem_singleton.mpr rfl)
  | cancel placed t =>
    cases hs
    exact ⟨placed, hm.placed_mem (hc.jobs _ ha.mem placed rfl), rfl, rfl, rfl⟩
  | save message row =>
    cases hs
    obtain ⟨placed, hmem, hrow⟩ := hc.saves message order ha.mem
    refine ⟨placed, hm.placed_mem hmem, hrow.id, hrow.userId, ?_⟩
    rw [Order.stored, hrow.totalAmount]
    exact numeric_numeric _
  | _ => cases hs

theorem rows_moves (hc : Consistent h) (hm : h.Moves label h') {id : String} {row : Order}
    (hrow : h'.db.order? id = some row) : ∃ order ∈ h'.placed, RowOf order row := by
  have hold : h.db.order? id = some row → ∃ order ∈ h'.placed, RowOf order row := by
    intro hrow
    obtain ⟨order, hmem, hr⟩ := hc.rows id row hrow
    exact ⟨order, hm.placed_mem hmem, hr⟩
  rcases hm.db_cases with ⟨hdb, -⟩ | ⟨job, choice, cluster, ha⟩
  · exact hold (hdb ▸ hrow)
  · rw [ha.db] at hrow
    rcases Job.row_cases hrow with hrow | ⟨order, hs, rfl, rfl⟩
    · exact hold hrow
    · exact hc.saved_moves hm ha hs

theorem found_moves (hc : Consistent h) (hm : h.Moves label h') {order : Order}
    (hmem : order ∈ h'.placed) : ∃ row, h'.db.order? order.id = some row := by
  rcases hm.placed_new hmem with hmem | ⟨userId, totalAmount, choice, cluster, ha, rfl⟩
  · obtain ⟨row, hrow⟩ := hc.found order hmem
    rcases hm.db_cases with ⟨hdb, -⟩ | ⟨job, choice, cluster, ha⟩
    · exact ⟨row, hdb ▸ hrow⟩
    · rw [ha.db]
      exact job.row_stays choice hrow
  · rw [ha.db, Job.order?_answer]
    exact ⟨_, if_pos rfl⟩

theorem moves (hc : Consistent h) (hm : h.Moves label h') : Consistent h' where
  ids := hc.ids_moves hm
  uuid := by
    intro order hmem
    rcases hm.placed_new hmem with hmem | ⟨userId, totalAmount, choice, cluster, ha, rfl⟩
    · exact hc.uuid order hmem
    · exact (coordinate_insert ha.coordinated).1
  pending := by
    intro order hmem
    rcases hm.placed_new hmem with hmem | ⟨userId, totalAmount, choice, cluster, ha, rfl⟩
    · exact hc.pending order hmem
    · rfl
  started := fun _ _ hmem => hc.started_moves hm hmem
  jobs := fun _ hmem _ horder => hc.jobs_moves hm hmem horder
  saves := fun _ _ hmem => hc.saves_moves hm hmem
  rows := fun _ _ hrow => hc.rows_moves hm hrow
  found := fun _ hmem => hc.found_moves hm hmem

/-- The steps of every saga are those of the order approval. -/
theorem steps (hc : Consistent h) {t : String} {options : TransactionOptions}
    (hmem : .created t options ∈ h.order.world.history) : options.steps = orderSteps := by
  obtain ⟨-, order, -, rfl⟩ := hc.started t options hmem
  exact steps_sagaOptions order

end Consistent

/-- Nothing but order approvals is started. -/
def approvalsPolicy : Cluster.Policy := fun _ label =>
  match label with
  | .start options _ _ => decide (options.steps = orderSteps)
  | _ => true

theorem OrderLabel.approvals {l : Cluster.Label} (hl : h.OrderLabel label l) :
    approvalsPolicy h.order l = true := by
  cases hl with
  | start choice hjobs hu => exact decide_eq_true (steps_sagaOptions _)
  | receive hc ht => rfl
  | internal hi =>
    cases l with
    | start options t date => cases hi
    | _ => rfl

/-- What holds of every platform, whatever is delivered and whichever calls fail. -/
structure Sound (h : Hub) : Prop where
  consistent : Consistent h
  services : ServicesPublish h
  relayed : Relayed h
  order : Cluster.Reachable approvalsPolicy h.order
  invoice : Cluster.Reachable passivePolicy h.invoice

theorem Sound.initial : Sound initial :=
  ⟨.initial, .initial, .initial, .refl, .refl⟩

theorem Sound.moves (hs : Sound h) (hm : h.Moves label h') : Sound h' where
  consistent := hs.consistent.moves hm
  services := hs.services.moves hm
  relayed := hs.relayed.moves hm
  order := hm.order_reachable hs.order fun _ hl => hl.approvals
  invoice := by
    refine hm.invoice_reachable hs.invoice fun l hl => ?_
    cases l with
    | start options t date => exact absurd rfl (hl.not_start options t date)
    | _ => rfl

/-- Besides announcements and steps the coordinators publish nothing. -/
theorem Sound.of_services (hs : Sound h) {source : Source} {index : Nat} {subject : Subjects}
    {event : EventMessage} (hc : h.Carries source index subject event)
    (ha : subject ∉ announcedTopics) (hn : subject.value ∉ orderSteps.map Prod.fst) :
    source = .services := by
  obtain ⟨hget, ht⟩ := hc
  have hmem := List.mem_of_getElem? hget
  cases source with
  | orderCoordinator =>
    obtain ⟨p, hp, rfl⟩ := mem_messages hmem
    obtain ⟨t, options, hcreated, hstep, -⟩ := command_origin hs.order hp ha ht
    rw [hs.consistent.steps hcreated] at hstep
    exact absurd hstep hn
  | invoiceCoordinator =>
    obtain ⟨p, hp, rfl⟩ := mem_messages hmem
    obtain ⟨t, options, hcreated, -⟩ := command_origin hs.invoice hp ha ht
    exact absurd hcreated (passive_not_created (fun _ _ hl => hl) hs.invoice t options)
  | services => rfl

/-- Nobody reports a step as failed. -/
theorem Sound.not_failed (hs : Sound h) {source : Source} {index : Nat} {event : EventMessage} :
    ¬h.Carries source index .TRANSACTION_STEP_FAILED event := by
  intro hc
  obtain rfl := hs.of_services hc (by decide) (by decide)
  rcases hs.services.subject_cases (List.mem_of_getElem? hc.message) hc.topic with heq | heq
  · cases heq
  · cases heq

theorem sound_reachable {policy : Platform.Policy} {s : Platform}
    (hs : Platform.Reachable policy s) : ∃ h : Hub, s = h.toPlatform ∧ Sound h :=
  induction .initial (fun _ _ _ _ hP _ hm => hP.moves hm) hs

end Hub

/-! ## The start of a saga in a run -/

/-- The saga `t` is started for the order `id`. -/
def startsSaga (t id : String) : Entry → Bool
  | .created t' options => t' == t && Json.str? (options.payload.lookup "orderId") == some id
  | _ => false

theorem exists_created {history : List Entry} {t id : String}
    (h : history.any (startsSaga t id) = true) :
    ∃ options, .created t options ∈ history ∧
      Json.str? (options.payload.lookup "orderId") = some id := by
  obtain ⟨entry, hmem, he⟩ := List.any_eq_true.mp h
  cases entry with
  | created t' options =>
    simp only [startsSaga, Bool.and_eq_true, beq_iff_eq] at he
    obtain ⟨rfl, hid⟩ := he
    exact ⟨options, hmem, hid⟩
  | _ => cases he

end InvoiceHub
