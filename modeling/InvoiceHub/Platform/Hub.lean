import InvoiceHub.Services.Jobs
import InvoiceHub.Platform.Platform

/-!
# The platform as a machine of jobs

A hub is the platform with the jobs of the services in place of their programs.  `Moves` says
once what each step of the platform can do; invariants of the platform are derived from it.
-/

namespace InvoiceHub

open Effects Transaction Services

/-- The platform, with the jobs of its services. -/
structure Hub where
  order : Cluster
  invoice : Cluster
  db : Database
  jobs : List Job
  delivered : List Delivery
  placed : List Order

namespace Hub

/-- The platform that runs the programs of the jobs. -/
def toPlatform (h : Hub) : Platform where
  order := h.order
  invoice := h.invoice
  services := { world := h.db, tasks := h.jobs.map Job.task }
  delivered := h.delivered
  placed := h.placed

/-- Nothing stored, nothing to do. -/
def initial : Hub where
  order := Cluster.initial
  invoice := Cluster.initial
  db := { orders := ∅, invoices := [], published := [] }
  jobs := []
  delivered := []
  placed := []

/-- The messages of a party, oldest first. -/
def published (h : Hub) : Source → List EventMessage := h.toPlatform.published

/-- `event` is the message at `index` of `source`, and its topic is `subject`. -/
structure Carries (h : Hub) (source : Source) (index : Nat) (subject : Subjects)
    (event : EventMessage) : Prop where
  message : (h.published source)[index]? = some event
  topic : event.topicName = subject.value

/-- The steps of the platform. -/
inductive Moves (h : Hub) : Platform.Label → Hub → Prop where
  | createOrder (userId : String) (totalAmount : Rat) :
      Moves h (.createOrder userId totalAmount)
        { h with jobs := h.jobs ++ [.insert userId totalAmount] }
  | orderReceives {subject : Subjects} {source : Source} {index : Nat} {event : EventMessage}
      {order : Cluster} : h.Carries source index subject event → subject ∈ coordinatorTopics →
      h.order.fire (.deliver .ORDER_SERVICE subject (TransactionEvent.ofMessage event.message)) =
        some order →
      Moves h (.deliver .ORDER_SERVICE_TRANSACTION_GROUP subject source index)
        { h with
          order
          delivered := h.delivered ++ [⟨.ORDER_SERVICE_TRANSACTION_GROUP, source, index⟩] }
  | invoiceReceives {subject : Subjects} {source : Source} {index : Nat} {event : EventMessage}
      {invoice : Cluster} : h.Carries source index subject event → subject ∈ coordinatorTopics →
      h.invoice.fire (.deliver .INVOICE_SERVICE subject
        (TransactionEvent.ofMessage event.message)) = some invoice →
      Moves h (.deliver .INVOICE_SERVICE_TRANSACTION_GROUP subject source index)
        { h with
          invoice
          delivered := h.delivered ++ [⟨.INVOICE_SERVICE_TRANSACTION_GROUP, source, index⟩] }
  | update {source : Source} {index : Nat} {event : EventMessage} :
      h.Carries source index .ORDER_APPROVAL_STEP_UPDATE_ORDER_STATUS event →
      Moves h (.deliver .ORDER_SERVICE_TRANSACTION_GROUP
          .ORDER_APPROVAL_STEP_UPDATE_ORDER_STATUS source index)
        { h with
          jobs := h.jobs ++ Job.ofUpdate event.message
          delivered := h.delivered ++ [⟨.ORDER_SERVICE_TRANSACTION_GROUP, source, index⟩] }
  | generate {source : Source} {index : Nat} {event : EventMessage} :
      h.Carries source index .ORDER_APPROVAL_STEP_INVOICE_GENERATE event →
      Moves h (.deliver .INVOICE_SERVICE_APP_GROUP
          .ORDER_APPROVAL_STEP_INVOICE_GENERATE source index)
        { h with
          jobs := h.jobs ++ Job.ofInvoice event.message
          delivered := h.delivered ++ [⟨.INVOICE_SERVICE_APP_GROUP, source, index⟩] }
  | notify {source : Source} {index : Nat} {event : EventMessage} :
      h.Carries source index .TRANSACTION_USER_NOTIFICATION event →
      Moves h (.deliver .INVOICE_SERVICE_TRANSACTION_GROUP .TRANSACTION_USER_NOTIFICATION
          source index)
        { h with
          delivered := h.delivered ++ [⟨.INVOICE_SERVICE_TRANSACTION_GROUP, source, index⟩] }
  | order {label : Cluster.Label} {order : Cluster} : Platform.internal label = true →
      h.order.fire label = some order → Moves h (.order label) { h with order }
  | invoice {label : Cluster.Label} {invoice : Cluster} : Platform.internal label = true →
      h.invoice.fire label = some invoice → Moves h (.invoice label) { h with invoice }
  | answer {before after : List Job} {job : Job} (choice : Choice) {order : Cluster} :
      h.jobs = before ++ job :: after →
      h.toPlatform.coordinate choice job.call = some order →
      Moves h (.advance before.length choice)
        { h with
          order
          db := (job.answer choice h.db).2
          jobs := before ++ (job.answer choice h.db).1 ++ after
          placed := h.placed ++ Platform.placedBy choice job.call }
  | reject {before after : List Job} {job : Job} : h.jobs = before ++ job :: after →
      Moves h (.reject before.length) { h with jobs := before ++ after }
  | abandon {before after : List Job} {job : Job} : h.jobs = before ++ job :: after →
      Moves h (.abandon before.length) { h with jobs := before ++ after }

/-! ## Refinement -/

/-- The task at a place is that of the job there. -/
theorem split_jobs {h : Hub} {before after : List (Task Service Services.Call Services.Call.Res)}
    {task : Task Service Services.Call Services.Call.Res}
    (hs : h.toPlatform.services.tasks = before ++ task :: after) :
    ∃ jobs job jobs', h.jobs = jobs ++ job :: jobs' ∧ before = jobs.map Job.task ∧
      task = job.task ∧ after = jobs'.map Job.task := by
  obtain ⟨jobs, rest, hjobs, rfl, hrest⟩ := List.map_eq_append_iff.mp hs
  obtain ⟨job, jobs', rfl, rfl, rfl⟩ := List.map_eq_cons_iff.mp hrest
  exact ⟨jobs, job, jobs', hjobs, rfl, rfl, rfl⟩

/-- Only the jobs and the tables of a hub are behind its services. -/
theorem toPlatform_services {h : Hub} {services : Pool Database Service Services.Call
      Services.Call.Res} {db : Database} {jobs : List Job} (hw : services.world = db)
    (ht : services.tasks = jobs.map Job.task) :
    services = { h with db, jobs }.toPlatform.services := by
  cases services
  cases hw
  cases ht
  rfl

/-- The answer to the call of a job. -/
theorem advance_cases {h : Hub} {j : Nat} {choice : Choice}
    {services : Pool Database Service Services.Call Services.Call.Res}
    (ha : Pool.advance background perform h.toPlatform.services j choice = some services) :
    ∃ before job after, h.jobs = before ++ job :: after ∧ before.length = j ∧
      h.toPlatform.services.tasks[j]? = some job.task ∧
      services = { h with
        db := (job.answer choice h.db).2
        jobs := before ++ (job.answer choice h.db).1 ++ after }.toPlatform.services := by
  obtain ⟨tag, op, ok, err, before, after, hs, hlen, hworld, htasks⟩ := Pool.advance_cases ha
  obtain ⟨jobs, job, jobs', hjobs, rfl, htask, rfl⟩ := split_jobs hs
  obtain ⟨ok', hprog, hspec⟩ := job.prog_spec
  have hget : h.toPlatform.services.tasks[j]? = some job.task := by
    rw [hs, ← hlen, ← htask]
    simp
  rw [Job.task, hprog] at htask
  cases htask
  obtain ⟨hlaunch, hdb⟩ := hspec choice h.db
  refine ⟨jobs, job, jobs', hjobs, by simpa using hlen, hget, toPlatform_services ?_ ?_⟩
  · exact hworld.trans hdb
  · rw [htasks]
    simp only [List.map_append]
    exact congrArg (_ ++ · ++ _) hlaunch

/-- A job whose call is rejected leaves nothing to do. -/
theorem reject_cases {h : Hub} {j : Nat}
    {services : Pool Database Service Services.Call Services.Call.Res}
    (ha : Pool.reject background h.toPlatform.services j = some services) :
    ∃ before job after, h.jobs = before ++ job :: after ∧ before.length = j ∧
      services = { h with jobs := before ++ after }.toPlatform.services := by
  obtain ⟨tag, op, ok, err, before, after, hs, hlen, hworld, htasks⟩ := Pool.reject_cases ha
  obtain ⟨jobs, job, jobs', hjobs, rfl, htask, rfl⟩ := split_jobs hs
  obtain ⟨ok', hprog, -⟩ := job.prog_spec
  rw [Job.task, hprog] at htask
  cases htask
  refine ⟨jobs, job, jobs', hjobs, by simpa using hlen, toPlatform_services hworld ?_⟩
  rw [htasks, List.map_append]
  exact congrArg (· ++ _) (List.append_nil _)

/-- So does a job that is stopped. -/
theorem abandon_cases {h : Hub} {j : Nat}
    {services : Pool Database Service Services.Call Services.Call.Res}
    (ha : Pool.abandon h.toPlatform.services j = some services) :
    ∃ before job after, h.jobs = before ++ job :: after ∧ before.length = j ∧
      services = { h with jobs := before ++ after }.toPlatform.services := by
  obtain ⟨task, before, after, hs, hlen, hworld, htasks⟩ := Pool.abandon_cases ha
  obtain ⟨jobs, job, jobs', hjobs, rfl, -, rfl⟩ := split_jobs hs
  refine ⟨jobs, job, jobs', hjobs, by simpa using hlen, toPlatform_services hworld ?_⟩
  rw [htasks, List.map_append]

/-- A service method that starts with some jobs. -/
theorem serve_eq {h : Hub} {service : Service} {method : Services.Async Unit} {jobs : List Job}
    (hl : Task.launch background service method = jobs.map Job.task) :
    h.toPlatform.serve service method = { h with jobs := h.jobs ++ jobs }.toPlatform := by
  simp only [Platform.serve, Pool.begin, hl, toPlatform, List.map_append]

/-- A method that awaits nothing leaves nothing to run. -/
theorem serve_nil {h : Hub} {service : Service} {method : Services.Async Unit}
    (hl : Task.launch background service method = []) :
    h.toPlatform.serve service method = h.toPlatform := by
  simp only [Platform.serve, Pool.begin, hl, toPlatform, List.append_nil]

theorem subscription_cases {group : GroupIds} {subject : Subjects} {handler : Handler}
    (hs : subscription group subject = some handler) :
    (group = .ORDER_SERVICE_TRANSACTION_GROUP ∧ subject ∈ coordinatorTopics ∧
      handler = .coordinator .ORDER_SERVICE subject) ∨
    (group = .INVOICE_SERVICE_TRANSACTION_GROUP ∧ subject ∈ coordinatorTopics ∧
      handler = .coordinator .INVOICE_SERVICE subject) ∨
    (group = .ORDER_SERVICE_TRANSACTION_GROUP ∧
      subject = .ORDER_APPROVAL_STEP_UPDATE_ORDER_STATUS ∧ handler = .handleUpdateOrderStatus) ∨
    (group = .INVOICE_SERVICE_APP_GROUP ∧ subject = .ORDER_APPROVAL_STEP_INVOICE_GENERATE ∧
      handler = .handleTransactionInvoiceGeneration) ∨
    (group = .INVOICE_SERVICE_TRANSACTION_GROUP ∧ subject = .TRANSACTION_USER_NOTIFICATION ∧
      handler = .handleUserNotification) := by
  cases group <;> cases subject <;> first | (cases hs; done) | (cases hs; decide)

/-- Every step of the platform is one of `Moves`. -/
theorem moves_of_fire {h : Hub} {label : Platform.Label} {s : Platform}
    (hf : h.toPlatform.fire label = some s) : ∃ h', h.Moves label h' ∧ s = h'.toPlatform := by
  cases label with
  | createOrder userId totalAmount =>
    cases hf
    exact ⟨_, .createOrder userId totalAmount, serve_eq rfl⟩
  | deliver group subject source index =>
    unfold Platform.fire at hf
    dsimp only at hf
    split at hf
    · rename_i handler event hsub hget
      split at hf
      · rename_i htopic
        obtain ⟨s', hr, rfl⟩ := Option.map_eq_some_iff.mp hf
        have hc : h.Carries source index subject event := ⟨hget, htopic⟩
        rcases subscription_cases hsub with ⟨rfl, hmem, rfl⟩ | ⟨rfl, hmem, rfl⟩ | ⟨rfl, rfl, rfl⟩ |
          ⟨rfl, rfl, rfl⟩ | ⟨rfl, rfl, rfl⟩
        · rw [Platform.receive, if_pos rfl] at hr
          obtain ⟨order, ho, rfl⟩ := Option.map_eq_some_iff.mp hr
          exact ⟨_, .orderReceives hc hmem ho, rfl⟩
        · rw [Platform.receive, if_neg (by decide)] at hr
          obtain ⟨invoice, hi, rfl⟩ := Option.map_eq_some_iff.mp hr
          exact ⟨_, .invoiceReceives hc hmem hi, rfl⟩
        · cases hr
          rw [serve_eq (launch_handleUpdateOrderStatus _)]
          exact ⟨_, .update hc, rfl⟩
        · cases hr
          rw [serve_eq (launch_handleTransactionInvoiceGeneration _)]
          exact ⟨_, .generate hc, rfl⟩
        · cases hr
          rw [serve_nil rfl]
          exact ⟨_, .notify hc, rfl⟩
      · cases hf
    · cases hf
  | order label =>
    unfold Platform.fire at hf
    dsimp only at hf
    split at hf
    · rename_i hi
      obtain ⟨order, ho, rfl⟩ := Option.map_eq_some_iff.mp hf
      exact ⟨_, .order hi ho, rfl⟩
    · cases hf
  | invoice label =>
    unfold Platform.fire at hf
    dsimp only at hf
    split at hf
    · rename_i hi
      obtain ⟨invoice, ho, rfl⟩ := Option.map_eq_some_iff.mp hf
      exact ⟨_, .invoice hi ho, rfl⟩
    · cases hf
  | advance j choice =>
    unfold Platform.fire at hf
    dsimp only at hf
    split at hf
    · rename_i tag op ok err hget
      obtain ⟨order, ho, hf⟩ := Option.bind_eq_some_iff.mp hf
      obtain ⟨services, hs, hf⟩ := Option.bind_eq_some_iff.mp hf
      cases hf
      obtain ⟨before, job, after, hjobs, rfl, hget', rfl⟩ := advance_cases hs
      obtain ⟨ok', hprog, -⟩ := job.prog_spec
      have htask := Option.some_inj.mp (hget.symm.trans hget')
      rw [Job.task, hprog] at htask
      cases htask
      exact ⟨_, .answer choice hjobs ho, rfl⟩
    · cases hf
  | reject j =>
    obtain ⟨services, hs, rfl⟩ := Option.map_eq_some_iff.mp hf
    obtain ⟨before, job, after, hjobs, rfl, rfl⟩ := reject_cases hs
    exact ⟨_, .reject hjobs, rfl⟩
  | abandon j =>
    obtain ⟨services, hs, rfl⟩ := Option.map_eq_some_iff.mp hf
    obtain ⟨before, job, after, hjobs, rfl, rfl⟩ := abandon_cases hs
    exact ⟨_, .abandon hjobs, rfl⟩

/-- An invariant of the jobs is one of the platform. -/
theorem induction {policy : Platform.Policy} {P : Hub → Prop} (h0 : P initial)
    (hstep : ∀ h label h', Platform.Reachable policy h.toPlatform → P h →
      policy h.toPlatform label = true → h.Moves label h' → P h') {s : Platform}
    (hs : Platform.Reachable policy s) : ∃ h : Hub, s = h.toPlatform ∧ P h := by
  induction hs with
  | refl => exact ⟨initial, rfl, h0⟩
  | tail hr hst ih =>
    obtain ⟨label, hp, hf⟩ := hst
    obtain ⟨h, rfl, hP⟩ := ih
    obtain ⟨h', hm, rfl⟩ := moves_of_fire hf
    exact ⟨h', rfl, hstep h label h' hr hP hp hm⟩

end Hub

end InvoiceHub
