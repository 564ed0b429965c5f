import InvoiceHub.Cache.Lists
import InvoiceHub.Effects.Run

/-!
# What a cached list shows

The methods of the two services run one at a time.  `createOrder` and
`generateInvoiceInTransaction` drop what is cached, `startFailedOrderTransaction` and
`updateOrderStatus` do not; a cached list is up to date exactly as long as they change the result
of no query that is cached.
-/

namespace InvoiceHub.Cache

open Effects Services

/-! ## One method at a time -/

section OneAtATime

variable {Query Op Db ι : Type} {Res : Op → Type} {α : Type}

namespace CachedList

variable (c : CachedList Query Op Db ι Res)

/-- Every call is answered. -/
def answers : Answers (World Db × (Nat → ι)) (Call Query Op) (Call.Answer Res) :=
  consult fun choice op w => (some (c.performCall choice op w).1, (c.performCall choice op w).2)

/-- Every call of an undecorated method is answered. -/
def ownAnswers : Answers (Db × (Nat → ι)) Op Res :=
  consult fun choice op db => (some (c.perform choice op db).1, (c.perform choice op db).2)

/-- What an undecorated method leaves stored. -/
def stored (method : Prog Op Res α) (choices : Nat → ι) (db : Db) : Db :=
  (method.eval c.ownAnswers (db, choices)).2.1

/-- What a method returns. -/
def value (method : Async Query Res α) (choices : Nat → ι) (w : World Db) : Option α :=
  (method.eval c.answers (w, choices)).1

/-- What a method leaves behind. -/
def run (method : Async Query Res α) (choices : Nat → ι) (w : World Db) : World Db :=
  (method.eval c.answers (w, choices)).2.1

/-- A method that writes, without a decorator. -/
def plain (_ : CachedList Query Op Db ι Res) (method : Prog Op Res α) : Async Query Res α :=
  method.mapOp Call.own fun _ r => r

/-- Whatever is cached is registered. -/
def Registered (w : World Db) : Prop :=
  ∀ query, w.strings.lookup (c.key query) ≠ none → c.key query ∈ w.members c.keyTemplate

variable {c} {w : World Db} {choices : Nat → ι} {query : Query}

/-! ### What a method does -/

/-- A query that is cached is not asked again. -/
theorem eval_read_hit {value : Json} (h : w.strings.lookup (c.key query) = some value) :
    c.value (c.read query) choices w = some value ∧ c.run (c.read query) choices w = w := by
  have hget : (c.answers (Call.get (c.key query)) (w, choices)).1 =
      some (w.strings.lookup (c.key query)) := rfl
  unfold CachedList.value CachedList.run read redisDecorator
  rw [Prog.await_bind, Prog.eval_call_some hget, h]
  exact ⟨rfl, rfl⟩

/-- A query that is not cached is asked, cached and registered. -/
theorem eval_read_miss (h : w.strings.lookup (c.key query) = none) :
    c.value (c.read query) choices w = some (c.fetch query w.db) ∧
      c.run (c.read query) choices w =
        { db := w.db
          strings := w.strings.insert (c.key query) (c.fetch query w.db)
          hashKeys := w.hashKeys.insert c.keyTemplate
            ((w.members c.keyTemplate).insert (c.key query)) } := by
  have hget : (c.answers (Call.get (c.key query)) (w, choices)).1 =
      some (w.strings.lookup (c.key query)) := rfl
  unfold CachedList.value CachedList.run read redisDecorator
  rw [Prog.await_bind, Prog.eval_call_some hget, h]
  exact ⟨rfl, rfl⟩

/-- An undecorated method changes what is stored and leaves the cache alone. -/
theorem run_plain (method : Prog Op Res α) :
    c.run (c.plain method) choices w = { w with db := c.stored method choices w.db } := by
  have hown : ∀ (op : Op) (s : Db × (Nat → ι)) (t : World Db × (Nat → ι)),
      t = ({ w with db := s.1 }, s.2) →
        (c.answers (.own op) t).1.map (fun r => r) = (c.ownAnswers op s).1 ∧
          (c.answers (.own op) t).2 = ({ w with db := (c.ownAnswers op s).2.1 },
            (c.ownAnswers op s).2.2) := by
    rintro op s t rfl
    exact ⟨rfl, rfl⟩
  exact congrArg Prod.fst (Prog.eval_mapOp hown method (w.db, choices) (w, choices) rfl).2

/-- A decorated method that writes drops what is registered first. -/
theorem run_write (method : Prog Op Res α) :
    ∃ choices', c.run (c.write method) choices w =
      { db := c.stored method choices' w.db
        strings := (w.members c.keyTemplate).foldl (fun m key => m.erase key) w.strings
        hashKeys := w.hashKeys } := by
  have hkeys : (c.answers (Call.getHashKeys c.keyTemplate) (w, choices)).1 =
      some (w.members c.keyTemplate) := rfl
  unfold run write redisCacheInvalidateDecorator
  rw [Prog.await_bind, Prog.eval_call_some hkeys]
  by_cases hnil : w.members c.keyTemplate = []
  · rw [if_neg (not_not.mpr hnil), hnil]
    exact ⟨_, run_plain method⟩
  · rw [if_pos hnil]
    exact ⟨_, run_plain method⟩

/-! ### What a method shows -/

/-- A decorated `get` returns what the undecorated one would where its entry is not outdated. -/
theorem value_read_iff :
    c.value (c.read query) choices w = some (c.fetch query w.db) ↔
      ∀ value, w.strings.lookup (c.key query) = some value → value = c.fetch query w.db := by
  cases hl : w.strings.lookup (c.key query) with
  | some value =>
    rw [(eval_read_hit hl).1]
    exact ⟨fun h value' hv => (Option.some_inj.mp hv).symm.trans (Option.some_inj.mp h),
      fun h => congrArg some (h value rfl)⟩
  | none =>
    rw [(eval_read_miss hl).1]
    exact ⟨fun _ value hv => (by cases hv), fun _ => rfl⟩

/-! ### What a method keeps -/

/-- Nothing is outdated, and whatever is cached is registered. -/
structure Tidy (c : CachedList Query Op Db ι Res) (w : World Db) : Prop where
  fresh : c.Fresh w
  registered : c.Registered w

theorem Tidy.read (hinj : Function.Injective c.md5) (h : c.Tidy w) :
    c.Tidy (c.run (c.read query) choices w) := by
  cases hl : w.strings.lookup (c.key query) with
  | some value =>
    rw [(eval_read_hit hl).2]
    exact h
  | none =>
    rw [(eval_read_miss hl).2]
    refine ⟨fun query' value hv => ?_, fun query' hne => ?_⟩
    · by_cases hq : query' = query
      · subst hq
        rw [AList.lookup_insert] at hv
        exact (Option.some_inj.mp hv).symm
      · rw [AList.lookup_insert_ne fun he => hq (c.key_injective hinj he)] at hv
        exact h.fresh query' value hv
    · rw [World.members, AList.lookup_insert, Option.getD_some, List.mem_insert_iff]
      by_cases hq : query' = query
      · exact .inl (congrArg c.key hq)
      · rw [AList.lookup_insert_ne fun he => hq (c.key_injective hinj he)] at hne
        exact .inr (h.registered query' hne)

/-- A decorated method that writes leaves nothing cached. -/
theorem Tidy.write (h : c.Registered w) (method : Prog Op Res α) :
    c.Tidy (c.run (c.write method) choices w) := by
  obtain ⟨choices', hrun⟩ : ∃ choices', c.run (c.write method) choices w = _ := run_write method
  have hnone : ∀ query, (c.run (c.write method) choices w).strings.lookup (c.key query) = none := by
    intro query
    rw [hrun]
    dsimp only
    rw [lookup_foldl_erase]
    split
    · rfl
    · rename_i hnot
      exact not_not.mp fun hne => hnot (h query hne)
  refine ⟨fun query value hv => ?_, fun query hne => absurd (hnone query) hne⟩
  rw [hnone query] at hv
  cases hv

theorem Registered.plain (h : c.Registered w) (method : Prog Op Res α) :
    c.Registered (c.run (c.plain method) choices w) := by
  rw [run_plain]
  exact h

/-- The method changes the result of no query that is cached. -/
def Harmless (c : CachedList Query Op Db ι Res) (method : Prog Op Res α) (choices : Nat → ι)
    (w : World Db) : Prop :=
  ∀ query, w.strings.lookup (c.key query) ≠ none →
    c.fetch query (c.stored method choices w.db) = c.fetch query w.db

/-- An undecorated method leaves what is cached up to date exactly if it is harmless. -/
theorem fresh_plain_iff (h : c.Fresh w) (method : Prog Op Res α) :
    c.Fresh (c.run (c.plain method) choices w) ↔ c.Harmless method choices w := by
  rw [run_plain]
  constructor
  · intro hf query hne
    obtain ⟨value, hv⟩ := Option.ne_none_iff_exists'.mp hne
    exact (hf query value hv).symm.trans (h query value hv)
  · intro hh query value hv
    have hne : w.strings.lookup (c.key query) ≠ none := Option.ne_none_iff_exists'.mpr ⟨value, hv⟩
    exact (h query value hv).trans (hh query hne).symm

end CachedList

/-! ## Two lists in one Redis -/

section Beside

variable {Query' Op' : Type} {Res' : Op' → Type} {c : CachedList Query Op Db ι Res}
  {c' : CachedList Query' Op' Db ι Res'} {w w' : World Db} {choices : Nat → ι} {query : Query}

/-- Nothing is added to a list, and its queries have the results they had. -/
structure Beside (c' : CachedList Query' Op' Db ι Res') (w w' : World Db) : Prop where
  strings : ∀ query value, w'.strings.lookup (c'.key query) = some value →
    w.strings.lookup (c'.key query) = some value
  members : w'.members c'.keyTemplate = w.members c'.keyTemplate
  fetch : ∀ query, c'.fetch query w'.db = c'.fetch query w.db

theorem Beside.tidy (h : Beside c' w w') (ht : c'.Tidy w) : c'.Tidy w' := by
  refine ⟨fun query value hv => ?_, fun query hne => ?_⟩
  · rw [h.fetch]
    exact ht.fresh query value (h.strings query value hv)
  · obtain ⟨value, hv⟩ := Option.ne_none_iff_exists'.mp hne
    rw [h.members]
    exact ht.registered query (Option.ne_none_iff_exists'.mpr ⟨value, h.strings query value hv⟩)

/-- Two lists that share neither keys nor a key template. -/
structure Disjoint (c : CachedList Query Op Db ι Res) (c' : CachedList Query' Op' Db ι Res') :
    Prop where
  key : ∀ query query', c'.key query' ≠ c.key query
  keyTemplate : c'.keyTemplate ≠ c.keyTemplate

theorem Beside.read (hd : Disjoint c c') : Beside c' w (c.run (c.read query) choices w) := by
  cases hl : w.strings.lookup (c.key query) with
  | some value =>
    rw [(CachedList.eval_read_hit hl).2]
    exact ⟨fun _ _ hv => hv, rfl, fun _ => rfl⟩
  | none =>
    rw [(CachedList.eval_read_miss hl).2]
    refine ⟨fun query' value hv => ?_, ?_, fun _ => rfl⟩
    · exact (AList.lookup_insert_ne (hd.key query query')).symm.trans hv
    · unfold World.members
      rw [AList.lookup_insert_ne hd.keyTemplate]

theorem Beside.plain (method : Prog Op Res α)
    (hfetch : ∀ query db, c'.fetch query (c.stored method choices db) = c'.fetch query db) :
    Beside c' w (c.run (c.plain method) choices w) := by
  rw [CachedList.run_plain]
  exact ⟨fun _ _ hv => hv, rfl, fun query => hfetch query w.db⟩

theorem Beside.write (method : Prog Op Res α)
    (hfetch : ∀ choices query db,
      c'.fetch query (c.stored method choices db) = c'.fetch query db) :
    Beside c' w (c.run (c.write method) choices w) := by
  obtain ⟨choices', hrun⟩ : ∃ choices', c.run (c.write method) choices w = _ :=
    CachedList.run_write method
  rw [hrun]
  refine ⟨fun query value hv => ?_, rfl, fun query => hfetch choices' query w.db⟩
  dsimp only at hv
  rw [lookup_foldl_erase] at hv
  split at hv
  · cases hv
  · exact hv

end Beside

end OneAtATime

/-! ## The two services -/

section Services

/-- TypeORM in the two services. -/
structure Orms (Db Db' : Type) where
  orders : Orm Db
  invoices : Orm Db'

variable {Db Db' : Type} (orms : Orms Db Db') (md5 : GetQueryResultsArgs → String)
  (queries : Set GetQueryResultsArgs)

namespace Orms

/-- The list of the orders. -/
abbrev orderList := Cache.orderList (orms.orders.fst : Orm (Db × Db')) md5 queries

/-- The list of the invoices. -/
abbrev invoiceList := Cache.invoiceList (orms.invoices.snd : Orm (Db × Db')) md5 queries

end Orms

/-- A method that is called, with what it is called with. -/
inductive Operation (queries : Set GetQueryResultsArgs) where
  | getOrders (query : queries)
  | createOrder (userId : String) (totalAmount : Rat)
  | startFailedOrderTransaction (order : Order) (reason : String) (finalStatus : OrderStatus)
  | updateOrderStatus (orderId : Option String) (targetStatus : OrderStatus)
  | getInvoices (query : queries)
  | generateInvoiceInTransaction (orderId userId : String) (totalAmount : Rat)

/-- What a method leaves behind. -/
def next (w : World (Db × Db')) : Operation queries → (Nat → Choice) → World (Db × Db')
  | .getOrders query, choices =>
    (orms.orderList md5 queries).run ((orms.orderList md5 queries).read query) choices w
  | .createOrder userId totalAmount, choices =>
    (orms.orderList md5 queries).run
      ((orms.orderList md5 queries).write (createOrder userId totalAmount)) choices w
  | .startFailedOrderTransaction order reason finalStatus, choices =>
    (orms.orderList md5 queries).run ((orms.orderList md5 queries).plain
      (startFailedOrderTransaction order reason finalStatus)) choices w
  | .updateOrderStatus orderId targetStatus, choices =>
    (orms.orderList md5 queries).run
      ((orms.orderList md5 queries).plain (updateOrderStatus orderId targetStatus)) choices w
  | .getInvoices query, choices =>
    (orms.invoiceList md5 queries).run ((orms.invoiceList md5 queries).read query)
      choices w
  | .generateInvoiceInTransaction orderId userId totalAmount, choices =>
    (orms.invoiceList md5 queries).run ((orms.invoiceList md5 queries).write
      (generateInvoiceInTransaction orderId userId totalAmount)) choices w

/-- The methods, one after the other, from an empty cache on. -/
def methods (db : Db × Db') :
    Machine (World (Db × Db')) (Operation queries × (Nat → Choice)) where
  initial := ⟨db, ∅, ∅⟩
  fire w label := some (next orms md5 queries w label.1 label.2)

/-- Whatever is asked, a decorated `get` returns what the undecorated one would. -/
def Transparent (w : World (Db × Db')) : Prop :=
  (∀ query choices,
    (orms.orderList md5 queries).value ((orms.orderList md5 queries).read query) choices w =
      some (get orms.orders OrderDto query w.db.1)) ∧
  ∀ query choices,
    (orms.invoiceList md5 queries).value ((orms.invoiceList md5 queries).read query)
      choices w = some (get orms.invoices InvoiceDto query w.db.2)

/-- The methods without a decorator change the result of no query that is cached. -/
def HarmlessCall (w : World (Db × Db')) : Operation queries × (Nat → Choice) → Prop
  | (.startFailedOrderTransaction order reason finalStatus, choices) =>
    (orms.orderList md5 queries).Harmless
      (startFailedOrderTransaction order reason finalStatus) choices w
  | (.updateOrderStatus orderId targetStatus, choices) =>
    (orms.orderList md5 queries).Harmless (updateOrderStatus orderId targetStatus) choices w
  | _ => True

variable {orms md5 queries} {w : World (Db × Db')}

theorem transparent_iff_fresh :
    Transparent orms md5 queries w ↔
      (orms.orderList md5 queries).Fresh w ∧ (orms.invoiceList md5 queries).Fresh w := by
  constructor
  · rintro ⟨ho, hi⟩
    exact ⟨fun query => CachedList.value_read_iff.mp (ho query fun _ => {}),
      fun query => CachedList.value_read_iff.mp (hi query fun _ => {})⟩
  · rintro ⟨ho, hi⟩
    exact ⟨fun query _ => CachedList.value_read_iff.mpr (ho query),
      fun query _ => CachedList.value_read_iff.mpr (hi query)⟩

/-- The keys of a list begin with the name of what it lists. -/
theorem disjoint_lists : Disjoint (orms.orderList md5 queries) (orms.invoiceList md5 queries) := by
  refine ⟨fun query query' h => ?_, by simp [orderList, invoiceList]⟩
  have hhead := congrArg (fun key : String => key.toList.head?) h
  simp [CachedList.key, orderList, invoiceList] at hhead

theorem disjoint_lists' :
    Disjoint (orms.invoiceList md5 queries) (orms.orderList md5 queries) :=
  ⟨fun query query' h => disjoint_lists.key query' query h.symm,
    fun h => disjoint_lists.keyTemplate h.symm⟩

/-- The order service leaves the other database alone. -/
theorem stored_orders {α : Type} (method : Services.Async α) (choices : Nat → Choice)
    (db : Db × Db') : ((orms.orderList md5 queries).stored method choices db).2 = db.2 := by
  refine Prog.eval_keeps (I := fun s : (Db × Db') × (Nat → Choice) => s.1.2 = db.2) ?_ method
    (db, choices) rfl
  exact fun _ _ h => h

/-- So does the invoice service. -/
theorem stored_invoices {α : Type} (method : Services.Async α) (choices : Nat → Choice)
    (db : Db × Db') : ((orms.invoiceList md5 queries).stored method choices db).1 = db.1 := by
  refine Prog.eval_keeps (I := fun s : (Db × Db') × (Nat → Choice) => s.1.1 = db.1) ?_ method
    (db, choices) rfl
  exact fun _ _ h => h

/-- Both lists are as they should be. -/
structure AllTidy (orms : Orms Db Db') (md5 : GetQueryResultsArgs → String)
    (queries : Set GetQueryResultsArgs) (w : World (Db × Db')) : Prop where
  orders : (orms.orderList md5 queries).Tidy w
  invoices : (orms.invoiceList md5 queries).Tidy w

theorem AllTidy.transparent (h : AllTidy orms md5 queries w) : Transparent orms md5 queries w :=
  transparent_iff_fresh.mpr ⟨h.orders.fresh, h.invoices.fresh⟩

/-- A method without a decorator keeps the lists transparent exactly if it is harmless. -/
theorem transparent_plain_iff {α : Type} (h : AllTidy orms md5 queries w)
    (method : Services.Async α) (choices : Nat → Choice) :
    Transparent orms md5 queries
        ((orms.orderList md5 queries).run ((orms.orderList md5 queries).plain method) choices w) ↔
      (orms.orderList md5 queries).Harmless method choices w := by
  have hbeside : Beside (orms.invoiceList md5 queries) w
      ((orms.orderList md5 queries).run ((orms.orderList md5 queries).plain method) choices w) := by
    refine .plain method fun query db => ?_
    exact congrArg (get orms.invoices InvoiceDto query) (stored_orders method choices db)
  rw [transparent_iff_fresh, CachedList.fresh_plain_iff h.orders.fresh]
  exact and_iff_left (hbeside.tidy h.invoices).fresh

theorem allTidy_plain {α : Type} (h : AllTidy orms md5 queries w)
    (method : Services.Async α) (choices : Nat → Choice)
    (ht : Transparent orms md5 queries
      ((orms.orderList md5 queries).run ((orms.orderList md5 queries).plain method) choices w)) :
    AllTidy orms md5 queries
      ((orms.orderList md5 queries).run ((orms.orderList md5 queries).plain method) choices w) := by
  obtain ⟨ho, hi⟩ := transparent_iff_fresh.mp ht
  have hregistered := h.invoices.registered
  rw [CachedList.run_plain] at ho hi ⊢
  exact ⟨⟨ho, h.orders.registered⟩, ⟨hi, hregistered⟩⟩

section Step

variable (hinj : Set.InjOn md5 queries) (h : AllTidy orms md5 queries w)
include hinj h

/-- What a method does to the two lists. -/
theorem step (op : Operation queries) (choices : Nat → Choice) :
    (Transparent orms md5 queries (next orms md5 queries w op choices) ↔
      HarmlessCall orms md5 queries w (op, choices)) ∧
    (Transparent orms md5 queries (next orms md5 queries w op choices) →
      AllTidy orms md5 queries (next orms md5 queries w op choices)) := by
  have hdecorated : AllTidy orms md5 queries (next orms md5 queries w op choices) →
      HarmlessCall orms md5 queries w (op, choices) →
      (Transparent orms md5 queries (next orms md5 queries w op choices) ↔
        HarmlessCall orms md5 queries w (op, choices)) ∧
      (Transparent orms md5 queries (next orms md5 queries w op choices) →
        AllTidy orms md5 queries (next orms md5 queries w op choices)) :=
    fun ht hh => ⟨iff_of_true ht.transparent hh, fun _ => ht⟩
  have hmd5 : Function.Injective fun query : queries => md5 query := hinj.injective
  cases op with
  | getOrders query =>
    exact hdecorated ⟨h.orders.read hmd5, (Beside.read disjoint_lists).tidy h.invoices⟩ trivial
  | createOrder userId totalAmount =>
    refine hdecorated ⟨.write h.orders.registered _, (Beside.write _ ?_).tidy h.invoices⟩ trivial
    exact fun choices query db =>
      congrArg (get orms.invoices InvoiceDto query) (stored_orders _ choices db)
  | startFailedOrderTransaction order reason finalStatus =>
    exact ⟨transparent_plain_iff h _ choices, allTidy_plain h _ choices⟩
  | updateOrderStatus orderId targetStatus =>
    exact ⟨transparent_plain_iff h _ choices, allTidy_plain h _ choices⟩
  | getInvoices query =>
    exact hdecorated ⟨(Beside.read disjoint_lists').tidy h.orders, h.invoices.read hmd5⟩ trivial
  | generateInvoiceInTransaction orderId userId totalAmount =>
    refine hdecorated ⟨(Beside.write _ ?_).tidy h.orders, .write h.invoices.registered _⟩ trivial
    exact fun choices query db =>
      congrArg (get orms.orders OrderDto query) (stored_invoices _ choices db)

end Step

/-! ## Transparency -/

/-- Through any sequence of the methods, the lists are transparent after each of them exactly if
those that update an order outside `createOrder` change the result of no query that is cached. -/
theorem transparent_iff_harmless (hinj : Set.InjOn md5 queries) (db : Db × Db')
    (labels : List (Operation queries × (Nat → Choice))) :
    (methods orms md5 queries db).Throughout
        (fun w label => Transparent orms md5 queries (next orms md5 queries w label.1 label.2))
        (methods orms md5 queries db).initial labels ↔
      (methods orms md5 queries db).Throughout (HarmlessCall orms md5 queries)
        (methods orms md5 queries db).initial labels := by
  refine Machine.throughout_iff_of_invariant (I := AllTidy orms md5 queries) ?_ ?_ labels _ ?_
  · rintro w ⟨op, choices⟩ w' hw ht hf
    obtain rfl := Option.some_inj.mp hf
    exact (step hinj hw op choices).2 ht
  · rintro w ⟨op, choices⟩ w' hw hf
    exact (step hinj hw op choices).1
  · refine ⟨⟨fun query value hv => ?_, fun query hne => ?_⟩, ⟨fun query value hv => ?_,
      fun query hne => ?_⟩⟩
    · cases hv
    · exact absurd rfl hne
    · cases hv
    · exact absurd rfl hne

end Services

/-! ### Repositories that hold a page -/

/-- Both services, their rows on one page. -/
def onePage : Orms Database Database := ⟨orderRepository, invoiceRepository⟩

/-- An order is created and listed, and then its status is updated. -/
def updatedOrder : List (Operation {anyRow} × (Nat → Choice)) :=
  [(.createOrder "user" 10, fun n => { uuid := if n = 1 then "order" else "transaction" }),
    (.getOrders ⟨anyRow, rfl⟩, fun _ => {}),
    (.updateOrderStatus (some "order") .COMPLETED, fun _ => {})]

/-- The update leaves the list as it was before it. -/
theorem updateOrderStatus_outdates :
    Set.InjOn hashed {anyRow} ∧
      ¬(methods onePage hashed {anyRow} (emptyTables, emptyTables)).Throughout
        (fun w label => Transparent onePage hashed {anyRow}
          (next onePage hashed {anyRow} w label.1 label.2))
        (methods onePage hashed {anyRow} (emptyTables, emptyTables)).initial updatedOrder := by
  refine ⟨Set.injOn_singleton _ _, fun h => ?_⟩
  obtain ⟨-, hlisted⟩ := h _ rfl
  obtain ⟨-, hupdated⟩ := hlisted _ rfl
  obtain ⟨hshown, -⟩ := hupdated _ rfl
  -- the list shows the order pending where it is completed
  have hstatuses := congrArg (Option.map statuses) (hshown.1 ⟨anyRow, rfl⟩ fun _ => {})
  exact absurd hstatuses (by decide +kernel)

/-- The same order, whose status is written as it is while a list is cached, and which is listed
again. -/
def orderSavedAgain : List (Operation {anyRow} × (Nat → Choice)) :=
  [(.createOrder "user" 10, fun n => { uuid := if n = 1 then "order" else "transaction" }),
    (.getOrders ⟨anyRow, rfl⟩, fun _ => {}),
    (.updateOrderStatus (some "order") .PENDING, fun _ => {}),
    (.getOrders ⟨anyRow, rfl⟩, fun _ => {})]

/-- Nothing is outdated where the update leaves the cached list as it is. -/
theorem transparent_orderSavedAgain :
    (methods onePage hashed {anyRow} (emptyTables, emptyTables)).Throughout
      (fun w label => Transparent onePage hashed {anyRow}
        (next onePage hashed {anyRow} w label.1 label.2))
      (methods onePage hashed {anyRow} (emptyTables, emptyTables)).initial orderSavedAgain := by
  refine (transparent_iff_harmless (Set.injOn_singleton _ _) _ _).mpr ?_
  intro w hw
  obtain rfl := Option.some_inj.mp hw
  refine ⟨trivial, fun w hw => ?_⟩
  obtain rfl := Option.some_inj.mp hw
  refine ⟨trivial, fun w hw => ?_⟩
  obtain rfl := Option.some_inj.mp hw
  refine ⟨?_, fun _ _ => ⟨trivial, trivial⟩⟩
  have hext : ∀ db db' : Database, db.orders.entries = db'.orders.entries →
      db.invoices = db'.invoices → db.published = db'.published → db = db' := by
    rintro ⟨orders, invoices, published⟩ ⟨orders', _, _⟩ horders rfl rfl
    obtain rfl : orders = orders' := AList.ext horders
    rfl
  -- the row is written as it was
  rintro ⟨query, rfl⟩ -
  refine congrArg ((onePage.orderList hashed {anyRow}).fetch _) (Prod.ext (hext _ _ ?_ rfl rfl) rfl)
  decide +kernel

end InvoiceHub.Cache
