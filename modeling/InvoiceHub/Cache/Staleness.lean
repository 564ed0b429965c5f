import InvoiceHub.Cache.Races
import InvoiceHub.Effects.Guard

/-!
# How old a list may be

Redis drops what was cached when its `ttl` is over.  So however reads and writes of a list
interleave, whichever calls are rejected and whichever processes stop, and even where something is
written that no decorator sees: what a read returns was stored no longer before the read began
than the `ttl` and the time that a read takes.
-/

namespace InvoiceHub.Cache

open Effects

variable {Query Op Db ι : Type} {Res : Op → Type}

/-! ## Redis with a clock -/

/-- What a read has returned: when it began and when it ended. -/
structure Served (Query : Type) where
  query : Query
  began : Nat
  value : Json
  ended : Nat

/-- What a service stores, with its cache and a clock that counts milliseconds. -/
structure Clocked (Query Db : Type) extends World Db where
  now : Nat
  /-- When a key expires; one that is not listed is kept. -/
  deadlines : AList fun _ : String => Nat
  /-- What was stored, and when. -/
  moments : List (Nat × Db)
  served : List (Served Query)

/-- The calls of decorated methods, and the return of a read. -/
inductive TimedCall (Query Op : Type) where
  | call (call : Call Query Op)
  | serve (query : Query) (began : Nat) (value : Json)

/-- Their answers. -/
abbrev TimedCall.Answer (Res : Op → Type) : TimedCall Query Op → Type
  | call op => Call.Answer Res op
  | serve _ _ _ => Unit

/-- What a task runs for. -/
inductive Timing (Query : Type) where
  | read (query : Query) (began : Nat)
  | write

/-- A service whose reads and writes are under way. -/
abbrev Clockwork (Query : Type) {Op : Type} (Db : Type) (Res : Op → Type) :=
  Pool (Clocked Query Db) (Timing Query) (TimedCall Query Op) (TimedCall.Answer Res)

namespace Clocked

variable (w : Clocked Query Db)

/-- Redis does not find a key whose time is over. -/
def expired (key : String) : Bool :=
  match w.deadlines.lookup key with
  | some deadline => deadline < w.now
  | none => false

/-- Time passes. -/
def tick (ms : Nat) : Clocked Query Db :=
  { w with now := w.now + ms, moments := w.moments ++ [(w.now + ms, w.db)] }

end Clocked

/-- A step of a run. -/
inductive TimedLabel (Query ι : Type) {Op : Type} (Res : Op → Type) where
  | read (query : Query)
  | write (originalMethod : Prog Op Res Unit)
  /-- A method without a decorator writes. -/
  | plain (method : Prog Op Res Unit)
  /-- The call of the `j`-th task is answered. -/
  | advance (j : Nat) (choice : ι)
  /-- It is rejected. -/
  | reject (j : Nat)
  /-- The process of the `j`-th task stops. -/
  | abandon (j : Nat)
  | tick (ms : Nat)

namespace CachedList

variable (c : CachedList Query Op Db ι Res)

/-- What a call does. -/
def performTimed (choice : ι) :
    (op : TimedCall Query Op) → Clocked Query Db → TimedCall.Answer Res op × Clocked Query Db
  | .call (.get key), w => (if w.expired key then none else w.strings.lookup key, w)
  | .call (.set key value ttl), w =>
    ((), { w with
      toWorld := (c.performCall choice (.set key value ttl) w.toWorld).2
      deadlines :=
        if ttl ≠ 0 then w.deadlines.insert key (w.now + 1000 * ttl) else w.deadlines.erase key })
  | .call op, w =>
    let answer := c.performCall choice op w.toWorld
    (answer.1, { w with toWorld := answer.2, moments := w.moments ++ [(w.now, answer.2.db)] })
  | .serve query began value, w =>
    ((), { w with served := w.served ++ [⟨query, began, value, w.now⟩] })

/-- A read that begins now. -/
def timedRead (query : Query) (began : Nat) :
    Prog (TimedCall Query Op) (TimedCall.Answer Res) Unit := do
  let value ← (c.read query).mapOp TimedCall.call fun _ r => r
  Prog.await (TimedCall.serve query began value)

/-- A method that writes. -/
def timedWrite (originalMethod : Prog Op Res Unit) :
    Prog (TimedCall Query Op) (TimedCall.Answer Res) Unit :=
  (c.write originalMethod).mapOp TimedCall.call fun _ r => r

/-- One that is not decorated. -/
def timedPlain (method : Prog Op Res Unit) :
    Prog (TimedCall Query Op) (TimedCall.Answer Res) Unit :=
  method.mapOp (fun op => TimedCall.call (Call.own op)) fun _ r => r

/-- What is started without being awaited belongs to whoever starts it. -/
def timing (timing : Timing Query) (_ : TimedCall Query Op) : Timing Query := timing

/-- What a label does where it is enabled. -/
def fireTimed (s : Clockwork Query Db Res) :
    TimedLabel Query ι Res → Option (Clockwork Query Db Res)
  | .read query =>
    some (Pool.begin timing s (.read query s.world.now) (c.timedRead query s.world.now))
  | .write originalMethod => some (Pool.begin timing s .write (c.timedWrite originalMethod))
  | .plain method => some (Pool.begin timing s .write (timedPlain method))
  | .advance j choice =>
    Pool.advance timing (fun _ choice op w => c.performTimed choice op w) s j choice
  | .reject j => Pool.reject timing s j
  | .abandon j => Pool.abandon s j
  | .tick ms => some { s with world := s.world.tick ms }

/-- Reads and writes of a list, from an empty cache on. -/
def timed (db : Db) : Machine (Clockwork Query Db Res) (TimedLabel Query ι Res) where
  initial := ⟨⟨⟨db, ∅, ∅⟩, 0, ∅, [(0, db)], []⟩, []⟩
  fire := c.fireTimed

end CachedList

/-- No read has taken longer than `limit` milliseconds. -/
def InTime (limit : Nat) (s : Clockwork Query Db Res) : Bool :=
  s.tasks.all fun task =>
    match task.tag with
    | .read _ began => s.world.now ≤ began + limit
    | .write => true

/-- The runs in which no read takes longer than `limit`. -/
def CachedList.inTime (c : CachedList Query Op Db ι Res) (limit : Nat) {db : Db} :
    (c.timed db).Policy :=
  fun s label => (c.fireTimed s label).all (InTime limit)

/-! ## The invariant -/

section Invariant

variable {c : CachedList Query Op Db ι Res} {limit : Nat} {w w' : Clocked Query Db}

/-- The value is the result of the query on what was stored at some moment, not before `since`. -/
def Stored (c : CachedList Query Op Db ι Res) (w : Clocked Query Db) (since : Nat) (query : Query)
    (value : Json) : Prop :=
  ∃ moment ∈ w.moments, since ≤ moment.1 ∧ moment.1 ≤ w.now ∧ value = c.fetch query moment.2

/-- Time goes on, and moments stay. -/
structure Later (w w' : Clocked Query Db) : Prop where
  now : w.now ≤ w'.now
  moments : ∀ moment ∈ w.moments, moment ∈ w'.moments

theorem Stored.later {since since' : Nat} {query : Query} {value : Json}
    (h : Stored c w since query value) (hl : Later w w') (hs : since' ≤ since) :
    Stored c w' since' query value := by
  obtain ⟨moment, hmem, hsince, hnow, hvalue⟩ := h
  exact ⟨moment, hl.moments moment hmem, hs.trans hsince, hnow.trans hl.now, hvalue⟩

/-- The calls that a write may make. -/
def Writes : TimedCall Query Op → Prop
  | .call (.getHashKeys _) => True
  | .call (.deleteKeys _) => True
  | .call (.own _) => True
  | _ => False

/-- What writes keep to. -/
def writers : Guard (Timing Query) (TimedCall Query Op) (TimedCall.Answer Res)
    CachedList.timing where
  answer _ _ _ := True
  permits _ op := Writes op
  spawns _ op := Writes op
  started h := h

/-- How old a cached value may be when it is found. -/
def CachedList.age (c : CachedList Query Op Db ι Res) (limit : Nat) : Nat := 1000 * c.ttl + limit

/-- What the tasks stand at. -/
inductive Underway (c : CachedList Query Op Db ι Res) (limit : Nat) (w : Clocked Query Db) :
    Timing Query → Prog (TimedCall Query Op) (TimedCall.Answer Res) Unit → Prop
  | looking {query : Query} {began : Nat} : began ≤ w.now →
      Underway c limit w (.read query began) (c.timedRead query began)
  | querying {query : Query} {began : Nat} {ok} : began ≤ w.now →
      (∀ value, ok value = .call (.call (.set (c.key query) value c.ttl)) (fun _ =>
        .call (.call (.setHashKeys c.keyTemplate (c.key query))) (fun _ =>
          .call (.serve query began value) .pure .throw) .throw) .throw) →
      Underway c limit w (.read query began) (.call (.call (.query query)) ok .throw)
  | setting {query : Query} {began : Nat} {value : Json} : Stored c w began query value →
      Underway c limit w (.read query began)
        (.call (.call (.set (c.key query) value c.ttl)) (fun _ =>
          .call (.call (.setHashKeys c.keyTemplate (c.key query))) (fun _ =>
            .call (.serve query began value) .pure .throw) .throw) .throw)
  | adding {query : Query} {began : Nat} {value : Json} : Stored c w began query value →
      Underway c limit w (.read query began)
        (.call (.call (.setHashKeys c.keyTemplate (c.key query))) (fun _ =>
          .call (.serve query began value) .pure .throw) .throw)
  | serving {query : Query} {began : Nat} {value : Json} :
      Stored c w (began - c.age limit) query value →
      Underway c limit w (.read query began) (.call (.serve query began value) .pure .throw)
  | writing {p : Prog (TimedCall Query Op) (TimedCall.Answer Res) Unit} :
      writers.Admits .write p → Underway c limit w .write p

/-- What holds of the service. -/
structure Punctual (c : CachedList Query Op Db ι Res) (limit : Nat) (s : Clockwork Query Db Res) :
    Prop where
  present : (s.world.now, s.world.db) ∈ s.world.moments
  /-- What is cached expires before it is too old. -/
  cached : ∀ query value, s.world.strings.lookup (c.key query) = some value →
    ∃ deadline, s.world.deadlines.lookup (c.key query) = some deadline ∧
      Stored c s.world (deadline - c.age limit) query value
  underway : ∀ task ∈ s.tasks, Underway c limit s.world task.tag task.prog
  served : ∀ r ∈ s.world.served, ∃ moment ∈ s.world.moments,
    r.began ≤ moment.1 + c.age limit ∧ moment.1 ≤ r.ended ∧ r.value = c.fetch r.query moment.2
  inTime : InTime limit s = true

theorem Underway.later {tag : Timing Query}
    {p : Prog (TimedCall Query Op) (TimedCall.Answer Res) Unit} (h : Underway c limit w tag p)
    (hl : Later w w') : Underway c limit w' tag p := by
  cases h with
  | looking hb => exact .looking (hb.trans hl.now)
  | querying hb hok => exact .querying (hb.trans hl.now) hok
  | setting hs => exact .setting (hs.later hl le_rfl)
  | adding hs => exact .adding (hs.later hl le_rfl)
  | serving hs => exact .serving (hs.later hl le_rfl)
  | writing hp => exact .writing hp

/-! ### Steps -/

/-- Nothing new is cached and nothing is returned. -/
structure Uncached (w w' : Clocked Query Db) : Prop extends Later w w' where
  present : (w'.now, w'.db) ∈ w'.moments
  strings : ∀ key value, w'.strings.lookup key = some value → w.strings.lookup key = some value
  deadlines : w'.deadlines = w.deadlines
  served : w'.served = w.served

theorem Later.refl (w : Clocked Query Db) : Later w w := ⟨le_rfl, fun _ h => h⟩

theorem Later.of_eq (hn : w'.now = w.now) (hm : w'.moments = w.moments) : Later w w' :=
  ⟨hn.ge, fun _ h => hm ▸ h⟩

section Steps

variable {s s' : Clockwork Query Db Res}

theorem Punctual.uncached (h : Punctual c limit s) (hu : Uncached s.world s'.world)
    (ht : ∀ task ∈ s'.tasks, task ∈ s.tasks ∨ Underway c limit s'.world task.tag task.prog)
    (hi : InTime limit s' = true) : Punctual c limit s' where
  present := hu.present
  cached := by
    intro query value hl
    obtain ⟨deadline, hd, hstored⟩ := h.cached query value (hu.strings _ _ hl)
    exact ⟨deadline, by rw [hu.deadlines, hd], hstored.later hu.toLater le_rfl⟩
  underway := by
    intro task hmem
    rcases ht task hmem with hold | hnew
    · exact (h.underway task hold).later hu.toLater
    · exact hnew
  served := by
    intro r hr
    rw [hu.served] at hr
    obtain ⟨moment, hmem, hr⟩ := h.served r hr
    exact ⟨moment, hu.moments moment hmem, hr⟩
  inTime := hi

/-- A program that awaits a call. -/
theorem launch_call (tag : Timing Query) (op : TimedCall Query Op)
    (ok : TimedCall.Answer Res op → Prog (TimedCall Query Op) (TimedCall.Answer Res) Unit)
    (err : Prog (TimedCall Query Op) (TimedCall.Answer Res) Unit) :
    Task.launch CachedList.timing tag (.call op ok err) = [⟨tag, .call op ok err⟩] := rfl

/-- What a write leaves behind keeps to what writes may do. -/
theorem underway_launch {p : Prog (TimedCall Query Op) (TimedCall.Answer Res) Unit}
    (hp : writers.Admits .write p) :
    ∀ task ∈ Task.launch CachedList.timing .write p, Underway c limit w task.tag task.prog := by
  intro task htask
  have hkeeps := Guard.keeps_launch hp task htask
  have htag : task.tag = .write := by
    rcases Task.mem_launch.mp htask with ⟨-, rfl⟩ | ⟨op, -, rfl⟩ <;> rfl
  obtain ⟨tag, prog⟩ := task
  obtain rfl : tag = .write := htag
  exact .writing hkeeps

theorem admits_timedWrite (originalMethod : Prog Op Res Unit) :
    writers.Admits .write (c.timedWrite originalMethod) := by
  have hown : ∀ p : Prog Op Res Unit, writers.Admits .write
      (((p.mapOp Call.own fun _ r => r : Prog (Call Query Op) (Call.Answer Res) Unit).mapOp
        TimedCall.call fun _ r => r) : Prog (TimedCall Query Op) (TimedCall.Answer Res) Unit) := by
    intro p
    induction p with
    | pure a => exact trivial
    | throw => exact trivial
    | call op ok err ih ihe =>
      exact (Prog.guarded_call _ _ _).mpr ⟨trivial, fun r _ => ih r, ihe⟩
    | spawn op next ih => exact ⟨trivial, ih⟩
  refine (Prog.guarded_call _ _ _).mpr ⟨trivial, fun keys _ => ?_, trivial⟩
  change writers.Admits .write (Prog.mapOp _ _ (if keys ≠ [] then _ else _))
  split
  · exact (Prog.guarded_call _ _ _).mpr ⟨trivial, fun _ _ => hown originalMethod, trivial⟩
  · exact hown originalMethod

theorem admits_timedPlain (method : Prog Op Res Unit) :
    writers.Admits .write (CachedList.timedPlain method :
      Prog (TimedCall Query Op) (TimedCall.Answer Res) Unit) :=
  Prog.guarded_mapOp (fun _ => trivial) (fun _ => trivial) method

/-- A read is in time. -/
theorem Punctual.limited (h : Punctual c limit s) {query : Query} {began : Nat}
    {p : Prog (TimedCall Query Op) (TimedCall.Answer Res) Unit}
    (hmem : ⟨.read query began, p⟩ ∈ s.tasks) : s.world.now ≤ began + limit :=
  of_decide_eq_true (List.all_eq_true.mp h.inTime _ hmem)

/-- A call that neither caches nor returns. -/
theorem uncached_perform {choice : ι} {op : Call Query Op}
    (hget : ∀ key, op ≠ .get key) (hset : ∀ key value ttl, op ≠ .set key value ttl)
    (hs' : s'.world = (c.performTimed choice (.call op) s.world).2) :
    Uncached s.world s'.world := by
  rw [hs']
  have hgrows : ∀ moment : Nat × Db, Later s.world
      { s.world with
        toWorld := (c.performCall choice op s.world.toWorld).2
        moments := s.world.moments ++ [moment] } :=
    fun moment => ⟨le_rfl, fun _ hmem => List.mem_append_left _ hmem⟩
  have hlast : ∀ moment : Nat × Db, moment ∈ s.world.moments ++ [moment] :=
    fun moment => List.mem_append_right _ (List.mem_singleton.mpr rfl)
  cases op with
  | get key => exact absurd rfl (hget key)
  | set key value ttl => exact absurd rfl (hset key value ttl)
  | getHashKeys key => exact ⟨hgrows _, hlast _, fun _ _ hl => hl, rfl, rfl⟩
  | setHashKeys key cacheKey => exact ⟨hgrows _, hlast _, fun _ _ hl => hl, rfl, rfl⟩
  | deleteKeys keys =>
    refine ⟨hgrows _, hlast _, fun key value hl => ?_, rfl, rfl⟩
    have hl : (c.performCall choice (.deleteKeys keys) s.world.toWorld).2.strings.lookup key =
      some value := hl
    rw [lookup_deleteKeys] at hl
    split at hl
    · cases hl
    · exact hl
  | query query => exact ⟨hgrows _, hlast _, fun _ _ hl => hl, rfl, rfl⟩
  | own op => exact ⟨hgrows _, hlast _, fun _ _ hl => hl, rfl, rfl⟩

/-- The result of a query is cached. -/
theorem Punctual.set (hinj : Function.Injective c.key) (httl : c.ttl ≠ 0) (h : Punctual c limit s)
    {query : Query} {began : Nat} {value : Json} (hlimit : s.world.now ≤ began + limit)
    (hstored : Stored c s.world began query value) {choice : ι}
    (hs' : s'.world = (c.performTimed choice (.call (.set (c.key query) value c.ttl)) s.world).2)
    (ht : ∀ task ∈ s'.tasks, task ∈ s.tasks ∨ Underway c limit s'.world task.tag task.prog)
    (hi : InTime limit s' = true) : Punctual c limit s' := by
  have hlater : Later s.world s'.world := .of_eq (by rw [hs']; rfl) (by rw [hs']; rfl)
  refine ⟨hs' ▸ h.present, fun query' value' hl => ?_, fun task hmem => ?_, fun r hr => ?_, hi⟩
  · have hdeadlines : s'.world.deadlines =
        s.world.deadlines.insert (c.key query) (s.world.now + 1000 * c.ttl) := by
      rw [hs']
      exact if_pos httl
    have hstrings : s'.world.strings = s.world.strings.insert (c.key query) value := by
      rw [hs']
      rfl
    rw [hstrings] at hl
    rw [hdeadlines]
    by_cases hq : query' = query
    · subst hq
      rw [AList.lookup_insert] at hl
      cases hl
      refine ⟨_, AList.lookup_insert _, hstored.later hlater ?_⟩
      unfold CachedList.age
      omega
    · have hkey : c.key query' ≠ c.key query := fun heq => hq (hinj heq)
      rw [AList.lookup_insert_ne hkey] at hl ⊢
      obtain ⟨deadline, hd, hold⟩ := h.cached query' value' hl
      exact ⟨deadline, hd, hold.later hlater le_rfl⟩
  · rcases ht task hmem with hold | hnew
    · exact (h.underway task hold).later hlater
    · exact hnew
  · have hserved : s'.world.served = s.world.served := by
      rw [hs']
      rfl
    rw [hserved] at hr
    obtain ⟨moment, hmem, hr⟩ := h.served r hr
    exact ⟨moment, hlater.moments moment hmem, hr⟩

/-- A read returns. -/
theorem Punctual.serve (h : Punctual c limit s) {query : Query} {began : Nat} {value : Json}
    (hstored : Stored c s.world (began - c.age limit) query value) {choice : ι}
    (hs' : s'.world = (c.performTimed choice (.serve query began value) s.world).2)
    (ht : ∀ task ∈ s'.tasks, task ∈ s.tasks) (hi : InTime limit s' = true) :
    Punctual c limit s' := by
  have hlater : Later s.world s'.world := .of_eq (by rw [hs']; rfl) (by rw [hs']; rfl)
  refine ⟨hs' ▸ h.present, fun query' value' hl => ?_, fun task hmem => ?_, fun r hr => ?_, hi⟩
  · have hl : s.world.strings.lookup (c.key query') = some value' := by
      rw [hs'] at hl
      exact hl
    obtain ⟨deadline, hd, hold⟩ := h.cached query' value' hl
    refine ⟨deadline, ?_, hold.later hlater le_rfl⟩
    rw [hs']
    exact hd
  · exact (h.underway task (ht task hmem)).later hlater
  · have hserved : s'.world.served = s.world.served ++ [⟨query, began, value, s.world.now⟩] := by
      rw [hs']
      rfl
    rw [hserved] at hr
    rcases List.mem_append.mp hr with hr | hr
    · obtain ⟨moment, hmem, hr⟩ := h.served r hr
      exact ⟨moment, hlater.moments moment hmem, hr⟩
    · cases List.mem_singleton.mp hr
      obtain ⟨moment, hmem, hsince, hnow, hvalue⟩ := hstored
      exact ⟨moment, hlater.moments moment hmem, Nat.sub_le_iff_le_add.mp hsince, hnow, hvalue⟩

/-- What a read finds in the cache is not too old for it. -/
theorem Punctual.found (h : Punctual c limit s) {query : Query} {began : Nat} {value : Json}
    (hb : began ≤ s.world.now) (hl : s.world.strings.lookup (c.key query) = some value)
    (he : s.world.expired (c.key query) = false) :
    Stored c s.world (began - c.age limit) query value := by
  obtain ⟨deadline, hd, hstored⟩ := h.cached query value hl
  rw [Clocked.expired, hd] at he
  have hlive : s.world.now ≤ deadline := not_lt.mp (of_decide_eq_false he)
  exact hstored.later (.refl _) (Nat.sub_le_sub_right (hb.trans hlive) _)

/-- The call of a task is answered. -/
theorem Punctual.advance (hinj : Function.Injective c.key) (httl : c.ttl ≠ 0)
    (h : Punctual c limit s) {j : Nat} {choice : ι}
    (hf : c.fireTimed s (.advance j choice) = some s') (hi : InTime limit s' = true) :
    Punctual c limit s' := by
  obtain ⟨tag, op, ok, err, before, after, hs, -, hworld, ht⟩ := Pool.advance_cases hf
  have hmem : ⟨tag, .call op ok err⟩ ∈ s.tasks := by
    rw [hs]
    exact List.mem_append_right _ List.mem_cons_self
  have htasks : ∀ task ∈ s'.tasks, task ∈ s.tasks ∨ task ∈ Task.launch CachedList.timing tag
      (ok (c.performTimed choice op s.world).1) := by
    intro task htask
    rw [ht, List.mem_append, List.mem_append] at htask
    rw [hs, List.mem_append, List.mem_cons]
    tauto
  have hunderway := h.underway _ hmem
  dsimp only at hunderway
  generalize hp : (Prog.call op ok err :
    Prog (TimedCall Query Op) (TimedCall.Answer Res) Unit) = p at hunderway
  cases hunderway with
  | @looking query began hb =>
    cases hp
    have hsame : s'.world = s.world := hworld
    have hu : Uncached s.world s'.world := by
      rw [hsame]
      exact ⟨.refl _, h.present, fun _ _ hl => hl, rfl, rfl⟩
    refine h.uncached hu (fun task htask => (htasks task htask).imp_right fun htask => ?_) hi
    rw [hsame]
    -- the read returns what it finds, or goes on to its query
    change task ∈ Task.launch _ _ (_ >>= _) at htask
    cases hl : (if s.world.expired (c.key query) then none
      else s.world.strings.lookup (c.key query)) with
    | some value =>
      have hfound : s.world.strings.lookup (c.key query) = some value ∧
          s.world.expired (c.key query) = false := by
        split at hl
        · cases hl
        · rename_i he
          exact ⟨hl, eq_false_of_ne_true he⟩
      simp only [CachedList.performTimed, hl] at htask
      cases List.mem_singleton.mp htask
      exact .serving (h.found hb hfound.1 hfound.2)
    | none =>
      simp only [CachedList.performTimed, hl] at htask
      cases List.mem_singleton.mp htask
      exact .querying hb fun _ => rfl
  | @querying query began ok hb hok =>
    cases hp
    have hu := uncached_perform (fun _ heq => by cases heq) (fun _ _ _ heq => by cases heq) hworld
    refine h.uncached hu (fun task htask => (htasks task htask).imp_right fun htask => ?_) hi
    rw [hok, launch_call] at htask
    cases List.mem_singleton.mp htask
    refine .setting (Stored.later ?_ hu.toLater le_rfl)
    exact ⟨_, h.present, hb, le_rfl, rfl⟩
  | @setting query began value hstored =>
    cases hp
    refine h.set hinj httl (h.limited hmem) hstored hworld
      (fun task htask => (htasks task htask).imp_right fun htask => ?_) hi
    rw [launch_call] at htask
    cases List.mem_singleton.mp htask
    have hlater : Later s.world s'.world := .of_eq (by rw [hworld]; rfl) (by rw [hworld]; rfl)
    exact .adding (hstored.later hlater le_rfl)
  | @adding query began value hstored =>
    cases hp
    have hu := uncached_perform (fun _ heq => by cases heq) (fun _ _ _ heq => by cases heq) hworld
    refine h.uncached hu (fun task htask => (htasks task htask).imp_right fun htask => ?_) hi
    rw [launch_call] at htask
    cases List.mem_singleton.mp htask
    exact .serving (hstored.later hu.toLater (Nat.sub_le _ _))
  | @serving query began value hstored =>
    cases hp
    refine h.serve hstored hworld (fun task htask => (htasks task htask).resolve_right ?_) hi
    intro hnone
    cases hnone
  | writing hadmits =>
    subst hp
    obtain ⟨hwrites, hok, -⟩ := (Prog.guarded_call _ _ _).mp hadmits
    cases op with
    | serve query began value => exact absurd hwrites id
    | call op =>
      have hu := uncached_perform (fun key heq => by subst heq; exact hwrites)
        (fun key value ttl heq => by subst heq; exact hwrites) hworld
      refine h.uncached hu (fun task htask => (htasks task htask).imp_right fun htask => ?_) hi
      exact underway_launch (hok _ trivial) task htask

/-- A call is rejected: a read ends with it. -/
theorem Punctual.reject (h : Punctual c limit s) {j : Nat}
    (hf : c.fireTimed s (.reject j) = some s') (hi : InTime limit s' = true) :
    Punctual c limit s' := by
  obtain ⟨tag, op, ok, err, before, after, hs, -, hworld, ht⟩ := Pool.reject_cases hf
  have hunderway := h.underway ⟨tag, .call op ok err⟩ (by simp [hs])
  have hu : Uncached s.world s'.world := by
    rw [hworld]
    exact ⟨.refl _, h.present, fun _ _ hl => hl, rfl, rfl⟩
  refine h.uncached hu (fun task htask => ?_) hi
  rw [ht, List.mem_append, List.mem_append] at htask
  have hlaunched : task ∈ Task.launch CachedList.timing tag err →
      Underway c limit s'.world task.tag task.prog := by
    intro htask
    dsimp only at hunderway
    generalize hp : (Prog.call op ok err :
      Prog (TimedCall Query Op) (TimedCall.Answer Res) Unit) = p at hunderway
    cases hunderway with
    | writing hadmits =>
      subst hp
      exact underway_launch ((Prog.guarded_call _ _ _).mp hadmits).2.2 task htask
    | _ =>
      cases hp
      cases htask
  rcases htask with (hmem | hmem) | hmem
  · exact .inl (by simp [hs, hmem])
  · exact .inr (hlaunched hmem)
  · exact .inl (by simp [hs, hmem])

/-- A step of a run that stays in time. -/
theorem Punctual.fire (hinj : Function.Injective c.key) (httl : c.ttl ≠ 0) (h : Punctual c limit s)
    {label : TimedLabel Query ι Res} (hf : c.fireTimed s label = some s')
    (hi : InTime limit s' = true) : Punctual c limit s' := by
  have hstays : Uncached s.world s.world := ⟨.refl _, h.present, fun _ _ hl => hl, rfl, rfl⟩
  cases label with
  | read query =>
    cases hf
    refine h.uncached hstays (fun task htask => ?_) hi
    refine (List.mem_append.mp htask).imp_right fun htask => ?_
    cases List.mem_singleton.mp htask
    exact .looking le_rfl
  | write originalMethod =>
    cases hf
    refine h.uncached hstays (fun task htask => ?_) hi
    exact (List.mem_append.mp htask).imp_right (underway_launch (admits_timedWrite _) task)
  | plain method =>
    cases hf
    refine h.uncached hstays (fun task htask => ?_) hi
    exact (List.mem_append.mp htask).imp_right (underway_launch (admits_timedPlain _) task)
  | advance j choice => exact h.advance hinj httl hf hi
  | reject j => exact h.reject hf hi
  | abandon j =>
    obtain ⟨task, before, after, hs, -, hworld, ht⟩ := Pool.abandon_cases hf
    rw [← hworld] at hstays
    refine h.uncached (hworld ▸ hstays) (fun task htask => .inl ?_) hi
    rw [ht, List.mem_append] at htask
    rw [hs, List.mem_append, List.mem_cons]
    tauto
  | tick ms =>
    cases hf
    refine h.uncached ⟨⟨Nat.le_add_right _ _, fun _ hmem => List.mem_append_left _ hmem⟩,
      List.mem_append_right _ (List.mem_singleton.mpr rfl), fun _ _ hl => hl, rfl, rfl⟩
      (fun task htask => .inl htask) hi

end Steps

/-- What a read returns was stored at a moment before it ended, and no longer before it began than
the `ttl` and the time a read takes. -/
theorem served_not_older (hinj : Function.Injective c.md5) (httl : c.ttl ≠ 0) {db : Db}
    {s : Clockwork Query Db Res} (hs : (c.timed db).Reachable (c.inTime limit) s)
    {r : Served Query} (hr : r ∈ s.world.served) :
    ∃ moment ∈ s.world.moments, r.began ≤ moment.1 + (1000 * c.ttl + limit) ∧
      moment.1 ≤ r.ended ∧ r.value = c.fetch r.query moment.2 := by
  have hpunctual : Punctual c limit s := by
    refine hs.induction ⟨List.mem_cons_self, fun query value hl => ?_, fun task hmem => ?_,
      fun r hr => ?_, rfl⟩ ?_
    · cases hl
    · cases hmem
    · cases hr
    · rintro s s' - h ⟨label, hp, hf⟩
      have hf : c.fireTimed s label = some s' := hf
      have hi : InTime limit s' = true := by
        unfold CachedList.inTime at hp
        rw [hf] at hp
        exact hp
      exact h.fire (c.key_injective hinj) httl hf hi
  exact hpunctual.served r hr

end Invariant

/-! ### A list of invoices -/

/-- The list is read once a write has listed the keys, and before it saves the invoice; a read a
second later still finds what was cached. -/
def readTwice :
    List (TimedLabel ({anyRow} : Set GetQueryResultsArgs) Services.Choice Services.Call.Res) :=
  [.write (do
    let _ ← Services.generateInvoiceInTransaction "order" "user" 10
    return ()), .advance 0 {}, .read ⟨anyRow, rfl⟩, .advance 1 {}, .advance 1 {}, .advance 1 {},
    .advance 1 {}, .advance 1 {}, .advance 0 { uuid := "invoice" }, .tick 1000,
    .read ⟨anyRow, rfl⟩, .advance 0 {}, .advance 0 {}]

theorem served_not_older_readTwice :
    ∃ s : Clockwork ({anyRow} : Set GetQueryResultsArgs) Services.Database Services.Call.Res,
      (fewInvoices.timed emptyTables).run (fewInvoices.inTime 0)
        (fewInvoices.timed emptyTables).initial readTwice = some s ∧
      ∃ r ∈ s.world.served, r.began = 1000 ∧ statuses r.value = [] ∧
        ∃ moment ∈ s.world.moments, r.began ≤ moment.1 + (1000 * fewInvoices.ttl + 0) ∧
          moment.1 ≤ r.ended ∧ r.value = fewInvoices.fetch r.query moment.2 := by
  have hrun : ((fewInvoices.timed emptyTables).run (fewInvoices.inTime 0)
      (fewInvoices.timed emptyTables).initial readTwice).any (fun s =>
        s.world.served.any fun r => r.began = 1000 ∧ statuses r.value = []) = true := by
    decide +kernel
  obtain ⟨s, hs, hserved⟩ := (Option.any_eq_true _ _).mp hrun
  obtain ⟨r, hr, hfound⟩ := List.any_eq_true.mp hserved
  obtain ⟨hbegan, hstatuses⟩ := of_decide_eq_true hfound
  refine ⟨s, hs, r, hr, hbegan, hstatuses, served_not_older (fun query query' _ => ?_) (by decide)
    (Machine.run_steps readTwice hs) hr⟩
  exact Subtype.ext (query.2.trans query'.2.symm)

end InvoiceHub.Cache
