import InvoiceHub.Cache.Lists
import InvoiceHub.Effects.Run

/-!
# Readers and writers of a cached list

Any number of decorated reads and writes of one list interleave at every call.  A write drops the
cached results before it changes what is stored, so a read may cache in between what is outdated a
moment later.  Where no read is caching while a write is under way, what is cached is never
outdated (`sound_reachable`).
-/

namespace InvoiceHub.Cache

open Effects

variable {Query Op Db ι : Type} {Res : Op → Type}

/-! ## Runs -/

/-- What a task runs for. -/
inductive Activity (Query : Type) where
  | read (query : Query)
  | write

/-- A service whose reads and writes are under way. -/
abbrev Traffic (Query : Type) {Op : Type} (Db : Type) (Res : Op → Type) :=
  Pool (World Db) (Activity Query) (Call Query Op) (Call.Answer Res)

/-- A step of a run. -/
inductive Label (Query ι : Type) {Op : Type} (Res : Op → Type) where
  | read (query : Query)
  | write (originalMethod : Prog Op Res Unit)
  /-- The call of the `j`-th task is answered. -/
  | advance (j : Nat) (choice : ι)

namespace CachedList

variable (c : CachedList Query Op Db ι Res)

/-- A call that is started without being awaited belongs to the write that starts it. -/
def background (activity : Activity Query) (_ : Call Query Op) : Activity Query := activity

/-- What a label does where it is enabled. -/
def fire (s : Traffic Query Db Res) : Label Query ι Res → Option (Traffic Query Db Res)
  | .read query =>
    some (Pool.begin background s (.read query) (do
      let _ ← c.read query
      return ()))
  | .write originalMethod => some (Pool.begin background s .write (c.write originalMethod))
  | .advance j choice =>
    Pool.advance background (fun _ choice op w => c.performCall choice op w) s j choice

/-- Reads and writes of a list, from an empty cache on. -/
def machine (db : Db) : Machine (Traffic Query Db Res) (Label Query ι Res) where
  initial := ⟨⟨db, ∅, ∅⟩, []⟩
  fire := c.fire

end CachedList

/-! ## Windows -/

/-- A read has made its query and not yet registered its key. -/
def caching (task : Task (Activity Query) (Call Query Op) (Call.Answer Res)) : Bool :=
  match task.prog with
  | .call (.set _ _ _) _ _ => true
  | .call (.setHashKeys _ _) _ _ => true
  | _ => false

/-- A write has listed the keys and not yet ended. -/
def writing (task : Task (Activity Query) (Call Query Op) (Call.Answer Res)) : Bool :=
  match task.tag, task.prog with
  | .read _, _ => false
  | .write, .call (.getHashKeys _) _ _ => false
  | .write, _ => true

/-- No read is caching while a write is under way. -/
def Apart (s : Traffic Query Db Res) : Bool :=
  !(s.tasks.any caching && s.tasks.any writing)

/-- The runs in which reads and writes are kept apart. -/
def CachedList.apart (c : CachedList Query Op Db ι Res) {db : Db} : (c.machine db).Policy :=
  fun s label => (c.fire s label).all Apart

/-! ## The invariant -/

section Invariant

variable {c : CachedList Query Op Db ι Res} {w w' : World Db}

/-- What the tasks stand at. -/
inductive Stands (c : CachedList Query Op Db ι Res) (w : World Db) :
    Activity Query → Prog (Call Query Op) (Call.Answer Res) Unit → Prop
  | looking (query : Query) : Stands c w (.read query) (c.read query >>= fun _ => pure ())
  | querying {query : Query} {ok err} :
      (∀ value, ok value = .call (.set (c.key query) value c.ttl) (fun _ =>
        .call (.setHashKeys c.keyTemplate (c.key query)) (fun _ => .pure ()) .throw) .throw) →
      Stands c w (.read query) (.call (.query query) ok err)
  | setting {query : Query} {value err} : value = c.fetch query w.db →
      Stands c w (.read query) (.call (.set (c.key query) value c.ttl) (fun _ =>
        .call (.setHashKeys c.keyTemplate (c.key query)) (fun _ => .pure ()) .throw) err)
  | adding {query : Query} {err} :
      Stands c w (.read query)
        (.call (.setHashKeys c.keyTemplate (c.key query)) (fun _ => .pure ()) err)
  | listing (originalMethod : Prog Op Res Unit) : Stands c w .write (c.write originalMethod)
  /-- Whatever is cached is going to be dropped. -/
  | dropping {keys : List String} {originalMethod : Prog Op Res Unit} {err} :
      (∀ query, w.strings.lookup (c.key query) ≠ none → c.key query ∈ keys) →
      Stands c w .write (.call (.deleteKeys keys)
        (fun _ => originalMethod.mapOp Call.own fun _ r => r) err)
  /-- Nothing is cached. -/
  | running (originalMethod : Prog Op Res Unit) :
      (∀ query, w.strings.lookup (c.key query) = none) →
      Stands c w .write (originalMethod.mapOp Call.own fun _ r => r)

/-- The task is about to register the key of the query. -/
def Registers (c : CachedList Query Op Db ι Res) (query : Query)
    (task : Task (Activity Query) (Call Query Op) (Call.Answer Res)) : Prop :=
  ∃ ok err, task.prog = .call (.setHashKeys c.keyTemplate (c.key query)) ok err

structure Sound (c : CachedList Query Op Db ι Res) (s : Traffic Query Db Res) : Prop where
  fresh : c.Fresh s.world
  /-- What is cached is registered, or about to be. -/
  registered : ∀ query, s.world.strings.lookup (c.key query) ≠ none →
    c.key query ∈ s.world.members c.keyTemplate ∨ ∃ task ∈ s.tasks, Registers c query task
  stands : ∀ task ∈ s.tasks, Stands c s.world task.tag task.prog
  apart : Apart s = true

/-! ### The tasks that do not move -/

/-- A write that has listed the keys is under way, whatever it has still to do. -/
theorem writing_mapOp (originalMethod : Prog Op Res Unit) :
    writing (⟨.write, originalMethod.mapOp Call.own fun _ r => r⟩ :
      Task (Activity Query) (Call Query Op) (Call.Answer Res)) = true := by
  cases originalMethod <;> rfl

/-- A task that does not move stands where it stood, unless what is stored changes under a read
that is caching, or the cache grows under a write that is under way. -/
theorem Stands.frame {task : Task (Activity Query) (Call Query Op) (Call.Answer Res)}
    (h : Stands c w task.tag task.prog) (hdb : w'.db = w.db ∨ caching task = false)
    (hstrings : (∀ query, w'.strings.lookup (c.key query) ≠ none →
      w.strings.lookup (c.key query) ≠ none) ∨ writing task = false) :
    Stands c w' task.tag task.prog := by
  obtain ⟨tag, p⟩ := task
  dsimp only at h hdb hstrings ⊢
  cases h with
  | looking query => exact .looking query
  | querying hok => exact .querying hok
  | setting hv =>
    refine .setting ?_
    rw [hdb.resolve_right (by simp [caching])]
    exact hv
  | adding => exact .adding
  | listing p => exact .listing p
  | dropping hkeys =>
    exact .dropping fun query hq => hkeys query (hstrings.resolve_right (by simp [writing]) query hq)
  | running p hnone =>
    have hless := hstrings.resolve_right (by rw [writing_mapOp]; simp)
    exact .running p fun query => not_not.mp fun hq => hless query hq (hnone query)

theorem not_writing_of_caching {s : Traffic Query Db Res} (h : Apart s = true)
    {task task' : Task (Activity Query) (Call Query Op) (Call.Answer Res)} (hmem : task ∈ s.tasks)
    (hmem' : task' ∈ s.tasks) (hc : caching task = true) : writing task' = false := by
  unfold Apart at h
  rw [List.any_eq_true.mpr ⟨task, hmem, hc⟩, Bool.true_and, Bool.not_eq_true', List.any_eq_false] at h
  exact eq_false_of_ne_true (h task' hmem')

theorem not_caching_of_writing {s : Traffic Query Db Res} (h : Apart s = true)
    {task task' : Task (Activity Query) (Call Query Op) (Call.Answer Res)} (hmem : task ∈ s.tasks)
    (hmem' : task' ∈ s.tasks) (hw : writing task = true) : caching task' = false := by
  by_contra hc
  rw [not_writing_of_caching h hmem' hmem (eq_true_of_ne_false hc)] at hw
  cases hw

/-! ### The tasks that a program leaves behind -/

theorem mem_launch_of_settle {activity : Activity Query}
    {p : Prog (Call Query Op) (Call.Answer Res) Unit} (hp : p.settle = ([], p))
    {task : Task (Activity Query) (Call Query Op) (Call.Answer Res)}
    (h : task ∈ Task.launch CachedList.background activity p) : task = ⟨activity, p⟩ := by
  rw [Task.mem_launch, hp] at h
  rcases h with ⟨-, rfl⟩ | ⟨op, hop, -⟩
  · rfl
  · cases hop

theorem settle_mapOp (p : Prog Op Res Unit) :
    (p.mapOp Call.own fun _ r => r : Prog (Call Query Op) (Call.Answer Res) Unit).settle =
      (p.settle.1.map Call.own, p.settle.2.mapOp Call.own fun _ r => r) := by
  induction p with
  | pure a => rfl
  | throw => rfl
  | call op ok err => rfl
  | spawn op next ih =>
    change (Call.own op :: (next.mapOp _ _).settle.1, (next.mapOp _ _).settle.2) = _
    rw [ih]
    rfl

/-- What a write leaves behind belongs to it. -/
theorem stands_launch (p : Prog Op Res Unit)
    (hnone : ∀ query, w.strings.lookup (c.key query) = none)
    {task : Task (Activity Query) (Call Query Op) (Call.Answer Res)}
    (h : task ∈ Task.launch CachedList.background .write (p.mapOp Call.own fun _ r => r)) :
    Stands c w task.tag task.prog := by
  rw [Task.mem_launch, settle_mapOp] at h
  rcases h with ⟨-, rfl⟩ | ⟨op, hop, rfl⟩
  · exact .running _ hnone
  · obtain ⟨op, -, rfl⟩ := List.mem_map.mp hop
    exact .running (.call op (fun _ => .pure ()) .throw) hnone

/-! ### The steps -/

/-- A new task changes nothing. -/
theorem Sound.begin {s : Traffic Query Db Res} (h : Sound c s) {activity : Activity Query}
    {p : Prog (Call Query Op) (Call.Answer Res) Unit} (hp : p.settle = ([], p))
    (hs : Stands c s.world activity p)
    (hap : Apart (Pool.begin CachedList.background s activity p) = true) :
    Sound c (Pool.begin CachedList.background s activity p) := by
  refine ⟨h.fresh, fun query hq => ?_, fun task hmem => ?_, hap⟩
  · rcases h.registered query hq with hreg | ⟨task, hmem, ht⟩
    · exact .inl hreg
    · exact .inr ⟨task, List.mem_append_left _ hmem, ht⟩
  · rcases List.mem_append.mp hmem with hmem | hmem
    · exact h.stands task hmem
    · obtain rfl := mem_launch_of_settle hp hmem
      exact hs

/-- What a task at a call makes of the invariant when the call is answered: the cache stays fresh
and registered, the tasks that do not move stand where they stood, and so do those that take the
place of the task. -/
structure Advances (c : CachedList Query Op Db ι Res) (s : Traffic Query Db Res) (w' : World Db)
    (task : Task (Activity Query) (Call Query Op) (Call.Answer Res))
    (launched : List (Task (Activity Query) (Call Query Op) (Call.Answer Res))) : Prop where
  fresh : c.Fresh w'
  /-- What is cached afterwards was before, or is now about to be registered. -/
  registered : ∀ query, w'.strings.lookup (c.key query) ≠ none →
    c.key query ∈ w'.members c.keyTemplate ∨ (∃ task ∈ launched, Registers c query task) ∨
      s.world.strings.lookup (c.key query) ≠ none ∧ ¬Registers c query task
  members : ∀ k, k ∈ s.world.members c.keyTemplate → k ∈ w'.members c.keyTemplate
  others : ∀ other ∈ s.tasks, (w'.db = s.world.db ∨ caching other = false) ∧
    ((∀ query, w'.strings.lookup (c.key query) ≠ none →
      s.world.strings.lookup (c.key query) ≠ none) ∨ writing other = false)
  launched : ∀ task ∈ launched, Stands c w' task.tag task.prog

theorem Advances.sound {s s' : Traffic Query Db Res}
    {task : Task (Activity Query) (Call Query Op) (Call.Answer Res)}
    {before after launched : List (Task (Activity Query) (Call Query Op) (Call.Answer Res))}
    (ha : Advances c s s'.world task launched) (h : Sound c s)
    (hs : s.tasks = before ++ task :: after) (ht : s'.tasks = before ++ launched ++ after)
    (hap : Apart s' = true) : Sound c s' := by
  have hothers : ∀ other, other ∈ before ∨ other ∈ after → other ∈ s.tasks := by
    intro other hmem
    rw [hs, List.mem_append, List.mem_cons]
    tauto
  have hmem' : ∀ other, other ∈ s'.tasks ↔
      (other ∈ before ∨ other ∈ after) ∨ other ∈ launched := by
    intro other
    rw [ht, List.mem_append, List.mem_append]
    tauto
  refine ⟨ha.fresh, fun query hq => ?_, fun other hmem => ?_, hap⟩
  · rcases ha.registered query hq with hreg | ⟨other, hmem, hreg⟩ | ⟨hold, hnot⟩
    · exact .inl hreg
    · exact .inr ⟨other, (hmem' other).mpr (.inr hmem), hreg⟩
    · rcases h.registered query hold with hreg | ⟨other, hmem, hreg⟩
      · exact .inl (ha.members _ hreg)
      · refine .inr ⟨other, (hmem' other).mpr (.inl ?_), hreg⟩
        rw [hs, List.mem_append, List.mem_cons] at hmem
        rcases hmem with hmem | rfl | hmem
        · exact .inl hmem
        · exact absurd hreg hnot
        · exact .inr hmem
  · rcases (hmem' other).mp hmem with hmem | hmem
    · obtain ⟨hdb, hstrings⟩ := ha.others other (hothers other hmem)
      exact (h.stands other (hothers other hmem)).frame hdb hstrings
    · exact ha.launched other hmem

/-- A call that changes nothing. -/
theorem Advances.same {s : Traffic Query Db Res} (h : Sound c s)
    {task : Task (Activity Query) (Call Query Op) (Call.Answer Res)}
    {launched : List (Task (Activity Query) (Call Query Op) (Call.Answer Res))}
    (hnot : ∀ query, ¬Registers c query task)
    (hl : ∀ task ∈ launched, Stands c s.world task.tag task.prog) :
    Advances c s s.world task launched :=
  ⟨h.fresh, fun query hq => .inr (.inr ⟨hq, hnot query⟩), fun _ hk => hk,
    fun _ _ => ⟨.inl rfl, .inl fun _ hq => hq⟩, hl⟩

section Advance

variable {s s' : Traffic Query Db Res} {query : Query} {choice : ι}
  {err : Prog (Call Query Op) (Call.Answer Res) Unit}
  {before after : List (Task (Activity Query) (Call Query Op) (Call.Answer Res))}

/-- The result of the query is cached. -/
theorem advances_setting (hinj : Function.Injective c.key) (h : Sound c s) {value : Json}
    (hv : value = c.fetch query s.world.db)
    (hmem : ⟨.read query, .call (.set (c.key query) value c.ttl) (fun _ =>
      .call (.setHashKeys c.keyTemplate (c.key query)) (fun _ => .pure ()) .throw) err⟩ ∈ s.tasks) :
    Advances c s (c.performCall choice (.set (c.key query) value c.ttl) s.world).2
      ⟨.read query, .call (.set (c.key query) value c.ttl) (fun _ =>
        .call (.setHashKeys c.keyTemplate (c.key query)) (fun _ => .pure ()) .throw) err⟩
      (Task.launch CachedList.background (.read query)
        (.call (.setHashKeys c.keyTemplate (c.key query)) (fun _ => .pure ()) .throw)) := by
  have hlookup : ∀ query', query' ≠ query →
      (s.world.strings.insert (c.key query) value).lookup (c.key query') =
        s.world.strings.lookup (c.key query') :=
    fun query' hne => AList.lookup_insert_ne fun he => hne (hinj he)
  refine ⟨?_, ?_, fun _ hk => hk, fun other ho =>
    ⟨.inl rfl, .inr (not_writing_of_caching h.apart hmem ho rfl)⟩, ?_⟩
  · intro query' value' hl
    by_cases hq : query' = query
    · subst hq
      obtain rfl := Option.some_inj.mp ((AList.lookup_insert _).symm.trans hl)
      exact hv
    · exact h.fresh query' value' ((hlookup query' hq).symm.trans hl)
  · intro query' hl
    by_cases hq : query' = query
    · subst hq
      refine .inr (.inl ⟨⟨.read query', .call (.setHashKeys c.keyTemplate (c.key query'))
        (fun _ => .pure ()) .throw⟩, ?_, _, _, rfl⟩)
      simp [Task.launch, Prog.Waiting]
    · refine .inr (.inr ⟨fun hnone => hl ((hlookup query' hq).trans hnone), ?_⟩)
      rintro ⟨ok, err, hreg⟩
      cases hreg
  · intro task htask
    obtain rfl := mem_launch_of_settle rfl htask
    exact .adding

/-- The key is registered. -/
theorem advances_adding (hinj : Function.Injective c.key) (h : Sound c s) :
    Advances c s (c.performCall choice (.setHashKeys c.keyTemplate (c.key query)) s.world).2
      ⟨.read query, .call (.setHashKeys c.keyTemplate (c.key query)) (fun _ => .pure ()) err⟩
      [] := by
  refine ⟨h.fresh, fun query' hl => ?_, fun k hk => mem_members_setHashKeys.mpr (.inr hk),
    fun _ _ => ⟨.inl rfl, .inl fun _ hq => hq⟩, fun task htask => by cases htask⟩
  by_cases hq : query' = query
  · subst hq
    exact .inl (mem_members_setHashKeys.mpr (.inl rfl))
  · refine .inr (.inr ⟨hl, ?_⟩)
    rintro ⟨ok, err, hreg⟩
    injection hreg with hop
    injection hop with _ hkey
    exact hq (hinj hkey).symm

/-- While a write goes on, nothing that is cached waits to be registered. -/
theorem registered_of_writing (h : Sound c s)
    {task next : Task (Activity Query) (Call Query Op) (Call.Answer Res)}
    {launched : List (Task (Activity Query) (Call Query Op) (Call.Answer Res))}
    (hs : s.tasks = before ++ task :: after) (ht : s'.tasks = before ++ launched ++ after)
    (hap : Apart s' = true) (hnot : caching task = false) (hnext : next ∈ launched)
    (hw : writing next = true) (hl : s.world.strings.lookup (c.key query) ≠ none) :
    c.key query ∈ s.world.members c.keyTemplate := by
  rcases h.registered query hl with hreg | ⟨other, ho, ok, err, hreg⟩
  · exact hreg
  · have hcaching : caching other = true := by
      unfold caching
      rw [hreg]
    have hin : ∀ other', (other' ∈ before ∨ other' ∈ after) ∨ other' ∈ launched →
        other' ∈ s'.tasks := by
      intro other' ho'
      rw [ht, List.mem_append, List.mem_append]
      tauto
    have hstays : other ∈ before ∨ other ∈ after := by
      rw [hs, List.mem_append, List.mem_cons] at ho
      rcases ho with ho | rfl | ho
      · exact .inl ho
      · rw [hnot] at hcaching
        cases hcaching
      · exact .inr ho
    have hother := not_writing_of_caching hap (hin other (.inl hstays)) (hin next (.inr hnext))
      hcaching
    rw [hw] at hother
    cases hother

/-- The write goes on with the keys it has listed. -/
theorem stands_listed (p : Prog Op Res Unit) {keys : List String}
    (hkeys : ∀ query, w.strings.lookup (c.key query) ≠ none → c.key query ∈ keys)
    {task : Task (Activity Query) (Call Query Op) (Call.Answer Res)}
    (h : task ∈ Task.launch CachedList.background .write
      (if keys ≠ [] then do
        Prog.await (Call.deleteKeys keys)
        p.mapOp Call.own fun _ r => r
      else p.mapOp Call.own fun _ r => r)) :
    Stands c w task.tag task.prog := by
  by_cases hnil : keys = []
  · rw [if_neg (not_not.mpr hnil)] at h
    refine stands_launch p (fun query => not_not.mp fun hl => ?_) h
    have hmem := hkeys query hl
    rw [hnil] at hmem
    cases hmem
  · rw [if_pos hnil] at h
    obtain rfl := mem_launch_of_settle (by rfl) h
    exact .dropping hkeys

/-- What a write leaves behind once it has listed the keys is under way. -/
theorem writing_listed (p : Prog Op Res Unit) {keys : List String}
    {task : Task (Activity Query) (Call Query Op) (Call.Answer Res)}
    (h : task ∈ Task.launch CachedList.background .write
      (if keys ≠ [] then do
        Prog.await (Call.deleteKeys keys)
        p.mapOp Call.own fun _ r => r
      else p.mapOp Call.own fun _ r => r)) :
    writing task = true := by
  by_cases hnil : keys = []
  · rw [if_neg (not_not.mpr hnil), Task.mem_launch, settle_mapOp] at h
    rcases h with ⟨-, rfl⟩ | ⟨op, hop, rfl⟩
    · exact writing_mapOp _
    · obtain ⟨op, -, rfl⟩ := List.mem_map.mp hop
      rfl
  · rw [if_pos hnil] at h
    obtain rfl := mem_launch_of_settle (by rfl) h
    rfl

/-- What is cached is dropped. -/
theorem advances_dropping {keys : List String} (p : Prog Op Res Unit)
    (hkeys : ∀ query, s.world.strings.lookup (c.key query) ≠ none → c.key query ∈ keys)
    (task : Task (Activity Query) (Call Query Op) (Call.Answer Res)) :
    Advances c s (c.performCall choice (.deleteKeys keys) s.world).2 task
      (Task.launch CachedList.background .write (p.mapOp Call.own fun _ r => r)) := by
  have hnone : ∀ query, (c.performCall choice (.deleteKeys keys) s.world).2.strings.lookup
      (c.key query) = none := by
    intro query
    rw [lookup_deleteKeys]
    split
    · rfl
    · rename_i hnot
      exact not_not.mp fun hne => hnot (hkeys query hne)
  refine ⟨fun query value hl => ?_, fun query hq => absurd (hnone query) hq, fun _ hk => hk,
    fun _ _ => ⟨.inl rfl, .inl fun query hq => absurd (hnone query) hq⟩,
    fun task htask => stands_launch p hnone htask⟩
  rw [hnone query] at hl
  cases hl

/-- What is stored changes while nothing is cached. -/
theorem advances_running (h : Sound c s) {op : Op} (p : Prog Op Res Unit)
    (hnone : ∀ query, s.world.strings.lookup (c.key query) = none)
    {task : Task (Activity Query) (Call Query Op) (Call.Answer Res)} (hmem : task ∈ s.tasks)
    (hw : writing task = true) :
    Advances c s (c.performCall choice (.own op) s.world).2 task
      (Task.launch CachedList.background .write (p.mapOp Call.own fun _ r => r)) := by
  have hnone' : ∀ query, (c.performCall choice (.own op) s.world).2.strings.lookup
      (c.key query) = none := hnone
  refine ⟨fun query value hl => ?_, fun query hq => absurd (hnone' query) hq, fun _ hk => hk,
    fun other ho => ⟨.inr (not_caching_of_writing h.apart hmem ho hw), .inl fun _ hq => hq⟩,
    fun task htask => stands_launch p hnone' htask⟩
  rw [hnone' query] at hl
  cases hl

/-- The call of a task that stands where it should, answered. -/
theorem advances_of_stands (hinj : Function.Injective c.key) (h : Sound c s)
    {activity : Activity Query} {op : Call Query Op}
    {ok : Call.Answer Res op → Prog (Call Query Op) (Call.Answer Res) Unit}
    (hs : s.tasks = before ++ ⟨activity, .call op ok err⟩ :: after)
    (ht : s'.tasks = before ++ Task.launch CachedList.background activity
      (ok (c.performCall choice op s.world).1) ++ after)
    (hap : Apart s' = true) :
    Advances c s (c.performCall choice op s.world).2 ⟨activity, .call op ok err⟩
      (Task.launch CachedList.background activity (ok (c.performCall choice op s.world).1)) := by
  have hmem : (⟨activity, .call op ok err⟩ : Task (Activity Query) _ _) ∈ s.tasks := by
    rw [hs]
    exact List.mem_append_right _ (List.mem_cons_self ..)
  have hstands := h.stands _ hmem
  dsimp only at hstands
  generalize hp : (Prog.call op ok err : Prog (Call Query Op) (Call.Answer Res) Unit) = p
    at hstands
  cases hstands with
  | looking query =>
    cases hp
    refine .same h ?_ fun task htask => ?_
    · rintro query' ⟨ok, err, hreg⟩
      cases hreg
    · -- the read returns what it finds, or goes on to its query
      change task ∈ Task.launch _ _ (_ >>= _) at htask
      cases hl : s.world.strings.lookup (c.key query) with
      | some value =>
        simp only [CachedList.performCall, hl] at htask
        cases htask
      | none =>
        simp only [CachedList.performCall, hl] at htask
        obtain rfl := mem_launch_of_settle (by rfl) htask
        exact .querying fun _ => rfl
  | querying hok =>
    cases hp
    refine .same h ?_ fun task htask => ?_
    · rintro query' ⟨ok, err, hreg⟩
      cases hreg
    · rw [hok] at htask
      obtain rfl := mem_launch_of_settle rfl htask
      exact .setting rfl
  | setting hv =>
    cases hp
    exact advances_setting hinj h hv hmem
  | adding =>
    cases hp
    exact advances_adding hinj h
  | listing p =>
    cases hp
    refine .same h ?_ fun task htask => ?_
    · rintro query' ⟨ok, err, hreg⟩
      cases hreg
    · exact stands_listed p (fun query hl => registered_of_writing h hs ht hap rfl htask
        (writing_listed p htask) hl) htask
  | dropping hkeys =>
    cases hp
    exact advances_dropping _ hkeys _
  | running p hnone =>
    cases p with
    | call op' ok' err' =>
      cases hp
      exact advances_running h _ hnone hmem rfl
    | _ => cases hp

end Advance

end Invariant

/-! ## Kept apart -/

theorem sound_reachable {c : CachedList Query Op Db ι Res} (hinj : Function.Injective c.md5)
    {db : Db} {s : Traffic Query Db Res} (h : (c.machine db).Reachable c.apart s) : Sound c s := by
  refine h.induction ⟨fun query value hl => ?_, fun query hl => ?_, fun task hmem => ?_, rfl⟩ ?_
  · cases hl
  · exact absurd rfl hl
  · cases hmem
  · rintro s s' - hs ⟨label, hp, hf⟩
    have hap : Apart s' = true := by
      unfold CachedList.apart at hp
      rw [show c.fire s label = some s' from hf] at hp
      exact hp
    cases label with
    | read query =>
      obtain rfl := Option.some_inj.mp hf
      exact hs.begin rfl (.looking query) hap
    | write originalMethod =>
      obtain rfl := Option.some_inj.mp hf
      exact hs.begin rfl (.listing originalMethod) hap
    | advance j choice =>
      obtain ⟨activity, op, ok, err, before, after, htasks, -, hworld, ht⟩ :=
        Pool.advance_cases hf
      have ha := advances_of_stands (c.key_injective hinj) hs htasks ht hap
      rw [← hworld] at ha
      exact ha.sound hs htasks ht hap

/-- Where no read is between its query and the registration of its key while a write is between
listing the keys and its last change, whatever is cached is at every moment the result of its
query on what is stored. -/
theorem fresh_of_apart {c : CachedList Query Op Db ι Res} (hinj : Function.Injective c.md5)
    {db : Db} {s : Traffic Query Db Res} (h : (c.machine db).Reachable c.apart s) :
    c.Fresh s.world :=
  (sound_reachable hinj h).fresh

/-! ### A list of invoices -/

/-- The invoices, while they fit on a page. -/
def fewInvoices : CachedList ({anyRow} : Set GetQueryResultsArgs) Services.Call Services.Database
    Services.Choice Services.Call.Res :=
  invoiceList invoiceRepository hashed {anyRow}

/-- An invoice is generated. -/
def generation : Label ({anyRow} : Set GetQueryResultsArgs) Services.Choice Services.Call.Res :=
  .write (do
    let _ ← Services.generateInvoiceInTransaction "order" "user" 10
    return ())

/-- The list is read, and then an invoice is generated. -/
def readThenGenerate :
    List (Label ({anyRow} : Set GetQueryResultsArgs) Services.Choice Services.Call.Res) :=
  [.read ⟨anyRow, rfl⟩, .advance 0 {}, .advance 0 {}, .advance 0 {}, .advance 0 {},
    generation, .advance 0 {}, .advance 0 {}, .advance 0 { uuid := "invoice" }]

theorem isSome_readThenGenerate :
    ((fewInvoices.machine emptyTables).run fewInvoices.apart
      (fewInvoices.machine emptyTables).initial readThenGenerate).isSome = true := by
  decide +kernel

/-- What was cached before the invoice is not shown after it. -/
theorem fresh_readThenGenerate :
    fewInvoices.Fresh (((fewInvoices.machine emptyTables).run fewInvoices.apart
      (fewInvoices.machine emptyTables).initial readThenGenerate).get
        isSome_readThenGenerate).world := by
  refine fresh_of_apart (fun query query' _ => ?_)
    (Machine.reachable_run readThenGenerate isSome_readThenGenerate)
  exact Subtype.ext (query.2.trans query'.2.symm)

/-- The list is read once the write has listed the keys, and before it saves the invoice. -/
def readBetween :
    List (Label ({anyRow} : Set GetQueryResultsArgs) Services.Choice Services.Call.Res) :=
  [generation, .advance 0 {}, .read ⟨anyRow, rfl⟩, .advance 1 {}, .advance 1 {}, .advance 1 {},
    .advance 1 {}, .advance 0 { uuid := "invoice" }]

theorem isSome_readBetween :
    ((fewInvoices.machine emptyTables).run (fun _ _ => true)
      (fewInvoices.machine emptyTables).initial readBetween).isSome = true := by
  decide +kernel

/-- Both have finished, and the list does not show the invoice. -/
theorem readBetween_outdates :
    ∃ s, (fewInvoices.machine emptyTables).Reachable (fun _ _ => true) s ∧ s.tasks = [] ∧
      ∃ query value, s.world.strings.lookup (fewInvoices.key query) = some value ∧
        value ≠ fewInvoices.fetch query s.world.db := by
  refine ⟨_, Machine.reachable_run readBetween isSome_readBetween,
    List.isEmpty_iff.mp (by decide +kernel), ⟨anyRow, rfl⟩, ?_⟩
  have hcached : ((((fewInvoices.machine emptyTables).run (fun _ _ => true)
      (fewInvoices.machine emptyTables).initial readBetween).get
        isSome_readBetween).world.strings.lookup (fewInvoices.key ⟨anyRow, rfl⟩)).map statuses =
      some [] := by
    decide +kernel
  obtain ⟨value, hv, hs⟩ := Option.map_eq_some_iff.mp hcached
  refine ⟨value, hv, fun he => ?_⟩
  have hshown := congrArg statuses he
  rw [hs] at hshown
  exact absurd hshown (by decide +kernel)

end InvoiceHub.Cache
