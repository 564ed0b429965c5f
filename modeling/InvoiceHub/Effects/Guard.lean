import InvoiceHub.Effects.Pool

/-!
# What the tasks of a pool keep to

A guard says, for what a task runs for, which answers it may rely on, which calls it may await
and which it may start.  If every answer that is given is one to be relied on, tasks that keep
to a guard leave only such tasks behind (`keeps_begin`, `keeps_advance`, `keeps_reject`,
`keeps_abandon`).
-/

namespace InvoiceHub.Effects

variable {σ ι Tag Op : Type} {Res : Op → Type} {background : Tag → Op → Tag}

/-- Rely and guarantee of the tasks of a pool. -/
structure Guard (Tag Op : Type) (Res : Op → Type) (background : Tag → Op → Tag) where
  answer : Tag → (op : Op) → Res op → Prop
  permits : Tag → Op → Prop
  spawns : Tag → Op → Prop
  /-- A call that is started is one that its own task may await. -/
  started : ∀ {tag op}, spawns tag op → permits (background tag op) op

namespace Guard

variable (G : Guard Tag Op Res background)

/-- The program keeps to what a task with the tag may do. -/
def Admits (tag : Tag) (p : Prog Op Res Unit) : Prop :=
  p.Guarded (G.answer tag) (G.permits tag) (G.spawns tag)

/-- The task keeps to the guard. -/
def Keeps (task : Task Tag Op Res) : Prop := G.Admits task.tag task.prog

variable {G} {tag : Tag} {p : Prog Op Res Unit} {s s' : Pool σ Tag Op Res} {j : Nat}
  {perform : Perform σ ι Tag Op Res} {choice : ι}

theorem Keeps.permits {op : Op} {ok : Res op → Prog Op Res Unit} {err : Prog Op Res Unit}
    (h : G.Keeps ⟨tag, .call op ok err⟩) : G.permits tag op :=
  ((Prog.guarded_call _ _ _).mp h).1

theorem keeps_launch (h : G.Admits tag p) :
    ∀ task ∈ Task.launch background tag p, G.Keeps task := by
  intro task htask
  obtain ⟨hs, hp⟩ := h.settle
  rcases Task.mem_launch.mp htask with ⟨-, rfl⟩ | ⟨op, hop, rfl⟩
  · exact hp
  · exact (Prog.guarded_call _ _ _).mpr ⟨G.started (hs op hop), fun _ _ => trivial, trivial⟩

/-- The tasks that join those in front and behind. -/
theorem keeps_replace {before after : List (Task Tag Op Res)} {task : Task Tag Op Res}
    (hs : s.tasks = before ++ task :: after) (h : ∀ task ∈ s.tasks, G.Keeps task)
    {added : List (Task Tag Op Res)} (ha : ∀ task ∈ added, G.Keeps task) :
    ∀ task ∈ before ++ added ++ after, G.Keeps task := by
  intro task htask
  rcases List.mem_append.mp htask with htask | htask
  · rcases List.mem_append.mp htask with htask | htask
    · exact h task (by simp [hs, htask])
    · exact ha task htask
  · exact h task (by simp [hs, htask])

theorem keeps_begin (h : ∀ task ∈ s.tasks, G.Keeps task) (hp : G.Admits tag p) :
    ∀ task ∈ (Pool.begin background s tag p).tasks, G.Keeps task := by
  intro task htask
  rcases List.mem_append.mp htask with htask | htask
  · exact h task htask
  · exact keeps_launch hp task htask

theorem keeps_advance (h : ∀ task ∈ s.tasks, G.Keeps task)
    (hf : Pool.advance background perform s j choice = some s')
    (ha : ∀ tag op ok err, s.tasks[j]? = some ⟨tag, .call op ok err⟩ → G.permits tag op →
      G.answer tag op (perform tag choice op s.world).1) :
    ∀ task ∈ s'.tasks, G.Keeps task := by
  obtain ⟨tag, op, ok, err, before, after, hs, hj, -, ht⟩ := Pool.advance_cases hf
  have hkeeps : G.Keeps ⟨tag, .call op ok err⟩ := h _ (by simp [hs])
  have hget : s.tasks[j]? = some ⟨tag, .call op ok err⟩ := by
    rw [hs, ← hj]
    simp
  rw [ht]
  refine keeps_replace hs h (keeps_launch ?_)
  exact ((Prog.guarded_call _ _ _).mp hkeeps).2.1 _ (ha tag op ok err hget hkeeps.permits)

theorem keeps_reject (h : ∀ task ∈ s.tasks, G.Keeps task)
    (hf : Pool.reject background s j = some s') : ∀ task ∈ s'.tasks, G.Keeps task := by
  obtain ⟨tag, op, ok, err, before, after, hs, -, -, ht⟩ := Pool.reject_cases hf
  have hkeeps : G.Keeps ⟨tag, .call op ok err⟩ := h _ (by simp [hs])
  rw [ht]
  exact keeps_replace hs h (keeps_launch ((Prog.guarded_call _ _ _).mp hkeeps).2.2)

theorem keeps_abandon (h : ∀ task ∈ s.tasks, G.Keeps task)
    (hf : Pool.abandon s j = some s') : ∀ task ∈ s'.tasks, G.Keeps task := by
  obtain ⟨stopped, before, after, hs, -, -, ht⟩ := Pool.abandon_cases hf
  have hkeeps : ∀ task ∈ before ++ [] ++ after, G.Keeps task :=
    keeps_replace hs h fun _ hmem => nomatch hmem
  rwa [List.append_nil, ← ht] at hkeeps

end Guard

end InvoiceHub.Effects
