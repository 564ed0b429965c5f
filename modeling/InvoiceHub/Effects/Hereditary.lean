import InvoiceHub.Effects.Guard

/-!
# What is left of a program

A property that a program hands on to whatever it goes on with (`Hereditary`) holds of every task
of a pool, if it holds of the programs that are started.
-/

namespace InvoiceHub.Effects

variable {σ ι Tag Op : Type} {Res : Op → Type} {background : Tag → Op → Tag}

/-- A program with the property goes on with programs that have it. -/
structure Hereditary (P : Prog Op Res Unit → Prop) : Prop where
  ok : ∀ {op ok err}, P (.call op ok err) → ∀ r, P (ok r)
  err : ∀ {op ok err}, P (.call op ok err) → P err
  next : ∀ {op next}, P (.spawn op next) → P next
  /-- A call that is started without being awaited. -/
  started : ∀ op, P (.call op (fun _ => .pure ()) .throw)

namespace Hereditary

variable {P : Prog Op Res Unit → Prop} {s s' : Pool σ Tag Op Res} {p : Prog Op Res Unit}
  {tag : Tag} {j : Nat} {perform : Perform σ ι Tag Op Res} {choice : ι}

theorem settle (hP : Hereditary P) (h : P p) : P p.settle.2 := by
  induction p with
  | pure a => exact h
  | throw => exact h
  | call op ok err => exact h
  | spawn op next ih => exact ih (hP.next h)

theorem launch (hP : Hereditary P) (h : P p) :
    ∀ task ∈ Task.launch background tag p, P task.prog := by
  intro task htask
  rcases Task.mem_launch.mp htask with ⟨-, rfl⟩ | ⟨op, -, rfl⟩
  · exact hP.settle h
  · exact hP.started op

theorem begin (hP : Hereditary P) (h : ∀ task ∈ s.tasks, P task.prog) (hp : P p) :
    ∀ task ∈ (Pool.begin background s tag p).tasks, P task.prog := by
  intro task htask
  rcases List.mem_append.mp htask with htask | htask
  · exact h task htask
  · exact hP.launch hp task htask

/-- What comes to stand among the tasks. -/
theorem replaced {before after added : List (Task Tag Op Res)} {task : Task Tag Op Res}
    (hs : s.tasks = before ++ task :: after) (h : ∀ task ∈ s.tasks, P task.prog)
    (ha : ∀ task ∈ added, P task.prog) : ∀ task ∈ before ++ added ++ after, P task.prog := by
  intro other hother
  rw [List.mem_append, List.mem_append] at hother
  rcases hother with (hother | hother) | hother
  · exact h other (by simp [hs, hother])
  · exact ha other hother
  · exact h other (by simp [hs, hother])

theorem advance (hP : Hereditary P) (h : ∀ task ∈ s.tasks, P task.prog)
    (hf : Pool.advance background perform s j choice = some s') :
    ∀ task ∈ s'.tasks, P task.prog := by
  obtain ⟨tag, op, ok, err, before, after, hs, -, -, ht⟩ := Pool.advance_cases hf
  have hp : P (.call op ok err) := h ⟨tag, .call op ok err⟩ (by simp [hs])
  rw [ht]
  exact replaced hs h (hP.launch (hP.ok hp _))

theorem reject (hP : Hereditary P) (h : ∀ task ∈ s.tasks, P task.prog)
    (hf : Pool.reject background s j = some s') : ∀ task ∈ s'.tasks, P task.prog := by
  obtain ⟨tag, op, ok, err, before, after, hs, -, -, ht⟩ := Pool.reject_cases hf
  have hp : P (.call op ok err) := h ⟨tag, .call op ok err⟩ (by simp [hs])
  rw [ht]
  exact replaced hs h (hP.launch (hP.err hp))

theorem abandon (h : ∀ task ∈ s.tasks, P task.prog) (hf : Pool.abandon s j = some s') :
    ∀ task ∈ s'.tasks, P task.prog := by
  obtain ⟨stopped, before, after, hs, -, -, ht⟩ := Pool.abandon_cases hf
  rw [ht, ← List.append_nil before]
  exact replaced hs h fun _ hmem => nomatch hmem

end Hereditary

end InvoiceHub.Effects
