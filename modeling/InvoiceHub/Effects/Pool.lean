import InvoiceHub.Effects.Logic
import Mathlib.Logic.Relation

/-!
# Pools of running programs

A pool is a world and the list of the tasks that run over it.  A task is a program that
stands at an await; the label of a step names the task that moves and, where the world
leaves a choice, the choice.  Calls that a program starts without awaiting them become
tasks of their own, so they complete at any later point.  What a step can do is said once
(`advance_cases`, `reject_cases`, `abandon_cases`).
-/

namespace InvoiceHub.Effects

variable {σ ι Tag Op : Type} {Res : Op → Type}

/-- A running program; `tag` says what it runs for. -/
structure Task (Tag Op : Type) (Res : Op → Type) where
  tag : Tag
  prog : Prog Op Res Unit

namespace Task

/-- The tasks a program leaves behind when it reaches its next await: itself, unless it has
ended, and one task for each call it started on the way. -/
def launch (background : Tag → Op → Tag) (tag : Tag) (p : Prog Op Res Unit) :
    List (Task Tag Op Res) :=
  (if p.settle.2.Waiting then [⟨tag, p.settle.2⟩] else []) ++
    p.settle.1.map fun op => ⟨background tag op, .call op (fun _ => .pure ()) .throw⟩

theorem mem_launch {background : Tag → Op → Tag} {tag : Tag} {p : Prog Op Res Unit}
    {task : Task Tag Op Res} :
    task ∈ launch background tag p ↔
      (p.settle.2.Waiting = true ∧ task = ⟨tag, p.settle.2⟩) ∨
      ∃ op ∈ p.settle.1, task = ⟨background tag op, .call op (fun _ => .pure ()) .throw⟩ := by
  unfold launch
  rw [List.mem_append, List.mem_map]
  constructor
  · rintro (h | ⟨op, hop, rfl⟩)
    · split at h
      · exact .inl ⟨by assumption, by simpa using h⟩
      · cases h
    · exact .inr ⟨op, hop, rfl⟩
  · rintro (⟨hw, rfl⟩ | ⟨op, hop, rfl⟩)
    · exact .inl (by simp [hw])
    · exact .inr ⟨op, hop, rfl⟩

end Task

/-- A world with the tasks running over it. -/
structure Pool (σ Tag Op : Type) (Res : Op → Type) where
  world : σ
  tasks : List (Task Tag Op Res)

/-- What a call does to the world, for the tag of the issuing task and a choice that the
world leaves open. -/
abbrev Perform (σ ι Tag Op : Type) (Res : Op → Type) :=
  Tag → ι → (op : Op) → σ → Res op × σ

/-- Run a program to its end with nothing else running: every call is answered at once, those it
does not await included. -/
def Prog.exec {α : Type} (perform : Perform σ ι Tag Op Res) (tag : Tag) (choice : ι) :
    Prog Op Res α → σ → σ
  | .pure _, world => world
  | .throw, world => world
  | .call op ok _, world =>
    (ok (perform tag choice op world).1).exec perform tag choice (perform tag choice op world).2
  | .spawn op next, world => next.exec perform tag choice (perform tag choice op world).2

namespace Pool

variable (background : Tag → Op → Tag) (perform : Perform σ ι Tag Op Res)

/-- Put `replacement` where the `j`-th task stood. -/
def replace (tasks : List (Task Tag Op Res)) (j : Nat) (replacement : List (Task Tag Op Res)) :
    List (Task Tag Op Res) :=
  tasks.take j ++ replacement ++ tasks.drop (j + 1)

/-- A new program starts. -/
def begin (s : Pool σ Tag Op Res) (tag : Tag) (p : Prog Op Res Unit) : Pool σ Tag Op Res :=
  { s with tasks := s.tasks ++ Task.launch background tag p }

/-- The call of the `j`-th task is answered. -/
def advance (s : Pool σ Tag Op Res) (j : Nat) (choice : ι) : Option (Pool σ Tag Op Res) :=
  match s.tasks[j]? with
  | some ⟨tag, .call op ok _⟩ =>
    let answer := perform tag choice op s.world
    some { world := answer.2
           tasks := replace s.tasks j (Task.launch background tag (ok answer.1)) }
  | _ => none

/-- The call of the `j`-th task is rejected. -/
def reject (s : Pool σ Tag Op Res) (j : Nat) : Option (Pool σ Tag Op Res) :=
  match s.tasks[j]? with
  | some ⟨tag, .call _ _ err⟩ =>
    some { s with tasks := replace s.tasks j (Task.launch background tag err) }
  | _ => none

/-- The process running the `j`-th task stops. -/
def abandon (s : Pool σ Tag Op Res) (j : Nat) : Option (Pool σ Tag Op Res) :=
  if j < s.tasks.length then some { s with tasks := replace s.tasks j [] } else none

variable {background perform}

@[simp] theorem begin_world (s : Pool σ Tag Op Res) (tag : Tag) (p : Prog Op Res Unit) :
    (begin background s tag p).world = s.world := rfl

/-- The first task moves. -/
theorem advance_head (world : σ) (tag : Tag) (op : Op) (ok : Res op → Prog Op Res Unit)
    (err : Prog Op Res Unit) (rest : List (Task Tag Op Res)) (choice : ι) :
    advance background perform ⟨world, ⟨tag, .call op ok err⟩ :: rest⟩ 0 choice =
      some ⟨(perform tag choice op world).2,
        Task.launch background tag (ok (perform tag choice op world).1) ++ rest⟩ := by
  simp [advance, replace]

/-- What an answered call does: the task at `j`, its call, and the state it leaves. -/
theorem advance_cases {s s' : Pool σ Tag Op Res} {j : Nat} {choice : ι}
    (h : advance background perform s j choice = some s') :
    ∃ tag op ok err before after, s.tasks = before ++ ⟨tag, .call op ok err⟩ :: after ∧
      before.length = j ∧ s'.world = (perform tag choice op s.world).2 ∧
      s'.tasks = before ++
        Task.launch background tag (ok (perform tag choice op s.world).1) ++ after := by
  unfold advance at h
  split at h
  · rename_i tag op ok err hj
    cases h
    obtain ⟨hlt, hget⟩ := List.getElem?_eq_some_iff.mp hj
    refine ⟨tag, op, ok, err, s.tasks.take j, s.tasks.drop (j + 1), ?_, ?_, rfl, rfl⟩
    · rw [← hget, List.getElem_cons_drop, List.take_append_drop]
    · simp only [List.length_take]
      omega
  · cases h

theorem reject_cases {s s' : Pool σ Tag Op Res} {j : Nat}
    (h : reject background s j = some s') :
    ∃ tag op ok err before after, s.tasks = before ++ ⟨tag, .call op ok err⟩ :: after ∧
      before.length = j ∧ s'.world = s.world ∧
      s'.tasks = before ++ Task.launch background tag err ++ after := by
  unfold reject at h
  split at h
  · rename_i tag op ok err hj
    cases h
    obtain ⟨hlt, hget⟩ := List.getElem?_eq_some_iff.mp hj
    refine ⟨tag, op, ok, err, s.tasks.take j, s.tasks.drop (j + 1), ?_, ?_, rfl, rfl⟩
    · rw [← hget, List.getElem_cons_drop, List.take_append_drop]
    · simp only [List.length_take]
      omega
  · cases h

theorem abandon_cases {s s' : Pool σ Tag Op Res} {j : Nat} (h : abandon s j = some s') :
    ∃ task before after, s.tasks = before ++ task :: after ∧ before.length = j ∧
      s'.world = s.world ∧ s'.tasks = before ++ after := by
  unfold abandon at h
  split at h
  · rename_i hlt
    cases h
    refine ⟨s.tasks[j], s.tasks.take j, s.tasks.drop (j + 1), ?_, ?_, rfl, ?_⟩
    · rw [List.getElem_cons_drop, List.take_append_drop]
    · simp only [List.length_take]
      omega
    · simp [replace]
  · cases h

end Pool

end InvoiceHub.Effects
