import InvoiceHub.Effects.Pool

/-!
# Tasks that interfere

All tasks of a pool see the same world, and between two calls of a task the others may change it.
Where every call that may be issued takes the world along a relation, a task that keeps to the
rules whatever happens along that relation keeps to them among the others (`Upheld.advance`,
`Upheld.reject`, `Upheld.abandon`).
-/

namespace InvoiceHub.Effects

variable {σ ι Tag Op : Type} {Res : Op → Type} {background : Tag → Op → Tag}

/-- What holds of the world, how it changes, and what calls must find. -/
structure Interference (perform : Perform σ ι Tag Op Res) where
  holds : σ → Prop
  changes : σ → σ → Prop
  /-- What must hold where a call is issued. -/
  allow : Op → σ → Prop
  /-- The calls that may be rejected. -/
  fails : Op → Prop
  refl : ∀ w, changes w w
  trans : ∀ w w' w'', changes w w' → changes w' w'' → changes w w''
  stable : ∀ op w w', changes w w' → allow op w → allow op w'
  moves : ∀ tag choice op w, holds w → allow op w →
    holds (perform tag choice op w).2 ∧ changes w (perform tag choice op w).2

namespace Interference

variable {perform : Perform σ ι Tag Op Res} (I : Interference perform)

/-- Calls as seen by one task that is alone. -/
def rules : Rules Op Res σ where
  step op w r w' := I.holds w ∧ ∃ tag choice, perform tag choice op w = (r, w')
  fails := I.fails
  allow := I.allow
  spawns := I.allow

/-- The program keeps to the rules and ends in `Q`, whatever the others do. -/
def Meets {α : Type} (p : Prog Op Res α) (Q : Option α → σ → Prop) (w : σ) : Prop :=
  p.wp (I.rules.among I.changes) Q w

/-- The program keeps to the rules, whatever the others do. -/
def Keeps (p : Prog Op Res Unit) (w : σ) : Prop := I.Meets p (fun _ _ => True) w

/-- What holds of a pool. -/
structure Upheld (s : Pool σ Tag Op Res) : Prop where
  world : I.holds s.world
  tasks : ∀ task ∈ s.tasks, I.Keeps task.prog s.world

variable {I} {s s' : Pool σ Tag Op Res} {j : Nat} {p : Prog Op Res Unit} {w w' : σ}

theorem absorbs : I.rules.Absorbs I.changes where
  trans := I.trans
  allow := I.stable
  spawns := I.stable

theorem Keeps.later (h : I.Keeps p w) (hw : I.changes w w') : I.Keeps p w' :=
  Prog.wp_among absorbs hw (fun _ => id) h

section Programs

variable {α β : Type} {Q : Option α → σ → Prop} {Q' : Option β → σ → Prop}

/-- The others have moved before the call is answered. -/
theorem meets_await {op : Op} {f : Res op → Prog Op Res α} (hallow : I.allow op w)
    (hok : ∀ w₁ tag choice, I.changes w w₁ → I.holds w₁ →
      I.Meets (f (perform tag choice op w₁).1) Q (perform tag choice op w₁).2)
    (herr : I.fails op → Q none w) : I.Meets (Prog.await op >>= f) Q w := by
  refine ⟨hallow, ?_, herr⟩
  rintro r w' ⟨w₁, hw₁, hholds, tag, choice, hperform⟩
  have hmeets := hok w₁ tag choice hw₁ hholds
  rw [hperform] at hmeets
  exact hmeets

theorem meets_bind {p : Prog Op Res α} {f : α → Prog Op Res β}
    (h : I.Meets p (fun o w => match o with | some a => I.Meets (f a) Q' w | none => Q' none w) w) :
    I.Meets (p >>= f) Q' w := (Prog.wp_bind p f Q' w).mpr h

theorem meets_tryCatch {p handler : Prog Op Res α}
    (h : I.Meets p
      (fun o w => match o with | some a => Q (some a) w | none => I.Meets handler Q w) w) :
    I.Meets (p.tryCatch handler) Q w := (Prog.wp_tryCatch p handler w).mpr h

theorem Meets.mono {Q' : Option α → σ → Prop} {p : Prog Op Res α} (h : I.Meets p Q w)
    (hQ : ∀ o w', Q o w' → Q' o w') : I.Meets p Q' w := by
  induction p generalizing w with
  | pure a => exact hQ _ _ h
  | throw => exact hQ _ _ h
  | call op ok err ih ihe =>
    exact ⟨h.1, fun r w' hstep => ih r (h.2.1 r w' hstep), fun hf => ihe (h.2.2 hf)⟩
  | spawn op next ih => exact ⟨h.1, ih h.2⟩

/-- What the program does takes the world along the changes, as what the others do. -/
theorem Meets.changes {w₀ : σ} {p : Prog Op Res α} (h : I.Meets p Q w) (hw : I.changes w₀ w) :
    I.Meets p (fun o w' => Q o w' ∧ I.changes w₀ w') w := by
  induction p generalizing w with
  | pure a => exact ⟨h, hw⟩
  | throw => exact ⟨h, hw⟩
  | call op ok err ih ihe =>
    obtain ⟨hallow, hok, herr⟩ := h
    refine ⟨hallow, ?_, fun hf => ihe (herr hf) hw⟩
    rintro r w' ⟨w₁, hw₁, hholds, tag, choice, hperform⟩
    refine ih r (hok r w' ⟨w₁, hw₁, hholds, tag, choice, hperform⟩) ?_
    have hmoves := (I.moves tag choice op w₁ hholds (I.stable op w w₁ hw₁ hallow)).2
    rw [hperform] at hmoves
    exact I.trans _ _ _ (I.trans _ _ _ hw hw₁) hmoves
  | spawn op next ih => exact ⟨h.1, ih h.2 hw⟩

end Programs

theorem keeps_launch {tag : Tag} (h : I.Keeps p w) :
    ∀ task ∈ Task.launch background tag p, I.Keeps task.prog w := by
  intro task htask
  obtain ⟨hspawned, hprog⟩ := Prog.wp_settle h
  rcases Task.mem_launch.mp htask with ⟨-, rfl⟩ | ⟨op, hop, rfl⟩
  · exact hprog
  · exact ⟨hspawned op hop, fun _ _ _ => trivial, fun _ => trivial⟩

theorem Upheld.begin (h : I.Upheld s) {tag : Tag} (hp : I.Keeps p s.world) :
    I.Upheld (Pool.begin background s tag p) where
  world := h.world
  tasks task htask :=
    (List.mem_append.mp htask).elim (h.tasks task) (keeps_launch hp task)

/-- A change that comes from outside. -/
theorem Upheld.change (h : I.Upheld s) (hw : I.changes s.world w) (hholds : I.holds w) :
    I.Upheld { s with world := w } where
  world := hholds
  tasks task htask := (h.tasks task htask).later hw

/-- The task at `j` has moved on, and the others stand where they stood. -/
theorem Upheld.replace {before after added : List (Task Tag Op Res)} {task : Task Tag Op Res}
    (h : I.Upheld s) (hs : s.tasks = before ++ task :: after)
    (ht : s'.tasks = before ++ added ++ after) (hw : I.changes s.world s'.world)
    (hholds : I.holds s'.world) (ha : ∀ task ∈ added, I.Keeps task.prog s'.world) :
    I.Upheld s' := by
  refine ⟨hholds, fun task htask => ?_⟩
  rw [ht, List.append_assoc, List.mem_append, List.mem_append] at htask
  rcases htask with hmem | hmem | hmem
  · exact (h.tasks task (by simp [hs, hmem])).later hw
  · exact ha task hmem
  · exact (h.tasks task (by simp [hs, hmem])).later hw

theorem Upheld.advance (h : I.Upheld s) {choice : ι}
    (hf : Pool.advance background perform s j choice = some s') : I.Upheld s' := by
  obtain ⟨tag, op, ok, err, before, after, hs, -, hw, ht⟩ := Pool.advance_cases hf
  obtain ⟨hallow, hok, -⟩ := h.tasks ⟨tag, .call op ok err⟩ (by simp [hs])
  obtain ⟨hholds, hchanges⟩ := I.moves tag choice op s.world h.world hallow
  rw [← hw] at hholds hchanges
  refine h.replace hs ht hchanges hholds (keeps_launch ?_)
  exact hok _ _ ⟨s.world, I.refl _, h.world, tag, choice, Prod.ext rfl hw.symm⟩

theorem Upheld.reject (h : I.Upheld s) (hf : Pool.reject background s j = some s')
    (hfails : ∀ tag op ok err, s.tasks[j]? = some ⟨tag, .call op ok err⟩ → I.fails op) :
    I.Upheld s' := by
  obtain ⟨tag, op, ok, err, before, after, hs, hj, hw, ht⟩ := Pool.reject_cases hf
  obtain ⟨-, -, herr⟩ := h.tasks ⟨tag, .call op ok err⟩ (by simp [hs])
  have hget : s.tasks[j]? = some ⟨tag, .call op ok err⟩ := by
    rw [hs, ← hj]
    simp
  have hkeeps := herr (hfails tag op ok err hget)
  rw [← hw] at hkeeps
  exact h.replace hs ht (hw ▸ I.refl _) (hw ▸ h.world) (keeps_launch hkeeps)

theorem Upheld.abandon (h : I.Upheld s) (hf : Pool.abandon s j = some s') : I.Upheld s' := by
  obtain ⟨task, before, after, hs, -, hw, ht⟩ := Pool.abandon_cases hf
  rw [← List.append_nil before] at ht
  exact h.replace hs ht (hw ▸ I.refl _) (hw ▸ h.world) (fun _ hmem => by cases hmem)

end Interference

end InvoiceHub.Effects
