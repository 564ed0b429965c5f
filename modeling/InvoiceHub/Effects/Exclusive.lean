import InvoiceHub.Effects.Pool

/-!
# One program at a time

Some tasks of a pool work on a part of the world, seen through `view`, and one of them runs at a
time.  `Served I`: while none runs the view satisfies `I`, and while one runs it is on its way to
`I`.  So each may be verified as if it ran alone, if no other task changes the view; where others
change it along a relation, the rules take that relation in (`Served.among`).
-/

namespace InvoiceHub.Effects

variable {σ ι ν Tag Op : Type} {Res : Op → Type}

/-- Where a program awaits a call, the call is allowed. -/
theorem Prog.wp_waiting {α : Type} {L : Rules Op Res ν} {Q : Option α → ν → Prop} {v : ν}
    {p : Prog Op Res α} (h : p.wp L Q v) (hw : p.Waiting = true) : ∃ op, L.allow op v := by
  cases p with
  | call op ok err => exact ⟨op, h.1⟩
  | _ => cases hw

namespace Pool

/-- At most one of the tasks that are `mine` runs, and `v` is on its way to `I`. -/
def Served (mine : Tag → Bool) (L : Rules Op Res ν) (I : ν → Prop) (v : ν)
    (tasks : List (Task Tag Op Res)) : Prop :=
  (tasks.filter (fun task => mine task.tag) = [] ∧ I v) ∨
  ∃ task, tasks.filter (fun task => mine task.tag) = [task] ∧ task.prog.Waiting = true ∧
    task.prog.wp L (fun _ => I) v

variable {background : Tag → Op → Tag} {perform : Perform σ ι Tag Op Res} {mine : Tag → Bool}
  {L : Rules Op Res ν} {I : ν → Prop} {v : ν} {tag : Tag} {p : Prog Op Res Unit}
  {tasks before after : List (Task Tag Op Res)}

/-- Nobody is at work. -/
def Idle (mine : Tag → Bool) (tasks : List (Task Tag Op Res)) : Bool :=
  tasks.all fun task => !mine task.tag

theorem idle_iff : Idle mine tasks = true ↔ tasks.filter (fun task => mine task.tag) = [] := by
  simp [Idle, List.filter_eq_nil_iff]

theorem Served.idle (h : Served mine L I v tasks) (hi : Idle mine tasks = true) : I v := by
  rw [idle_iff] at hi
  rcases h with ⟨-, h⟩ | ⟨task, h, -⟩
  · exact h
  · rw [hi] at h
    cases h

/-- Whoever is at work awaits a call that is allowed. -/
theorem Served.busy (h : Served mine L I v tasks) (hi : Idle mine tasks = false) :
    ∃ op, L.allow op v := by
  rcases h with ⟨hnil, -⟩ | ⟨task, -, hw, h⟩
  · rw [idle_iff.mpr hnil] at hi
    cases hi
  · exact Prog.wp_waiting h hw

theorem filter_launch (hbg : ∀ tag op, mine (background tag op) = false) :
    (Task.launch background tag p).filter (fun task => mine task.tag) =
      if mine tag = true ∧ p.settle.2.Waiting = true then [⟨tag, p.settle.2⟩] else [] := by
  unfold Task.launch
  rw [List.filter_append]
  have hnil : (p.settle.1.map fun op => (⟨background tag op, .call op (fun _ => .pure ()) .throw⟩ :
      Task Tag Op Res)).filter (fun task => mine task.tag) = [] := by
    rw [List.filter_eq_nil_iff]
    intro task ht
    obtain ⟨op, -, rfl⟩ := List.mem_map.mp ht
    simp [hbg]
  rw [hnil, List.append_nil]
  by_cases hw : p.settle.2.Waiting = true
  · by_cases hm : mine tag = true <;> simp [hw, hm]
  · simp [hw]

/-- A program goes to work where nobody else is. -/
theorem served_launch (hbg : ∀ tag op, mine (background tag op) = false)
    (before after : List (Task Tag Op Res)) (hb : before.filter (fun task => mine task.tag) = [])
    (ha : after.filter (fun task => mine task.tag) = []) (hm : mine tag = true)
    (h : p.wp L (fun _ => I) v) :
    Served mine L I v (before ++ Task.launch background tag p ++ after) := by
  have hs := (Prog.wp_settle h).2
  unfold Served
  rw [List.filter_append, List.filter_append, filter_launch hbg, hb, ha, List.nil_append,
    List.append_nil]
  rcases Prog.settle_cases p with ⟨op, ok, err, hp⟩ | ⟨a, hp⟩ | hp
  · exact .inr ⟨⟨tag, p.settle.2⟩, by simp [hm, hp, Prog.Waiting], by simp [hp, Prog.Waiting], hs⟩
  · rw [hp] at hs
    exact .inl ⟨by simp [hp, Prog.Waiting], hs⟩
  · rw [hp] at hs
    exact .inl ⟨by simp [hp, Prog.Waiting], hs⟩

/-- Tasks that are not mine come and go. -/
theorem served_congr {tasks' : List (Task Tag Op Res)}
    (ht : tasks'.filter (fun task => mine task.tag) = tasks.filter (fun task => mine task.tag))
    (h : Served mine L I v tasks) : Served mine L I v tasks' := by
  unfold Served at h ⊢
  rw [ht]
  exact h

/-- If the task in the middle is mine, it is the one that is served. -/
theorem Served.focus {task : Task Tag Op Res}
    (h : Served mine L I v (before ++ task :: after)) (hm : mine task.tag = true) :
    before.filter (fun task => mine task.tag) = [] ∧
      after.filter (fun task => mine task.tag) = [] ∧ task.prog.Waiting = true ∧
      task.prog.wp L (fun _ => I) v := by
  have hcons : (task :: after).filter (fun task => mine task.tag) =
      task :: after.filter (fun task => mine task.tag) := List.filter_cons_of_pos hm
  unfold Served at h
  rw [List.filter_append, hcons] at h
  rcases h with ⟨h, -⟩ | ⟨task', h, hw, hwp⟩
  · simp at h
  · rw [List.append_eq_singleton_iff] at h
    rcases h with ⟨hb, h⟩ | ⟨-, h⟩
    · obtain ⟨rfl, ha⟩ := List.cons_eq_cons.mp h
      exact ⟨hb, ha, hw, hwp⟩
    · cases h

theorem filter_other (hbg : ∀ tag op, mine (background tag op) = false) (task : Task Tag Op Res)
    (hm : mine task.tag = false) {p : Prog Op Res Unit} :
    (before ++ Task.launch background task.tag p ++ after).filter (fun task => mine task.tag) =
      (before ++ task :: after).filter (fun task => mine task.tag) := by
  simp [filter_launch hbg, hm]

/-- Whoever is at work keeps to the rules after whatever the other tasks do. -/
theorem Served.among {R : ν → ν → Prop} {v' : ν} (hL : L.Absorbs R) (hR : R v v')
    (hI : I v → I v') (h : Served mine (L.among R) I v tasks) :
    Served mine (L.among R) I v' tasks := by
  rcases h with ⟨hnil, h⟩ | ⟨task, htask, hw, h⟩
  · exact .inl ⟨hnil, hI h⟩
  · exact .inr ⟨task, htask, hw, Prog.wp_among hL hR (fun _ => hI) h⟩

section Steps

variable {view : σ → ν} {s s' : Pool σ Tag Op Res} {j : Nat}

theorem Served.advance (hbg : ∀ tag op, mine (background tag op) = false)
    (h : Served mine L I (view s.world) s.tasks) {choice : ι}
    (hf : Pool.advance background perform s j choice = some s')
    (hown : ∀ tag op ok err, s.tasks[j]? = some ⟨tag, .call op ok err⟩ → mine tag = true →
      L.step op (view s.world) (perform tag choice op s.world).1
        (view (perform tag choice op s.world).2))
    (hother : ∀ tag op ok err, s.tasks[j]? = some ⟨tag, .call op ok err⟩ → mine tag = false →
      Served mine L I (view (perform tag choice op s.world).2) s.tasks) :
    Served mine L I (view s'.world) s'.tasks := by
  obtain ⟨tag, op, ok, err, before, after, hs, hj, hw, ht⟩ := Pool.advance_cases hf
  have hget : s.tasks[j]? = some ⟨tag, .call op ok err⟩ := by
    rw [hs, ← hj]
    simp
  rw [hw, ht]
  cases hm : mine tag with
  | true =>
    rw [hs] at h
    obtain ⟨hb, ha, hw, hwp⟩ := h.focus hm
    exact served_launch hbg before after hb ha hm (hwp.2.1 _ _ (hown tag op ok err hget hm))
  | false =>
    have h := hother tag op ok err hget hm
    rw [hs] at h
    exact served_congr (filter_other hbg ⟨tag, .call op ok err⟩ hm) h

theorem Served.reject (hbg : ∀ tag op, mine (background tag op) = false)
    (h : Served mine L I (view s.world) s.tasks)
    (hf : Pool.reject background s j = some s')
    (hown : ∀ tag op ok err, s.tasks[j]? = some ⟨tag, .call op ok err⟩ → mine tag = true →
      L.fails op) : Served mine L I (view s'.world) s'.tasks := by
  obtain ⟨tag, op, ok, err, before, after, hs, hj, hw, ht⟩ := Pool.reject_cases hf
  have hget : s.tasks[j]? = some ⟨tag, .call op ok err⟩ := by
    rw [hs, ← hj]
    simp
  rw [hw, ht]
  rw [hs] at h
  cases hm : mine tag with
  | true =>
    obtain ⟨hb, ha, hw, hwp⟩ := h.focus hm
    exact served_launch hbg before after hb ha hm (hwp.2.2 (hown tag op ok err hget hm))
  | false => exact served_congr (filter_other hbg ⟨tag, .call op ok err⟩ hm) h

theorem Served.abandon (h : Served mine L I (view s.world) s.tasks)
    (hf : Pool.abandon s j = some s')
    (hown : ∀ task, s.tasks[j]? = some task → mine task.tag = true →
      ∀ op, L.allow op (view s.world) → I (view s.world)) :
    Served mine L I (view s'.world) s'.tasks := by
  obtain ⟨task, before, after, hs, hj, hw, ht⟩ := Pool.abandon_cases hf
  have hget : s.tasks[j]? = some task := by
    rw [hs, ← hj]
    simp
  rw [hw, ht]
  rw [hs] at h
  cases hm : mine task.tag with
  | true =>
    obtain ⟨hb, ha, hw, hwp⟩ := h.focus hm
    obtain ⟨op, hop⟩ := Prog.wp_waiting hwp hw
    exact .inl ⟨by rw [List.filter_append, hb, ha]; rfl, hown task hget hm op hop⟩
  | false =>
    refine served_congr ?_ h
    simp [hm]

/-- A program of mine starts. -/
theorem Served.begin (hbg : ∀ tag op, mine (background tag op) = false)
    (hi : Idle mine s.tasks = true) (hm : mine tag = true) (hwp : p.wp L (fun _ => I) v) :
    Served mine L I v (Pool.begin background s tag p).tasks := by
  have h := served_launch hbg s.tasks [] (idle_iff.mp hi) rfl hm hwp
  rwa [List.append_nil] at h

/-- Another program starts. -/
theorem Served.begin_other (hbg : ∀ tag op, mine (background tag op) = false)
    (h : Served mine L I v s.tasks) (hm : mine tag = false) :
    Served mine L I v (Pool.begin background s tag p).tasks := by
  refine served_congr ?_ h
  simp [Pool.begin, filter_launch hbg, hm]

end Steps

end Pool

end InvoiceHub.Effects
