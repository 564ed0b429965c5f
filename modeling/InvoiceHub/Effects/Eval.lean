import InvoiceHub.Effects.Prog

/-!
# Programs that run to their end

A program evaluated in one go: each call is answered or rejected as `perform` says, one that is
not awaited included.  `consult` answers calls by a stream of choices, so that all combinations of
answers are the streams.
-/

namespace InvoiceHub.Effects

variable {σ ι Op : Type} {Res : Op → Type} {α β : Type}

/-- What becomes of a call; `none` is a rejection. -/
abbrev Answers (σ Op : Type) (Res : Op → Type) := (op : Op) → σ → Option (Res op) × σ

/-- The `n`-th call is answered by the `n`-th choice. -/
def consult (perform : ι → Answers σ Op Res) : Answers (σ × (Nat → ι)) Op Res :=
  fun op s => ((perform (s.2 0) op s.1).1, (perform (s.2 0) op s.1).2, fun n => s.2 (n + 1))

namespace Prog

/-- Run to the end: the value, unless it throws, and the state it leaves. -/
def eval (perform : Answers σ Op Res) : Prog Op Res α → σ → Option α × σ
  | pure a, s => (some a, s)
  | throw, s => (none, s)
  | call op ok err, s =>
    match (perform op s).1 with
    | some r => (ok r).eval perform (perform op s).2
    | none => err.eval perform (perform op s).2
  | spawn op next, s => next.eval perform (perform op s).2

variable {perform : Answers σ Op Res} {s : σ}

@[simp] theorem eval_pure (a : α) : (pure a : Prog Op Res α).eval perform s = (some a, s) := rfl

@[simp] theorem eval_throw : (throw : Prog Op Res α).eval perform s = (none, s) := rfl

@[simp] theorem eval_spawn (op : Op) (next : Prog Op Res α) :
    (spawn op next).eval perform s = next.eval perform (perform op s).2 := rfl

theorem eval_call_some {op : Op} {ok : Res op → Prog Op Res α} {err : Prog Op Res α} {r : Res op}
    (h : (perform op s).1 = some r) :
    (call op ok err).eval perform s = (ok r).eval perform (perform op s).2 := by
  rw [eval, h]

theorem eval_call_none {op : Op} {ok : Res op → Prog Op Res α} {err : Prog Op Res α}
    (h : (perform op s).1 = none) :
    (call op ok err).eval perform s = err.eval perform (perform op s).2 := by
  rw [eval, h]

/-- Sequencing: the second program starts where the first returned. -/
theorem eval_bind (p : Prog Op Res α) (f : α → Prog Op Res β) :
    ∀ s : σ, (p >>= f).eval perform s =
      match (p.eval perform s).1 with
      | some a => (f a).eval perform (p.eval perform s).2
      | none => (none, (p.eval perform s).2) := by
  induction p with
  | pure a => exact fun _ => rfl
  | throw => exact fun _ => rfl
  | call op ok err ih ihe =>
    intro s
    rw [call_bind]
    cases hr : (perform op s).1 with
    | some r => rw [eval_call_some hr, eval_call_some hr, ih]
    | none => rw [eval_call_none hr, eval_call_none hr, ihe]
  | spawn op next ih => exact fun s => ih _

/-- A handler takes over where the program throws. -/
theorem eval_tryCatch (p h : Prog Op Res α) :
    ∀ s : σ, (p.tryCatch h).eval perform s =
      match (p.eval perform s).1 with
      | some a => (some a, (p.eval perform s).2)
      | none => h.eval perform (p.eval perform s).2 := by
  induction p with
  | pure a => exact fun _ => rfl
  | throw => exact fun _ => rfl
  | call op ok err ih ihe =>
    intro s
    rw [tryCatch]
    cases hr : (perform op s).1 with
    | some r => rw [eval_call_some hr, eval_call_some hr, ih]
    | none => rw [eval_call_none hr, eval_call_none hr, ihe]
  | spawn op next ih => exact fun s => ih _

/-- What every call keeps, the program keeps. -/
theorem eval_keeps {I : σ → Prop} (h : ∀ op s, I s → I (perform op s).2) (p : Prog Op Res α) :
    ∀ s : σ, I s → I (p.eval perform s).2 := by
  induction p with
  | pure a => exact fun _ hs => hs
  | throw => exact fun _ hs => hs
  | call op ok err ih ihe =>
    intro s hs
    cases hr : (perform op s).1 with
    | some r =>
      rw [eval_call_some hr]
      exact ih r _ (h op s hs)
    | none =>
      rw [eval_call_none hr]
      exact ihe _ (h op s hs)
  | spawn op next ih => exact fun s hs => ih _ (h op s hs)

/-- A program under a larger interface whose calls act on a part of the state. -/
theorem eval_mapOp {τ Op' : Type} {Res' : Op' → Type} {perform' : Answers τ Op' Res'}
    {f : Op → Op'} {back : ∀ op, Res' (f op) → Res op} {R : σ → τ → Prop}
    (h : ∀ op s t, R s t → ((perform' (f op) t).1.map (back op) = (perform op s).1) ∧
      R (perform op s).2 (perform' (f op) t).2) (p : Prog Op Res α) :
    ∀ (s : σ) (t : τ), R s t →
      ((p.mapOp f back).eval perform' t).1 = (p.eval perform s).1 ∧
        R (p.eval perform s).2 ((p.mapOp f back).eval perform' t).2 := by
  induction p with
  | pure a => exact fun _ _ hR => ⟨rfl, hR⟩
  | throw => exact fun _ _ hR => ⟨rfl, hR⟩
  | call op ok err ih ihe =>
    intro s t hR
    obtain ⟨hr, hnext⟩ := h op s t hR
    rw [mapOp]
    cases hs : (perform op s).1 with
    | some r =>
      rw [hs] at hr
      obtain ⟨r', hr', rfl⟩ := Option.map_eq_some_iff.mp hr
      rw [eval_call_some hs, eval_call_some hr']
      exact ih _ _ _ hnext
    | none =>
      rw [hs, Option.map_eq_none_iff] at hr
      rw [eval_call_none hs, eval_call_none hr]
      exact ihe _ _ hnext
  | spawn op next ih =>
    intro s t hR
    exact ih _ _ (h op s t hR).2

/-! ## How a program ends -/

/-- Run to the end, `Q` holds of the value and of the state that is left. -/
def Ends (perform : Answers σ Op Res) (Q : Option α → σ → Prop) (p : Prog Op Res α) (s : σ) :
    Prop :=
  Q (p.eval perform s).1 (p.eval perform s).2

section Ends

variable {Q R : Option α → σ → Prop}

theorem ends_call {op : Op} {ok : Res op → Prog Op Res α} {err : Prog Op Res α}
    (hok : ∀ r, (perform op s).1 = some r → (ok r).Ends perform Q (perform op s).2)
    (herr : (perform op s).1 = none → err.Ends perform Q (perform op s).2) :
    (call op ok err).Ends perform Q s := by
  unfold Ends
  cases hr : (perform op s).1 with
  | some r =>
    rw [eval_call_some hr]
    exact hok r hr
  | none =>
    rw [eval_call_none hr]
    exact herr hr

theorem Ends.mono {p : Prog Op Res α} (h : p.Ends perform Q s) (hQR : ∀ a s, Q a s → R a s) :
    p.Ends perform R s :=
  hQR _ _ h

/-- Sequencing: the second program starts where the first returned. -/
theorem ends_bind {p : Prog Op Res β} {f : β → Prog Op Res α}
    (h : p.Ends perform (fun b s => match b with
      | some b => (f b).Ends perform Q s
      | none => Q none s) s) : (p >>= f).Ends perform Q s := by
  unfold Ends at h ⊢
  rw [eval_bind]
  cases hb : (p.eval perform s).1 with
  | some b =>
    rw [hb] at h
    exact h
  | none =>
    rw [hb] at h
    exact h

end Ends

theorem mapOp_bind {Op' : Type} {Res' : Op' → Type} {f : Op → Op'}
    {back : ∀ op, Res' (f op) → Res op} (p : Prog Op Res α) (g : α → Prog Op Res β) :
    (p >>= g).mapOp f back = p.mapOp f back >>= fun a => (g a).mapOp f back := by
  induction p with
  | pure a => rfl
  | throw => rfl
  | call op ok err ih ihe =>
    rw [call_bind, mapOp, mapOp, call_bind, ihe]
    exact congrArg (call (f op) · _) (funext fun r => ih _)
  | spawn op next ih => rw [spawn_bind, mapOp, mapOp, spawn_bind, ih]

/-! ## Calls that are programs -/

/-- Go on with `ok` where the program returns and with `err` where it throws. -/
def resume (p : Prog Op Res α) (ok : α → Prog Op Res β) (err : Prog Op Res β) : Prog Op Res β :=
  match p with
  | pure a => ok a
  | throw => err
  | call op ok' err' => call op (fun r => (ok' r).resume ok err) (err'.resume ok err)
  | spawn op next => spawn op (next.resume ok err)

theorem resume_pure_throw (p : Prog Op Res α) : p.resume pure throw = p := by
  induction p with
  | pure a => rfl
  | throw => rfl
  | call op ok err ih ihe =>
    rw [resume, ihe]
    exact congrArg (call op · _) (funext ih)
  | spawn op next ih => rw [resume, ih]

theorem resume_bind {γ : Type} (p : Prog Op Res α) (ok : α → Prog Op Res β) (err : Prog Op Res β)
    (f : β → Prog Op Res γ) :
    (p.resume ok err >>= f) = p.resume (fun a => ok a >>= f) (err >>= f) := by
  induction p with
  | pure a => rfl
  | throw => rfl
  | call op ok' err' ih ihe =>
    rw [resume, resume, call_bind, ihe]
    exact congrArg (call op · _) (funext ih)
  | spawn op next ih => rw [resume, resume, spawn_bind, ih]

section Expand

variable {Op' : Type} {Res' : Op' → Type} {body : (op : Op) → Prog Op' Res' (Res op)}
  {start : Op → Op'}

/-- The same program, each call that is awaited replaced by what it does. -/
def expand (body : (op : Op) → Prog Op' Res' (Res op)) (start : Op → Op') :
    Prog Op Res α → Prog Op' Res' α
  | pure a => pure a
  | throw => throw
  | call op ok err =>
    (body op).resume (fun r => (ok r).expand body start) (err.expand body start)
  | spawn op next => spawn (start op) (next.expand body start)

theorem expand_await (op : Op) : (await op : Prog Op Res _).expand body start = body op :=
  resume_pure_throw _

theorem expand_bind (p : Prog Op Res α) (f : α → Prog Op Res β) :
    (p >>= f).expand body start = p.expand body start >>= fun a => (f a).expand body start := by
  induction p with
  | pure a => rfl
  | throw => rfl
  | call op ok err ih ihe =>
    rw [call_bind, expand, expand, resume_bind, ihe]
    exact congrArg (fun ok => (body op).resume ok _) (funext ih)
  | spawn op next ih => rw [spawn_bind, expand, expand, spawn_bind, ih]

end Expand

end Prog

end InvoiceHub.Effects
