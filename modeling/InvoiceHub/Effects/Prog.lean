/-!
# Programs that await calls

An asynchronous function is a tree: it awaits a call and goes on with the answer
(`call`, whose second branch is taken when the call is rejected), starts a call without
awaiting it (`spawn`), throws, or returns.  Interleaving happens between calls only, which
is where a single-threaded event loop switches tasks.

The interface is a type of calls `Op` with the type `Res op` of the answer of each call.
-/

namespace InvoiceHub.Effects

/-- A program over the interface `Op`, `Res` that returns an `α`. -/
inductive Prog (Op : Type) (Res : Op → Type) (α : Type) : Type where
  /-- The program returned. -/
  | pure (a : α)
  /-- The program threw. -/
  | throw
  /-- Await `op`; continue with its answer, or with `err` when it is rejected. -/
  | call (op : Op) (ok : Res op → Prog Op Res α) (err : Prog Op Res α)
  /-- Start `op` and go on at once. -/
  | spawn (op : Op) (next : Prog Op Res α)

namespace Prog

variable {Op : Type} {Res : Op → Type} {α β γ : Type}

/-- Sequential composition: a throw or a rejected call skips the rest. -/
def bind : Prog Op Res α → (α → Prog Op Res β) → Prog Op Res β
  | pure a, f => f a
  | throw, _ => throw
  | call op ok err, f => call op (fun r => (ok r).bind f) (err.bind f)
  | spawn op next, f => spawn op (next.bind f)

/-- `try p catch h`: `h` takes over wherever `p` throws. -/
def tryCatch : Prog Op Res α → Prog Op Res α → Prog Op Res α
  | pure a, _ => pure a
  | throw, h => h
  | call op ok err, h => call op (fun r => (ok r).tryCatch h) (err.tryCatch h)
  | spawn op next, h => spawn op (next.tryCatch h)

instance : Monad (Prog Op Res) where
  pure := pure
  bind := bind

/-- Await one call; a rejection is thrown. -/
def await (op : Op) : Prog Op Res (Res op) := call op pure throw

/-- Start one call without awaiting it. -/
def start (op : Op) : Prog Op Res Unit := spawn op (pure ())

@[simp] theorem pure_def (a : α) : (Pure.pure a : Prog Op Res α) = pure a := rfl

@[simp] theorem pure_bind (a : α) (f : α → Prog Op Res β) :
    ((pure a : Prog Op Res α) >>= f) = f a := rfl

@[simp] theorem throw_bind (f : α → Prog Op Res β) :
    ((throw : Prog Op Res α) >>= f) = throw := rfl

@[simp] theorem call_bind (op : Op) (ok : Res op → Prog Op Res α) (err : Prog Op Res α)
    (f : α → Prog Op Res β) :
    (call op ok err >>= f) = call op (fun r => ok r >>= f) (err >>= f) := rfl

@[simp] theorem spawn_bind (op : Op) (next : Prog Op Res α) (f : α → Prog Op Res β) :
    (spawn op next >>= f) = spawn op (next >>= f) := rfl

@[simp] theorem await_bind (op : Op) (f : Res op → Prog Op Res β) :
    (await op >>= f) = call op f throw := rfl

@[simp] theorem start_bind (op : Op) (f : Unit → Prog Op Res β) :
    ((start op : Prog Op Res Unit) >>= f) = spawn op (f ()) := rfl

theorem bind_assoc' (p : Prog Op Res α) (f : α → Prog Op Res β) (g : β → Prog Op Res γ) :
    ((p >>= f) >>= g) = (p >>= fun a => f a >>= g) := by
  induction p with
  | pure a => rfl
  | throw => rfl
  | call op ok err ih ihe =>
    simp only [call_bind, ihe]
    exact congrArg (call op · _) (funext ih)
  | spawn op next ih => simp only [spawn_bind, ih]

theorem bind_pure' (p : Prog Op Res α) : (p >>= fun a => pure a) = p := by
  induction p with
  | pure a => rfl
  | throw => rfl
  | call op ok err ih ihe =>
    simp only [call_bind, ihe]
    exact congrArg (call op · _) (funext ih)
  | spawn op next ih => simp only [spawn_bind, ih]

instance : LawfulMonad (Prog Op Res) :=
  LawfulMonad.mk' _ bind_pure' (fun _ _ => rfl) bind_assoc'

/-! ## Reuse of a program under a larger interface -/

/-- The same program issuing `f op` for `op`. -/
def mapOp {Op' : Type} {Res' : Op' → Type} (f : Op → Op')
    (back : ∀ op, Res' (f op) → Res op) : Prog Op Res α → Prog Op' Res' α
  | pure a => pure a
  | throw => throw
  | call op ok err => call (f op) (fun r => (ok (back op r)).mapOp f back) (err.mapOp f back)
  | spawn op next => spawn (f op) (next.mapOp f back)

/-! ## The calls a program has started when it reaches its next await -/

/-- Split off the calls started before the next await, return or throw. -/
def settle : Prog Op Res α → List Op × Prog Op Res α
  | spawn op next => (op :: next.settle.1, next.settle.2)
  | p => ([], p)

/-- The program stands at an await. -/
def Waiting : Prog Op Res α → Bool
  | call .. => true
  | _ => false

@[simp] theorem settle_spawn (op : Op) (next : Prog Op Res α) :
    (spawn op next).settle = (op :: next.settle.1, next.settle.2) := rfl

@[simp] theorem settle_call (op : Op) (ok : Res op → Prog Op Res α) (err : Prog Op Res α) :
    (call op ok err).settle = ([], call op ok err) := rfl

@[simp] theorem settle_pure (a : α) : (pure a : Prog Op Res α).settle = ([], pure a) := rfl

@[simp] theorem settle_throw : (throw : Prog Op Res α).settle = ([], throw) := rfl

end Prog

end InvoiceHub.Effects
