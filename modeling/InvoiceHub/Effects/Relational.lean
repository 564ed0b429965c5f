import InvoiceHub.Effects.Pool

/-!
# Two programs in step

`InStep` relates two programs that issue matching calls and, as long as the answers match, go on
in step.  If matching calls keep two worlds related, so do the two programs, each running alone.
-/

namespace InvoiceHub.Effects

variable {σ σ' ι Tag Op : Type} {Res : Op → Type} {α β γ δ : Type}

namespace Prog

/-! ## Running alone -/

/-- Run a program to its end with nothing else running; a call that is started without being
awaited is answered at once.  `choices` are made one a call. -/
def alone (background : Tag → Op → Tag) (perform : Perform σ ι Tag Op Res) (tag : Tag) :
    Prog Op Res α → (Nat → ι) → σ → σ
  | pure _, _, world => world
  | throw, _, world => world
  | call op ok _, choices, world =>
    (ok (perform tag (choices 0) op world).1).alone background perform tag
      (fun n => choices (n + 1)) (perform tag (choices 0) op world).2
  | spawn op next, choices, world =>
    next.alone background perform tag (fun n => choices (n + 1))
      (perform (background tag op) (choices 0) op world).2

/-- In a pool where nothing else runs, a program can run as it runs alone. -/
theorem advances_alone {background : Tag → Op → Tag} {perform : Perform σ ι Tag Op Res}
    {tag : Tag} (p : Prog Op Res Unit) :
    ∀ (choices : Nat → ι) (world : σ),
      Relation.ReflTransGen
        (fun s s' => ∃ j choice, Pool.advance background perform s j choice = some s')
        ⟨world, Task.launch background tag p⟩
        ⟨p.alone background perform tag choices world, []⟩ := by
  induction p with
  | pure a => exact fun _ _ => .refl
  | throw => exact fun _ _ => .refl
  | call op ok err ih _ =>
    intro choices world
    refine .head ⟨0, choices 0, ?_⟩ (ih _ _ _)
    simp [Pool.advance, Task.launch, Pool.replace, Waiting]
  | spawn op next ih =>
    intro choices world
    have hend : (pure () : Prog Op Res Unit).Waiting = false := rfl
    by_cases hw : next.settle.2.Waiting = true
    · refine .head ⟨1, choices 0, ?_⟩ (ih _ _)
      simp [Pool.advance, Pool.replace, Task.launch, hw, hend]
    · refine .head ⟨0, choices 0, ?_⟩ (ih _ _)
      simp [Pool.advance, Pool.replace, Task.launch, hw, hend]

/-! ## Programs in step -/

/-- The two programs issue calls related by `C`; where the answers are related by `A` they go on
in step, and the results are related by `R`. -/
inductive InStep (C : Op → Op → Prop) (A : (op op' : Op) → Res op → Res op' → Prop)
    (R : α → β → Prop) : Prog Op Res α → Prog Op Res β → Prop where
  | pure {a : α} {b : β} : R a b → InStep C A R (pure a) (pure b)
  | throw : InStep C A R throw throw
  | call {op op' : Op} {ok : Res op → Prog Op Res α} {ok' : Res op' → Prog Op Res β}
      {err : Prog Op Res α} {err' : Prog Op Res β} : C op op' →
      (∀ r r', A op op' r r' → InStep C A R (ok r) (ok' r')) → InStep C A R err err' →
      InStep C A R (call op ok err) (call op' ok' err')
  | spawn {op op' : Op} {next : Prog Op Res α} {next' : Prog Op Res β} : C op op' →
      InStep C A R next next' → InStep C A R (spawn op next) (spawn op' next')

section InStep

variable {C : Op → Op → Prop} {A : (op op' : Op) → Res op → Res op' → Prop} {R : α → β → Prop}
  {S : γ → δ → Prop} {p : Prog Op Res α} {p' : Prog Op Res β}

theorem InStep.bind (h : InStep C A R p p') {f : α → Prog Op Res γ} {f' : β → Prog Op Res δ}
    (hf : ∀ a b, R a b → InStep C A S (f a) (f' b)) : InStep C A S (p >>= f) (p' >>= f') := by
  induction h with
  | pure hR => exact hf _ _ hR
  | throw => exact .throw
  | call hC _ _ ih ihe => exact .call hC ih ihe
  | spawn hC _ ih => exact .spawn hC ih

theorem InStep.tryCatch (h : InStep C A R p p') {q : Prog Op Res α} {q' : Prog Op Res β}
    (hq : InStep C A R q q') : InStep C A R (p.tryCatch q) (p'.tryCatch q') := by
  induction h with
  | pure hR => exact .pure hR
  | throw => exact hq
  | call hC _ _ ih ihe => exact .call hC ih ihe
  | spawn hC _ ih => exact .spawn hC ih

/-- Worlds that matching calls keep related are related after the two programs. -/
theorem InStep.alone (h : InStep C A R p p') {background background' : Tag → Op → Tag}
    {perform : Perform σ ι Tag Op Res} {perform' : Perform σ' ι Tag Op Res} {W : σ → σ' → Prop}
    (hstep : ∀ tag tag' choice choice' op op' w w', C op op' → W w w' →
      A op op' (perform tag choice op w).1 (perform' tag' choice' op' w').1 ∧
        W (perform tag choice op w).2 (perform' tag' choice' op' w').2) {tag tag' : Tag} :
    ∀ (choices choices' : Nat → ι) (w : σ) (w' : σ'), W w w' →
      W (p.alone background perform tag choices w)
        (p'.alone background' perform' tag' choices' w') := by
  induction h with
  | pure _ => exact fun _ _ _ _ hW => hW
  | throw => exact fun _ _ _ _ hW => hW
  | call hC _ _ ih _ =>
    intro choices choices' w w' hW
    obtain ⟨hA, hW'⟩ := hstep tag tag' (choices 0) (choices' 0) _ _ w w' hC hW
    exact ih _ _ hA _ _ _ _ hW'
  | spawn hC _ ih =>
    intro choices choices' w w' hW
    exact ih _ _ _ _ (hstep _ _ (choices 0) (choices' 0) _ _ w w' hC hW).2

end InStep

end Prog

end InvoiceHub.Effects
