import Mathlib.Data.List.Basic

/-!
# Properties of histories

A history is a list, oldest entry first.  `AtEach P` says `P` of every entry and of what came
before it, so that it speaks about causes and about the order of entries.
-/

namespace InvoiceHub.Effects

variable {α : Type}

/-- Each entry, with what came before it, satisfies `P`. -/
def AtEach (P : List α → α → Prop) (history : List α) : Prop :=
  ∀ past entry rest, history = past ++ entry :: rest → P past entry

/-- A history that grows keeps the property if the new entry satisfies it. -/
theorem atEach_concat {P : List α → α → Prop} {history : List α} {entry : α} :
    AtEach P (history ++ [entry]) ↔ AtEach P history ∧ P history entry := by
  constructor
  · intro h
    refine ⟨fun past e rest he => h past e (rest ++ [entry]) ?_, h history entry [] rfl⟩
    rw [he, List.append_assoc, List.cons_append]
  · rintro ⟨h, hlast⟩ past e rest he
    rcases List.eq_nil_or_concat rest with rfl | ⟨rest', x, rfl⟩
    · obtain ⟨rfl, hx⟩ := List.append_inj' he rfl
      cases hx
      exact hlast
    · rw [List.concat_eq_append, ← List.cons_append, ← List.append_assoc] at he
      obtain ⟨rfl, -⟩ := List.append_inj' he rfl
      exact h past e rest' rfl

end InvoiceHub.Effects
