import Mathlib.Logic.Relation

/-!
# Runs of a labelled machine

A machine fires labels, each where it is enabled.  A policy says which labels may occur in a
state; a theorem about all runs of some kind is one about the states reachable under the policy
of that kind, by `Reachable.induction`, or about a run of labels, by `run_induction`.
-/

namespace InvoiceHub.Effects

/-- A state to start from, and what each label does where it is enabled. -/
structure Machine (State Label : Type) where
  initial : State
  fire : State → Label → Option State

namespace Machine

variable {State Label : Type} {m : Machine State Label}

/-- Which labels may occur in a state. -/
abbrev Policy (_ : Machine State Label) := State → Label → Bool

/-- One step of a run under a policy. -/
def Step (m : Machine State Label) (policy : m.Policy) (s s' : State) : Prop :=
  ∃ label, policy s label = true ∧ m.fire s label = some s'

/-- The states of the runs under a policy. -/
def Reachable (m : Machine State Label) (policy : m.Policy) : State → Prop :=
  Relation.ReflTransGen (m.Step policy) m.initial

variable {policy policy' : m.Policy} {s s' : State}

/-- An invariant of all runs. -/
theorem Reachable.induction {P : State → Prop} (h0 : P m.initial)
    (hstep : ∀ s s', m.Reachable policy s → P s → m.Step policy s s' → P s')
    (h : m.Reachable policy s) : P s := by
  induction h with
  | refl => exact h0
  | tail hs hst ih => exact hstep _ _ hs ih hst

/-- A run under a larger policy. -/
theorem Reachable.mono (hp : ∀ s label, policy s label = true → policy' s label = true)
    (h : m.Reachable policy s) : m.Reachable policy' s := by
  induction h with
  | refl => exact .refl
  | tail _ hst ih =>
    obtain ⟨label, hl, hf⟩ := hst
    exact ih.tail ⟨label, hp _ label hl, hf⟩

/-- One more step. -/
theorem Reachable.fire (h : m.Reachable policy s) {label : Label} (hp : policy s label = true)
    (hf : m.fire s label = some s') : m.Reachable policy s' :=
  h.tail ⟨label, hp, hf⟩

/-- Fire labels one after the other, each where the policy allows it. -/
def run (m : Machine State Label) (policy : m.Policy) (s : State) : List Label → Option State
  | [] => some s
  | label :: labels =>
    if policy s label then (m.fire s label).bind fun s' => m.run policy s' labels else none

theorem run_cons {label : Label} (hp : policy s label = true) (hf : m.fire s label = some s')
    (labels : List Label) : m.run policy s (label :: labels) = m.run policy s' labels := by
  rw [run, if_pos hp, hf, Option.bind_some]

/-- `P` holds of every step of the run that fires `labels`. -/
def Throughout (m : Machine State Label) (P : State → Label → Prop) : State → List Label → Prop
  | _, [] => True
  | s, label :: labels => ∀ s', m.fire s label = some s' → P s label ∧ m.Throughout P s' labels

/-- What comes to the same in every state of a run comes to the same throughout it. -/
theorem throughout_congr {P Q : State → Label → Prop}
    (h : ∀ s label, m.Reachable (fun _ _ => true) s → (P s label ↔ Q s label))
    (labels : List Label) : ∀ s, m.Reachable (fun _ _ => true) s →
      (m.Throughout P s labels ↔ m.Throughout Q s labels) := by
  induction labels with
  | nil => exact fun _ _ => Iff.rfl
  | cons label labels ih =>
    intro s hs
    refine forall_congr' fun s' => forall_congr' fun hf => ?_
    exact and_congr (h s label hs) (ih s' (hs.fire rfl hf))

/-- What holds of all labels of a run holds of its steps. -/
theorem throughout_and {P : State → Label → Prop} {R : Label → Prop} (labels : List Label)
    (hR : ∀ label ∈ labels, R label) : ∀ s, m.Throughout P s labels →
      m.Throughout (fun s label => P s label ∧ R label) s labels := by
  induction labels with
  | nil => exact fun _ _ => trivial
  | cons label labels ih =>
    intro s h s' hf
    obtain ⟨hp, hrest⟩ := h s' hf
    exact ⟨⟨hp, hR label List.mem_cons_self⟩,
      ih (fun label hmem => hR label (List.mem_cons_of_mem _ hmem)) s' hrest⟩

/-- A run whose steps satisfy `P` keeps an invariant that `P` preserves, and whatever follows from
both. -/
theorem throughout_of_invariant {P Q : State → Label → Prop} {I : State → Prop}
    (hI : ∀ s label s', I s → P s label → m.fire s label = some s' → I s')
    (hQ : ∀ s label s', I s → P s label → m.fire s label = some s' → Q s label)
    (labels : List Label) : ∀ s, I s → m.Throughout P s labels → m.Throughout Q s labels := by
  induction labels with
  | nil => exact fun _ _ _ => trivial
  | cons label labels ih =>
    intro s hs h s' hf
    obtain ⟨hp, hrest⟩ := h s' hf
    exact ⟨hQ s label s' hs hp hf, ih s' (hI s label s' hs hp hf) hrest⟩

/-- Two properties of steps that agree where an invariant holds, which the first one keeps. -/
theorem throughout_iff_of_invariant {P Q : State → Label → Prop} {I : State → Prop}
    (hI : ∀ s label s', I s → P s label → m.fire s label = some s' → I s')
    (hPQ : ∀ s label s', I s → m.fire s label = some s' → (P s label ↔ Q s label))
    (labels : List Label) :
    ∀ s, I s → (m.Throughout P s labels ↔ m.Throughout Q s labels) := by
  induction labels with
  | nil => exact fun _ _ => Iff.rfl
  | cons label labels ih =>
    intro s hs
    refine forall_congr' fun s' => forall_congr' fun hf => ?_
    constructor
    · rintro ⟨hp, hrest⟩
      exact ⟨(hPQ s label s' hs hf).mp hp, (ih s' (hI s label s' hs hp hf)).mp hrest⟩
    · rintro ⟨hq, hrest⟩
      have hp := (hPQ s label s' hs hf).mpr hq
      exact ⟨hp, (ih s' (hI s label s' hs hp hf)).mpr hrest⟩

/-- A run that fires all its labels under a policy satisfies it throughout. -/
theorem throughout_run (labels : List Label) :
    ∀ s, (m.run policy s labels).isSome = true →
      m.Throughout (fun s label => policy s label = true) s labels := by
  induction labels with
  | nil => exact fun _ _ => trivial
  | cons label labels ih =>
    intro s h s' hf
    unfold run at h
    split at h
    · rename_i hp
      rw [hf] at h
      exact ⟨hp, ih s' h⟩
    · cases h

/-- A run that satisfies a policy throughout fires its labels under it. -/
theorem isSome_run_of_throughout (labels : List Label) :
    ∀ s, m.Throughout (fun s label => policy s label = true) s labels →
      (m.run (fun _ _ => true) s labels).isSome = true →
      (m.run policy s labels).isSome = true := by
  induction labels with
  | nil => exact fun _ _ _ => rfl
  | cons label labels ih =>
    intro s h hr
    unfold run at hr ⊢
    rw [if_pos rfl] at hr
    cases hf : m.fire s label with
    | none =>
      rw [hf] at hr
      cases hr
    | some s' =>
      rw [hf] at hr
      rw [if_pos (h s' hf).1]
      exact ih s' (h s' hf).2 hr

theorem run_steps (labels : List Label) :
    ∀ {s s' : State}, m.run policy s labels = some s' →
      Relation.ReflTransGen (m.Step policy) s s' := by
  induction labels with
  | nil =>
    intro s s' h
    cases h
    exact .refl
  | cons label labels ih =>
    intro s s' h
    unfold run at h
    split at h
    · rename_i hp
      obtain ⟨next, hnext, hrest⟩ := Option.bind_eq_some_iff.mp h
      exact .head ⟨label, hp, hnext⟩ (ih hrest)
    · cases h

/-- An invariant of states and of the labels that led to them. -/
theorem run_induction {P : List Label → State → Prop} (h0 : P [] s)
    (hstep : ∀ past s label s', P past s → policy s label = true → m.fire s label = some s' →
      P (past ++ [label]) s') {labels : List Label} (h : m.run policy s labels = some s') :
    P labels s' := by
  have hrun : ∀ labels past s, P past s → m.run policy s labels = some s' →
      P (past ++ labels) s' := by
    intro labels
    induction labels with
    | nil =>
      intro past s hP h
      cases h
      rw [List.append_nil]
      exact hP
    | cons label labels ih =>
      intro past s hP h
      unfold run at h
      split at h
      · rename_i hp
        obtain ⟨next, hnext, hrest⟩ := Option.bind_eq_some_iff.mp h
        have hend := ih _ next (hstep past s label next hP hp hnext) hrest
        rwa [List.append_assoc] at hend
      · cases h
  exact hrun labels [] s h0 h

theorem reachable_run (labels : List Label)
    (h : (m.run policy m.initial labels).isSome = true) :
    m.Reachable policy ((m.run policy m.initial labels).get h) :=
  run_steps labels (Option.some_get h).symm

end Machine

end InvoiceHub.Effects
