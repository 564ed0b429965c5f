import InvoiceHub.Effects.Prog

/-!
# A program logic for interleaved programs

`Rules` describe the calls of an interface from the viewpoint of one program: how a call
may be answered, which calls may be rejected, and what must hold when a call is issued.
`wp L p Q s` says that `p`, started in `s`, issues every call in a state that allows it and
ends only in states satisfying `Q`.

The state of the rules is whatever the other programs cannot change behind `p`'s back.
With the one-point state this is rely/guarantee reasoning (`Guarded`); with the part of the
world that `p` owns it is reasoning about `p` running alone.  `Rules.among` is in between: the
other programs may change the state, but only along a given relation.
-/

namespace InvoiceHub.Effects

/-- Calls as seen by one program. -/
structure Rules (Op : Type) (Res : Op → Type) (ς : Type) where
  /-- `step op s r s'`: issued in `s`, the call may be answered by `r` and leave `s'`. -/
  step : (op : Op) → ς → Res op → ς → Prop
  /-- The calls that may be rejected. -/
  fails : Op → Prop
  /-- What must hold where a call is awaited. -/
  allow : Op → ς → Prop
  /-- What must hold where a call is started without being awaited. -/
  spawns : Op → ς → Prop

/-- The rules of `L` where the other programs may take the state along `R` before a call is
answered. -/
def Rules.among {Op : Type} {Res : Op → Type} {ς : Type} (L : Rules Op Res ς)
    (R : ς → ς → Prop) : Rules Op Res ς :=
  { L with step := fun op s r s' => ∃ s₁, R s s₁ ∧ L.step op s₁ r s' }

/-- What is allowed stays allowed along `R`. -/
structure Rules.Absorbs {Op : Type} {Res : Op → Type} {ς : Type} (L : Rules Op Res ς)
    (R : ς → ς → Prop) : Prop where
  trans : ∀ s s' s'', R s s' → R s' s'' → R s s''
  allow : ∀ op s s', R s s' → L.allow op s → L.allow op s'
  spawns : ∀ op s s', R s s' → L.spawns op s → L.spawns op s'

namespace Prog

variable {Op : Type} {Res : Op → Type} {ς α β : Type}

/-- `p`, started in `s`, keeps to the rules and ends in `Q`; a throw ends in `Q none`. -/
def wp (L : Rules Op Res ς) : Prog Op Res α → (Option α → ς → Prop) → ς → Prop
  | pure a, Q, s => Q (some a) s
  | throw, Q, s => Q none s
  | call op ok err, Q, s =>
    L.allow op s ∧ (∀ r s', L.step op s r s' → (ok r).wp L Q s') ∧ (L.fails op → err.wp L Q s)
  | spawn op next, Q, s => L.spawns op s ∧ next.wp L Q s

section Rules

variable {L : Rules Op Res ς} {Q : Option α → ς → Prop} {s : ς}

@[simp] theorem wp_pure (a : α) : (pure a : Prog Op Res α).wp L Q s ↔ Q (some a) s := Iff.rfl

@[simp] theorem wp_throw : (throw : Prog Op Res α).wp L Q s ↔ Q none s := Iff.rfl

@[simp] theorem wp_call (op : Op) (ok : Res op → Prog Op Res α) (err : Prog Op Res α) :
    (call op ok err).wp L Q s ↔
      L.allow op s ∧ (∀ r s', L.step op s r s' → (ok r).wp L Q s') ∧
        (L.fails op → err.wp L Q s) := Iff.rfl

@[simp] theorem wp_spawn (op : Op) (next : Prog Op Res α) :
    (spawn op next).wp L Q s ↔ L.spawns op s ∧ next.wp L Q s := Iff.rfl

/-- Sequencing: the second program starts where the first returned. -/
theorem wp_bind (p : Prog Op Res α) (f : α → Prog Op Res β) (R : Option β → ς → Prop) :
    ∀ s : ς, (p >>= f).wp L R s ↔
      p.wp L (fun o s => match o with | some a => (f a).wp L R s | none => R none s) s := by
  induction p with
  | pure a => intro s; rfl
  | throw => intro s; rfl
  | call op ok err ih ihe => intro s; simp only [call_bind, wp_call, ih, ihe]
  | spawn op next ih => intro s; simp only [spawn_bind, wp_spawn, ih]

/-- A handler takes over where the guarded program throws. -/
theorem wp_tryCatch (p h : Prog Op Res α) :
    ∀ s : ς, (p.tryCatch h).wp L Q s ↔
      p.wp L (fun o s => match o with | some a => Q (some a) s | none => h.wp L Q s) s := by
  induction p with
  | pure a => intro s; rfl
  | throw => intro s; rfl
  | call op ok err ih ihe => intro s; simp only [tryCatch, wp_call, ih, ihe]
  | spawn op next ih => intro s; simp only [tryCatch, wp_spawn, ih]

/-- The calls started on the way to the next await were allowed, and what stands there keeps
to the rules. -/
theorem wp_settle {p : Prog Op Res α} (h : p.wp L Q s) :
    (∀ op ∈ p.settle.1, L.spawns op s) ∧ p.settle.2.wp L Q s := by
  induction p with
  | pure a => exact ⟨by simp, h⟩
  | throw => exact ⟨by simp, h⟩
  | call op ok err => exact ⟨by simp, h⟩
  | spawn op next ih =>
    obtain ⟨h₁, h₂⟩ := ih h.2
    refine ⟨?_, h₂⟩
    intro op' hop
    rcases List.mem_cons.mp hop with rfl | hop
    · exact h.1
    · exact h₁ op' hop

end Rules

/-- A settled program awaits a call, has returned, or has thrown. -/
theorem settle_cases (p : Prog Op Res α) :
    (∃ op ok err, p.settle.2 = call op ok err) ∨ (∃ a, p.settle.2 = pure a) ∨
      p.settle.2 = throw := by
  induction p with
  | pure a => exact .inr (.inl ⟨a, rfl⟩)
  | throw => exact .inr (.inr rfl)
  | call op ok err => exact .inl ⟨op, ok, err, rfl⟩
  | spawn op next ih => exact ih

/-! ## Interference -/

section Among

variable {L : Rules Op Res ς} {R : ς → ς → Prop} {Q : Option α → ς → Prop}

/-- A program keeps to the rules after whatever the other programs do. -/
theorem wp_among (hL : L.Absorbs R) {s s' : ς} (hR : R s s') (hQ : ∀ o, Q o s → Q o s')
    {p : Prog Op Res α} (h : p.wp (L.among R) Q s) : p.wp (L.among R) Q s' := by
  induction p with
  | pure a => exact hQ _ h
  | throw => exact hQ _ h
  | call op ok err ih ihe =>
    obtain ⟨ha, hok, herr⟩ := h
    refine ⟨hL.allow op s s' hR ha, ?_, fun hf => ihe (herr hf)⟩
    rintro r s'' ⟨s₁, hs₁, hstep⟩
    exact hok r s'' ⟨s₁, hL.trans s s' s₁ hR hs₁, hstep⟩
  | spawn op next ih => exact ⟨hL.spawns op s s' hR h.1, ih h.2⟩

end Among

/-! ## Rely and guarantee -/

/-- If every answer satisfies `R`, every call that is awaited satisfies `G` and every call
that is started without being awaited satisfies `S`. -/
def Guarded (R : (op : Op) → Res op → Prop) (G S : Op → Prop) (p : Prog Op Res α) : Prop :=
  p.wp { step := fun op _ r _ => R op r, fails := fun _ => True,
         allow := fun op _ => G op, spawns := fun op _ => S op } (fun _ _ => True) ()

section Guarded

variable {R R' : (op : Op) → Res op → Prop} {G G' S S' : Op → Prop}

@[simp] theorem guarded_pure (a : α) : Guarded R G S (pure a : Prog Op Res α) := trivial

@[simp] theorem guarded_throw : Guarded R G S (throw : Prog Op Res α) := trivial

@[simp] theorem guarded_call (op : Op) (ok : Res op → Prog Op Res α) (err : Prog Op Res α) :
    Guarded R G S (call op ok err) ↔
      G op ∧ (∀ r, R op r → Guarded R G S (ok r)) ∧ Guarded R G S err :=
  ⟨fun h => ⟨h.1, fun r hr => h.2.1 r () hr, h.2.2 trivial⟩,
    fun h => ⟨h.1, fun r _ hr => h.2.1 r hr, fun _ => h.2.2⟩⟩

@[simp] theorem guarded_spawn (op : Op) (next : Prog Op Res α) :
    Guarded R G S (spawn op next) ↔ S op ∧ Guarded R G S next := Iff.rfl

theorem guarded_bind {p : Prog Op Res α} {f : α → Prog Op Res β} (hp : Guarded R G S p)
    (hf : ∀ a, Guarded R G S (f a)) : Guarded R G S (p >>= f) := by
  induction p with
  | pure a => exact hf a
  | throw => exact trivial
  | call op ok err ih ihe =>
    rw [guarded_call] at hp
    rw [call_bind, guarded_call]
    exact ⟨hp.1, fun r hr => ih r (hp.2.1 r hr), ihe hp.2.2⟩
  | spawn op next ih => exact ⟨hp.1, ih hp.2⟩

theorem guarded_tryCatch {p h : Prog Op Res α} (hp : Guarded R G S p) (hh : Guarded R G S h) :
    Guarded R G S (p.tryCatch h) := by
  induction p with
  | pure a => exact trivial
  | throw => exact hh
  | call op ok err ih ihe =>
    rw [guarded_call] at hp
    rw [tryCatch, guarded_call]
    exact ⟨hp.1, fun r hr => ih r (hp.2.1 r hr), ihe hp.2.2⟩
  | spawn op next ih => exact ⟨hp.1, ih hp.2⟩

/-- A stronger rely and weaker guarantees. -/
theorem Guarded.mono {p : Prog Op Res α} (h : Guarded R G S p)
    (hR : ∀ op r, R' op r → R op r) (hG : ∀ op, G op → G' op) (hS : ∀ op, S op → S' op) :
    Guarded R' G' S' p := by
  induction p with
  | pure a => exact trivial
  | throw => exact trivial
  | call op ok err ih ihe =>
    rw [guarded_call] at h ⊢
    exact ⟨hG op h.1, fun r hr => ih r (h.2.1 r (hR op r hr)), ihe h.2.2⟩
  | spawn op next ih => exact ⟨hS op h.1, ih h.2⟩

/-- A program under a larger interface, of whose calls only some may be issued. -/
theorem guarded_mapOp {Op' : Type} {Res' : Op' → Type} {R : (op : Op') → Res' op → Prop}
    {G S : Op' → Prop} {f : Op → Op'} {back : ∀ op, Res' (f op) → Res op}
    (hG : ∀ op, G (f op)) (hS : ∀ op, S (f op)) (p : Prog Op Res α) :
    Guarded R G S (p.mapOp f back) := by
  induction p with
  | pure a => exact trivial
  | throw => exact trivial
  | call op ok err ih ihe =>
    rw [mapOp, guarded_call]
    exact ⟨hG op, fun r _ => ih (back op r), ihe⟩
  | spawn op next ih => exact ⟨hS op, ih⟩

theorem Guarded.settle {p : Prog Op Res α} (h : Guarded R G S p) :
    (∀ op ∈ p.settle.1, S op) ∧ Guarded R G S p.settle.2 := wp_settle h

end Guarded

end Prog

end InvoiceHub.Effects
