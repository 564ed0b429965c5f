import InvoiceHub.Lifecycle.Exits
import Mathlib.Algebra.GroupWithZero.Nat

/-!
# A shutdown ends

Where retries are bounded, a process that has got a signal exits after a bounded number of steps,
if only what it awaits settles: every settling takes something off what is left to do
(`left_lt_of_fire`), and there is one to come until it exits (`Lived.awaits`).
-/

namespace InvoiceHub.Lifecycle

open Effects

variable {c : Config} {s s' : Process} {i j : Nat}

/-! ## What is left to do -/

/-- The last attempt. -/
def Number.bound : Number → Nat
  | nan => 0
  | finite value => value.floor.toNat
  | infinity _ => 0

theorem Number.le_bound {n : Number} (hn : n ≠ .infinity false) {attempt : Nat}
    (h : n.admits attempt = true) : attempt ≤ n.bound := by
  cases n with
  | nan => cases h
  | finite value =>
    have hle : (attempt : Rat) ≤ value := of_decide_eq_true h
    have hfloor : (attempt : Int) ≤ value.floor := Rat.le_floor_iff.mpr (by exact_mod_cast hle)
    exact Int.le_toNat (by omega) |>.mpr hfloor
  | infinity negative =>
    cases negative with
    | false => exact absurd rfl hn
    | true => cases h

/-- How many steps a retry may still take. -/
def Retry.left (bound : Nat) : Retry → Nat
  | calling attempt => 2 * (bound + 1 - attempt)
  | delaying attempt => 2 * (bound + 1 - attempt) - 1
  | resolved => 0
  | rejected => 0

/-- How many steps a shutdown may still take. -/
def ShutDown.left (c : Config) : ShutDown → Nat
  | closing => 1 + c.gracefulShutDownService.length * (2 * c.SHUTDOWN_RETRIES.bound)
  | disconnecting retries => (retries.map (Retry.left c.SHUTDOWN_RETRIES.bound)).sum

section Left

variable {bound attempt : Nat}

@[simp] theorem Retry.left_calling :
    (Retry.calling attempt).left bound = 2 * (bound + 1 - attempt) := rfl

@[simp] theorem Retry.left_delaying :
    (Retry.delaying attempt).left bound = 2 * (bound + 1 - attempt) - 1 := rfl

@[simp] theorem Retry.left_resolved : Retry.resolved.left bound = 0 := rfl

@[simp] theorem Retry.left_rejected : Retry.rejected.left bound = 0 := rfl

@[simp] theorem ShutDown.left_closing : ShutDown.closing.left c =
    1 + c.gracefulShutDownService.length * (2 * c.SHUTDOWN_RETRIES.bound) := rfl

@[simp] theorem ShutDown.left_disconnecting {retries : List Retry} :
    (ShutDown.disconnecting retries).left c =
      (retries.map (Retry.left c.SHUTDOWN_RETRIES.bound)).sum := rfl

end Left

/-- How many steps a process may still take, besides signals and errors that nothing catches. -/
def Process.left (c : Config) (s : Process) : Nat :=
  if s.exited = none then
    s.pending.length + (if s.started then 0 else 1) + (s.shutdowns.map (ShutDown.left c)).sum
  else 0

/-- Something that the process awaits. -/
def Label.isAwaited : Label → Bool
  | .signal => false
  | .uncaught => false
  | _ => true

theorem sum_set {f : α → Nat} {l : List α} {a b : α} (h : l[i]? = some a) :
    ((l.set i b).map f).sum + f a = (l.map f).sum + f b := by
  induction l generalizing i with
  | nil => cases h
  | cons x xs ih =>
    cases i with
    | zero =>
      cases h
      simp only [List.set_cons_zero, List.map_cons, List.sum_cons]
      omega
    | succ i =>
      have hrest := ih h
      simp only [List.set_cons_succ, List.map_cons, List.sum_cons]
      omega

/-- A shutdown goes on with less to do. -/
theorem left_goOn (hnone : s.exited = none) {stage : ShutDown} {retries : List Retry}
    (hstage : s.shutdowns[i]? = some stage)
    (hlt : (ShutDown.disconnecting retries).left c < stage.left c) :
    (goOn s i retries).left c < s.left c := by
  have hsum := sum_set (f := ShutDown.left c) (b := .disconnecting retries) hstage
  have hnext : (goOn s i retries).left c = if (goOn s i retries).exited = none then
      s.pending.length + (if s.started then 0 else 1) +
        ((s.shutdowns.set i (.disconnecting retries)).map (ShutDown.left c)).sum
      else 0 := rfl
  rw [hnext, Process.left, if_pos hnone]
  split <;> omega

/-- A retry goes on with less to do. -/
theorem left_retried (hnone : s.exited = none) {retries : List Retry} {old retry : Retry}
    (hstage : s.shutdowns[i]? = some (.disconnecting retries)) (hold : retries[j]? = some old)
    (hlt : retry.left c.SHUTDOWN_RETRIES.bound < old.left c.SHUTDOWN_RETRIES.bound) :
    (goOn s i (retries.set j retry)).left c < s.left c := by
  refine left_goOn hnone hstage ?_
  have hsum := sum_set (f := Retry.left c.SHUTDOWN_RETRIES.bound) (b := retry) hold
  simp only [ShutDown.left_disconnecting]
  omega

theorem left_attempted (attempts : Nat) :
    (attempted c (attempts + 1)).left c.SHUTDOWN_RETRIES.bound ≤
      2 * (c.SHUTDOWN_RETRIES.bound - attempts) := by
  unfold attempted
  split
  · rw [Retry.left_calling]
    omega
  · exact Nat.zero_le _

theorem left_disconnectServices (hnone : s.exited = none)
    (hstage : s.shutdowns[i]? = some .closing) :
    (disconnectServices c s i).left c < s.left c := by
  refine left_goOn (s := note s _) hnone hstage ?_
  have hfirst := left_attempted (c := c) 0
  have hsum : ((c.gracefulShutDownService.map fun _ => attempted c 1).map
      (Retry.left c.SHUTDOWN_RETRIES.bound)).sum =
        c.gracefulShutDownService.length * (attempted c 1).left c.SHUTDOWN_RETRIES.bound := by
    simp [List.map_const']
  calc (ShutDown.disconnecting (c.gracefulShutDownService.map fun _ => attempted c 1)).left c
      = c.gracefulShutDownService.length * (attempted c 1).left c.SHUTDOWN_RETRIES.bound := hsum
    _ ≤ c.gracefulShutDownService.length * (2 * c.SHUTDOWN_RETRIES.bound) :=
      Nat.mul_le_mul_left _ hfirst
    _ < ShutDown.closing.left c := by
      rw [ShutDown.left_closing]
      omega

/-! ## Steps -/

/-- The attempt that a retry has come to. -/
def Retry.attempt? : Retry → Option Nat
  | calling attempt => some attempt
  | delaying attempt => some attempt
  | resolved => none
  | rejected => none

/-- It is not past the last one. -/
theorem Lived.attempt_le (h : Lived c s) (hn : c.SHUTDOWN_RETRIES ≠ .infinity false)
    {retries : List Retry} (hstage : s.shutdowns[i]? = some (.disconnecting retries))
    {retry : Retry} (hretry : retries[j]? = some retry) {attempt : Nat}
    (ha : retry.attempt? = some attempt) :
    attempt ≤ c.SHUTDOWN_RETRIES.bound := by
  have hok := (h.disconnecting i retries hstage).2.2 j retry hretry
  have hcalls : calls s.history i j = attempt := by
    cases retry with
    | calling attempt' =>
      cases ha
      exact (hok.calling attempt rfl).1
    | delaying attempt' =>
      cases ha
      exact (hok.delaying attempt rfl).1
    | resolved => cases ha
    | rejected => cases ha
  rcases h.admitted i j with hzero | hadmits
  · omega
  · exact hcalls ▸ Number.le_bound hn hadmits

/-- Each step of what is awaited leaves less to do. -/
theorem left_lt_of_fire (h : Lived c s) (hn : c.SHUTDOWN_RETRIES ≠ .infinity false) {label : Label}
    (ha : label.isAwaited = true) (hf : fire c s label = some s') : s'.left c < s.left c := by
  unfold fire at hf
  split at hf
  · cases hf
  rename_i hexited
  have hnone : s.exited = none := not_not.mp hexited
  cases label with
  | initialized =>
    dsimp only at hf
    split at hf
    · rename_i component pending hpending
      cases hf
      have hnext : (note { s with pending } [.initialized component]).left c =
          if s.exited = none then pending.length + (if s.started then 0 else 1) +
            (s.shutdowns.map (ShutDown.left c)).sum else 0 := rfl
      rw [hnext, Process.left, if_pos hnone, if_pos hnone, hpending, List.length_cons]
      omega
    · cases hf
  | startFailed =>
    dsimp only at hf
    split at hf
    · cases hf
    · rename_i hs
      cases hf
      rw [Process.left, Process.left, if_pos hnone, if_neg hs]
      exact Nat.lt_of_lt_of_le (Nat.zero_lt_one) (by omega)
  | listen =>
    dsimp only at hf
    split at hf
    · rename_i hstart
      cases hf
      have hnext : ({ s with started := true, listening := true } : Process).left c =
          if s.exited = none then s.pending.length + 0 +
            (s.shutdowns.map (ShutDown.left c)).sum else 0 := rfl
      rw [hnext, Process.left, if_pos hnone, if_pos hnone, hstart.2]
      simp
    · cases hf
  | signal => cases ha
  | uncaught => cases ha
  | close i ok =>
    dsimp only at hf
    split at hf
    · rename_i hstage
      split at hf
      · cases hf
        exact left_disconnectServices hnone hstage
      · cases hf
        have hpos : 0 < (s.shutdowns.map (ShutDown.left c)).sum := by
          refine List.sum_pos_iff_exists_pos_nat.mpr ⟨_, List.mem_map_of_mem
            (List.mem_of_getElem? hstage), ?_⟩
          rw [ShutDown.left_closing]
          omega
        rw [Process.left, Process.left, if_pos hnone]
        exact Nat.lt_of_lt_of_le hpos (Nat.le_add_left _ _)
    · cases hf
  | settle i j ok =>
    dsimp only at hf
    split at hf
    · rename_i retries hstage
      split at hf
      · rename_i attempt hretry
        have hle := h.attempt_le hn hstage hretry rfl
        split at hf
        · cases hf
          refine left_retried (s := note s _) hnone hstage hretry ?_
          rw [Retry.left_calling, Retry.left_resolved]
          omega
        · cases hf
          refine left_retried (s := note s _) hnone hstage hretry ?_
          unfold failedAt
          split <;> simp only [Retry.left_calling, Retry.left_delaying, Retry.left_rejected] <;>
            omega
      · cases hf
    · cases hf
  | delayed i j =>
    dsimp only at hf
    split at hf
    · rename_i retries hstage
      split at hf
      · rename_i attempt hretry
        cases hf
        have hle := h.attempt_le hn hstage hretry rfl
        refine left_retried (s := note s _) hnone hstage hretry ?_
        have hnext := left_attempted (c := c) attempt
        rw [Retry.left_delaying]
        omega
      · cases hf
    · cases hf

/-- While a process shuts down, there is something that it awaits. -/
theorem Lived.awaits (h : Lived c s) (hnone : s.exited = none) (hshutdowns : s.shutdowns ≠ []) :
    ∃ label : Label, label.isAwaited = true ∧ (Lifecycle.fire c s label).isSome = true := by
  have hfire : ∀ label, Lifecycle.fire c s label = _ := fun label => if_neg (not_not.mpr hnone)
  obtain ⟨stage, hmem⟩ := List.exists_mem_of_ne_nil _ hshutdowns
  obtain ⟨i, hstage⟩ := List.getElem?_of_mem hmem
  cases stage with
  | closing =>
    refine ⟨.close i true, rfl, ?_⟩
    rw [hfire]
    dsimp only
    rw [hstage]
    rfl
  | disconnecting retries =>
    obtain ⟨hrejected, retry, hretry, hresolved⟩ := h.running hnone i retries hstage
    obtain ⟨j, hj⟩ := List.getElem?_of_mem hretry
    cases retry with
    | calling attempt =>
      refine ⟨.settle i j true, rfl, ?_⟩
      rw [hfire]
      dsimp only
      rw [hstage]
      dsimp only
      rw [hj]
      rfl
    | delaying attempt =>
      refine ⟨.delayed i j, rfl, ?_⟩
      rw [hfire]
      dsimp only
      rw [hstage]
      dsimp only
      rw [hj]
      rfl
    | resolved => exact absurd rfl hresolved
    | rejected => exact absurd hretry hrejected

/-- A shutdown is not forgotten. -/
theorem shutdowns_of_fire {label : Label} (hf : fire c s label = some s')
    (hne : s.shutdowns ≠ []) : s'.shutdowns ≠ [] := by
  have hset : ∀ (i : Nat) stage, s.shutdowns.set i stage ≠ [] :=
    fun i stage => by simpa using hne
  unfold fire at hf
  split at hf
  · cases hf
  cases label with
  | initialized =>
    dsimp only at hf
    split at hf <;> cases hf
    exact hne
  | startFailed =>
    dsimp only at hf
    split at hf <;> cases hf
    exact hne
  | listen =>
    dsimp only at hf
    split at hf <;> cases hf
    exact hne
  | signal =>
    dsimp only at hf
    split at hf <;> cases hf
    · unfold shutDown
      split
      · exact List.append_ne_nil_of_left_ne_nil hne _
      · simp [disconnectServices, goOn, note]
    · exact hne
  | uncaught =>
    cases hf
    exact hne
  | close i ok =>
    dsimp only at hf
    split at hf
    · split at hf <;> cases hf
      · exact hset i _
      · exact hne
    · cases hf
  | settle i j ok =>
    dsimp only at hf
    split at hf
    · split at hf
      · split at hf <;> cases hf <;> exact hset i _
      · cases hf
    · cases hf
  | delayed i j =>
    dsimp only at hf
    split at hf
    · split at hf
      · cases hf
        exact hset i _
      · cases hf
    · cases hf

/-! ## Runs -/

/-- A run of what is awaited. -/
theorem Lived.run (hn : c.SHUTDOWN_RETRIES ≠ .infinity false) (labels : List Label) :
    ∀ {s : Process}, Lived c s → s.shutdowns ≠ [] →
      (machine c).run (fun _ label => label.isAwaited) s labels = some s' →
      Lived c s' ∧ s'.shutdowns ≠ [] ∧ labels.length + s'.left c ≤ s.left c := by
  induction labels with
  | nil =>
    intro s h hne hrun
    cases hrun
    exact ⟨h, hne, (Nat.zero_add _).le⟩
  | cons label labels ih =>
    intro s h hne hrun
    rw [Machine.run] at hrun
    split at hrun
    · rename_i ha
      obtain ⟨next, hf, hrun⟩ := Option.bind_eq_some_iff.mp hrun
      have hlt := left_lt_of_fire h hn ha hf
      obtain ⟨h', hne', hle⟩ := ih (h.fire hf) (shutdowns_of_fire hf hne) hrun
      refine ⟨h', hne', ?_⟩
      rw [List.length_cons]
      omega
    · cases hrun

/-- Unless it retries without end, a process that handles a signal exits after at most `left` steps
of what it awaits, and until then there is always such a step. -/
theorem shutdown_ends (hn : c.SHUTDOWN_RETRIES ≠ .infinity false)
    (hs : (machine c).Reachable (fun _ _ => true) s) (hne : s.shutdowns ≠ []) {labels : List Label}
    (hrun : (machine c).run (fun _ label => label.isAwaited) s labels = some s') :
    labels.length ≤ s.left c ∧ (s'.exited = none →
      ∃ label : Label, label.isAwaited = true ∧ (fire c s' label).isSome = true) := by
  obtain ⟨h', hne', hle⟩ := Lived.run hn labels (lived_reachable hs) hne hrun
  exact ⟨by omega, fun hnone => h'.awaits hnone hne'⟩

/-- A second signal comes while the server still closes. -/
def signalledTwice : List Label :=
  List.replicate 6 .initialized ++ [.listen, .signal, .signal]

/-- What is awaited then; one disconnection has to be retried. -/
def disconnectedAll : List Label :=
  [.settle 1 0 true, .settle 1 1 false, .settle 1 2 true, .settle 1 3 true, .delayed 1 1,
   .settle 1 1 true]

theorem shutdown_ends_signalledTwice :
    ∃ s s', (machine orderApp).run (fun _ _ => true) (machine orderApp).initial signalledTwice =
        some s ∧
      (machine orderApp).run (fun _ label => label.isAwaited) s disconnectedAll = some s' ∧
      s'.exited = some (.code 0) ∧ .closed 0 ∉ s'.history ∧
      disconnectedAll.length ≤ s.left orderApp := by
  have hrun : ((machine orderApp).run (fun _ _ => true) (machine orderApp).initial
      signalledTwice).any (fun s => s.shutdowns ≠ [] ∧
        ((machine orderApp).run (fun _ label => label.isAwaited) s disconnectedAll).any (fun s' =>
          s'.exited = some (.code 0) ∧ .closed 0 ∉ s'.history) = true) = true := by
    decide +kernel
  obtain ⟨s, hs, hfound⟩ := (Option.any_eq_true _ _).mp hrun
  obtain ⟨hne, hfound⟩ := of_decide_eq_true hfound
  obtain ⟨s', hs', hfound⟩ := (Option.any_eq_true _ _).mp hfound
  obtain ⟨hexited, hclosing⟩ := of_decide_eq_true hfound
  exact ⟨s, s', hs, hs', hexited, hclosing,
    (shutdown_ends (by decide) (Machine.run_steps signalledTwice hs) hne hs').1⟩

end InvoiceHub.Lifecycle
