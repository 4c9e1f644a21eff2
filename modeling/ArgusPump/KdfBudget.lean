import ArgusPump.MachineThrottle
import ArgusPump.Lib.Window

/-!
# The budget of derivations

The budget keeps the start of one window and one count, so what it bounds is each window of
its own.  A window that opens while derivations of the one before are still young lets an
interval hold more than the budget.

    every window opens when the derivations before it are a width old →
      every interval of the width holds at most the budget, and of sources that were not
      proven at most their share                                     (kdf_budget)
    two full windows on both sides of a boundary → 15 in one interval (budget_spent_twice)
-/

namespace Argus

open Interact Window

/-- When a call was admitted to derive. -/
def derivesAt (m : MachineAuthMove) : Option Nat :=
  match m.ev with
  | .admission _ nowUs .admitted => some nowUs.toNat
  | _ => none

/-- When a call of a source that was not proven was admitted to derive. -/
def unprovenAt (m : MachineAuthMove) : Option Nat :=
  match m.ev with
  | .admission peerKey nowUs .admitted =>
    if sourceIsProven m.pre.throttle.proven peerKey nowUs then none else some nowUs.toNat
  | _ => none

/-- Every interval of the window's width holds at most the budget, and at most the share of
sources that were not proven. -/
def KdfBounded (ms : List MachineAuthMove) : Prop :=
  Sliding derivesAt machineAuthKdfGlobalWindowUs.toNat machineAuthKdfGlobalBurst.toNat ms ∧
    Sliding unprovenAt machineAuthKdfGlobalWindowUs.toNat machineAuthKdfUnprovenBurst.toNat ms

/-- The call opens a window of the budget. -/
def opensWindow (m : MachineAuthMove) : Bool :=
  match m.ev with
  | .admission peerKey nowUs _ =>
    (throttleAdmit m.pre.throttle.buckets peerKey nowUs).1.isNone && m.pre.throttle.windowOver nowUs
  | .record .. => false

/-- No derivation of `ms` is younger than the width when the call is made. -/
def Spaced (ms : List MachineAuthMove) (m : MachineAuthMove) : Prop :=
  ∀ n ∈ ms, ∀ t ∈ derivesAt n, t + machineAuthKdfGlobalWindowUs.toNat ≤ m.post.clockUs.toNat

instance (ms : List MachineAuthMove) (m : MachineAuthMove) : Decidable (Spaced ms m) := by
  unfold Spaced
  infer_instance

theorem derivesAt_of_unprovenAt {m : MachineAuthMove} {t : Nat} (h : unprovenAt m = some t) :
    derivesAt m = some t := by
  unfold unprovenAt at h
  unfold derivesAt
  split at h
  · split at h
    · cases h
    · exact h
  · cases h

/-! ## The invariant -/

/-- The windows of the budget, as the statics count them: the whole budget and the share. -/
structure BudgetInv (ms : List MachineAuthMove) (throttle : MachineThrottle) (clockUs : UInt64) :
    Prop where
  window : throttle.kdfGlobalWindowUs ≤ clockUs
  spent : throttle.kdfGlobalSpent ≤ machineAuthKdfGlobalBurst
  derived : Fixed derivesAt machineAuthKdfGlobalWindowUs.toNat throttle.kdfGlobalWindowUs.toNat
    throttle.kdfGlobalSpent.toNat ms
  unproven : Fixed unprovenAt machineAuthKdfGlobalWindowUs.toNat throttle.kdfGlobalWindowUs.toNat
    (min throttle.kdfGlobalSpent.toNat machineAuthKdfUnprovenBurst.toNat) ms

namespace BudgetInv

variable {ms : List MachineAuthMove} {throttle throttle' : MachineThrottle} {clockUs nowUs : UInt64}
  {m : MachineAuthMove}

theorem start : BudgetInv [] .boot 0 := ⟨by decide, by decide, .nil, .nil⟩

/-- The window after `kdf_global_admit` has rolled it. -/
theorem roll (h : BudgetInv ms throttle clockUs) (hclock : clockUs ≤ nowUs)
    (hspaced : throttle.windowOver nowUs = true → ∀ n ∈ ms, ∀ t, derivesAt n = some t →
      t + machineAuthKdfGlobalWindowUs.toNat ≤ nowUs.toNat) :
    BudgetInv ms (throttle.rollWindow nowUs) nowUs := by
  unfold MachineThrottle.rollWindow
  split
  · next hover =>
    exact ⟨UInt64.le_refl _, show (0 : UInt32) ≤ 8 by decide, .open (hspaced hover),
      .open fun n hn t ht => hspaced hover n hn t (derivesAt_of_unprovenAt ht)⟩
  · exact ⟨UInt64.le_trans h.window hclock, h.spent, h.derived, h.unproven⟩

/-- A move that admits nothing, and at the most counts. -/
theorem quiet (h : BudgetInv ms throttle clockUs) (hm : derivesAt m = none)
    (hwindow : throttle'.kdfGlobalWindowUs = throttle.kdfGlobalWindowUs)
    (hspent : throttle'.kdfGlobalSpent ≤ machineAuthKdfGlobalBurst)
    (hle : throttle.kdfGlobalSpent.toNat ≤ throttle'.kdfGlobalSpent.toNat) :
    BudgetInv (ms ++ [m]) throttle' clockUs := by
  have hunproven : unprovenAt m = none := by
    cases h : unprovenAt m with
    | none => rfl
    | some t =>
      rw [derivesAt_of_unprovenAt h] at hm
      cases hm
  refine ⟨?_, hspent, ?_, ?_⟩
  · rw [hwindow]
    exact h.window
  · rw [hwindow]
    exact (h.derived.mono hle).snoc_none hm
  · rw [hwindow]
    exact (h.unproven.mono (min_le_min_right _ hle)).snoc_none hunproven

theorem spent_succ {peerKey : UInt32} (hlt : throttle.kdfGlobalSpent < throttle'.allowance peerKey nowUs) :
    (throttle.kdfGlobalSpent + 1).toNat = throttle.kdfGlobalSpent.toNat + 1 ∧
      throttle.kdfGlobalSpent + 1 ≤ machineAuthKdfGlobalBurst := by
  have hle : throttle'.allowance peerKey nowUs ≤ machineAuthKdfGlobalBurst := by
    unfold MachineThrottle.allowance
    split
    · decide
    · decide
  have hlt' := UInt32.lt_iff_toNat_lt.mp hlt
  have hle' := UInt32.le_iff_toNat_le.mp hle
  have hburst : machineAuthKdfGlobalBurst.toNat = 8 := rfl
  have hsucc : (throttle.kdfGlobalSpent + 1).toNat = throttle.kdfGlobalSpent.toNat + 1 := by
    rw [UInt32.toNat_add]
    exact Nat.mod_eq_of_lt (by show throttle.kdfGlobalSpent.toNat + 1 < 2 ^ 32; omega)
  refine ⟨hsucc, UInt32.le_iff_toNat_le.mpr ?_⟩
  omega

/-- A call that is counted: `m` is admitted, or is busy. -/
theorem count (h : BudgetInv ms throttle nowUs) {peerKey : UInt32}
    (hlt : throttle.kdfGlobalSpent < throttle'.allowance peerKey nowUs)
    (hm : derivesAt m = none ∨ derivesAt m = some nowUs.toNat ∧
      (unprovenAt m = none ∨ unprovenAt m = some nowUs.toNat ∧
        throttle'.allowance peerKey nowUs = machineAuthKdfUnprovenBurst))
    {next : MachineThrottle} (hwindow : next.kdfGlobalWindowUs = throttle.kdfGlobalWindowUs)
    (hspent : next.kdfGlobalSpent = throttle.kdfGlobalSpent + 1) :
    BudgetInv (ms ++ [m]) next nowUs := by
  obtain ⟨hsucc, hle⟩ := spent_succ hlt
  have hstart := UInt64.le_iff_toNat_le.mp h.window
  rcases hm with hnone | ⟨hsome, hunproven⟩
  · refine h.quiet hnone hwindow (hspent ▸ hle) ?_
    rw [hspent, hsucc]
    exact Nat.le_succ _
  · refine ⟨?_, hspent ▸ hle, ?_, ?_⟩
    · rw [hwindow]
      exact h.window
    · rw [hwindow, hspent, hsucc]
      exact h.derived.snoc hsome hstart
    · rw [hwindow, hspent, hsucc]
      rcases hunproven with hnone | ⟨hsome, hallowance⟩
      · exact (h.unproven.mono (min_le_min_right _ (Nat.le_succ _))).snoc_none hnone
      · rw [hallowance] at hlt
        have hlt' := UInt32.lt_iff_toNat_lt.mp hlt
        rw [min_eq_left hlt']
        rw [← min_eq_left (Nat.le_of_lt hlt')]
        exact h.unproven.snoc hsome hstart

/-- **Every step keeps the invariant**, if it opens a window only when the derivations before
are a width old. -/
theorem step {s t : MachineAuth} {ev : MachineAuthAct} (h : BudgetInv ms s.throttle s.clockUs)
    (hstep : MachineAuthStep s ev t) (hspaced : opensWindow ⟨s, ev, t⟩ = true → Spaced ms ⟨s, ev, t⟩) :
    BudgetInv (ms ++ [⟨s, ev, t⟩]) t.throttle t.clockUs := by
  cases hstep with
  | record hmem => exact h.quiet rfl rfl h.spent (Nat.le_refl _)
  | @admission peerKey nowUs answer throttle hclock _ hanswer =>
    have hroll (hnone : (throttleAdmit s.throttle.buckets peerKey nowUs).1 = none) :
        BudgetInv ms (s.throttle.rollWindow nowUs) nowUs :=
      h.roll hclock fun hover => hspaced (by
        show ((throttleAdmit s.throttle.buckets peerKey nowUs).1.isNone && _) = true
        rw [hnone]
        exact hover)
    cases MachineThrottle.admit_cases hanswer with
    | lockedOut _ =>
      have hlater : BudgetInv ms s.throttle nowUs :=
        ⟨UInt64.le_trans h.window hclock, h.spent, h.derived, h.unproven⟩
      exact hlater.quiet rfl rfl h.spent (Nat.le_refl _)
    | overBudget hnone _ => exact (hroll hnone).quiet rfl rfl (hroll hnone).spent (Nat.le_refl _)
    | busy hnone hlt _ => exact (hroll hnone).count hlt (.inl rfl) rfl rfl
    | admitted hnone hlt _ =>
      refine (hroll hnone).count hlt (.inr ⟨rfl, ?_⟩) rfl rfl
      unfold unprovenAt MachineThrottle.allowance
      dsimp only
      split
      · exact .inl rfl
      · exact .inr ⟨rfl, rfl⟩

/-- An interval that a move lies in holds nothing but the window it is counted in. -/
theorem bounded {s t : MachineAuth} {ev : MachineAuthAct} (hbounded : KdfBounded ms)
    (hstep : MachineAuthStep s ev t)
    (h : BudgetInv (ms ++ [⟨s, ev, t⟩]) t.throttle t.clockUs) : KdfBounded (ms ++ [⟨s, ev, t⟩]) := by
  have hspent := UInt32.le_iff_toNat_le.mp h.spent
  have hwindow := UInt64.le_iff_toNat_le.mp h.window
  have hclock {u : Nat} (hu : derivesAt ⟨s, ev, t⟩ = some u) : u = t.clockUs.toNat := by
    cases hstep with
    | record hmem => cases hu
    | @admission peerKey nowUs answer throttle _ _ _ =>
      cases answer with
      | admitted =>
        cases hu
        rfl
      | _ => cases hu
  constructor
  · cases hm : derivesAt ⟨s, ev, t⟩ with
    | none => exact hbounded.1.snoc_none hm
    | some u =>
      exact hbounded.1.snoc (h.derived.mono hspent) hm (hwindow.trans_eq (hclock hm).symm)
  · cases hm : unprovenAt ⟨s, ev, t⟩ with
    | none => exact hbounded.2.snoc_none hm
    | some u =>
      exact hbounded.2.snoc (h.unproven.mono (min_le_right _ _)) hm
        (hwindow.trans_eq (hclock (derivesAt_of_unprovenAt hm)).symm)

end BudgetInv

/-! ## Runs -/

/-- **The budget of derivations**, in a run where windows open late. -/
theorem kdf_budget {ms : List MachineAuthMove} (h : IsRun MachineAuthStep .boot ms)
    (hspaced : ∀ l m r, ms = l ++ m :: r → opensWindow m = true → Spaced l m) : KdfBounded ms := by
  have hinv : BudgetInv ms (final MachineAuth.boot ms).throttle (final MachineAuth.boot ms).clockUs ∧
      KdfBounded ms := by
    refine h.inv_past_of (I := fun s ms => BudgetInv ms s.throttle s.clockUs ∧ KdfBounded ms)
      (K := fun l m => opensWindow m = true → Spaced l m) ⟨.start, .nil, .nil⟩ hspaced ?_
    rintro ns m ⟨hinv, hbounded⟩ hstep hmet
    have hnext := hinv.step hstep hmet
    exact ⟨hnext, BudgetInv.bounded hbounded hstep hnext⟩
  exact hinv.2

/-- Two calls, each in a window of its own. -/
theorem kdf_budget_two_windows :
    KdfBounded (machineAuthTrace (wholeCall 1 1 true ++ wholeCall 1 10000001 true)) ∧
      (machineAuthTrace (wholeCall 1 1 true ++ wholeCall 1 10000001 true)).countP
        (fun m => (derivesAt m).isSome) = 2 := by
  refine ⟨kdf_budget (isRun_machineAuthTrace _) ?_, by decide +kernel⟩
  rw [forall_split_iff]
  decide +kernel

/-- **Full windows on both sides of a boundary.** -/
theorem budget_spent_twice :
    ¬ ∀ ms, IsRun MachineAuthStep .boot ms → KdfBounded ms := by
  intro h
  have hbounded := (h _ (isRun_machineAuthTrace (wholeCall 1 1 true ++
    (List.replicate 7 (wholeCall 1 10000000 true)).flatten ++
    (List.replicate 8 (wholeCall 1 10000001 true)).flatten))).1 10000000
  exact absurd hbounded (by decide +kernel)

end Argus
