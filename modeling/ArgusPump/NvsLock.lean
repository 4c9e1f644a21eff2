import ArgusPump.NvsDurable
import ArgusPump.Lib.Run

/-!
# The provisioning lock over the life of a device

Boots, commits and power losses in any order, with driver writes that may fail
(`NvsStep`); nothing here is a factory reset.  The marker is written before the selector
and only with the identity bit, so once it is locked it stays locked, and every boot
locks the configuration it takes (`Sealed.step`).  A commit puts its own flags in the
core, without the marker's: a commit that drops the bit reopens the identity until the
next boot.
-/

namespace Argus

open Interact NvsStore

/-- The stored data and, while the firmware runs, its core. -/
structure NvsDevice where
  store : NvsStore
  core : Option NvsCore

inductive NvsAct
  | init
  | commit (inCfg : ConfigPayload) (err : EspErr)
  | powerLoss

/-- A boot or a re-initialisation, a commit and what it returns, or either of them
cut off. -/
inductive NvsStep : NvsDevice → NvsAct → NvsDevice → Prop
  | init {d : NvsDevice} {tr : List (Σ q, NvsCall.Answer q)} {err : EspErr} {core : NvsCore}
      {t : NvsStore} :
      Prog.Exec Call NvsCore.init d.store tr (err, core) t → NvsStep d .init ⟨t, some core⟩
  | initCut {d : NvsDevice} {t : NvsStore} :
      Prog.Crash Call Cut NvsCore.init d.store t → NvsStep d .powerLoss ⟨t, none⟩
  | commit {d : NvsDevice} {core next : NvsCore} {inCfg : ConfigPayload}
      {tr : List (Σ q, NvsCall.Answer q)} {err : EspErr} {t : NvsStore} :
      d.core = some core →
      Prog.Exec Call (core.commit inCfg) d.store tr (err, next) t →
      NvsStep d (.commit inCfg err) ⟨t, some next⟩
  | commitCut {d : NvsDevice} {core : NvsCore} {inCfg : ConfigPayload} {t : NvsStore} :
      d.core = some core →
      Prog.Crash Call Cut (core.commit inCfg) d.store t →
      NvsStep d .powerLoss ⟨t, none⟩

abbrev NvsMove := Move NvsDevice NvsAct

/-! ## The marker -/

def NvsStore.MarkLocked (s : NvsStore) : Prop := IdentityLocked (hwmFlagsOf s.provHwm)

/-- A call that leaves a locked marker locked. -/
def NvsCall.KeepsMark : NvsCall → Prop
  | .writeProvisionedHwm flags => IdentityLocked flags
  | _ => True

theorem NvsStore.MarkLocked.call {s t : NvsStore} (h : s.MarkLocked) {q : NvsCall} (hq : q.KeepsMark)
    {r : q.Answer} (hc : CallOrFail q s r t) : t.MarkLocked := by
  rcases hc with hc | ⟨-, rfl⟩
  · cases q with
    | readSlot i => exact hc.2 ▸ h
    | writeSlot i rec =>
      obtain ⟨c, rfl, -⟩ := hc
      show IdentityLocked (hwmFlagsOf (s.setSlot i c).provHwm)
      rw [setSlot_provHwm]
      exact h
    | readSelector => exact hc.2 ▸ h
    | writeSelector v =>
      rcases hc with rfl | ⟨-, rfl⟩
      · exact h
      · exact h
    | readProvisionedHwm => exact hc.2 ▸ h
    | writeProvisionedHwm v =>
      rcases hc with rfl | ⟨-, rfl⟩
      · exact hq
      · exact h
  · exact h

theorem init_keepsMark : NvsCore.init.wp (fun _ _ => True) NvsCall.KeepsMark fun _ => True := by
  refine ⟨trivial, fun a _ => ⟨trivial, fun b _ => ⟨trivial, fun sel _ => ⟨trivial, fun hwm _ => ?_⟩⟩⟩⟩
  dsimp only
  split
  · exact ⟨trivial, fun _ _ => trivial⟩
  · trivial

theorem activate_keepsMark (core : NvsCore) (i : UInt8) (generation : UInt32) :
    (core.activate i generation).wp (fun _ _ => True) NvsCall.KeepsMark fun _ => True := by
  unfold NvsCore.activate
  refine ⟨trivial, fun r _ => ?_⟩
  beta_reduce
  split
  · trivial
  · refine ⟨trivial, fun r _ => ?_⟩
    beta_reduce
    split <;> trivial

theorem commit_keepsMark (core : NvsCore) (inCfg : ConfigPayload) :
    (core.commit inCfg).wp (fun _ _ => True) NvsCall.KeepsMark fun _ => True := by
  unfold NvsCore.commit
  split
  · trivial
  · refine ⟨trivial, fun sel _ => ⟨trivial, fun r _ => ?_⟩⟩
    beta_reduce
    split
    · trivial
    · refine ⟨trivial, fun verify _ => ?_⟩
      beta_reduce
      split
      · trivial
      · split
        · next hl =>
          refine ⟨hl, fun hwm _ => ?_⟩
          beta_reduce
          split
          · trivial
          · exact activate_keepsMark _ _ _
        · exact activate_keepsMark _ _ _

section Marker

variable {α : Type} {p : NvsProg α} (hp : p.wp (fun _ _ => True) NvsCall.KeepsMark fun _ => True)
  {s t : NvsStore} (h : s.MarkLocked)
include hp h

theorem NvsStore.MarkLocked.exec {tr : List (Σ q, NvsCall.Answer q)} {a : α}
    (hr : Prog.Exec Call p s tr a t) : t.MarkLocked :=
  (hr.of_wpS (Prog.wpS_of_wp _ _ (fun _ _ _ _ hq h hc => h.call hq (.inl hc)) p hp h)).2

theorem NvsStore.MarkLocked.crash (hr : Prog.Crash Call Cut p s t) : t.MarkLocked := by
  refine hr.of_wpS (Prog.wpS_mono ?_ (fun _ _ h => h.2) _ _
    (Prog.wpS_of_wp _ _ (fun _ _ _ _ hq h hc => h.call hq (.inl hc)) p hp h))
  rintro q u ⟨hq, hu⟩
  exact ⟨hu, fun v ⟨r, hr⟩ => hu.call hq hr⟩

end Marker

/-! ## What a commit does to the core -/

/-- Refused or failed, the core is as before; otherwise it is on `inCfg`, flags included,
and the marker is locked if `inCfg` is. -/
def CommitResult (core : NvsCore) (inCfg : ConfigPayload) (a : EspErr × NvsCore) (t : NvsStore) : Prop :=
  (a.1 ≠ espOk ∧ a.2 = core) ∨
    (a.1 = espOk ∧ a.2.activeConfig = inCfg ∧ a.2.hasValidConfig = true ∧
      (IdentityLocked inCfg.provisionedFlags → t.MarkLocked))

theorem activate_result {core : NvsCore} {inCfg : ConfigPayload} {i : UInt8} {generation : UInt32}
    {s : NvsStore} (hslot : (validSlot (s.slot i)).map (·.payload) = some inCfg)
    (hmark : IdentityLocked inCfg.provisionedFlags → s.MarkLocked) :
    (core.activate i generation).wpS Call (fun _ _ => True) (CommitResult core inCfg) s := by
  refine ⟨trivial, fun r t ht => ?_⟩
  beta_reduce
  split
  · next hr => exact .inl ⟨hr, rfl⟩
  · next hr =>
    rcases ht with rfl | ⟨hf, -⟩
    · refine ⟨trivial, ?_⟩
      rintro _ _ ⟨rfl, rfl⟩
      have hread : validSlot (NvsStore.slot { s with selector := .ok i } i) = validSlot (s.slot i) := rfl
      beta_reduce
      rw [hread]
      obtain ⟨slot, hs, rfl⟩ := Option.map_eq_some_iff.mp hslot
      rw [hs]
      exact .inr ⟨rfl, rfl, rfl, hmark⟩
    · exact absurd hf hr

theorem commit_result (s : NvsStore) (core : NvsCore) (inCfg : ConfigPayload) :
    (core.commit inCfg).wpS Call (fun _ _ => True) (CommitResult core inCfg) s := by
  unfold NvsCore.commit
  split
  · next hbad => exact .inl ⟨hbad, rfl⟩
  refine ⟨trivial, ?_⟩
  rintro _ _ ⟨rfl, rfl⟩
  refine ⟨trivial, fun w t _ => ?_⟩
  beta_reduce
  split
  · next hw => exact .inl ⟨hw, rfl⟩
  refine ⟨trivial, ?_⟩
  rintro _ _ ⟨rfl, rfl⟩
  beta_reduce
  split
  · exact .inl ⟨nofun, rfl⟩
  next hverify =>
  have hslot := not_not.mp hverify
  split
  · next hl =>
    refine ⟨trivial, fun r u hu => ?_⟩
    beta_reduce
    split
    · next hr => exact .inl ⟨hr, rfl⟩
    · next hr =>
      rcases hu with rfl | ⟨hf, -⟩
      · exact activate_result hslot fun _ => hl
      · exact absurd hf hr
  · next hl => exact activate_result hslot fun h => absurd h hl

/-! ## Runs -/

/-- The marker is locked, and so is any configuration the core holds. -/
structure NvsDevice.Sealed (d : NvsDevice) : Prop where
  mark : d.store.MarkLocked
  core : ∀ core, d.core = some core → core.hasValidConfig = true →
    IdentityLocked core.activeConfig.provisionedFlags

/-- A commit of an accepted configuration carries the identity bit. -/
def NvsAct.CarriesLock : NvsAct → Prop
  | .commit inCfg _ => NvsCore.checkInput inCfg = espOk → IdentityLocked inCfg.provisionedFlags
  | _ => True

/-- A commit that returns `ESP_OK` and sets the identity bit. -/
def NvsAct.SetsLock : NvsAct → Prop
  | .commit inCfg err => err = espOk ∧ IdentityLocked inCfg.provisionedFlags
  | _ => False

theorem commit_refused {core : NvsCore} {inCfg : ConfigPayload} {s t : NvsStore}
    {tr : List (Σ q, NvsCall.Answer q)} {a : EspErr × NvsCore}
    (h : Prog.Exec Call (core.commit inCfg) s tr a t) (hbad : NvsCore.checkInput inCfg ≠ espOk) :
    a.1 ≠ espOk := by
  have hret : core.commit inCfg = .ret (NvsCore.checkInput inCfg, core) := if_pos hbad
  rw [hret] at h
  cases h
  exact hbad

theorem NvsDevice.Sealed.step {d e : NvsDevice} {act : NvsAct} (hd : d.Sealed)
    (h : NvsStep d act e) (hact : act.CarriesLock) : e.Sealed := by
  cases h with
  | init hr =>
    have hmark := hd.mark.exec init_keepsMark hr
    refine ⟨hmark, ?_⟩
    rintro _ ⟨⟩ hv
    refine (exec_init_boot hr hv).loaded.locked.mpr ?_
    simp only [identityLocked_or]
    exact .inl (.inl hmark)
  | initCut hr =>
    refine ⟨hd.mark.crash init_keepsMark hr, ?_⟩
    rintro _ ⟨⟩
  | commit hcore hr =>
    refine ⟨hd.mark.exec (commit_keepsMark _ _) hr, ?_⟩
    rintro _ ⟨⟩ hv
    rcases hr.of_wpS (commit_result _ _ _) with ⟨-, rfl⟩ | ⟨he, rfl, -, -⟩
    · exact hd.core _ hcore hv
    · exact hact (by_contra fun hbad => commit_refused hr hbad he)
  | commitCut hcore hr =>
    refine ⟨hd.mark.crash (commit_keepsMark _ _) hr, ?_⟩
    rintro _ ⟨⟩

theorem sealed_of_setsLock {d e : NvsDevice} {act : NvsAct} (h : NvsStep d act e)
    (hact : act.SetsLock) : e.Sealed := by
  cases h with
  | commit hcore hr =>
    obtain ⟨rfl, hl⟩ := hact
    rcases hr.of_wpS (commit_result _ _ _) with ⟨he, -⟩ | ⟨-, hcfg, -, hmark⟩
    · exact absurd rfl he
    · refine ⟨hmark hl, ?_⟩
      rintro _ ⟨⟩ -
      rw [hcfg]
      exact hl
  | _ => exact hact.elim

theorem provisioning_lock_kept {d : NvsDevice} {ms ns : List NvsMove} {v : NvsMove}
    (h : IsRun NvsStep d (ms ++ v :: ns)) (hv : v.ev.SetsLock)
    (hns : ∀ m ∈ ns, m.ev.CarriesLock) {core : NvsCore} {cfg : ConfigPayload}
    (hcore : (final v.post ns).core = some core) (hget : core.get = .ok cfg) :
    IdentityLocked cfg.provisionedFlags := by
  rw [isRun_append, isRun_cons] at h
  obtain ⟨-, -, hstep, hrun⟩ := h
  have hsealed : (final v.post ns).Sealed :=
    (hrun.inv_of (sealed_of_setsLock hstep hv) hns fun m hm hs hk => hm.step hs hk).2
  have hv : core.hasValidConfig = true ∧ core.activeConfig = cfg := by
    unfold NvsCore.get at hget
    split at hget
    · cases hget
    · next hv => exact ⟨not_not.mp hv, Except.ok.inj hget⟩
  rw [← hv.2]
  exact hsealed.core core hcore hv.1

theorem step_boot (d : NvsDevice) : NvsStep d .init ⟨d.store.boot.2, some d.store.boot.1⟩ :=
  .init (Prog.playS_exec (H := Call) ideal_call NvsCore.init d.store)

/-- A commit all of whose calls succeed. -/
theorem step_commit {d : NvsDevice} {core : NvsCore} (hcore : d.core = some core)
    {inCfg : ConfigPayload} (hok : NvsCore.checkInput inCfg = espOk)
    (hgen : core.activeGeneration + 1 ≠ 0) :
    NvsStep d (.commit inCfg espOk)
      ⟨d.store.committed core inCfg, some (core.committed d.store.selector inCfg)⟩ := by
  obtain ⟨hret, hstore⟩ := Prog.playS_of_wpS (commit_succeeds d.store core hok hgen)
  have hrun := Prog.playS_exec (H := Call) ideal_call (core.commit inCfg) d.store
  rw [hret, hstore] at hrun
  exact .commit hcore hrun

/-- A booted device on blank flash. -/
def blankDevice : NvsDevice := ⟨.blank, some { NvsCore.zero with initialized := true }⟩

/-- The device after a commit of `pumpConfig`, identity locked. -/
def lockedDevice : NvsDevice :=
  ⟨NvsStore.blank.committed { NvsCore.zero with initialized := true } (pumpConfig.withFlags 1),
    some (NvsCore.committed { NvsCore.zero with initialized := true } NvsStore.blank.selector
      (pumpConfig.withFlags 1))⟩

theorem locks_device : NvsStep blankDevice (.commit (pumpConfig.withFlags 1) espOk) lockedDevice :=
  step_commit rfl (by decide +kernel) (by decide)

theorem provisioning_lock_reboot :
    ∃ cfg, lockedDevice.store.boot.1.get = .ok cfg ∧ IdentityLocked cfg.provisionedFlags := by
  have hok : NvsCore.checkInput (pumpConfig.withFlags 1) = espOk := by decide +kernel
  have hgen : ({ NvsCore.zero with initialized := true } : NvsCore).activeGeneration + 1 ≠ 0 := by
    decide
  have hload := NvsStore.blank.load_committed hok hgen
  have hget := NvsStore.boot_get (s := lockedDevice.store) hload.1
  have hrun : IsRun NvsStep blankDevice
      ([] ++ ⟨blankDevice, .commit (pumpConfig.withFlags 1) espOk, lockedDevice⟩ ::
        [⟨lockedDevice, .init, ⟨lockedDevice.store.boot.2, some lockedDevice.store.boot.1⟩⟩]) :=
    ⟨rfl, locks_device, rfl, step_boot lockedDevice, trivial⟩
  refine ⟨_, hget, ?_⟩
  exact provisioning_lock_kept hrun ⟨rfl, by decide⟩
    (by rintro _ (_ | ⟨_, ⟨⟩⟩); trivial) rfl hget

/-- A locked commit and then an unlocked one, both `ESP_OK`: the identity is open again
until the next boot. -/
theorem provisioning_lock_reopens :
    ¬ ∀ (d : NvsDevice) (ms ns : List NvsMove) (v : NvsMove),
      IsRun NvsStep d (ms ++ v :: ns) → v.ev.SetsLock →
      ∀ core cfg, (final v.post ns).core = some core → core.get = .ok cfg →
        IdentityLocked cfg.provisionedFlags := by
  intro h
  have hstep := step_commit (d := lockedDevice) rfl
    (show NvsCore.checkInput pumpConfig = espOk by decide +kernel) (by decide)
  have hlocked := h blankDevice [] [⟨lockedDevice, _, _⟩]
    ⟨blankDevice, .commit (pumpConfig.withFlags 1) espOk, lockedDevice⟩
    ⟨rfl, locks_device, rfl, hstep, trivial⟩ ⟨rfl, by decide⟩ _ pumpConfig rfl rfl
  exact absurd hlocked (by decide)

end Argus
