import ArgusPump.NvsCommit

/-!
# A commit and the boot after it

A commit whose driver calls all succeed leaves its record in the other slot, the
marker raised where the identity is locked, and the selector on the new record
(`commit_play`).  The boot after it takes that record, unless phase 3 of init overrules
the selector in favour of a locked record (`load_committed`).

    CommitDurable s core inCfg ↔ DurableCond s core inCfg                (durable_iff)
-/

namespace Argus

open Interact Function NvsStore

/-- `cfg` with the bits of `flags` added to its own. -/
def ConfigPayload.withFlags (cfg : ConfigPayload) (flags : UInt8) : ConfigPayload :=
  { cfg with provisionedFlags := cfg.provisionedFlags ||| flags }

theorem ConfigPayload.withFlags_inj {cfg : ConfigPayload} {a b : UInt8} :
    cfg.withFlags a = cfg.withFlags b ↔ cfg.provisionedFlags ||| a = cfg.provisionedFlags ||| b := by
  constructor
  · intro h
    exact congrArg ConfigPayload.provisionedFlags h
  · intro h
    simp only [withFlags, h]

/-! ## What the boot takes -/

namespace NvsCore

/-- Phase 3 takes the identity-locked `kept` in place of the selected `cfg`. -/
def Overruled (cfg kept : ConfigPayload) (mark : UInt8) : Prop :=
  IdentityLocked mark ∧ ¬ IdentityLocked cfg.provisionedFlags ∧
    IdentityLocked kept.provisionedFlags

instance (cfg kept : ConfigPayload) (mark : UInt8) : Decidable (Overruled cfg kept mark) :=
  inferInstanceAs (Decidable (_ ∧ _ ∧ _))

/-- The configuration a boot takes where the selector is on `rec`. -/
def bootConfig (rec : CfgSlot) (kept : Option CfgSlot) (mark : UInt8) : ConfigPayload :=
  match kept with
  | none => rec.payload.withFlags (mark ||| rec.payload.provisionedFlags)
  | some k =>
    if Overruled rec.payload k.payload mark then k.payload.withFlags mark
    else rec.payload.withFlags (mark ||| k.payload.provisionedFlags ||| rec.payload.provisionedFlags)

theorem recoverSelector_of_not {core : NvsCore} {a b : CfgSlot} {mark : UInt8}
    (h0 : core.activeSlotIndex = 0 → ¬ Overruled a.payload b.payload mark)
    (h1 : core.activeSlotIndex = 1 → ¬ Overruled b.payload a.payload mark) :
    core.recoverSelector (some a) (some b) mark = (core, none) := by
  simp only [recoverSelector]
  split_ifs with hm ha hb
  · exact absurd ⟨hm.2, ha.2⟩ (h0 ha.1)
  · exact absurd ⟨hm.2, hb.2⟩ (h1 hb.1)
  · rfl
  · rfl

theorem load_slot_a (rec : CfgSlot) (kept : Option CfgSlot) (mark : UInt8) :
    (load (some rec) kept 0 mark).1.hasValidConfig = true ∧
      (load (some rec) kept 0 mark).1.activeConfig = bootConfig rec kept mark := by
  cases kept with
  | none =>
    refine ⟨rfl, ?_⟩
    show rec.payload.withFlags (mark ||| rec.payload.provisionedFlags ||| 0) = _
    rw [UInt8.or_zero]
    rfl
  | some k =>
    by_cases ho : Overruled rec.payload k.payload mark
    · obtain ⟨hm, hr, hk⟩ := ho
      simp [load, selectSlot, mergeFlags, recoverSelector, useSlot, raiseFlags, hm, hr, hk,
        bootConfig, Overruled, ConfigPayload.withFlags]
    · have hload : load (some rec) (some k) 0 mark =
          ((zero.useSlot 0 rec).raiseFlags
            (mark ||| rec.payload.provisionedFlags ||| k.payload.provisionedFlags), none) := by
        show recoverSelector _ (some rec) (some k) mark = _
        exact recoverSelector_of_not (fun _ => ho) fun (h : (0 : UInt8) = 1) => absurd h (by decide)
      rw [hload]
      refine ⟨rfl, ?_⟩
      simp only [bootConfig, if_neg ho]
      show rec.payload.withFlags _ = _
      rw [UInt8.or_assoc, UInt8.or_comm rec.payload.provisionedFlags k.payload.provisionedFlags,
        ← UInt8.or_assoc]

theorem load_slot_b (rec : CfgSlot) (kept : Option CfgSlot) (mark : UInt8) :
    (load kept (some rec) 1 mark).1.hasValidConfig = true ∧
      (load kept (some rec) 1 mark).1.activeConfig = bootConfig rec kept mark := by
  cases kept with
  | none =>
    refine ⟨rfl, ?_⟩
    show rec.payload.withFlags (mark ||| 0 ||| rec.payload.provisionedFlags) = _
    rw [UInt8.or_zero]
    rfl
  | some k =>
    by_cases ho : Overruled rec.payload k.payload mark
    · obtain ⟨hm, hr, hk⟩ := ho
      simp [load, selectSlot, mergeFlags, recoverSelector, useSlot, raiseFlags, hm, hr, hk,
        bootConfig, Overruled, ConfigPayload.withFlags]
    · have hload : load (some k) (some rec) 1 mark =
          ((zero.useSlot 1 rec).raiseFlags
            (mark ||| k.payload.provisionedFlags ||| rec.payload.provisionedFlags), none) := by
        show recoverSelector _ (some k) (some rec) mark = _
        exact recoverSelector_of_not (fun (h : (1 : UInt8) = 0) => absurd h (by decide)) fun _ => ho
      rw [hload]
      simp only [bootConfig, if_neg ho]
      exact ⟨rfl, rfl⟩

end NvsCore

/-! ## The commit -/

theorem inactiveSlot_le (core : NvsCore) (sel : Except EspErr UInt8) :
    core.inactiveSlot sel = 0 ∨ core.inactiveSlot sel = 1 := by
  unfold NvsCore.inactiveSlot
  split
  · split_ifs <;> simp
  · split_ifs <;> simp

@[simp] theorem slot_setSlot (s : NvsStore) (i : UInt8) (c : Except EspErr CfgSlot) :
    (s.setSlot i c).slot i = c := by
  unfold setSlot slot
  split <;> rfl

/-- The marker after a commit of `inCfg`. -/
def NvsStore.raisedMark (s : NvsStore) (inCfg : ConfigPayload) : Except EspErr UInt8 :=
  if IdentityLocked inCfg.provisionedFlags then .ok inCfg.provisionedFlags else s.provHwm

/-- What a commit that goes through leaves in the store. -/
def NvsStore.committed (s : NvsStore) (core : NvsCore) (inCfg : ConfigPayload) : NvsStore :=
  { s.setSlot (core.inactiveSlot s.selector)
      (.ok (CfgSlot.current (core.activeGeneration + 1) inCfg)) with
    selector := .ok (core.inactiveSlot s.selector)
    provHwm := s.raisedMark inCfg }

/-- The core after a commit that goes through. -/
def NvsCore.committed (core : NvsCore) (sel : Except EspErr UInt8) (inCfg : ConfigPayload) : NvsCore :=
  { core with
    activeSlotIndex := core.inactiveSlot sel
    activeGeneration := core.activeGeneration + 1
    activeConfig := inCfg
    hasValidConfig := true }

@[simp] theorem CfgSlot.current_payload (generation : UInt32) (payload : ConfigPayload) :
    (CfgSlot.current generation payload).payload = payload := rfl

theorem validate_of_checkInput {inCfg : ConfigPayload} (h : NvsCore.checkInput inCfg = espOk) :
    inCfg.validate = espOk := by
  unfold NvsCore.checkInput at h
  split at h
  · cases h
  · exact h

/-- The driver of `ideal`, as a relation. -/
abbrev NvsStore.Succeeds (q : NvsCall) (s : NvsStore) (r : q.Answer) (t : NvsStore) : Prop :=
  ideal q s = (r, t)

theorem espOk_done : ¬ (espOk ≠ espOk) := not_not.mpr rfl

theorem activate_succeeds {s : NvsStore} {core : NvsCore} {i : UInt8} {generation : UInt32}
    {slot : CfgSlot} (h : validSlot (s.slot i) = some slot) :
    (core.activate i generation).wpS Succeeds (fun _ _ => True)
      (fun a t => a = (espOk, { core with
        activeSlotIndex := i
        activeGeneration := generation
        activeConfig := slot.payload
        hasValidConfig := true }) ∧ t = { s with selector := .ok i }) s := by
  have hread : validSlot (NvsStore.slot { s with selector := .ok i } i) = some slot := h
  refine ⟨trivial, ?_⟩
  rintro _ _ ⟨⟩
  beta_reduce
  rw [if_neg espOk_done]
  refine ⟨trivial, ?_⟩
  rintro _ _ ⟨⟩
  beta_reduce
  rw [hread]
  exact ⟨rfl, rfl⟩

/-- **A commit all of whose calls succeed** goes through, unless the generation wraps. -/
theorem commit_succeeds (s : NvsStore) (core : NvsCore) {inCfg : ConfigPayload}
    (hok : NvsCore.checkInput inCfg = espOk) (hgen : core.activeGeneration + 1 ≠ 0) :
    (core.commit inCfg).wpS Succeeds (fun _ _ => True)
      (fun a t => a = (espOk, core.committed s.selector inCfg) ∧ t = s.committed core inCfg) s := by
  have hread (i : UInt8) : validSlot ((s.setSlot i
      (.ok (CfgSlot.current (core.activeGeneration + 1) inCfg))).slot i) =
      some (CfgSlot.current (core.activeGeneration + 1) inCfg) := by
    rw [slot_setSlot]
    exact CfgSlot.isSlotValid_current_ok hgen (validate_of_checkInput hok)
  unfold NvsCore.commit
  rw [if_neg (not_not.mpr hok)]
  refine ⟨trivial, ?_⟩
  rintro _ _ ⟨⟩
  refine ⟨trivial, ?_⟩
  rintro _ _ ⟨⟩
  beta_reduce
  rw [if_neg espOk_done]
  refine ⟨trivial, ?_⟩
  rintro _ _ ⟨⟩
  beta_reduce
  rw [if_neg (by rw [hread]; exact not_not.mpr rfl)]
  by_cases hl : IdentityLocked inCfg.provisionedFlags
  · rw [if_pos hl]
    refine ⟨trivial, ?_⟩
    rintro _ _ ⟨⟩
    beta_reduce
    rw [if_neg espOk_done]
    refine Prog.wpS_mono (fun _ _ h => h) ?_ _ _ (activate_succeeds (hread _))
    rintro _ _ ⟨rfl, rfl⟩
    simp only [NvsStore.committed, NvsCore.committed, NvsStore.raisedMark, if_pos hl,
      CfgSlot.current_payload, and_self]
  · rw [if_neg hl]
    refine Prog.wpS_mono (fun _ _ h => h) ?_ _ _ (activate_succeeds (hread _))
    rintro _ _ ⟨rfl, rfl⟩
    simp only [NvsStore.committed, NvsCore.committed, NvsStore.raisedMark, if_neg hl,
      CfgSlot.current_payload, setSlot_provHwm, and_self]

/-- A generation that wraps to 0 fails the read-back. -/
theorem commit_wraps (s : NvsStore) (core : NvsCore) {inCfg : ConfigPayload}
    (hok : NvsCore.checkInput inCfg = espOk) (hgen : core.activeGeneration + 1 = 0) :
    (core.commit inCfg).wpS Succeeds (fun _ _ => True) (fun a _ => a.1 = espErrInvalidState) s := by
  have hread (i : UInt8) : validSlot ((s.setSlot i
      (.ok (CfgSlot.current (core.activeGeneration + 1) inCfg))).slot i) = none := by
    rw [slot_setSlot, hgen]
    rfl
  unfold NvsCore.commit
  rw [if_neg (not_not.mpr hok)]
  refine ⟨trivial, ?_⟩
  rintro _ _ ⟨⟩
  refine ⟨trivial, ?_⟩
  rintro _ _ ⟨⟩
  beta_reduce
  rw [if_neg espOk_done]
  refine ⟨trivial, ?_⟩
  rintro _ _ ⟨⟩
  beta_reduce
  rw [if_pos (by rw [hread]; nofun)]
  rfl

/-! ## The boot after it -/

namespace NvsStore

/-- The valid record the commit does not write. -/
def kept (s : NvsStore) (core : NvsCore) : Option CfgSlot :=
  validSlot (s.slot (if core.inactiveSlot s.selector = 0 then 1 else 0))

theorem load_committed (s : NvsStore) {core : NvsCore} {inCfg : ConfigPayload}
    (hok : NvsCore.checkInput inCfg = espOk) (hgen : core.activeGeneration + 1 ≠ 0) :
    (s.committed core inCfg).load.1.hasValidConfig = true ∧
      (s.committed core inCfg).load.1.activeConfig =
        NvsCore.bootConfig (CfgSlot.current (core.activeGeneration + 1) inCfg) (s.kept core)
          (hwmFlagsOf (s.raisedMark inCfg)) := by
  have hvalid : validSlot (.ok (CfgSlot.current (core.activeGeneration + 1) inCfg)) =
      some (CfgSlot.current (core.activeGeneration + 1) inCfg) :=
    CfgSlot.isSlotValid_current_ok hgen (validate_of_checkInput hok)
  have hslots : (s.committed core inCfg).slots =
      update s.slots (side (core.inactiveSlot s.selector))
        (some (CfgSlot.current (core.activeGeneration + 1) inCfg)) := by
    rw [← hvalid]
    exact slots_setSlot s _ _
  have hkept : s.kept core = s.slots (!side (core.inactiveSlot s.selector)) := by
    unfold kept
    rw [← slots_side]
    rcases inactiveSlot_le core s.selector with h | h <;> rw [h] <;> rfl
  unfold load
  rw [hslots, hkept]
  show (NvsCore.load _ _ (core.inactiveSlot s.selector) (hwmFlagsOf (s.raisedMark inCfg))).1.hasValidConfig
    = true ∧ (NvsCore.load _ _ (core.inactiveSlot s.selector) _).1.activeConfig = _
  rcases inactiveSlot_le core s.selector with h | h <;> rw [h]
  · exact NvsCore.load_slot_a _ _ _
  · exact NvsCore.load_slot_b _ _ _

end NvsStore

/-- The commit succeeds and the next boot returns `inCfg`, with the bits of the marker
added; every driver call succeeds. -/
def CommitDurable (s : NvsStore) (core : NvsCore) (inCfg : ConfigPayload) : Prop :=
  let done := (core.commit inCfg).playS ideal s
  let boot := NvsCore.init.playS ideal done.2.2
  done.2.1.1 = espOk ∧ boot.2.1.1 = espOk ∧
    boot.2.1.2.get = .ok (inCfg.withFlags (hwmFlagsOf done.2.2.provHwm))

/-- The input is accepted, the generation does not wrap, and the record the commit
leaves alone neither takes the place of the new one nor adds bits of its own. -/
def DurableCond (s : NvsStore) (core : NvsCore) (inCfg : ConfigPayload) : Prop :=
  NvsCore.checkInput inCfg = espOk ∧ core.activeGeneration ≠ 0xFFFFFFFF ∧
    ∀ kept, s.kept core = some kept →
      let mark := hwmFlagsOf (s.raisedMark inCfg)
      if NvsCore.Overruled inCfg kept.payload mark then
        kept.payload.withFlags mark = inCfg.withFlags mark
      else
        inCfg.provisionedFlags ||| (mark ||| kept.payload.provisionedFlags) =
          inCfg.provisionedFlags ||| mark

theorem or_absorb (a b c : UInt8) : a ||| (b ||| c ||| a) = a ||| (b ||| c) := by
  rw [UInt8.or_comm (b ||| c) a, ← UInt8.or_assoc, UInt8.or_self]

theorem bootConfig_iff {generation : UInt32} {inCfg : ConfigPayload} {kept : Option CfgSlot}
    {mark : UInt8} :
    NvsCore.bootConfig (CfgSlot.current generation inCfg) kept mark = inCfg.withFlags mark ↔
      ∀ k, kept = some k →
        if NvsCore.Overruled inCfg k.payload mark then
          k.payload.withFlags mark = inCfg.withFlags mark
        else
          inCfg.provisionedFlags ||| (mark ||| k.payload.provisionedFlags) =
            inCfg.provisionedFlags ||| mark := by
  cases kept with
  | none =>
    simp only [NvsCore.bootConfig, CfgSlot.current_payload, reduceCtorEq, false_imp_iff,
      implies_true, iff_true]
    rw [ConfigPayload.withFlags_inj, UInt8.or_comm mark, ← UInt8.or_assoc, UInt8.or_self]
  | some k =>
    simp only [NvsCore.bootConfig, Option.some.injEq, forall_eq']
    by_cases ho : NvsCore.Overruled inCfg k.payload mark
    · rw [if_pos ho, if_pos (by exact ho)]
    · rw [if_neg ho, if_neg (by exact ho), CfgSlot.current_payload, ConfigPayload.withFlags_inj,
        or_absorb]

theorem wraps_iff (generation : UInt32) : generation + 1 = 0 ↔ generation = 0xFFFFFFFF := by
  constructor
  · intro h
    have hsub : generation + 1 - 1 = 0 - 1 := by rw [h]
    rw [UInt32.add_sub_cancel] at hsub
    exact hsub
  · rintro rfl
    decide

theorem durable_iff (s : NvsStore) (core : NvsCore) (inCfg : ConfigPayload) :
    CommitDurable s core inCfg ↔ DurableCond s core inCfg := by
  by_cases hok : NvsCore.checkInput inCfg = espOk
  · by_cases hgen : core.activeGeneration + 1 = 0
    · have hfail := Prog.playS_of_wpS (commit_wraps s core hok hgen)
      constructor
      · intro h
        exact absurd (hfail.symm.trans h.1) (by decide)
      · intro h
        exact absurd ((wraps_iff _).mp hgen) h.2.1
    · obtain ⟨hret, hstore⟩ := Prog.playS_of_wpS (commit_succeeds s core hok hgen)
      obtain ⟨hv, hcfg⟩ := s.load_committed hok hgen
      have hboot := Prog.playS_exec (H := Call) ideal_call NvsCore.init (s.committed core inCfg)
      obtain ⟨he, hget⟩ := init_get hboot hv
      unfold CommitDurable DurableCond
      simp only [hret, hstore, he, hget, hcfg, Except.ok.injEq, true_and]
      rw [show (s.committed core inCfg).provHwm = s.raisedMark inCfg from rfl, bootConfig_iff]
      constructor
      · intro h
        exact ⟨hok, fun hmax => hgen ((wraps_iff _).mpr hmax), h⟩
      · intro h
        exact h.2.2
  · have hret : core.commit inCfg = .ret (NvsCore.checkInput inCfg, core) := if_pos hok
    constructor
    · intro h
      unfold CommitDurable at h
      rw [hret] at h
      exact absurd h.1 hok
    · intro h
      exact absurd h.1 hok

/-- A boot all of whose calls succeed: the core it builds and the store it leaves. -/
def NvsStore.boot (s : NvsStore) : NvsCore × NvsStore :=
  let run := NvsCore.init.playS ideal s
  (run.2.1.2, run.2.2)

theorem NvsStore.boot_get {s : NvsStore} (h : s.load.1.hasValidConfig = true) :
    s.boot.1.get = .ok s.load.1.activeConfig :=
  (init_get (Prog.playS_exec (H := Call) ideal_call NvsCore.init s) h).2

theorem commit_durable_iff (s₀ : NvsStore) (inCfg : ConfigPayload) :
    CommitDurable s₀.boot.2 s₀.boot.1 inCfg ↔ DurableCond s₀.boot.2 s₀.boot.1 inCfg :=
  durable_iff s₀.boot.2 s₀.boot.1 inCfg

/-- Slot A holds `pumpConfig` with the given flags, slot B nothing. -/
def slotAStore (generation : UInt32) (flags : UInt8) (provHwm : Except EspErr UInt8) : NvsStore where
  slotA := .ok (CfgSlot.current generation (pumpConfig.withFlags flags))
  slotB := .error espErrNvsNotFound
  selector := .ok 0
  provHwm := provHwm

/-- Client `c1`, unit `u2`. -/
def otherConfig : ConfigPayload := { pumpConfig with unitId := charArray 33 [0x75, 0x32] }

theorem boot_of_load {s : NvsStore} (h : s.load.2 = none) :
    s.boot = ({ s.load.1 with initialized := true }, s) := by
  obtain ⟨-, hcore, hstore⟩ := exec_init (Prog.playS_exec (H := Call) ideal_call NvsCore.init s)
  rcases hstore with hs | ⟨v, hv, -⟩
  · exact Prod.ext hcore hs
  · rw [h] at hv
    cases hv

theorem slotAStore_load {generation : UInt32} (hg : generation ≠ 0) (flags : UInt8)
    (provHwm : Except EspErr UInt8) :
    (slotAStore generation flags provHwm).load =
      ((NvsCore.zero.useSlot 0 (CfgSlot.current generation (pumpConfig.withFlags flags))).mergeFlags
        (some (CfgSlot.current generation (pumpConfig.withFlags flags))) none (hwmFlagsOf provHwm),
        none) := by
  have hv : pumpConfig.validate = espOk := by decide +kernel
  have ha : (slotAStore generation flags provHwm).slots false =
      some (CfgSlot.current generation (pumpConfig.withFlags flags)) :=
    CfgSlot.isSlotValid_current_ok hg hv
  have hb : (slotAStore generation flags provHwm).slots true = none := rfl
  unfold NvsStore.load
  rw [ha, hb]
  rfl

theorem slotAStore_boot {generation : UInt32} (hg : generation ≠ 0) (flags : UInt8)
    (provHwm : Except EspErr UInt8) :
    (slotAStore generation flags provHwm).boot.2 = slotAStore generation flags provHwm ∧
      (slotAStore generation flags provHwm).boot.1.activeGeneration = generation ∧
      (slotAStore generation flags provHwm).kept (slotAStore generation flags provHwm).boot.1 =
        some (CfgSlot.current generation (pumpConfig.withFlags flags)) := by
  have hv : pumpConfig.validate = espOk := by decide +kernel
  rw [boot_of_load (by rw [slotAStore_load hg]), slotAStore_load hg]
  exact ⟨rfl, rfl, CfgSlot.isSlotValid_current_ok hg hv⟩

/-- At the last generation the commit is refused; over a locked record an unlocked commit
returns `ESP_OK` and the next boot takes the locked record. -/
theorem commit_not_durable :
    ¬ CommitDurable (slotAStore 0xFFFFFFFF 0 (.error espErrNvsNotFound)).boot.2
        (slotAStore 0xFFFFFFFF 0 (.error espErrNvsNotFound)).boot.1 pumpConfig ∧
    ¬ CommitDurable (slotAStore 1 1 (.ok 1)).boot.2 (slotAStore 1 1 (.ok 1)).boot.1 otherConfig := by
  constructor
  · rw [durable_iff]
    intro h
    exact h.2.1 (slotAStore_boot (by decide) _ _).2.1
  · rw [durable_iff]
    intro h
    obtain ⟨hstore, -, hkept⟩ := slotAStore_boot (by decide : (1 : UInt32) ≠ 0) 1 (.ok 1)
    rw [hstore] at h
    have hcond := h.2.2 _ hkept
    have hover : NvsCore.Overruled otherConfig (pumpConfig.withFlags 1) 1 := by decide
    have hother : (pumpConfig.withFlags 1).withFlags 1 = otherConfig.withFlags 1 :=
      (if_pos hover).mp hcond
    have hunit := congrArg (fun cfg => cfg.unitId[1]) hother
    revert hunit
    decide +kernel

end Argus
