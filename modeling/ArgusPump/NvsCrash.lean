import ArgusPump.NvsConfig
import ArgusPump.Lib.DualSlot

/-!
# The stored data and what init makes of it

What the driver calls do to the stored data, what a crash inside one leaves, and
which slot init picks.

    a valid slot: its configuration, locked if a valid slot or the marker is  (load_spec)
    init ends from s with core, t → core is what init picks from s, and a
      second init from t picks the same slot                                  (exec_init, Boot)

The slot rule of init is an instance of `DualSlot.Rule` (`slotRule`).
-/

namespace Argus

open Interact Function

/-! ## The stored data -/

/-- What each read of the driver finds. -/
structure NvsStore where
  slotA : Except EspErr CfgSlot
  slotB : Except EspErr CfgSlot
  selector : Except EspErr UInt8
  provHwm : Except EspErr UInt8

namespace NvsStore

/-- Erased flash. -/
def blank : NvsStore where
  slotA := .error espErrNvsNotFound
  slotB := .error espErrNvsNotFound
  selector := .error espErrNvsNotFound
  provHwm := .error espErrNvsNotFound

def slot (s : NvsStore) (i : UInt8) : Except EspErr CfgSlot := if i = 0 then s.slotA else s.slotB

def setSlot (s : NvsStore) (i : UInt8) (c : Except EspErr CfgSlot) : NvsStore :=
  if i = 0 then { s with slotA := c } else { s with slotB := c }

/-- Reads find what is stored.  A write takes effect or reports a failure and leaves
the old data; the slot being written may also be left torn, a record that does not
pass its check. -/
def Call : (q : NvsCall) → NvsStore → q.Answer → NvsStore → Prop
  | .readSlot i, s, r, t => r = s.slot i ∧ t = s
  | .writeSlot i rec, s, r, t => ∃ c, t = s.setSlot i c ∧
      (c = .ok rec ∨ validSlot c = none ∨ r ≠ espOk ∧ c = s.slot i)
  | .readSelector, s, r, t => r = s.selector ∧ t = s
  | .writeSelector v, s, r, t => t = { s with selector := .ok v } ∨ r ≠ espOk ∧ t = s
  | .readProvisionedHwm, s, r, t => r = s.provHwm ∧ t = s
  | .writeProvisionedHwm v, s, r, t => t = { s with provHwm := .ok v } ∨ r ≠ espOk ∧ t = s

/-- A read that reports an error. -/
def ReadFails : (q : NvsCall) → q.Answer → Prop
  | .readSlot _, r => ∃ e, r = .error e
  | .readSelector, r => ∃ e, r = .error e
  | .readProvisionedHwm, r => ∃ e, r = .error e
  | _, _ => False

/-- `Call`, with reads that may also fail. -/
def CallOrFail (q : NvsCall) (s : NvsStore) (r : q.Answer) (t : NvsStore) : Prop :=
  Call q s r t ∨ ReadFails q r ∧ t = s

/-- What a crash inside a call leaves. -/
def Cut (q : NvsCall) (s t : NvsStore) : Prop := ∃ r, CallOrFail q s r t

/-- The valid records, slot A at `false`. -/
def slots (s : NvsStore) : DualSlot.Slots CfgSlot := fun i => validSlot (if i then s.slotB else s.slotA)

end NvsStore

/-! ## What init picks -/

/-- The slot a `uint8_t` index names. -/
def side (i : UInt8) : Bool := i ≠ 0

@[simp] theorem identityLocked_or (a b : UInt8) :
    IdentityLocked (a ||| b) ↔ IdentityLocked a ∨ IdentityLocked b := by
  have h : (a ||| b) &&& cfgProvisionedIdentity =
      (a &&& cfgProvisionedIdentity) ||| (b &&& cfgProvisionedIdentity) := by
    apply UInt8.toBitVec_inj.mp
    simp only [UInt8.toBitVec_and, UInt8.toBitVec_or]
    ext i
    simp [Bool.and_or_distrib_right]
  unfold IdentityLocked
  rw [h, Ne, UInt8.or_eq_zero_iff, not_and_or]

/-- Everything but the provisioning flags. -/
def ConfigPayload.settings (cfg : ConfigPayload) : ConfigPayload :=
  { cfg with provisionedFlags := 0 }

namespace NvsCore

/-- A core that took its configuration from a valid slot. -/
structure Loaded (slots : DualSlot.Slots CfgSlot) (hwmFlags : UInt8) (core : NvsCore) : Prop where
  valid : core.hasValidConfig = true
  index : core.activeSlotIndex = 0 ∨ core.activeSlotIndex = 1
  slot : (slots (side core.activeSlotIndex)).map (·.payload.settings) =
    some core.activeConfig.settings
  locked : IdentityLocked core.activeConfig.provisionedFlags ↔
    IdentityLocked (hwmFlags ||| slotFlags (slots false) ||| slotFlags (slots true))

variable {slots : DualSlot.Slots CfgSlot} {flags : UInt8}

theorem useSlot_loaded_a (flags : UInt8) (core : NvsCore) {a : CfgSlot} (h : slots false = some a) :
    Loaded slots flags ((core.useSlot 0 a).mergeFlags (slots false) (slots true) flags) := by
  refine ⟨rfl, .inl rfl, congrArg _ h, ?_⟩
  show IdentityLocked (a.payload.provisionedFlags ||| (flags ||| _ ||| _)) ↔ _
  simp only [h, slotFlags, identityLocked_or]
  tauto

theorem useSlot_loaded_b (flags : UInt8) (core : NvsCore) {b : CfgSlot} (h : slots true = some b) :
    Loaded slots flags ((core.useSlot 1 b).mergeFlags (slots false) (slots true) flags) := by
  refine ⟨rfl, .inr rfl, congrArg _ h, ?_⟩
  show IdentityLocked (b.payload.provisionedFlags ||| (flags ||| _ ||| _)) ↔ _
  simp only [h, slotFlags, identityLocked_or]
  tauto

/-- Phase 3 changes slots only where the marker keeps the identity locked. -/
theorem Loaded.recoverSelector {core : NvsCore} (h : Loaded slots flags core) :
    Loaded slots flags (core.recoverSelector (slots false) (slots true) flags).1 := by
  unfold NvsCore.recoverSelector
  split
  · next a b ha hb =>
    split_ifs with hl
    · refine ⟨rfl, .inr rfl, congrArg _ hb, ?_⟩
      show IdentityLocked (b.payload.provisionedFlags ||| flags) ↔ _
      simp [hl.2]
    · refine ⟨rfl, .inl rfl, congrArg _ ha, ?_⟩
      show IdentityLocked (a.payload.provisionedFlags ||| flags) ↔ _
      simp [hl.2]
    · exact h
    · exact h
  · exact h

/-- **What init picks**: nothing where no slot is valid, else the configuration of a
valid slot, its identity locked if any valid slot or the marker says so. -/
theorem load_spec (slots : DualSlot.Slots CfgSlot) (selector flags : UInt8) :
    (slots = (fun _ => none) ∧
      (load (slots false) (slots true) selector flags).1.hasValidConfig = false) ∨
    Loaded slots flags (load (slots false) (slots true) selector flags).1 := by
  unfold load
  cases ha : slots false with
  | none =>
    cases hb : slots true with
    | none =>
      refine .inl ⟨funext fun i => ?_, rfl⟩
      cases i
      · exact ha
      · exact hb
    | some b =>
      have := (useSlot_loaded_b flags zero hb).recoverSelector
      rw [ha, hb] at this
      exact .inr this
  | some a =>
    refine .inr ?_
    have hA := (useSlot_loaded_a flags zero ha).recoverSelector
    rw [ha] at hA
    cases hb : slots true with
    | none =>
      rw [hb] at hA
      exact hA
    | some b =>
      have hB := (useSlot_loaded_b flags zero hb).recoverSelector
      rw [ha, hb] at hB
      rw [hb] at hA
      simp only [selectSlot]
      split_ifs
      · exact hA
      · exact hB
      · exact hB
      · exact hA

/-- A selector that phase 3 wants repaired names the slot it switched to, and a
second load under that selector stays there. -/
theorem load_repair {slotA slotB : Option CfgSlot} {selector flags v : UInt8}
    (h : (load slotA slotB selector flags).2 = some v) :
    (load slotA slotB selector flags).1.activeSlotIndex = v ∧
      (load slotA slotB v flags).1.activeSlotIndex = v := by
  unfold load at h ⊢
  generalize hc : (selectSlot slotA slotB selector).mergeFlags slotA slotB flags = core at h ⊢
  unfold recoverSelector at h
  split at h
  · next a b =>
    split_ifs at h with hl hb ha
    · cases h
      refine ⟨by simp [recoverSelector, hl, hb, useSlot, raiseFlags], ?_⟩
      simp [selectSlot, mergeFlags, recoverSelector, useSlot, raiseFlags, hb]
    · cases h
      refine ⟨by simp [recoverSelector, hl, ha, useSlot, raiseFlags], ?_⟩
      simp [selectSlot, mergeFlags, recoverSelector, useSlot, raiseFlags, ha]
  · cases h

/-- Phase 1 to 3 as a slot rule; the hint is the selector and the marker. -/
def slotRule : DualSlot.Rule CfgSlot (UInt8 × UInt8) where
  pick s h :=
    let core := (load (s false) (s true) h.1 h.2).1
    if core.hasValidConfig then some (side core.activeSlotIndex) else none
  valid := by
    intro s h i hi
    rcases load_spec s h.1 h.2 with ⟨-, hf⟩ | hl
    · simp [hf] at hi
    · simp only [hl.valid, if_true, Option.some.injEq] at hi
      subst hi
      have := hl.slot
      cases hs : s (side (load (s false) (s true) h.1 h.2).1.activeSlotIndex) with
      | none => simp [hs] at this
      | some _ => rfl
  total := by
    intro s h i hi
    rcases load_spec s h.1 h.2 with ⟨hn, -⟩ | hl
    · simp [hn] at hi
    · simp [hl.valid]

end NvsCore

/-! ## Boots -/

namespace NvsStore

/-- What init makes of the stored data, before the selector is written back. -/
def load (s : NvsStore) : NvsCore × Option UInt8 :=
  NvsCore.load (s.slots false) (s.slots true) (readSelectorOr s.selector) (hwmFlagsOf s.provHwm)

theorem load_cases (s : NvsStore) :
    (s.slots = (fun _ => none) ∧ s.load.1.hasValidConfig = false) ∨
      NvsCore.Loaded s.slots (hwmFlagsOf s.provHwm) s.load.1 :=
  NvsCore.load_spec s.slots (readSelectorOr s.selector) (hwmFlagsOf s.provHwm)

theorem slots_setSlot (s : NvsStore) (i : UInt8) (c : Except EspErr CfgSlot) :
    (s.setSlot i c).slots = update s.slots (side i) (validSlot c) := by
  funext j
  unfold setSlot side
  split
  · next h => cases j <;> simp [slots, h]
  · next h => cases j <;> simp [slots, h]

theorem slots_side (s : NvsStore) (i : UInt8) : s.slots (side i) = validSlot (s.slot i) := by
  unfold slots slot side
  by_cases h : i = 0 <;> simp [h]

@[simp] theorem setSlot_slot (s : NvsStore) (i : UInt8) : s.setSlot i (s.slot i) = s := by
  unfold setSlot slot
  split <;> rfl

@[simp] theorem setSlot_provHwm (s : NvsStore) (i : UInt8) (c : Except EspErr CfgSlot) :
    (s.setSlot i c).provHwm = s.provHwm := by
  unfold setSlot
  split <;> rfl

end NvsStore

theorem exec_init {s t : NvsStore} {tr : List (Σ q, NvsCall.Answer q)} {e : EspErr} {core : NvsCore}
    (h : Prog.Exec NvsStore.Call NvsCore.init s tr (e, core) t) :
    e = espOk ∧ core = { s.load.1 with initialized := true } ∧
      (t = s ∨ ∃ v, s.load.2 = some v ∧ t = { s with selector := .ok v }) := by
  have hwp : NvsCore.init.wpS NvsStore.Call (fun _ _ => True)
      (fun a t => a.1 = espOk ∧ a.2 = { s.load.1 with initialized := true } ∧
        (t = s ∨ ∃ v, s.load.2 = some v ∧ t = { s with selector := .ok v })) s := by
    simp only [NvsCore.init, Prog.wpS_ask, true_and]
    rintro _ _ ⟨rfl, rfl⟩ _ _ ⟨rfl, rfl⟩ _ _ ⟨rfl, rfl⟩ _ _ ⟨rfl, rfl⟩
    split
    · next v hv =>
      refine ⟨trivial, ?_⟩
      rintro _ _ (rfl | ⟨-, rfl⟩)
      · exact ⟨rfl, rfl, .inr ⟨v, hv, rfl⟩⟩
      · exact ⟨rfl, rfl, .inl rfl⟩
    · exact ⟨rfl, rfl, .inl rfl⟩
  exact h.of_wpS hwp

/-- `core` is what init takes from `s`, now and at the next boot. -/
structure Boot (s : NvsStore) (core : NvsCore) : Prop where
  loaded : NvsCore.Loaded s.slots (hwmFlagsOf s.provHwm) core
  stable : s.load.1.activeSlotIndex = core.activeSlotIndex

theorem exec_init_boot {s t : NvsStore} {tr : List (Σ q, NvsCall.Answer q)} {e : EspErr}
    {core : NvsCore} (h : Prog.Exec NvsStore.Call NvsCore.init s tr (e, core) t)
    (hv : core.hasValidConfig = true) : Boot t core := by
  obtain ⟨-, rfl, ht⟩ := exec_init h
  have hl : NvsCore.Loaded s.slots (hwmFlagsOf s.provHwm) s.load.1 := by
    rcases s.load_cases with h | h
    · exact absurd (h.2.symm.trans hv) (by simp)
    · exact h
  rcases ht with rfl | ⟨v, hrep, rfl⟩
  · exact ⟨⟨hl.valid, hl.index, hl.slot, hl.locked⟩, rfl⟩
  · obtain ⟨hi, hi'⟩ := NvsCore.load_repair hrep
    exact ⟨⟨hl.valid, hl.index, hl.slot, hl.locked⟩, hi'.trans hi.symm⟩

end Argus
