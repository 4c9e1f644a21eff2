import ArgusPump.NvsDurable

/-!
# Records of old schemas

`is_slot_valid` upgrades a V1 or V2 record in place: the bytes that later schemas added are
set and the record is checksummed again.  The CRC of a record counts over the payload of its
own schema only.

    a good V1 or V2 record → its upgrade, which passes unchanged        (isSlotValid_historical)
    a valid record → its CRC is that of its own schema's payload        (crc_of_isSlotValid)
    init takes slot i → its settings, with its flags, the marker's and, where the selector
      or the generations picked it, those of the other slot             (load_chosen)
    both together: a migrated boot                                       (init_migrates)
-/

namespace Argus

open Interact

namespace CfgSlot

/-- The size of a schema's payload. -/
def schemaSize (version : UInt16) : Option Nat :=
  if version = configSchemaVersion then some configPayloadSize
  else if version = configSchemaV1 then some configPayloadV1Size
  else if version = configSchemaV2 then some configPayloadV2Size
  else none

/-- The flags of an old record: V1 had none. -/
def storedFlags (slot : CfgSlot) : UInt8 :=
  if slot.schemaVersion = configSchemaV1 then 0 else slot.payload.provisionedFlags

/-- The payload of an old record in the current schema. -/
def migrated (slot : CfgSlot) : ConfigPayload :=
  { slot.payload with
    provisionedFlags := slot.storedFlags
    authorityProfile := authorityProfileStandaloneHmi }

/-- A good record of schema V1 or V2. -/
structure Historical (slot : CfgSlot) (size : Nat) : Prop where
  marker : slot.validMarker = configValidMarker
  generation : slot.configGeneration ≠ 0
  old : slot.schemaVersion ≠ configSchemaVersion
  schema : schemaSize slot.schemaVersion = some size
  length : slot.payloadLength.toNat = size
  crc : slot.crc32 = calcCrc32Raw (slot.payload.bytes.take size)
  settings : slot.migrated.validate = espOk

variable {slot : CfgSlot} {size : Nat}

/-- **Upgrade.** -/
theorem isSlotValid_historical (h : slot.Historical size) :
    slot.isSlotValid = some (current slot.configGeneration slot.migrated) := by
  have hlength : slot.payloadLength = size.toUInt16 := by
    rw [← h.length]
    exact (UInt16.ofNat_toNat).symm
  have hsettings := h.settings
  unfold isSlotValid
  rw [if_neg (not_not.mpr h.marker), if_neg h.generation, if_neg fun hcur => h.old hcur.1]
  have hschema := h.schema
  unfold schemaSize at hschema
  rw [if_neg h.old] at hschema
  split at hschema
  · next hv1 =>
    obtain rfl := Option.some.inj hschema
    have hmigrated : slot.migrated = { slot.payload with
        provisionedFlags := 0
        authorityProfile := authorityProfileStandaloneHmi } := by
      unfold migrated storedFlags
      rw [if_pos hv1]
    rw [if_pos ⟨hv1, hlength⟩, if_neg (not_not.mpr h.crc.symm), ← hmigrated]
    exact if_pos hsettings
  · next hnot1 =>
    split at hschema
    · next hv2 =>
      obtain rfl := Option.some.inj hschema
      have hmigrated : slot.migrated = { slot.payload with
          authorityProfile := authorityProfileStandaloneHmi } := by
        unfold migrated storedFlags
        rw [if_neg hnot1]
      rw [if_neg fun hcur => hnot1 hcur.1, if_pos ⟨hv2, hlength⟩, if_neg (not_not.mpr h.crc.symm),
        ← hmigrated]
      exact if_pos hsettings
    · cases hschema

/-- A record that passes carries the CRC of its own schema's payload. -/
theorem crc_of_isSlotValid {next : CfgSlot} (h : slot.isSlotValid = some next) :
    ∃ size, schemaSize slot.schemaVersion = some size ∧
      slot.crc32 = calcCrc32Raw (slot.payload.bytes.take size) := by
  unfold isSlotValid at h
  split at h
  · cases h
  · split at h
    · cases h
    · split at h
      · next hcur =>
        split at h
        · cases h
        · next hcrc =>
          refine ⟨configPayloadSize, if_pos hcur.1, ?_⟩
          have hall : slot.payload.bytes.length = configPayloadSize := by
            unfold ConfigPayload.bytes
            simp only [List.length_append, Vector.length_toList]
            rfl
          rw [List.take_of_length_le (Nat.le_of_eq hall)]
          exact (not_not.mp hcrc).symm
      · split at h
        · next hv1 =>
          split at h
          · cases h
          · next hcrc =>
            refine ⟨configPayloadV1Size, ?_, (not_not.mp hcrc).symm⟩
            rw [hv1.1]
            rfl
        · split at h
          · next hv2 =>
            split at h
            · cases h
            · next hcrc =>
              refine ⟨configPayloadV2Size, ?_, (not_not.mp hcrc).symm⟩
              rw [hv2.1]
              rfl
          · cases h

end CfgSlot

namespace NvsCore

theorem selectSlot_cases (slotA slotB : Option CfgSlot) (selector : UInt8) :
    (∃ a, slotA = some a ∧ selectSlot slotA slotB selector = zero.useSlot 0 a) ∨
    (∃ b, slotB = some b ∧ selectSlot slotA slotB selector = zero.useSlot 1 b) ∨
    (slotA = none ∧ slotB = none) := by
  unfold selectSlot
  split
  · next a b =>
    split_ifs
    · exact .inl ⟨a, rfl, rfl⟩
    · exact .inr (.inl ⟨b, rfl, rfl⟩)
    · exact .inr (.inl ⟨b, rfl, rfl⟩)
    · exact .inl ⟨a, rfl, rfl⟩
  · next a => exact .inl ⟨a, rfl, rfl⟩
  · next b => exact .inr (.inl ⟨b, rfl, rfl⟩)
  · exact .inr (.inr ⟨rfl, rfl⟩)

theorem recoverSelector_cases (core : NvsCore) (slotA slotB : Option CfgSlot) (mark : UInt8) :
    (core.recoverSelector slotA slotB mark).1 = core ∨
    (∃ b, slotB = some b ∧ core.activeSlotIndex = 0 ∧
      (core.recoverSelector slotA slotB mark).1 = (core.useSlot 1 b).raiseFlags mark) ∨
    (∃ a, slotA = some a ∧ core.activeSlotIndex = 1 ∧
      (core.recoverSelector slotA slotB mark).1 = (core.useSlot 0 a).raiseFlags mark) := by
  unfold recoverSelector
  split
  · next a b =>
    split_ifs with hmark hb ha
    · exact .inr (.inl ⟨b, rfl, hb.1, rfl⟩)
    · exact .inr (.inr ⟨a, rfl, ha.1, rfl⟩)
    · exact .inl rfl
    · exact .inl rfl
  · exact .inl rfl

theorem withFlags_own (cfg : ConfigPayload) (mark other : UInt8) :
    cfg.withFlags (mark ||| cfg.provisionedFlags ||| other) = cfg.withFlags (mark ||| other) := by
  rw [ConfigPayload.withFlags_inj, UInt8.or_assoc mark, UInt8.or_comm cfg.provisionedFlags other,
    ← UInt8.or_assoc mark, or_absorb]

theorem withFlags_own_last (cfg : ConfigPayload) (mark other : UInt8) :
    cfg.withFlags (mark ||| other ||| cfg.provisionedFlags) = cfg.withFlags (mark ||| other) := by
  rw [ConfigPayload.withFlags_inj, or_absorb]

/-- **The slot in use.**  Its settings, and its flags with the marker's; those of the other
slot count too unless phase 3 has switched slots. -/
theorem load_chosen {slots : DualSlot.Slots CfgSlot} {selector mark i : UInt8} {rec : CfgSlot}
    (hrec : slots (side i) = some rec)
    (hi : (load (slots false) (slots true) selector mark).1.activeSlotIndex = i) :
    (load (slots false) (slots true) selector mark).1.hasValidConfig = true ∧
      (load (slots false) (slots true) selector mark).1.activeConfig =
        rec.payload.withFlags (mark |||
          if (selectSlot (slots false) (slots true) selector).activeSlotIndex = i then
            slotFlags (slots (!side i))
          else 0) := by
  unfold load at hi ⊢
  rcases selectSlot_cases (slots false) (slots true) selector with
    ⟨a, ha, hselect⟩ | ⟨b, hb, hselect⟩ | ⟨ha, hb⟩
  · rw [hselect] at hi ⊢
    rcases recoverSelector_cases ((zero.useSlot 0 a).mergeFlags (slots false) (slots true) mark)
        (slots false) (slots true) mark with hsame | ⟨b, hb, -, hswitch⟩ | ⟨-, -, hone, -⟩
    · rw [hsame] at hi ⊢
      subst hi
      obtain rfl : a = rec := Option.some.inj (ha.symm.trans hrec)
      refine ⟨rfl, ?_⟩
      show a.payload.withFlags (mark ||| slotFlags (slots false) ||| slotFlags (slots true)) =
        a.payload.withFlags (mark ||| slotFlags (slots true))
      rw [ha]
      exact withFlags_own a.payload mark _
    · rw [hswitch] at hi ⊢
      subst hi
      obtain rfl : b = rec := Option.some.inj (hb.symm.trans hrec)
      refine ⟨rfl, ?_⟩
      show b.payload.withFlags mark = b.payload.withFlags (mark ||| 0)
      rw [UInt8.or_zero]
    · have hzero : (0 : UInt8) = 1 := hone
      exact absurd hzero (by decide)
  · rw [hselect] at hi ⊢
    rcases recoverSelector_cases ((zero.useSlot 1 b).mergeFlags (slots false) (slots true) mark)
        (slots false) (slots true) mark with hsame | ⟨-, -, hzero, -⟩ | ⟨a, ha, -, hswitch⟩
    · rw [hsame] at hi ⊢
      subst hi
      obtain rfl : b = rec := Option.some.inj (hb.symm.trans hrec)
      refine ⟨rfl, ?_⟩
      show b.payload.withFlags (mark ||| slotFlags (slots false) ||| slotFlags (slots true)) =
        b.payload.withFlags (mark ||| slotFlags (slots false))
      rw [hb]
      exact withFlags_own_last b.payload mark _
    · have hone : (1 : UInt8) = 0 := hzero
      exact absurd hone (by decide)
    · rw [hswitch] at hi ⊢
      subst hi
      obtain rfl : a = rec := Option.some.inj (ha.symm.trans hrec)
      refine ⟨rfl, ?_⟩
      show a.payload.withFlags mark = a.payload.withFlags (mark ||| 0)
      rw [UInt8.or_zero]
  · cases hside : side i with
    | false => cases (hside ▸ hrec).symm.trans ha
    | true => cases (hside ▸ hrec).symm.trans hb

end NvsCore

/-- **Migration.**  A good V1 or V2 record in the slot that init takes: its strings unchanged,
its flags with the marker's and the merged ones of the other slot, and the standalone profile.
The upgraded record passes again unchanged, and no record passes on a CRC of another schema. -/
theorem init_migrates {s t : NvsStore} {tr : List (Σ q, NvsCall.Answer q)} {e : EspErr}
    {core : NvsCore} (h : Prog.Exec NvsStore.Call NvsCore.init s tr (e, core) t) {i : UInt8}
    {rec : CfgSlot} {size : Nat} (hslot : s.slot i = .ok rec) (hold : rec.Historical size)
    (hi : core.activeSlotIndex = i) :
    (e = espOk ∧ core.get = .ok { rec.payload with
      provisionedFlags := rec.storedFlags ||| (hwmFlagsOf s.provHwm |||
        if (NvsCore.selectSlot (s.slots false) (s.slots true)
            (readSelectorOr s.selector)).activeSlotIndex = i then
          NvsCore.slotFlags (s.slots (!side i))
        else 0)
      authorityProfile := authorityProfileStandaloneHmi }) ∧
    (∃ next, rec.isSlotValid = some next ∧ next.isSlotValid = some next) ∧
    ∀ slot : CfgSlot,
      (∀ n, CfgSlot.schemaSize slot.schemaVersion = some n →
        slot.crc32 ≠ calcCrc32Raw (slot.payload.bytes.take n)) →
      slot.isSlotValid = none := by
  have hupgrade := CfgSlot.isSlotValid_historical hold
  refine ⟨?_, ⟨_, hupgrade, CfgSlot.isSlotValid_current_ok hold.generation hold.settings⟩, ?_⟩
  · obtain ⟨rfl, rfl, -⟩ := exec_init h
    have hchosen : s.slots (side i) = some (CfgSlot.current rec.configGeneration rec.migrated) := by
      rw [NvsStore.slots_side, hslot]
      exact hupgrade
    obtain ⟨hvalid, hconfig⟩ := NvsCore.load_chosen hchosen hi
    refine ⟨rfl, ?_⟩
    have hpresent : ¬ ¬ s.load.1.hasValidConfig = true := not_not.mpr hvalid
    exact (if_neg hpresent).trans (congrArg Except.ok hconfig)
  · intro slot hcrc
    cases hpass : slot.isSlotValid with
    | none => rfl
    | some next =>
      obtain ⟨n, hn, hmatch⟩ := CfgSlot.crc_of_isSlotValid hpass
      exact absurd hmatch (hcrc n hn)

/-- `pumpConfig` as schema V1 stored it. -/
def v1Record : CfgSlot where
  schemaVersion := configSchemaV1
  configGeneration := 1
  payloadLength := configPayloadV1Size.toUInt16
  crc32 := calcCrc32Raw (pumpConfig.bytes.take configPayloadV1Size)
  validMarker := configValidMarker
  payload := pumpConfig

theorem v1Record_historical : v1Record.Historical configPayloadV1Size :=
  ⟨rfl, by decide, by decide, rfl, rfl, rfl, by decide +kernel⟩

/-- The V1 record is selected beside a locked one, and the marker was never written. -/
def v1Store : NvsStore where
  slotA := .ok v1Record
  slotB := .ok (CfgSlot.current 2 (pumpConfig.withFlags cfgProvisionedIdentity))
  selector := .ok 0
  provHwm := .error espErrNvsNotFound

theorem v1Store_slots :
    v1Store.slots false = some (CfgSlot.current 1 v1Record.migrated) ∧
      v1Store.slots true =
        some (CfgSlot.current 2 (pumpConfig.withFlags cfgProvisionedIdentity)) := by
  constructor
  · show v1Record.isSlotValid = _
    exact CfgSlot.isSlotValid_historical v1Record_historical
  · have hv : (pumpConfig.withFlags cfgProvisionedIdentity).validate = espOk := by decide +kernel
    show (CfgSlot.current 2 (pumpConfig.withFlags cfgProvisionedIdentity)).isSlotValid = _
    exact CfgSlot.isSlotValid_current_ok (by decide) hv

theorem v1Store_load :
    v1Store.load = ((NvsCore.zero.useSlot 0 (CfgSlot.current 1 v1Record.migrated)).raiseFlags
      cfgProvisionedIdentity, none) := by
  obtain ⟨ha, hb⟩ := v1Store_slots
  unfold NvsStore.load
  rw [ha, hb]
  rfl

theorem init_migrates_v1 :
    ∃ tr core, Prog.Exec NvsStore.Call NvsCore.init v1Store tr (espOk, core) v1Store ∧
      core.get = .ok (pumpConfig.withFlags cfgProvisionedIdentity) := by
  obtain ⟨tr, hrun⟩ := init_run v1Store (by rw [v1Store_load])
  obtain ⟨⟨-, hget⟩, -⟩ := @init_migrates _ _ _ _ _ hrun 0 _ _ rfl v1Record_historical
    (by rw [v1Store_load]; rfl)
  have hstored : v1Record.storedFlags = 0 := rfl
  have hother : v1Store.slots (!side 0) =
      some (CfgSlot.current 2 (pumpConfig.withFlags cfgProvisionedIdentity)) := v1Store_slots.2
  rw [hstored, hother, v1Store_slots.1, v1Store_slots.2] at hget
  exact ⟨tr, _, hrun, hget⟩

/-- The marker holds no flag and V1 stored none, and the identity is locked all the same. -/
theorem init_merges_other_slot :
    v1Record.Historical configPayloadV1Size ∧ v1Store.slot 0 = .ok v1Record ∧
      ∃ tr core, Prog.Exec NvsStore.Call NvsCore.init v1Store tr (espOk, core) v1Store ∧
        core.activeSlotIndex = 0 ∧
        core.activeConfig.provisionedFlags ≠ v1Record.storedFlags ||| hwmFlagsOf v1Store.provHwm := by
  obtain ⟨tr, hrun⟩ := init_run v1Store (by rw [v1Store_load])
  refine ⟨v1Record_historical, rfl, tr, _, hrun, ?_, ?_⟩
  · rw [v1Store_load]
    rfl
  · rw [v1Store_load]
    decide

end Argus
