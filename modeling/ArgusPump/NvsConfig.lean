import ArgusPump.Lib.Prog
import ArgusPump.StateCore
import Mathlib.Logic.Function.Iterate

/-!
# The dual-slot configuration store

`main/argus_nvs_config.c`: the record of a slot and its check, `argus_nvs_core_init`
and `argus_nvs_core_commit` as programs over the storage driver's calls.  The driver
table is complete, as `s_prod_driver` and the tests' mock are.  A `char` array is the
vector of its bytes; a packed struct has no padding, so `memcmp` is equality.

Left out: NULL arguments, log output, the factory reset and the observation snapshot.
-/

namespace Argus

open Interact

def espErrNvsNotFound : EspErr := 0x1102

/-! ## The configuration payload -/

def configSchemaVersion : UInt16 := 3
def configSchemaV1 : UInt16 := 1
def configSchemaV2 : UInt16 := 2
def configPayloadV1Size : Nat := 228
def configPayloadV2Size : Nat := 229
def configPayloadSize : Nat := 230
def configValidMarker : UInt32 := 0xA5A55A5A
/-- `"********"`. -/
def configMaskString : List UInt8 := List.replicate 8 0x2A

def cfgStaSsidMax : Nat := 32
def cfgStaPassMin : Nat := 8
def cfgStaPassMax : Nat := 63
def cfgProvisionedIdentity : UInt8 := 0x01
def authorityProfileStandaloneHmi : UInt8 := 0
def authorityProfileMax : UInt8 := 1

/-- `argus_config_payload_t`. -/
structure ConfigPayload where
  clientId : Vector UInt8 33
  unitId : Vector UInt8 33
  deviceName : Vector UInt8 65
  staSsid : Vector UInt8 33
  staPass : Vector UInt8 64
  provisionedFlags : UInt8
  authorityProfile : UInt8
deriving DecidableEq

/-- The string in a `char` array.  In an array without a NUL, `strlen` reads on past
the end; every caller asks only for bounds below the size. -/
def cString {n : Nat} (a : Vector UInt8 n) : List UInt8 := a.toList.takeWhile (· ≠ 0)

def strlen {n : Nat} (a : Vector UInt8 n) : Nat := (cString a).length

/-- A zeroed `char` array with a string copied into it. -/
def charArray (n : Nat) (s : List UInt8) : Vector UInt8 n := Vector.ofFn fun i => s.getD i 0

theorem cString_charArray {n : Nat} {s : List UInt8} (hn : s.length ≤ n) (h0 : 0 ∉ s) :
    cString (charArray n s) = s := by
  have hlist : (charArray n s).toList = s ++ List.replicate (n - s.length) 0 := by
    apply List.ext_getElem?
    intro i
    unfold charArray
    rw [Vector.toList_ofFn, List.getElem?_ofFn, List.getElem?_append, List.getElem?_replicate]
    by_cases hi : i < s.length
    · rw [dif_pos (by omega), if_pos hi]
      simp [hi]
    · rw [if_neg hi]
      by_cases hin : i < n
      · rw [dif_pos hin, if_pos (by omega)]
        simp [List.getElem?_eq_none (by omega : s.length ≤ i)]
      · rw [dif_neg hin, if_neg (by omega)]
  unfold cString
  rw [hlist, List.takeWhile_append_of_pos]
  · cases n - s.length <;> simp [List.replicate_succ]
  · intro c hc
    have hne : c ≠ 0 := by
      rintro rfl
      exact h0 hc
    simpa using hne

/-- `strlcpy` into a zeroed array. -/
def strlcpy (n : Nat) (s : List UInt8) : Vector UInt8 n := charArray n (s.take (n - 1))

theorem cString_strlcpy {n : Nat} {s : List UInt8} (hn : s.length < n) (h0 : 0 ∉ s) :
    cString (strlcpy n s) = s := by
  unfold strlcpy
  rw [List.take_of_length_le (by omega)]
  exact cString_charArray (by omega) h0

/-- Bytes copied over the start of an array, and a NUL behind them. -/
@[irreducible]
def putString {n : Nat} (dst : Vector UInt8 n) (text : List UInt8) : Vector UInt8 n :=
  Vector.ofFn fun i =>
    if h : i.val < text.length then text.get ⟨i, h⟩
    else if i.val = text.length then 0
    else dst.get i

theorem putString_toList {n : Nat} (dst : Vector UInt8 n) {text : List UInt8}
    (hlen : text.length < n) :
    (putString dst text).toList = text ++ 0 :: dst.toList.drop (text.length + 1) := by
  unfold putString
  apply List.ext_getElem?
  intro i
  rw [Vector.toList_ofFn, List.getElem?_ofFn, List.getElem?_append]
  by_cases hi : i < text.length
  · rw [dif_pos (by omega), if_pos hi, dif_pos hi]
    simp [hi]
  · rw [if_neg hi]
    by_cases hin : i < n
    · rw [dif_pos hin, dif_neg hi]
      by_cases hlast : i = text.length
      · rw [if_pos hlast, hlast, Nat.sub_self]
        rfl
      · rw [if_neg hlast, List.getElem?_cons, if_neg (by omega), List.getElem?_drop,
          show text.length + 1 + (i - text.length - 1) = i by omega,
          List.getElem?_eq_getElem (by rw [Vector.length_toList]; exact hin)]
        rfl
    · rw [dif_neg hin, List.getElem?_eq_none]
      simp only [List.length_cons, List.length_drop, Vector.length_toList]
      omega

theorem putString_zero {n : Nat} (text : List UInt8) :
    putString (.replicate n 0) text = charArray n text := by
  unfold putString charArray
  congr 1
  funext i
  by_cases hi : i.val < text.length
  · rw [dif_pos hi]
    simp [hi]
  · rw [dif_neg hi, List.getD_eq_getElem?_getD, List.getElem?_eq_none (Nat.not_lt.mp hi)]
    split
    · rfl
    · exact Vector.getElem_replicate i.isLt

theorem cString_putString {n : Nat} (dst : Vector UInt8 n) {text : List UInt8}
    (hlen : text.length < n) (h0 : 0 ∉ text) : cString (putString dst text) = text := by
  have hne : ∀ c ∈ text, c ≠ 0 := by
    rintro c hc rfl
    exact h0 hc
  unfold cString
  rw [putString_toList dst hlen, List.takeWhile_append_of_pos (by simpa using hne)]
  simp

theorem zero_notMem_cString {n : Nat} (a : Vector UInt8 n) : 0 ∉ cString a := by
  intro h
  have hall : (cString a).all (· ≠ 0) = true := List.all_takeWhile
  have h0 := List.all_eq_true.mp hall 0 h
  simp at h0

theorem strlen_le {n : Nat} (a : Vector UInt8 n) : strlen a ≤ n := by
  have h := (List.takeWhile_prefix (l := a.toList) (· ≠ 0)).length_le
  rwa [Vector.length_toList] at h

/-- A terminated string survives `strlcpy` between arrays of one size. -/
theorem cString_strlcpy_cString {n : Nat} {a : Vector UInt8 n} (h : strlen a < n) :
    cString (strlcpy n (cString a)) = cString a :=
  cString_strlcpy h (zero_notMem_cString a)

def asciiBytes (s : String) : List UInt8 := s.toList.map fun c => c.toNat.toUInt8

def isalnum (c : UInt8) : Bool :=
  (0x30 ≤ c && c ≤ 0x39) || (0x41 ≤ c && c ≤ 0x5A) || (0x61 ≤ c && c ≤ 0x7A)

def isprint (c : UInt8) : Bool := 0x20 ≤ c && c ≤ 0x7E

/-- The length and character check of the identity strings. -/
def identityValidate {n : Nat} (max : Nat) (allowed : UInt8 → Bool) (a : Vector UInt8 n) : Bool :=
  if strlen a < 1 ∨ strlen a > max then false else (cString a).all allowed

def identityChar (c : UInt8) : Bool := isalnum c || c = 0x2D || c = 0x5F

def identityValidateClientId (a : Vector UInt8 33) : Bool := identityValidate 32 identityChar a
def identityValidateUnitId (a : Vector UInt8 33) : Bool := identityValidate 32 identityChar a
def identityValidateDeviceName (a : Vector UInt8 65) : Bool := identityValidate 64 isprint a

namespace ConfigPayload

def bytes (p : ConfigPayload) : List UInt8 :=
  p.clientId.toList ++ p.unitId.toList ++ p.deviceName.toList ++ p.staSsid.toList ++
    p.staPass.toList ++ [p.provisionedFlags, p.authorityProfile]

/-- `argus_nvs_config_validate`. -/
def validate (cfg : ConfigPayload) : EspErr :=
  if ¬ identityValidateClientId cfg.clientId then espErrInvalidArg
  else if ¬ identityValidateUnitId cfg.unitId then espErrInvalidArg
  else if ¬ identityValidateDeviceName cfg.deviceName then espErrInvalidArg
  else if strlen cfg.staSsid > cfgStaSsidMax then espErrInvalidArg
  else if strlen cfg.staSsid > 0 ∧
      (strlen cfg.staPass < cfgStaPassMin ∨ strlen cfg.staPass > cfgStaPassMax) then
    espErrInvalidArg
  else if cfg.authorityProfile > authorityProfileMax then espErrInvalidArg
  else espOk

end ConfigPayload

/-! ## Slots -/

/-- The two slot indices. -/
theorem eq_zero_or_one {v : UInt8} (h : v ≤ 1) : v = 0 ∨ v = 1 := by
  have hle : v.toNat ≤ 1 := h
  by_cases h0 : v.toNat = 0
  · exact .inl (UInt8.toNat_inj.mp h0)
  · exact .inr (UInt8.toNat_inj.mp (show v.toNat = 1 by omega))

/-- One step of the CRC register. -/
def crc32Bit (crc : UInt32) : UInt32 :=
  if crc &&& 1 ≠ 0 then (crc >>> 1) ^^^ 0xEDB88320 else crc >>> 1

def calcCrc32Raw (data : List UInt8) : UInt32 :=
  ~~~(data.foldl (fun crc b => crc32Bit^[8] (crc ^^^ b.toUInt32)) 0xFFFFFFFF)

/-- `argus_cfg_slot_t`. -/
structure CfgSlot where
  schemaVersion : UInt16
  configGeneration : UInt32
  payloadLength : UInt16
  crc32 : UInt32
  validMarker : UInt32
  payload : ConfigPayload
deriving DecidableEq

/-- `argus_nvs_config_gen_is_newer`; the difference is read as an `int32_t`. -/
def genIsNewer (genA genB : UInt32) : Bool :=
  if genA = 0 then false
  else if genB = 0 then true
  else 0 < (genA - genB).toInt32

namespace CfgSlot

/-- A record of the current schema around `payload`. -/
def current (generation : UInt32) (payload : ConfigPayload) : CfgSlot where
  schemaVersion := configSchemaVersion
  configGeneration := generation
  payloadLength := configPayloadSize.toUInt16
  crc32 := calcCrc32Raw payload.bytes
  validMarker := configValidMarker
  payload := payload

/-- `is_slot_valid`: the record as the check leaves it, V1 and V2 records upgraded in
place. -/
def isSlotValid (slot : CfgSlot) : Option CfgSlot :=
  if slot.validMarker ≠ configValidMarker then none
  else if slot.configGeneration = 0 then none
  else if slot.schemaVersion = configSchemaVersion ∧
      slot.payloadLength = configPayloadSize.toUInt16 then
    if calcCrc32Raw slot.payload.bytes ≠ slot.crc32 then none
    else if slot.payload.validate = espOk then some slot else none
  else if slot.schemaVersion = configSchemaV1 ∧
      slot.payloadLength = configPayloadV1Size.toUInt16 then
    if calcCrc32Raw (slot.payload.bytes.take configPayloadV1Size) ≠ slot.crc32 then none
    else
      let payload := { slot.payload with
        provisionedFlags := 0
        authorityProfile := authorityProfileStandaloneHmi }
      if payload.validate = espOk then some (current slot.configGeneration payload) else none
  else if slot.schemaVersion = configSchemaV2 ∧
      slot.payloadLength = configPayloadV2Size.toUInt16 then
    if calcCrc32Raw (slot.payload.bytes.take configPayloadV2Size) ≠ slot.crc32 then none
    else
      let payload := { slot.payload with authorityProfile := authorityProfileStandaloneHmi }
      if payload.validate = espOk then some (current slot.configGeneration payload) else none
  else none

end CfgSlot

/-! ## The storage driver -/

/-- The calls of `argus_nvs_driver_t` the core makes. -/
inductive NvsCall
  | readSlot (slotIndex : UInt8)
  | writeSlot (slotIndex : UInt8) (slot : CfgSlot)
  | readSelector
  | writeSelector (selector : UInt8)
  | readProvisionedHwm
  | writeProvisionedHwm (flags : UInt8)

/-- A read answers its data or an error, a write its `esp_err_t`. -/
abbrev NvsCall.Answer : NvsCall → Type
  | .readSlot _ => Except EspErr CfgSlot
  | .writeSlot _ _ => EspErr
  | .readSelector => Except EspErr UInt8
  | .writeSelector _ => EspErr
  | .readProvisionedHwm => Except EspErr UInt8
  | .writeProvisionedHwm _ => EspErr

abbrev NvsProg := Prog NvsCall NvsCall.Answer

/-- `err == ESP_OK && is_slot_valid(&slot)`. -/
def validSlot : Except EspErr CfgSlot → Option CfgSlot
  | .ok slot => slot.isSlotValid
  | .error _ => none

/-- The selector variable after the read; it starts as `0xFF`. -/
def readSelectorOr : Except EspErr UInt8 → UInt8
  | .ok selector => selector
  | .error _ => 0xFF

/-- The high-water flags after the read: none where there is no marker yet, all of them
on any other error. -/
def hwmFlagsOf : Except EspErr UInt8 → UInt8
  | .ok flags => flags
  | .error e => if e = espErrNvsNotFound then 0 else 0xFF

/-! ## The core -/

/-- `argus_nvs_core_t`. -/
structure NvsCore where
  activeConfig : ConfigPayload
  activeGeneration : UInt32
  activeSlotIndex : UInt8
  hasValidConfig : Bool
  initialized : Bool
deriving DecidableEq

/-- Bit 0 of a flags byte: the identity is locked. -/
def IdentityLocked (flags : UInt8) : Prop := flags &&& cfgProvisionedIdentity ≠ 0

instance : DecidablePred IdentityLocked := fun flags =>
  inferInstanceAs (Decidable (flags &&& cfgProvisionedIdentity ≠ 0))

namespace NvsCore

def zero : NvsCore where
  activeConfig := ⟨.replicate 33 0, .replicate 33 0, .replicate 65 0, .replicate 33 0,
    .replicate 64 0, 0, 0⟩
  activeGeneration := 0
  activeSlotIndex := 0
  hasValidConfig := false
  initialized := false

def useSlot (core : NvsCore) (i : UInt8) (slot : CfgSlot) : NvsCore :=
  { core with
    activeConfig := slot.payload
    activeGeneration := slot.configGeneration
    activeSlotIndex := i
    hasValidConfig := true }

def raiseFlags (core : NvsCore) (flags : UInt8) : NvsCore :=
  { core with activeConfig := { core.activeConfig with
      provisionedFlags := core.activeConfig.provisionedFlags ||| flags } }

/-- Phase 1 of init: selector-based slot selection. -/
def selectSlot (slotA slotB : Option CfgSlot) (selector : UInt8) : NvsCore :=
  match slotA, slotB with
  | some a, some b =>
    if selector = 0 then zero.useSlot 0 a
    else if selector = 1 then zero.useSlot 1 b
    else if genIsNewer b.configGeneration a.configGeneration then zero.useSlot 1 b
    else zero.useSlot 0 a
  | some a, none => zero.useSlot 0 a
  | none, some b => zero.useSlot 1 b
  | none, none => zero

def slotFlags : Option CfgSlot → UInt8
  | some slot => slot.payload.provisionedFlags
  | none => 0

/-- Phase 2 of init: monotonic provisioning enforcement. -/
def mergeFlags (core : NvsCore) (slotA slotB : Option CfgSlot) (hwmFlags : UInt8) : NvsCore :=
  if core.hasValidConfig then
    core.raiseFlags (hwmFlags ||| slotFlags slotA ||| slotFlags slotB)
  else core

/-- Phase 3 of init: selector-failure recovery, with the selector to write back. -/
def recoverSelector (core : NvsCore) (slotA slotB : Option CfgSlot) (hwmFlags : UInt8) :
    NvsCore × Option UInt8 :=
  match slotA, slotB with
  | some a, some b =>
    if core.hasValidConfig ∧ IdentityLocked hwmFlags then
      if core.activeSlotIndex = 0 ∧ ¬ IdentityLocked a.payload.provisionedFlags ∧
          IdentityLocked b.payload.provisionedFlags then
        ((core.useSlot 1 b).raiseFlags hwmFlags, some 1)
      else if core.activeSlotIndex = 1 ∧ ¬ IdentityLocked b.payload.provisionedFlags ∧
          IdentityLocked a.payload.provisionedFlags then
        ((core.useSlot 0 a).raiseFlags hwmFlags, some 0)
      else (core, none)
    else (core, none)
  | _, _ => (core, none)

/-- The three phases on what init has read. -/
def load (slotA slotB : Option CfgSlot) (selector hwmFlags : UInt8) : NvsCore × Option UInt8 :=
  ((selectSlot slotA slotB selector).mergeFlags slotA slotB hwmFlags).recoverSelector
    slotA slotB hwmFlags

/-- `argus_nvs_core_init`. -/
def init : NvsProg (EspErr × NvsCore) :=
  .ask (.readSlot 0) fun slotA =>
  .ask (.readSlot 1) fun slotB =>
  .ask .readSelector fun selector =>
  .ask .readProvisionedHwm fun hwm =>
  let core := load (validSlot slotA) (validSlot slotB) (readSelectorOr selector) (hwmFlagsOf hwm)
  match core.2 with
  | some repair => .ask (.writeSelector repair) fun _ =>
      -- best effort: the result is not looked at
      .ret (espOk, { core.1 with initialized := true })
  | none => .ret (espOk, { core.1 with initialized := true })

/-- `argus_nvs_core_get`. -/
def get (core : NvsCore) : Except EspErr ConfigPayload :=
  if ¬ core.hasValidConfig then .error espErrNotFound else .ok core.activeConfig

/-- The slot commit writes: the one the selector does not point to, else the inactive one. -/
def inactiveSlot (core : NvsCore) : Except EspErr UInt8 → UInt8
  | .ok selector =>
    if selector ≤ 1 then if selector = 0 then 1 else 0
    else if core.activeSlotIndex = 0 then 1 else 0
  | .error _ => if core.activeSlotIndex = 0 then 1 else 0

/-- The end of commit: selector activation and the final read. -/
def activate (core : NvsCore) (inactive : UInt8) (nextGen : UInt32) : NvsProg (EspErr × NvsCore) :=
  .ask (.writeSelector inactive) fun selErr =>
  if selErr ≠ espOk then .ret (selErr, core)
  else
    .ask (.readSlot inactive) fun finalSlot =>
    match validSlot finalSlot with
    | none => .ret (espErrInvalidState, core)
    | some slot => .ret (espOk, { core with
        activeSlotIndex := inactive
        activeGeneration := nextGen
        activeConfig := slot.payload
        hasValidConfig := true })

/-- The mask check and `argus_nvs_config_validate`, before commit touches the driver. -/
def checkInput (inCfg : ConfigPayload) : EspErr :=
  if cString inCfg.staPass = configMaskString then espErrInvalidArg else inCfg.validate

/-- `argus_nvs_core_commit`. -/
def commit (core : NvsCore) (inCfg : ConfigPayload) : NvsProg (EspErr × NvsCore) :=
  if checkInput inCfg ≠ espOk then .ret (checkInput inCfg, core)
  else
    .ask .readSelector fun selector =>
    let inactive := core.inactiveSlot selector
    let nextGen := core.activeGeneration + 1
    .ask (.writeSlot inactive (CfgSlot.current nextGen inCfg)) fun writeErr =>
    if writeErr ≠ espOk then .ret (writeErr, core)
    else
      .ask (.readSlot inactive) fun verifySlot =>
      -- the read-back has to be valid and to hold the bytes just written
      if (validSlot verifySlot).map (·.payload) ≠ some inCfg then .ret (espErrInvalidState, core)
      else if IdentityLocked inCfg.provisionedFlags then
        .ask (.writeProvisionedHwm inCfg.provisionedFlags) fun hwmErr =>
        if hwmErr ≠ espOk then .ret (hwmErr, core) else core.activate inactive nextGen
      else core.activate inactive nextGen

end NvsCore

end Argus
