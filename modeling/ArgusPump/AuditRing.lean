import ArgusPump.SecurityStore
import ArgusPump.Lib.Prog
import ArgusPump.Lib.Run
import ArgusPump.Lib.SpareRing

/-!
# The security audit ring

`main/argus_security_audit.c`: 255 records in 256 slots of a partition, and one blob that says
which slots are live.  An append writes the spare slot and then the blob, so the store is a
`SpareRing`; the statics follow the blob only when both writes are reported done.

    the blob stands for a log, a record is in the spare slot
      → the next blob stands for the log and the record        (AuditMeta.Stands.next)
    the blob stands for a log → reads answer its last 255      (auditRead_eq)
-/

namespace Argus

open Interact

def auditCapacity : UInt32 := 255
def auditPhysicalSlots : UInt32 := auditCapacity + 1
def auditSchema : UInt16 := 1
def auditTextMax : Nat := 36
def auditActionMax : Nat := 20
def auditOutcomeSuccess : UInt8 := 1
def auditOutcomeFailed : UInt8 := 3
def auditOutcomePrepared : UInt8 := 4
def espErrInvalidVersion : EspErr := 0x10A

/-! ## Records -/

/-- `argus_security_audit_record_t`. -/
structure AuditRecord where
  schemaVersion : UInt16
  eventType : UInt16
  outcome : UInt8
  principalType : UInt8
  lifecycleId : UInt16
  sequence : UInt64
  bootId : UInt64
  uptimeUs : UInt64
  securityEpoch : UInt32
  actor : Vector UInt8 37
  target : Vector UInt8 37
  source : Vector UInt8 16
  reason : Vector UInt8 37
  crc32 : UInt32
deriving DecidableEq

namespace AuditRecord

/-- Its bytes in memory, one of them padding. -/
def bytes (r : AuditRecord) : List UInt8 :=
  le16 r.schemaVersion ++ le16 r.eventType ++ [r.outcome, r.principalType] ++ le16 r.lifecycleId ++
    le64 r.sequence ++ le64 r.bootId ++ le64 r.uptimeUs ++ le32 r.securityEpoch ++ r.actor.toList ++
    r.target.toList ++ r.source.toList ++ r.reason.toList ++ [0] ++ le32 r.crc32

/-- `record_crc`. -/
def recordCrc (r : AuditRecord) : UInt32 := crc32Bytes { r with crc32 := 0 }.bytes

def zero : AuditRecord where
  schemaVersion := 0
  eventType := 0
  outcome := 0
  principalType := 0
  lifecycleId := 0
  sequence := 0
  bootId := 0
  uptimeUs := 0
  securityEpoch := 0
  actor := .replicate 37 0
  target := .replicate 37 0
  source := .replicate 16 0
  reason := .replicate 37 0
  crc32 := 0

end AuditRecord

/-- `audit_meta_t`. -/
structure AuditMeta where
  schemaVersion : UInt16
  reserved : UInt16
  count : UInt32
  oldestSlot : UInt32
  spareSlot : UInt32
  overwritten : UInt32
  nextSequence : UInt64
  crc32 : UInt32
deriving DecidableEq

namespace AuditMeta

/-- Its bytes in memory, with the padding before `next_sequence` and at the end. -/
def bytes (m : AuditMeta) : List UInt8 :=
  le16 m.schemaVersion ++ le16 m.reserved ++ le32 m.count ++ le32 m.oldestSlot ++ le32 m.spareSlot ++
    le32 m.overwritten ++ [0, 0, 0, 0] ++ le64 m.nextSequence ++ le32 m.crc32 ++ [0, 0, 0, 0]

/-- `meta_crc`. -/
def metaCrc (m : AuditMeta) : UInt32 := crc32Bytes { m with crc32 := 0 }.bytes

/-- With its check. -/
def checked (m : AuditMeta) : AuditMeta := { m with crc32 := m.metaCrc }

/-- What init writes to a blank partition. -/
def fresh : AuditMeta := checked ⟨auditSchema, 0, 0, 0, 0, 0, 1, 0⟩

/-- What init asks of the blob it reads. -/
def valid (m : AuditMeta) : Bool :=
  m.schemaVersion = auditSchema && m.reserved = 0 && m.count ≤ auditCapacity &&
    m.oldestSlot < auditPhysicalSlots && m.spareSlot < auditPhysicalSlots && m.nextSequence ≠ 0 &&
    m.crc32 = m.metaCrc

/-- With the spare slot counted; a full ring gives up its oldest slot. -/
def moved (m : AuditMeta) : AuditMeta :=
  if m.count < auditCapacity then
    { m with count := m.count + 1, spareSlot := (m.spareSlot + 1) % auditPhysicalSlots }
  else
    { m with
      oldestSlot := (m.oldestSlot + 1) % auditPhysicalSlots
      spareSlot := m.oldestSlot
      overwritten := m.overwritten + 1 }

/-- The blob `append_locked` writes. -/
def next (m : AuditMeta) : AuditMeta :=
  checked { m.moved with
    nextSequence := if m.moved.nextSequence + 1 = 0 then 1 else m.moved.nextSequence + 1 }

end AuditMeta

/-- The lifecycle `append_locked` gives a prepared record of the sequence number. -/
def foldLifecycle (sequence : UInt64) : UInt16 :=
  let folded := sequence ^^^ (sequence >>> 16) ^^^ (sequence >>> 32) ^^^ (sequence >>> 48)
  if folded.toUInt16 = 0 then 1 else folded.toUInt16

/-- The statics after init. -/
structure AuditRam where
  sMeta : AuditMeta
  bootId : UInt64
deriving DecidableEq

/-- The record `append_locked` writes. -/
def AuditRam.stamp (ram : AuditRam) (record : AuditRecord) (uptimeUs : UInt64) : AuditRecord :=
  let record := { record with schemaVersion := auditSchema, sequence := ram.sMeta.nextSequence }
  let record :=
    if record.outcome = auditOutcomePrepared ∧ record.lifecycleId = 0 then
      { record with lifecycleId := foldLifecycle record.sequence }
    else record
  let record := { record with bootId := ram.bootId, uptimeUs := uptimeUs }
  { record with crc32 := record.recordCrc }

/-! ## The partition -/

/-- What the partition holds: each read finds it. -/
structure AuditFlash where
  sMeta : Except EspErr AuditMeta
  slots : UInt32 → Except EspErr AuditRecord

def AuditFlash.blank : AuditFlash := ⟨.error espErrNvsNotFound, fun _ => .error espErrNvsNotFound⟩

/-- The calls of the driver, and in `start` those that create the queue and the task. -/
inductive AuditCall
  | initPartition
  | openAudit
  | getMeta
  | setMeta (m : AuditMeta)
  | setRecord (slot : UInt32) (record : AuditRecord)
  | commit
  | start

abbrev AuditCall.Answer : AuditCall → Type
  | .getMeta => Except EspErr AuditMeta
  | _ => EspErr

abbrev AuditProg := Prog AuditCall AuditCall.Answer

namespace AuditFlash

def setMeta (s : AuditFlash) (m : AuditMeta) : AuditFlash := { s with sMeta := .ok m }

def setRecord (s : AuditFlash) (slot : UInt32) (record : AuditRecord) : AuditFlash :=
  { s with slots := Function.update s.slots slot (.ok record) }

/-- A read finds what is stored, or fails; a write takes effect, or reports a failure and
changes nothing.  One that reports a failure may still have taken effect. -/
def Call : (q : AuditCall) → AuditFlash → q.Answer → AuditFlash → Prop
  | .getMeta, s, r, t => t = s ∧ (r = s.sMeta ∨ ∃ err, r = .error err ∧ err ≠ espErrNvsNotFound)
  | .setMeta m, s, r, t => t = s.setMeta m ∨ r ≠ espOk ∧ t = s
  | .setRecord slot record, s, r, t => t = s.setRecord slot record ∨ r ≠ espOk ∧ t = s
  | .initPartition, s, _, t | .openAudit, s, _, t | .commit, s, _, t | .start, s, _, t => t = s

def Cut (q : AuditCall) (s t : AuditFlash) : Prop := ∃ r, Call q s r t

/-- Calls none of which fails. -/
def ideal : (q : AuditCall) → AuditFlash → q.Answer × AuditFlash
  | .getMeta, s => (s.sMeta, s)
  | .setMeta m, s => (espOk, s.setMeta m)
  | .setRecord slot record, s => (espOk, s.setRecord slot record)
  | .initPartition, s | .openAudit, s | .commit, s | .start, s => (espOk, s)

theorem ideal_call (q : AuditCall) (s : AuditFlash) : Call q s (ideal q s).1 (ideal q s).2 := by
  cases q with
  | getMeta => exact ⟨rfl, .inl rfl⟩
  | setMeta m => exact .inl rfl
  | setRecord slot record => exact .inl rfl
  | _ => rfl

end AuditFlash

/-! ## The operations -/

/-- Goes on when the call answered `ESP_OK`. -/
def checkOk (err : EspErr) (p : AuditProg EspErr) : AuditProg EspErr := if err = espOk then p else .ret err

/-- `write_record_and_meta`. -/
def writeRecordAndMeta (slot : UInt32) (record : AuditRecord) (next : AuditMeta) : AuditProg EspErr :=
  .ask .openAudit fun err => checkOk err <|
  .ask (.setRecord slot record) fun err => checkOk err <|
  .ask .commit fun err => checkOk err <|
  .ask (.setMeta next) fun err => checkOk err <|
  .ask .commit fun err => .ret err

/-- `append_locked`. -/
def appendLocked (ram : AuditRam) (record : AuditRecord) (uptimeUs : UInt64) : AuditProg EspErr :=
  writeRecordAndMeta ram.sMeta.spareSlot (ram.stamp record uptimeUs) ram.sMeta.next

/-- The statics after `append_locked` answered `err`. -/
def AuditRam.appended (ram : AuditRam) (err : EspErr) : AuditRam :=
  if err = espOk then { ram with sMeta := ram.sMeta.next } else ram

/-- The blob that `argus_security_audit_init` reads or, on a blank partition, writes. -/
def auditInitMeta : AuditProg (Except EspErr AuditMeta) :=
  .ask .getMeta fun found =>
    match found with
    | .ok sMeta => .ret (if sMeta.valid then .ok sMeta else .error espErrInvalidCrc)
    | .error err =>
      if err = espErrNvsNotFound then
        .ask (.setMeta .fresh) fun err =>
          if err = espOk then .ask .commit fun err => .ret (if err = espOk then .ok .fresh else .error err)
          else .ret (.error err)
      else .ret (.error err)

/-- `argus_security_audit_init`, when no task runs yet: the statics it starts with. -/
def auditInit : AuditProg (Except EspErr AuditMeta) :=
  .ask .initPartition fun err =>
    if err ≠ espOk then .ret (.error err)
    else
      .ask .openAudit fun err =>
        if err ≠ espOk then .ret (.error err)
        else do
          match ← auditInitMeta with
          | .error err => .ret (.error err)
          | .ok sMeta => .ask .start fun err => .ret (if err = espOk then .ok sMeta else .error err)

/-- What `read_slot_locked` makes of the blob of a slot. -/
def checkRecord (found : Except EspErr AuditRecord) : Except EspErr AuditRecord :=
  match found with
  | .error err => .error err
  | .ok record =>
    if record.schemaVersion ≠ auditSchema then .error espErrInvalidVersion
    else if record.crc32 ≠ record.recordCrc then .error espErrInvalidCrc
    else .ok record

/-- `read_slot_locked`. -/
def readSlotLocked (flash : AuditFlash) (ram : AuditRam) (offsetFromOldest : UInt32) :
    Except EspErr AuditRecord :=
  checkRecord (flash.slots ((ram.sMeta.oldestSlot + offsetFromOldest) % auditPhysicalSlots))

/-- `argus_security_audit_read`, by whether the mutex is made and with the statics of a
successful init. -/
def auditRead (flash : AuditFlash) (mutex : Bool) (ram : Option AuditRam) (offsetFromOldest : UInt32) :
    Except EspErr AuditRecord :=
  if mutex = false then .error espErrInvalidArg
  else
    match ram with
    | none => .error espErrNotFound
    | some ram =>
      if offsetFromOldest ≥ ram.sMeta.count then .error espErrNotFound
      else readSlotLocked flash ram offsetFromOldest

/-! ## What the blob and the slots stand for -/

/-- The sequence number of the record that follows `n` others; 0 is left out. -/
def auditSequence (n : Nat) : Nat := n % (2 ^ 64 - 1) + 1

/-- Records as they are written, one after another. -/
structure SoundLog (log : List AuditRecord) : Prop where
  check : ∀ r ∈ log, checkRecord (.ok r) = .ok r
  sequence : ∀ i r, log[i]? = some r → r.sequence.toNat = auditSequence i

/-- Where the live slots are. -/
def AuditMeta.cursor (m : AuditMeta) : SpareRing.Cursor := ⟨m.oldestSlot.toNat, m.count.toNat⟩

/-- With this blob the slots are the end of `log`. -/
structure AuditMeta.Stands (m : AuditMeta) (slots : UInt32 → Except EspErr AuditRecord)
    (log : List AuditRecord) : Prop where
  schema : m.schemaVersion = auditSchema
  reserved : m.reserved = 0
  crc : m.crc32 = m.metaCrc
  spare : m.spareSlot.toNat = m.cursor.spare 256
  sequence : m.nextSequence.toNat = auditSequence log.length
  holds : SpareRing.Holds 256 (fun i => slots i.toUInt32) m.cursor (log.map .ok)

theorem auditSequence_pos (n : Nat) : 0 < auditSequence n := Nat.succ_pos _

theorem auditSequence_succ (n : Nat) :
    auditSequence (n + 1) = if auditSequence n = 2 ^ 64 - 1 then 1 else auditSequence n + 1 := by
  unfold auditSequence
  split <;> omega

theorem auditSequence_of_lt {n : Nat} (h : n < 2 ^ 64 - 1) : auditSequence n = n + 1 := by
  unfold auditSequence
  rw [Nat.mod_eq_of_lt h]

namespace AuditMeta

@[simp] theorem checked_crc (m : AuditMeta) : m.checked.crc32 = m.checked.metaCrc := rfl

theorem fresh_stands (slots : UInt32 → Except EspErr AuditRecord) : fresh.Stands slots [] :=
  ⟨rfl, rfl, rfl, rfl, rfl, SpareRing.holds_nil (by decide) _⟩

theorem moved_nextSequence (m : AuditMeta) : m.moved.nextSequence = m.nextSequence := by
  unfold moved
  split <;> rfl

theorem next_count (m : AuditMeta) :
    m.next.count = if m.count < auditCapacity then m.count + 1 else m.count :=
  apply_ite AuditMeta.count _ _ _

theorem next_oldestSlot (m : AuditMeta) : m.next.oldestSlot =
    if m.count < auditCapacity then m.oldestSlot else (m.oldestSlot + 1) % auditPhysicalSlots :=
  apply_ite AuditMeta.oldestSlot _ _ _

theorem next_spareSlot (m : AuditMeta) : m.next.spareSlot =
    if m.count < auditCapacity then (m.spareSlot + 1) % auditPhysicalSlots else m.oldestSlot :=
  apply_ite AuditMeta.spareSlot _ _ _

theorem next_nextSequence (m : AuditMeta) :
    m.next.nextSequence = if m.nextSequence + 1 = 0 then 1 else m.nextSequence + 1 := by
  rw [← moved_nextSequence m]
  rfl

theorem toNat_succ_mod {slot : UInt32} (h : slot.toNat < 256) :
    ((slot + 1) % auditPhysicalSlots).toNat = (slot.toNat + 1) % 256 := by
  have hsum : (slot + 1).toNat = slot.toNat + 1 :=
    Nat.mod_eq_of_lt (show slot.toNat + 1 < 2 ^ 32 by omega)
  rw [UInt32.toNat_mod, hsum]
  rfl

theorem next_cursor {m : AuditMeta} (holdest : m.oldestSlot.toNat < 256)
    (hcount : m.count.toNat ≤ 255) : m.next.cursor = m.cursor.advance 256 := by
  have hlt : m.count < auditCapacity ↔ m.count.toNat < 256 - 1 := UInt32.lt_iff_toNat_lt
  unfold cursor SpareRing.Cursor.advance
  rw [next_count, next_oldestSlot]
  by_cases h : m.count < auditCapacity
  · have hsum : (m.count + 1).toNat = m.count.toNat + 1 :=
      Nat.mod_eq_of_lt (show m.count.toNat + 1 < 2 ^ 32 by omega)
    rw [if_pos h, if_pos h, if_pos (hlt.mp h), hsum]
  · rw [if_neg h, if_neg h, if_neg (mt hlt.mpr h), toNat_succ_mod holdest]

theorem next_spare {m : AuditMeta} (holdest : m.oldestSlot.toNat < 256)
    (hcount : m.count.toNat ≤ 255) (hspare : m.spareSlot.toNat = m.cursor.spare 256) :
    m.next.spareSlot.toNat = m.next.cursor.spare 256 := by
  have hlt : m.count < auditCapacity ↔ m.cursor.count < 256 - 1 := UInt32.lt_iff_toNat_lt
  have hbound : m.cursor.spare 256 < 256 := Nat.mod_lt _ (by decide)
  rw [next_cursor holdest hcount, SpareRing.Cursor.spare_advance holdest hcount, ← hspare, next_spareSlot]
  by_cases h : m.count < auditCapacity
  · rw [if_pos h, if_pos (hlt.mp h), toNat_succ_mod (hspare ▸ hbound)]
  · rw [if_neg h, if_neg (mt hlt.mpr h)]
    rfl

theorem next_sequence {m : AuditMeta} {n : Nat} (h : m.nextSequence.toNat = auditSequence n) :
    m.next.nextSequence.toNat = auditSequence (n + 1) := by
  rw [next_nextSequence, auditSequence_succ, ← h]
  have hbound := m.nextSequence.toNat_lt
  have hsucc : (m.nextSequence + 1).toNat = (m.nextSequence.toNat + 1) % 2 ^ 64 := UInt64.toNat_add _ _
  by_cases hlast : m.nextSequence.toNat = 2 ^ 64 - 1
  · have hzero : m.nextSequence + 1 = 0 := UInt64.toNat_inj.mp (by rw [hsucc, hlast]; rfl)
    rw [if_pos hzero, if_pos hlast]
    rfl
  · have hne : m.nextSequence + 1 ≠ 0 := by
      intro hzero
      have := congrArg UInt64.toNat hzero
      rw [hsucc, UInt64.toNat_zero] at this
      omega
    rw [if_neg hne, if_neg hlast, hsucc]
    omega

namespace Stands

variable {m : AuditMeta} {slots slots' : UInt32 → Except EspErr AuditRecord} {log : List AuditRecord}

theorem count_le (h : m.Stands slots log) : m.count.toNat ≤ 255 := Nat.le_of_lt_succ h.holds.count_lt

theorem spare_lt (h : m.Stands slots log) : m.spareSlot.toNat < 256 := by
  rw [h.spare]
  exact Nat.mod_lt _ (by decide)

/-- Init accepts the blob. -/
theorem valid (h : m.Stands slots log) : m.valid = true := by
  have hseq : m.nextSequence ≠ 0 := by
    intro hzero
    have hpos := auditSequence_pos log.length
    rw [← h.sequence, hzero] at hpos
    exact Nat.lt_irrefl _ hpos
  unfold AuditMeta.valid
  simp only [Bool.and_eq_true, decide_eq_true_eq]
  exact ⟨⟨⟨⟨⟨⟨h.schema, h.reserved⟩, UInt32.le_iff_toNat_le.mpr h.count_le⟩,
    UInt32.lt_iff_toNat_lt.mpr h.holds.oldest⟩, UInt32.lt_iff_toNat_lt.mpr h.spare_lt⟩, hseq⟩, h.crc⟩

/-- The spare slot may be overwritten. -/
theorem overwrite (h : m.Stands slots log) (hsame : ∀ i ≠ m.spareSlot, slots' i = slots i) :
    m.Stands slots' log := by
  refine ⟨h.schema, h.reserved, h.crc, h.spare, h.sequence, h.holds.overwrite fun i hi hne => ?_⟩
  refine hsame _ fun heq => hne ?_
  exact (UInt32.toNat_ofNat_of_lt' (Nat.lt_trans hi (by decide))).symm.trans (congrArg UInt32.toNat heq) |>.trans h.spare

/-- The record in the spare slot is counted. -/
theorem next (h : m.Stands slots log) {r : AuditRecord} (hr : slots m.spareSlot = .ok r) :
    m.next.Stands slots (log ++ [r]) := by
  have hcursor := next_cursor h.holds.oldest h.count_le
  refine ⟨?_, ?_, ?_, next_spare h.holds.oldest h.count_le h.spare, ?_, ?_⟩
  · show m.moved.schemaVersion = auditSchema
    unfold moved
    split <;> exact h.schema
  · show m.moved.reserved = 0
    unfold moved
    split <;> exact h.reserved
  · rfl
  · rw [List.length_append]
    exact next_sequence h.sequence
  · rw [hcursor, List.map_append]
    refine h.holds.push ?_
    rw [← h.spare, ← hr]
    exact congrArg slots UInt32.ofNat_toNat

end Stands

end AuditMeta

/-- What `argus_security_audit_read` answers when the last records of `log` are there to read. -/
def readOf (log : List AuditRecord) (offsetFromOldest : UInt32) : Except EspErr AuditRecord :=
  ((log.drop (log.length - auditCapacity.toNat))[offsetFromOldest.toNat]?).elim (.error espErrNotFound) .ok

/-- The slot `read_slot_locked` reads. -/
theorem slot_number {oldest offset : UInt32} (holdest : oldest.toNat < 256) (hoffset : offset.toNat ≤ 255) :
    (oldest + offset) % auditPhysicalSlots = ((oldest.toNat + offset.toNat) % 256).toUInt32 := by
  have hsum : (oldest + offset).toNat = oldest.toNat + offset.toNat :=
    Nat.mod_eq_of_lt (show oldest.toNat + offset.toNat < 2 ^ 32 by omega)
  have hslots : (oldest.toNat + offset.toNat) % 256 < 256 := Nat.mod_lt _ (by decide)
  refine UInt32.toNat_inj.mp ?_
  rw [UInt32.toNat_mod, hsum]
  exact (UInt32.toNat_ofNat_of_lt' (Nat.lt_trans hslots (by decide))).symm

/-- **The reads.** -/
theorem auditRead_eq {flash : AuditFlash} {ram : AuditRam} {log : List AuditRecord}
    (h : ram.sMeta.Stands flash.slots log) (hlog : SoundLog log) (offset : UInt32) :
    auditRead flash true (some ram) offset = readOf log offset := by
  have hcount := h.holds.count
  rw [List.length_map] at hcount
  have hlast : log.length - auditCapacity.toNat = log.length - ram.sMeta.cursor.count := by
    show log.length - 255 = _
    omega
  unfold readOf
  rw [List.getElem?_drop, hlast]
  by_cases hoff : offset.toNat < ram.sMeta.count.toNat
  · have hlive : ¬ offset ≥ ram.sMeta.count := fun hge =>
      Nat.not_le.mpr hoff (UInt32.le_iff_toNat_le.mp hge)
    have hread := h.holds.read offset.toNat hoff
    rw [List.length_map, List.getElem?_map] at hread
    obtain ⟨r, hr, hslot⟩ := Option.map_eq_some_iff.mp hread
    have hnumber := slot_number h.holds.oldest (Nat.le_trans (Nat.le_of_lt hoff) h.count_le)
    unfold auditRead readSlotLocked
    rw [if_neg (by decide)]
    dsimp only
    rw [if_neg hlive, hnumber, hr]
    exact (congrArg checkRecord hslot.symm).trans (hlog.check r (List.mem_of_getElem? hr))
  · have hpast : offset ≥ ram.sMeta.count := UInt32.le_iff_toNat_le.mpr (Nat.le_of_not_lt hoff)
    unfold auditRead
    rw [if_neg (by decide)]
    dsimp only
    rw [if_pos hpast, List.getElem?_eq_none]
    · rfl
    · show log.length ≤ log.length - ram.sMeta.count.toNat + offset.toNat
      omega

/-! ## The record that is written -/

namespace AuditRam

variable (ram : AuditRam) (record : AuditRecord) (uptimeUs : UInt64)

theorem stamp_schemaVersion : (ram.stamp record uptimeUs).schemaVersion = auditSchema := by
  unfold stamp
  dsimp only
  split <;> rfl

theorem stamp_sequence : (ram.stamp record uptimeUs).sequence = ram.sMeta.nextSequence := by
  unfold stamp
  dsimp only
  split <;> rfl

theorem check_stamp :
    checkRecord (.ok (ram.stamp record uptimeUs)) = .ok (ram.stamp record uptimeUs) := by
  have hcrc : (ram.stamp record uptimeUs).crc32 = (ram.stamp record uptimeUs).recordCrc := rfl
  unfold checkRecord
  dsimp only
  rw [if_neg (not_not.mpr (ram.stamp_schemaVersion record uptimeUs)), if_neg (not_not.mpr hcrc)]

end AuditRam

theorem SoundLog.nil : SoundLog [] := ⟨nofun, nofun⟩

theorem SoundLog.snoc {log : List AuditRecord} (h : SoundLog log) {r : AuditRecord}
    (hr : checkRecord (.ok r) = .ok r) (hseq : r.sequence.toNat = auditSequence log.length) :
    SoundLog (log ++ [r]) := by
  refine ⟨fun x hx => ?_, fun i x hx => ?_⟩
  · rcases List.mem_append.mp hx with hx | hx
    · exact h.check x hx
    · rw [List.mem_singleton.mp hx]
      exact hr
  · by_cases hi : i < log.length
    · rw [List.getElem?_append_left hi] at hx
      exact h.sequence i x hx
    · rw [List.getElem?_append_right (Nat.le_of_not_lt hi)] at hx
      rw [List.getElem?_singleton] at hx
      split at hx
      · next hzero =>
        cases hx
        rw [hseq, show i = log.length by omega]
      · cases hx

end Argus
