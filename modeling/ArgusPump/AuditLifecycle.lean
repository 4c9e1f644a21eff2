import ArgusPump.MutationProtocol
import ArgusPump.Lib.WordFold

/-!
# Lifecycle identifiers

`append_locked` folds the sequence number of a prepared record into the 16 bits of its lifecycle.
The ring holds 255 numbers in a row, and the fold tells them apart but for two cases: an even
number that folds to 0, which is made 1, and the next one; and numbers on both sides of a
multiple of 2^31.

    near numbers with one lifecycle                              (foldLifecycle_eq_iff)
    no prepared record repeats one that stays → all readable prepared records are told apart
                                                                 (lifecycles_distinct)
    65536 and 65537 have the lifecycle 1                         (lifecycle_repeated)
-/

namespace Argus

open Interact AuditFlash

/-- The four 16-bit words of a number, in exclusive or. -/
def auditWords (sequence : UInt64) : UInt16 :=
  (sequence ^^^ (sequence >>> 16) ^^^ (sequence >>> 32) ^^^ (sequence >>> 48)).toUInt16

/-- A prepared record of the number `t` repeats the lifecycle of one of the number `s`. -/
def Repeats (s t : UInt64) : Prop :=
  if s / 0x80000000 = t / 0x80000000 then s + 1 = t ∧ t % 2 = 1 ∧ auditWords t ≤ 1
  else auditWords s = auditWords t ∨ auditWords s ≤ 1 ∧ auditWords t ≤ 1

theorem foldLifecycle_words (s : UInt64) :
    foldLifecycle s = if auditWords s = 0 then 1 else auditWords s := rfl

theorem auditWords_toNat (s : UInt64) : (auditWords s).toNat = WordFold.fold 16 4 s.toNat := by
  unfold auditWords
  rw [UInt64.toNat_toUInt16]
  refine Nat.eq_of_testBit_eq fun i => ?_
  simp only [UInt64.toNat_xor, UInt64.toNat_shiftRight, WordFold.fold, Nat.testBit_xor,
    Nat.testBit_mod_two_pow, Nat.testBit_shiftRight, Nat.testBit_div_two_pow, Nat.zero_testBit]
  have hshift (k : UInt64) : k.toNat % 64 + i = i + k.toNat % 64 := Nat.add_comm _ _
  simp only [hshift]
  show (decide (i < 16) && _) = _
  by_cases hi : i < 16
  · simp [hi, Nat.add_assoc, UInt64.toNat_ofNat]
  · simp [hi]

theorem foldLifecycle_eq {s t : UInt64} : foldLifecycle s = foldLifecycle t ↔
    auditWords s = auditWords t ∨ auditWords s ≤ 1 ∧ auditWords t ≤ 1 := by
  have hone (w : UInt16) : w ≤ 1 ↔ w = 0 ∨ w = 1 := by
    rw [UInt16.le_iff_toNat_le, ← UInt16.toNat_inj, ← UInt16.toNat_inj]
    show w.toNat ≤ 1 ↔ w.toNat = 0 ∨ w.toNat = 1
    omega
  rw [foldLifecycle_words, foldLifecycle_words, hone, hone]
  split
  · next hs =>
    split
    · next ht => simp [hs, ht]
    · next ht => simp [hs, ht, eq_comm]
  · next hs =>
    split
    · next ht => simp [hs, ht]
    · next ht =>
      simp only [hs, ht, false_or]
      refine ⟨.inl, ?_⟩
      rintro (heq | ⟨hs₁, ht₁⟩)
      · exact heq
      · rw [hs₁, ht₁]

theorem auditWords_le_one {s : UInt64} : auditWords s ≤ 1 ↔ WordFold.fold 16 4 s.toNat ≤ 1 := by
  rw [UInt16.le_iff_toNat_le, auditWords_toNat]
  rfl

/-- The number before an odd one. -/
theorem auditWords_pred {s : UInt64} (hsucc : (s + 1).toNat = s.toNat + 1) (hodd : (s + 1) % 2 = 1)
    (hone : auditWords (s + 1) ≤ 1) : auditWords s ≤ 1 := by
  have hodd' : (s.toNat + 1) % 2 = 1 := by
    have hmod := congrArg UInt64.toNat hodd
    rw [UInt64.toNat_mod, hsucc] at hmod
    exact hmod
  have hfold := auditWords_le_one.mp hone
  rw [hsucc] at hfold
  rw [auditWords_le_one, WordFold.fold_pred_odd (w := 16) (k := 3) (by decide) hodd']
  rcases Nat.le_one_iff_eq_zero_or_eq_one.mp hfold with h₀ | h₁
  · rw [h₀]
    decide
  · rw [h₁]
    decide

theorem toNat_succ_of_lt {s : UInt64} (hlt : s.toNat < (s + 1).toNat) : (s + 1).toNat = s.toNat + 1 := by
  have hmod : (s + 1).toNat = (s.toNat + 1) % 2 ^ 64 := UInt64.toNat_add s 1
  have hbound := s.toNat_lt
  omega

/-- **Near numbers with one lifecycle.** -/
theorem foldLifecycle_eq_iff {s t : UInt64}
    (hnear : s / 0x80000000 = t / 0x80000000 → s.toNat < t.toNat ∧ t.toNat ≤ s.toNat + 254) :
    foldLifecycle s = foldLifecycle t ↔ Repeats s t := by
  rw [foldLifecycle_eq]
  unfold Repeats
  by_cases hblock : s / 0x80000000 = t / 0x80000000
  · rw [if_pos hblock]
    obtain ⟨hlt, hle⟩ := hnear hblock
    have hdiv : s.toNat / 2 ^ (16 + (16 - 1)) = t.toNat / 2 ^ (16 + (16 - 1)) := by
      have hquot := congrArg UInt64.toNat hblock
      rw [UInt64.toNat_div, UInt64.toNat_div] at hquot
      exact hquot
    constructor
    · rintro (heq | ⟨hs, ht⟩)
      · have hfold := congrArg UInt16.toNat heq
        rw [auditWords_toNat, auditWords_toNat] at hfold
        exact absurd hfold (WordFold.fold_ne (by decide) hlt (by omega) hdiv)
      · obtain ⟨hnext, hodd⟩ := WordFold.fold_le_one (by decide) hlt (by omega) hdiv
          (auditWords_le_one.mp hs) (auditWords_le_one.mp ht)
        have hbound := t.toNat_lt
        refine ⟨UInt64.toNat_inj.mp ?_, UInt64.toNat_inj.mp ?_, ht⟩
        · rw [UInt64.toNat_add, hnext]
          exact Nat.mod_eq_of_lt (by show s.toNat + 1 < 2 ^ 64; omega)
        · rw [UInt64.toNat_mod]
          exact hodd
    · rintro ⟨rfl, hodd, hone⟩
      exact .inr ⟨auditWords_pred (toNat_succ_of_lt hlt) hodd hone, hone⟩
  · rw [if_neg hblock]

/-! ## The ring -/

def AuditRecord.Prepared (r : AuditRecord) : Prop := r.outcome = auditOutcomePrepared

namespace AuditDevice

/-- No two prepared records that can be read have one lifecycle. -/
def LifecyclesDistinct (d : AuditDevice) : Prop :=
  ∀ i j a b, d.read i = .ok a → d.read j = .ok b → a.Prepared → b.Prepared →
    a.lifecycleId = b.lifecycleId → i = j

/-- The record can be read, and also when one more is written: a full ring gives up its oldest. -/
def Stays (d : AuditDevice) (a : AuditRecord) : Prop :=
  ∃ offset, d.read offset = .ok a ∧ (offset ≠ 0 ∨ ∀ b, d.read 254 ≠ .ok b)

end AuditDevice

/-- The record that is written, whatever becomes of it. -/
def AuditAct.record : AuditAct → Option AuditRecord
  | .append r _ | .interrupted r => some r
  | _ => none

def AuditServiceAct.record (ev : AuditServiceAct) : Option AuditRecord := ev.device.bind AuditAct.record

/-- A prepared record is written only under a number that repeats the lifecycle of no prepared
record that stays. -/
def AvoidsRepeats (m : AuditServiceMove) : Prop :=
  ∀ r, m.ev.record = some r → r.Prepared →
    ∀ a, m.pre.device.Stays a → a.Prepared → ¬ Repeats a.sequence r.sequence

section Log

variable {log : List AuditRecord} {d : AuditDevice} {a b : AuditRecord}

theorem readOf_iff {offset : UInt32} :
    readOf log offset = .ok a ↔ log[log.length - 255 + offset.toNat]? = some a := by
  unfold readOf
  rw [List.getElem?_drop]
  show (log[log.length - 255 + offset.toNat]?).elim _ _ = _ ↔ _
  cases log[log.length - 255 + offset.toNat]? with
  | none => simp
  | some x => simp

theorem readOf_index {i : Nat} (hi : log.length ≤ i + 255) (ha : log[i]? = some a) :
    ∃ offset : UInt32, offset.toNat = i - (log.length - 255) ∧ readOf log offset = .ok a := by
  have hlt : i < log.length := (List.getElem?_eq_some_iff.mp ha).1
  have hoffset : (i - (log.length - 255)).toUInt32.toNat = i - (log.length - 255) := by
    refine UInt32.toNat_ofNat_of_lt' ?_
    show i - (log.length - 255) < 2 ^ 32
    omega
  refine ⟨_, hoffset, readOf_iff.mpr ?_⟩
  have hindex : log.length - 255 + (i - (log.length - 255)) = i := by omega
  rw [hoffset, hindex]
  exact ha

/-- Numbers of one block in the ring follow each other. -/
theorem auditSequence_near {i j : Nat} (hlt : i < j) (hle : j ≤ i + 254)
    (hblock : auditSequence i / 2 ^ 31 = auditSequence j / 2 ^ 31) :
    auditSequence i < auditSequence j ∧ auditSequence j ≤ auditSequence i + 254 := by
  unfold auditSequence at *
  omega

theorem SoundLog.foldLifecycle_eq_iff (h : SoundLog log) {i j : Nat} (ha : log[i]? = some a)
    (hb : log[j]? = some b) (hlt : i < j) (hle : j ≤ i + 254) :
    foldLifecycle a.sequence = foldLifecycle b.sequence ↔ Repeats a.sequence b.sequence := by
  have hfirst := h.sequence i a ha
  have hsecond := h.sequence j b hb
  refine Argus.foldLifecycle_eq_iff fun hblock => ?_
  have hquot := congrArg UInt64.toNat hblock
  rw [UInt64.toNat_div, UInt64.toNat_div, hfirst, hsecond] at hquot
  rw [hfirst, hsecond]
  exact auditSequence_near hlt hle hquot

theorem stays_iff (hread : ∀ offset, d.read offset = readOf log offset) :
    d.Stays a ↔ ∃ i, log[i]? = some a ∧ log.length ≤ i + 254 := by
  have hlast : (254 : UInt32).toNat = 254 := rfl
  unfold AuditDevice.Stays
  simp only [hread, ne_eq, readOf_iff, hlast]
  constructor
  · rintro ⟨offset, ha, hstays⟩
    refine ⟨_, ha, ?_⟩
    rcases hstays with hne | hroom
    · have hpos : offset.toNat ≠ 0 := fun hzero => hne (UInt32.toNat_inj.mp hzero)
      omega
    · have hshort : log.length < 255 := by
        by_contra hfull
        have hlt : log.length - 255 + 254 < log.length := by omega
        exact hroom _ (List.getElem?_eq_getElem hlt)
      omega
  · rintro ⟨i, ha, hle⟩
    obtain ⟨offset, hoffset, hok⟩ := readOf_index (by omega) ha
    refine ⟨offset, readOf_iff.mp hok, ?_⟩
    by_cases hfull : 255 ≤ log.length
    · left
      rintro rfl
      have hzero : (0 : UInt32).toNat = 0 := rfl
      omega
    · right
      intro b hb
      have hlt := (List.getElem?_eq_some_iff.mp hb).1
      omega

/-- A prepared record has the lifecycle of its number. -/
def AuditRecord.Folded (r : AuditRecord) : Prop := r.Prepared → r.lifecycleId = foldLifecycle r.sequence

/-- Of a device that shows the log, in terms of the numbers. -/
theorem distinct_iff (hread : ∀ offset, d.read offset = readOf log offset) (hsound : SoundLog log)
    (hfolded : ∀ r ∈ log, r.Folded) :
    d.LifecyclesDistinct ↔ ∀ i j a b, log.length ≤ i + 255 → i < j → log[i]? = some a → log[j]? = some b →
      a.Prepared → b.Prepared → ¬ Repeats a.sequence b.sequence := by
  constructor
  · intro hdistinct i j a b hi hij ha hb hpa hpb hrepeats
    have hj := (List.getElem?_eq_some_iff.mp hb).1
    obtain ⟨x, hx, hfirst⟩ := readOf_index hi ha
    obtain ⟨y, hy, hsecond⟩ := readOf_index (by omega) hb
    have hsame : a.lifecycleId = b.lifecycleId := by
      rw [hfolded a (List.mem_of_getElem? ha) hpa, hfolded b (List.mem_of_getElem? hb) hpb]
      exact (hsound.foldLifecycle_eq_iff ha hb hij (by omega)).mpr hrepeats
    have heq := hdistinct x y a b ((hread x).trans hfirst) ((hread y).trans hsecond) hpa hpb hsame
    rw [heq] at hx
    omega
  · intro hnone x y a b hx hy hpa hpb hsame
    rw [hread, readOf_iff] at hx hy
    have hxlt := (List.getElem?_eq_some_iff.mp hx).1
    have hylt := (List.getElem?_eq_some_iff.mp hy).1
    rw [hfolded a (List.mem_of_getElem? hx) hpa, hfolded b (List.mem_of_getElem? hy) hpb] at hsame
    rcases Nat.lt_trichotomy x.toNat y.toNat with hlt | heq | hgt
    · have hrepeats := (hsound.foldLifecycle_eq_iff hx hy (by omega) (by omega)).mp hsame
      exact absurd hrepeats (hnone _ _ a b (by omega) (by omega) hx hy hpa hpb)
    · exact UInt32.toNat_inj.mp heq
    · have hrepeats := (hsound.foldLifecycle_eq_iff hy hx (by omega) (by omega)).mp hsame.symm
      exact absurd hrepeats (hnone _ _ b a (by omega) (by omega) hy hx hpb hpa)

end Log

/-! ## Along a run -/

/-- What holds of every record and those before it. -/
structure Trail.All (P : List AuditRecord → AuditRecord → Prop) (t : Trail) : Prop where
  log : ∀ l r rest, t.log = l ++ r :: rest → P l r
  tried : ∀ r ∈ t.tried, P t.log r

namespace Trail.All

variable {P : List AuditRecord → AuditRecord → Prop} {t u : Trail} {log tried : List AuditRecord} {r : AuditRecord}

theorem snoc (h : All P ⟨log, tried⟩) (hr : P log r) : All P ⟨log ++ [r], []⟩ := by
  refine ⟨forall_split_append.mpr ⟨h.log, forall_split_cons.mpr ⟨?_, forall_split_nil⟩⟩, by simp⟩
  rw [List.append_nil]
  exact hr

theorem tries (h : All P ⟨log, tried⟩) (hr : P log r) : All P ⟨log, r :: tried⟩ :=
  ⟨h.log, List.forall_mem_cons.mpr ⟨hr, h.tried⟩⟩

theorem step {act : AuditAct} (h : t.All P) (hs : TrailStep t act u)
    (hr : ∀ r, act.record = some r → P t.log r) : u.All P := by
  cases hs with
  | append r => exact h.snoc (hr r rfl)
  | appendFailed r _ => exact h.tries (hr r rfl)
  | interrupted r => exact h.tries (hr r rfl)
  | keep => exact ⟨h.log, by simp⟩
  | adopt hmem => exact h.snoc (h.tried _ hmem)
  | _ => exact h

theorem ledger {ev : AuditServiceAct} (h : t.All P) (hs : LedgerStep t ev u)
    (hr : ∀ r, ev.record = some r → P t.log r) : u.All P := by
  cases hs with
  | device hdevice htrail =>
    refine h.step htrail fun r hrecord => hr r ?_
    unfold AuditServiceAct.record
    rw [hdevice]
    exact hrecord
  | _ => exact h

end Trail.All

/-- A prepared record repeats none that stays in the ring with it. -/
def NoRepeat (l : List AuditRecord) (r : AuditRecord) : Prop :=
  r.Prepared → ∀ i a, l[i]? = some a → l.length ≤ i + 254 → a.Prepared → ¬ Repeats a.sequence r.sequence

theorem AuditRam.stamp_folded (ram : AuditRam) {record : AuditRecord} (uptimeUs : UInt64)
    (h : record.Prepared → record.lifecycleId = 0) : (ram.stamp record uptimeUs).Folded := by
  intro hprepared
  have houtcome : record.Prepared := (ram.stamp_outcome record uptimeUs).symm.trans hprepared
  rw [ram.stamp_lifecycleId, if_pos ⟨houtcome, h houtcome⟩, ram.stamp_sequence]

/-- The record is a stamped one of the request the writer has taken. -/
theorem AuditServiceStep.stamped {s s' : AuditService} {ev : AuditServiceAct} (h : AuditServiceStep s ev s')
    {r : AuditRecord} (hr : ev.record = some r) :
    ∃ request record uptimeUs ram, s.writer = some request ∧ s.recordOf request = some record ∧
      s.device.ram = some ram ∧ r = ram.stamp record uptimeUs := by
  cases h with
  | write hwriter hrecord hram _ => exact ⟨_, _, _, _, hwriter, hrecord, hram, (Option.some.inj hr).symm⟩
  | interrupted hwriter hrecord hram _ => exact ⟨_, _, _, _, hwriter, hrecord, hram, (Option.some.inj hr).symm⟩
  | init hact _ =>
    rcases hact with rfl | rfl | ⟨err, rfl⟩
    · cases hr
    · cases hr
    · cases hr
  | _ => cases hr

theorem AuditOperation.Asks.lifecycleId {op : AuditOperation} {record : AuditRecord} (h : op.Asks record)
    (hprepared : record.Prepared) : record.lifecycleId = 0 := by
  obtain ⟨degraded, entry, hentry, rfl⟩ := h
  cases op with
  | append e =>
    cases hentry
    rfl
  | begin q =>
    obtain ⟨-, -, -, hzero, -⟩ := mutationBegin_ok hentry
    exact hzero
  | finish mutation succeeded =>
    obtain ⟨m, -, -, -, hterminal, -⟩ := mutationFinish_ok hentry
    have heq : finishOutcome succeeded = auditOutcomePrepared := hterminal.symm.trans hprepared
    cases succeeded <;> exact absurd heq (by decide)

/-- What holds of the service and the ledger. -/
structure FoldedInv (s : AuditService) (t : Trail) : Prop where
  service : ServiceInv s t
  optional : ∀ record, .optional record ∈ s.queue ∨ s.writer = some (.optional record) → record.lifecycleId = 0
  folded : t.All fun _ r => r.Folded

namespace FoldedInv

variable {s s' : AuditService} {t : Trail} {ev : AuditServiceAct}

theorem booting_empty (device : AuditDevice) (record : AuditRecord) :
    ¬ (.optional record ∈ (AuditService.booting device).queue ∨
      (AuditService.booting device).writer = some (.optional record)) := by
  simp [AuditService.booting]

theorem blank : FoldedInv .blank ⟨[], []⟩ :=
  ⟨.blank, fun record hrecord => absurd hrecord (booting_empty _ record), forall_split_nil, by simp⟩

theorem recordOf (h : FoldedInv s t) {request : AuditRequest} {record : AuditRecord}
    (hwriter : s.writer = some request) (hrecord : s.recordOf request = some record)
    (hprepared : record.Prepared) : record.lifecycleId = 0 := by
  unfold AuditService.recordOf at hrecord
  cases request with
  | optional r =>
    cases hrecord
    exact h.optional _ (.inr hwriter)
  | required c =>
    have hc := h.service.clients c
    dsimp only at hrecord
    split at hrecord
    · next op r hwaits =>
      cases hrecord
      rw [hwaits] at hc
      exact AuditOperation.Asks.lifecycleId hc hprepared
    · cases hrecord

theorem queue_answer (request : AuditRequest) (err : EspErr) (written : AuditRecord) :
    (s.answer request err written).queue = s.queue := by
  unfold AuditService.answer
  split
  · rfl
  · split
    · rfl
    · rfl

theorem optional_step (h : FoldedInv s t) (hs : AuditServiceStep s ev s') (record : AuditRecord)
    (hrecord : .optional record ∈ s'.queue ∨ s'.writer = some (.optional record)) : record.lifecycleId = 0 := by
  cases hs with
  | @enqueue c op entry happends _ _ _ =>
    have hc := h.service.clients c
    rw [happends] at hc
    obtain ⟨degraded, hentry⟩ := hc
    by_cases hrequired : entry.required = true
    · rw [if_pos hrequired] at hrecord
      refine h.optional record (hrecord.imp_left fun hmem => ?_)
      rcases List.mem_append.mp hmem with hmem | hmem
      · exact hmem
      · cases List.mem_singleton.mp hmem
    · rw [if_neg hrequired] at hrecord
      rcases hrecord with hmem | hwriter
      · rcases List.mem_append.mp hmem with hmem | hmem
        · exact h.optional record (.inl hmem)
        · obtain rfl := AuditRequest.optional.inj (List.mem_singleton.mp hmem)
          obtain ⟨e, -, hzero⟩ := append_of_optional hentry hrequired
          exact hzero
      · exact h.optional record (.inr hwriter)
  | receive _ hqueue =>
    refine h.optional record (.inl ?_)
    rw [hqueue]
    rcases hrecord with hmem | hwriter
    · exact List.mem_cons_of_mem _ hmem
    · rw [Option.some.inj hwriter]
      exact List.mem_cons_self
  | write _ _ _ _ =>
    rcases hrecord with hmem | hwriter
    · exact h.optional record (.inl (queue_answer _ _ _ ▸ hmem))
    · cases hwriter
  | reboot _ => exact absurd hrecord (booting_empty _ record)
  | interrupted _ _ _ _ => exact absurd hrecord (booting_empty _ record)
  | initCut _ => exact absurd hrecord (booting_empty _ record)
  | _ => exact h.optional record hrecord

theorem step (h : FoldedInv s t) (hs : AuditServiceStep s ev s') :
    ∃ u, LedgerStep t ev u ∧ FoldedInv s' u := by
  obtain ⟨u, hledger, hservice⟩ := h.service.step hs
  refine ⟨u, hledger, hservice, h.optional_step hs, h.folded.ledger hledger fun r hr => ?_⟩
  obtain ⟨request, record, uptimeUs, ram, hwriter, hrecord, -, rfl⟩ := hs.stamped hr
  exact ram.stamp_folded uptimeUs (h.recordOf hwriter hrecord)

theorem mem_folded (h : FoldedInv s t) : ∀ r ∈ t.log, r.Folded := by
  intro r hr
  obtain ⟨l, rest, heq⟩ := List.append_of_mem hr
  exact h.folded.log l r rest heq

/-- With a log that repeats nothing. -/
theorem distinct (h : FoldedInv s t) (hno : t.All NoRepeat) : s.device.LifecyclesDistinct := by
  by_cases hrunning : s.device.ram = none
  · intro i j a b ha
    exact absurd ha (read_stopped hrunning i a)
  · refine (distinct_iff (h.service.device.read_running hrunning) h.service.device.sound h.mem_folded).mpr ?_
    intro i j a b hi hij ha hb hpa hpb
    obtain ⟨hj, hbj⟩ := List.getElem?_eq_some_iff.mp hb
    have hbefore := forall_split_iff.mp hno.log j hj
    rw [hbj] at hbefore
    refine hbefore hpb i a ?_ ?_ hpa
    · rw [List.getElem?_take_of_lt hij]
      exact ha
    · rw [List.length_take]
      omega

end FoldedInv

/-- **Lifecycles.**  While no prepared record repeats one that stays, those that can be read are
all told apart by their lifecycles. -/
theorem lifecycles_distinct {ms : List AuditServiceMove} (h : IsRun AuditServiceStep .blank ms)
    (havoids : ∀ m ∈ ms, AvoidsRepeats m) : ∀ m ∈ ms, m.post.device.LifecyclesDistinct := by
  have hinv := h.inv_of (I := fun s => ∃ t, FoldedInv s t ∧ t.All NoRepeat) (K := AvoidsRepeats)
    ⟨_, .blank, forall_split_nil, by simp⟩ havoids (by
      rintro m ⟨t, ht, hno⟩ hstep havoid
      obtain ⟨u, hledger, hu⟩ := ht.step hstep
      refine ⟨u, hu, hno.ledger hledger fun r hr hprepared i a ha hle hpa => ?_⟩
      obtain ⟨-, -, -, ram, -, -, hram, -⟩ := hstep.stamped hr
      have hread := ht.service.device.read_running (by simp [hram])
      exact havoid r hr hprepared a ((stays_iff hread).mpr ⟨i, ha, hle⟩) hpa)
  intro m hm
  obtain ⟨t, ht, hno⟩ := (hinv.1 m hm).2
  exact ht.distinct hno

theorem LedgerStep.written {t u : Trail} {r : AuditRecord} (h : LedgerStep t (.write r espOk) u) :
    u.log = t.log ++ [r] := by
  cases h with
  | device hdevice htrail =>
    obtain rfl := Option.some.inj hdevice
    cases htrail with
    | append _ => rfl
    | appendFailed _ hne => exact absurd rfl hne

theorem AuditStep.appended_running {d e : AuditDevice} {r : AuditRecord} {err : EspErr}
    (h : AuditStep d (.append r err) e) : e.ram ≠ none := by
  cases h with
  | append _ => exact Option.some_ne_none _

theorem AuditServiceStep.write_running {s s' : AuditService} {r : AuditRecord} {err : EspErr}
    (h : AuditServiceStep s (.write r err) s') : s'.device.ram ≠ none := by
  cases h with
  | write _ _ _ hwrite => exact hwrite.appended_running

/-- Else the record that is written is not told from the one that stays. -/
theorem repeat_clashes {ms : List AuditServiceMove} (h : IsRun AuditServiceStep .blank ms)
    {m : AuditServiceMove} (hm : m ∈ ms) {r : AuditRecord} (hev : m.ev = .write r espOk)
    (hrepeats : ¬ AvoidsRepeats m) : ¬ m.post.device.LifecyclesDistinct := by
  intro hdistinct
  have hinv := h.inv (I := fun s => ∃ t, FoldedInv s t) ⟨_, .blank⟩ (by
    rintro m ⟨t, ht⟩ hstep
    obtain ⟨u, -, hu⟩ := ht.step hstep
    exact ⟨u, hu⟩)
  obtain ⟨t, ht⟩ := (hinv.1 m hm).1
  have hstep := h.step_of_mem m hm
  rw [hev] at hstep
  obtain ⟨u, hledger, hu⟩ := ht.step hstep
  obtain ⟨-, -, -, ram, -, -, hram, -⟩ := hstep.stamped rfl
  have hbefore := ht.service.device.read_running (by simp [hram])
  have hafter := hu.service.device.read_running hstep.write_running
  have hnone := (distinct_iff hafter hu.service.device.sound hu.mem_folded).mp hdistinct
  rw [hledger.written] at hnone
  refine hrepeats fun x hx hprepared a hstays hpa => ?_
  rw [hev] at hx
  obtain rfl := Option.some.inj hx
  obtain ⟨i, ha, hle⟩ := (stays_iff hbefore).mp hstays
  have hi := (List.getElem?_eq_some_iff.mp ha).1
  refine hnone i t.log.length a r ?_ hi ?_ List.getElem?_concat_length hpa hprepared
  · rw [List.length_append, List.length_singleton]
    omega
  · rw [List.getElem?_append_left hi]
    exact ha

theorem avoids_of_none {m : AuditServiceMove} (h : m.ev.record = none) : AvoidsRepeats m := by
  intro r hr
  rw [h] at hr
  cases hr

open FailedFinish in
theorem begins_avoid : ∀ m ∈ begins, AvoidsRepeats m := by
  have hwrite :
      AvoidsRepeats ⟨FailedFinish.received, .write FailedFinish.written espOk, FailedFinish.answered⟩ := by
    intro r _ _ a hstays
    obtain ⟨offset, hoffset, -⟩ := hstays
    have hempty := @auditRead_eq Adoption.blob Adoption.first [] (AuditMeta.fresh_stands _) .nil offset
    have hread := readOf_iff.mp (hempty.symm.trans hoffset)
    cases hread
  refine List.forall_mem_cons.mpr ⟨avoids_of_none rfl, List.forall_mem_cons.mpr ⟨avoids_of_none rfl, ?_⟩⟩
  refine List.forall_mem_cons.mpr ⟨avoids_of_none rfl, List.forall_mem_cons.mpr ⟨avoids_of_none rfl, ?_⟩⟩
  refine List.forall_mem_cons.mpr ⟨hwrite, List.forall_mem_cons.mpr ⟨avoids_of_none rfl, ?_⟩⟩
  exact List.forall_mem_cons.mpr ⟨avoids_of_none rfl, List.forall_mem_cons.mpr ⟨avoids_of_none rfl, by simp⟩⟩

theorem lifecycles_distinct_begins : FailedFinish.answered.device.LifecyclesDistinct := by
  have hmem : (⟨FailedFinish.received, .write FailedFinish.written espOk, FailedFinish.answered⟩ :
      AuditServiceMove) ∈ FailedFinish.begins := .tail _ (.tail _ (.tail _ (.tail _ (.head _))))
  exact lifecycles_distinct FailedFinish.begins_run begins_avoid _ hmem

/-! ## Begins one after another -/

namespace Begins

open FailedFinish (request prepared)

section

variable (flash : AuditFlash) (ram : AuditRam)

def ready : AuditService := .booting ⟨flash, true, some ram⟩
def asks : AuditService := (ready flash ram).setClient 0 (.appends (.begin request) prepared)
def waits : AuditService :=
  { (asks flash ram).setClient 0 (.waits (.begin request) prepared.record) with queue := [.required 0] }
def inWriter : AuditService := { waits flash ram with queue := [], writer := some (.required 0) }
def stamped : AuditRecord := ram.stamp prepared.record 0
def stored : AuditFlash := (flash.setRecord ram.sMeta.spareSlot (stamped ram)).setMeta ram.sMeta.next
def replied : AuditService :=
  { (inWriter flash ram).setClient 0 (.served (.begin request) espOk (stamped ram)) with
    device := ⟨stored flash ram, true, some (ram.appended espOk)⟩, writer := none }

/-- A begin up to its write, -/
def submits : List AuditServiceMove :=
  [⟨ready flash ram, .enter 0 (.begin request), asks flash ram⟩, ⟨asks flash ram, .enqueue 0, waits flash ram⟩,
    ⟨waits flash ram, .receive, inWriter flash ram⟩]

def writes : AuditServiceMove := ⟨inWriter flash ram, .write (stamped ram) espOk, replied flash ram⟩

/-- and its return. -/
def returns : AuditServiceMove :=
  ⟨replied flash ram, .leave (.begin request) espOk (some (request.mutation (stamped ram))),
    ready (stored flash ram) (ram.appended espOk)⟩

/-- A begin and its return. -/
def oneBegin : List AuditServiceMove := submits flash ram ++ [writes flash ram] ++ [returns flash ram]

theorem writes_run : IsRun AuditServiceStep (ready flash ram) (submits flash ram ++ [writes flash ram]) := by
  have hrunning : (asks flash ram).device.ram ≠ none := Option.some_ne_none _
  have hwrite : AuditServiceStep (inWriter flash ram) (.write (stamped ram) espOk) (replied flash ram) :=
    @AuditServiceStep.write (inWriter flash ram) (.required 0) prepared.record 0 ram espOk _ rfl rfl rfl
      (append_ideal flash ram prepared.record 0)
  have hroom : (asks flash ram).queue.length < auditQueueLength := Nat.zero_lt_succ 7
  exact ⟨rfl, .enter rfl rfl rfl, rfl,
    @AuditServiceStep.enqueue (asks flash ram) 0 _ prepared rfl hrunning rfl hroom, rfl, .receive rfl rfl, rfl, hwrite, trivial⟩

theorem returns_step :
    AuditServiceStep (returns flash ram).pre (returns flash ram).ev (returns flash ram).post := by
  have hclients : ((replied flash ram).setClient 0 .idle).clients = fun _ => .idle := by
    funext i
    show (if i = 0 then _ else if i = 0 then _ else if i = 0 then _ else if i = 0 then _ else _) = _
    by_cases hi : i = 0
    · rw [if_pos hi]
    · rw [if_neg hi, if_neg hi, if_neg hi, if_neg hi]
      rfl
  have hquiet : (⟨⟨stored flash ram, true, some (ram.appended espOk)⟩, false, [], none,
      ((replied flash ram).setClient 0 .idle).clients⟩ : AuditService) =
        ready (stored flash ram) (ram.appended espOk) := by
    rw [hclients]
    rfl
  show AuditServiceStep (replied flash ram) (.leave (.begin request) espOk (some (request.mutation (stamped ram))))
    (ready (stored flash ram) (ram.appended espOk))
  rw [← hquiet]
  exact @AuditServiceStep.leave (replied flash ram) 0 (.begin request) espOk (stamped ram) rfl

end

theorem exists_begins (n : Nat) :
    ∃ (ms : List AuditServiceMove) (flash : AuditFlash) (ram : AuditRam) (log : List AuditRecord),
      IsRun AuditServiceStep .blank ms ∧ final .blank ms = ready flash ram ∧
        ram.sMeta.Stands flash.slots log ∧ SoundLog log ∧ log.length = n ∧ ∀ r ∈ log, r.Prepared := by
  induction n with
  | zero =>
    refine ⟨[⟨.blank, .init .init, ready Adoption.blob Adoption.first⟩], _, _, [],
      ⟨rfl, .init (.inl rfl) ?_, trivial⟩, rfl, AuditMeta.fresh_stands _, .nil, rfl, by simp⟩
    exact .init (Prog.playS_exec AuditFlash.ideal_call auditInit .blank) (by decide)
  | succ n ih =>
    obtain ⟨ms, flash, ram, log, hrun, hfinal, hstands, hsound, hlength, hprepared⟩ := ih
    have hslot := slots_setRecord flash ram.sMeta.spareSlot (stamped ram)
    have hsame := sameBut_setRecord ram.sMeta.spareSlot flash (stamped ram)
    have hone : IsRun AuditServiceStep (ready flash ram) (oneBegin flash ram) :=
      (isRun_append _ _ _).mpr ⟨writes_run flash ram, rfl, returns_step flash ram, trivial⟩
    refine ⟨ms ++ oneBegin flash ram, stored flash ram, ram.appended espOk,
      log ++ [stamped ram], (isRun_append _ _ _).mpr ⟨hrun, hfinal ▸ hone⟩, final_append _ _ _,
      (hstands.overwrite hsame).next hslot, hsound.snoc (ram.check_stamp _ 0) ?_, ?_, ?_⟩
    · show (ram.stamp _ 0).sequence.toNat = _
      rw [ram.stamp_sequence]
      exact hstands.sequence
    · rw [List.length_append, hlength]
      rfl
    · refine List.forall_mem_append.mpr ⟨hprepared, fun r hr => ?_⟩
      rw [List.mem_singleton.mp hr]
      exact ram.stamp_outcome prepared.record 0

end Begins

open Begins in
/-- 65537 begins one after another: the last two have the lifecycle 1. -/
theorem lifecycle_repeated :
    ¬ ∀ ms : List AuditServiceMove, IsRun AuditServiceStep .blank ms →
      ∀ m ∈ ms, m.post.device.LifecyclesDistinct := by
  intro hall
  obtain ⟨ms, flash, ram, log, hrun, hfinal, hstands, hsound, hlength, hprepared⟩ := exists_begins 65536
  have hlong : IsRun AuditServiceStep .blank (ms ++ (submits flash ram ++ [writes flash ram])) :=
    (isRun_append _ _ _).mpr ⟨hrun, hfinal ▸ writes_run flash ram⟩
  have hmem : writes flash ram ∈ ms ++ (submits flash ram ++ [writes flash ram]) := by simp
  refine repeat_clashes hlong hmem rfl (fun havoids => ?_) (hall _ hlong _ hmem)
  have hlast : 65535 < log.length := by omega
  have hread (offset : UInt32) : (inWriter flash ram).device.read offset = readOf log offset :=
    auditRead_eq hstands hsound offset
  have hstays : (inWriter flash ram).device.Stays log[65535] :=
    (stays_iff hread).mpr ⟨65535, List.getElem?_eq_getElem hlast, by omega⟩
  have hold : log[65535].sequence = 65536 :=
    UInt64.toNat_inj.mp ((hsound.sequence 65535 _ (List.getElem?_eq_getElem hlast)).trans rfl)
  have hnew : (stamped ram).sequence = 65537 := by
    refine (ram.stamp_sequence _ _).trans (UInt64.toNat_inj.mp (hstands.sequence.trans ?_))
    rw [hlength]
    rfl
  refine havoids (stamped ram) rfl (ram.stamp_outcome _ _) log[65535] hstays
    (hprepared _ (List.getElem_mem hlast)) ?_
  rw [hold, hnew]
  unfold Repeats
  rw [if_pos (by decide)]
  exact ⟨rfl, rfl, by decide⟩

end Argus
