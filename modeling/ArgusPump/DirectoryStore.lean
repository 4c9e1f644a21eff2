import ArgusPump.SecurityStore
import ArgusPump.Lib.Run

/-!
# The store under the two directories

`main/argus_security_directory.c` and `main/argus_machine_directory.c` keep their payload
the same way: two slots and a selector, a snapshot of the one in use, and `commit_locked`,
which writes the other slot, reads it back and then moves the selector.  `DirectoryKind` is
what their files differ in.

    reads find what is stored, a write is whole or nothing             (DirectoryFlash.Call)
    no write fails → a program runs as over ideal calls                (exec_ideal)
    a commit at every point → nothing, its slot, or its slot and the selector
                                                                       (commitLocked_spec)

Left out: failing allocations.
-/

namespace Argus

open Interact

/-! ## Slots -/

/-- The constants and payload functions of a directory. -/
structure DirectoryKind (P : Type) where
  magic : UInt32
  validMarker : UInt32
  schemaVersion : UInt16
  payloadLength : UInt16
  payloadBytes : P → List UInt8
  payloadValid : P → Bool
  /-- The payload after the `memset` of init and its `schema_version`. -/
  empty : P

structure DirectorySlot (P : Type) where
  magic : UInt32
  schemaVersion : UInt16
  payloadLength : UInt16
  generation : UInt32
  crc32 : UInt32
  validMarker : UInt32
  payload : P
deriving DecidableEq

variable {P : Type} {k : DirectoryKind P}

namespace DirectorySlot

/-- `slot_valid`. -/
def valid (k : DirectoryKind P) (slot : DirectorySlot P) : Bool :=
  slot.magic = k.magic && slot.schemaVersion = k.schemaVersion &&
    slot.payloadLength = k.payloadLength && slot.generation ≠ 0 &&
    slot.validMarker = k.validMarker && slot.crc32 = crc32Bytes (k.payloadBytes slot.payload) &&
    k.payloadValid slot.payload

/-- The slot a commit writes. -/
def record (k : DirectoryKind P) (generation : UInt32) (payload : P) : DirectorySlot P where
  magic := k.magic
  schemaVersion := k.schemaVersion
  payloadLength := k.payloadLength
  generation := generation
  crc32 := crc32Bytes (k.payloadBytes payload)
  validMarker := k.validMarker
  payload := payload

theorem record_valid {generation : UInt32} {payload : P} (hg : generation ≠ 0)
    (hp : k.payloadValid payload = true) : (record k generation payload).valid k = true := by
  simp [valid, record, hg, hp]

/-- A valid slot is what some commit wrote. -/
theorem eq_record {slot : DirectorySlot P} (h : slot.valid k = true) :
    slot = record k slot.generation slot.payload ∧ slot.generation ≠ 0 ∧
      k.payloadValid slot.payload = true := by
  obtain ⟨magic, schemaVersion, payloadLength, generation, crc32, validMarker, payload⟩ := slot
  simp only [valid, Bool.and_eq_true, decide_eq_true_eq] at h
  obtain ⟨⟨⟨⟨⟨⟨rfl, rfl⟩, rfl⟩, hg⟩, rfl⟩, rfl⟩, hp⟩ := h
  exact ⟨rfl, hg, hp⟩

end DirectorySlot

/-- A key that was never written. -/
def slotMissing {α : Type} : Except EspErr α → Bool
  | .ok _ => false
  | .error err => isMissing err

/-- The slot of a read that finds a valid one. -/
def DirectorySlot.validSlot (k : DirectoryKind P) : Except EspErr (DirectorySlot P) → Option (DirectorySlot P)
  | .ok slot => if slot.valid k then some slot else none
  | .error _ => none

/-! ## The stored data -/

/-- `read_slot`, `write_slot`, `read_selector` and `write_selector`. -/
inductive DirectoryCall (P : Type)
  | readSlot (index : UInt8)
  | writeSlot (index : UInt8) (slot : DirectorySlot P)
  | readSelector
  | writeSelector (value : UInt8)

abbrev DirectoryCall.Answer : DirectoryCall P → Type
  | .readSlot _ => Except EspErr (DirectorySlot P)
  | .writeSlot _ _ => EspErr
  | .readSelector => Except EspErr UInt8
  | .writeSelector _ => EspErr

abbrev DirectoryProg (P : Type) := Prog (DirectoryCall P) DirectoryCall.Answer

/-- What each read finds. -/
structure DirectoryFlash (P : Type) where
  slotA : Except EspErr (DirectorySlot P)
  slotB : Except EspErr (DirectorySlot P)
  selector : Except EspErr UInt8

namespace DirectoryFlash

def blank : DirectoryFlash P :=
  ⟨.error espErrNvsNotFound, .error espErrNvsNotFound, .error espErrNvsNotFound⟩

def slot (s : DirectoryFlash P) (i : UInt8) : Except EspErr (DirectorySlot P) :=
  if i = 0 then s.slotA else s.slotB

def setSlot (s : DirectoryFlash P) (i : UInt8) (slot : DirectorySlot P) : DirectoryFlash P :=
  if i = 0 then { s with slotA := .ok slot } else { s with slotB := .ok slot }

def select (s : DirectoryFlash P) (i : UInt8) : DirectoryFlash P := { s with selector := .ok i }

/-- Reads find what is stored; a write takes effect, or reports a failure and changes
nothing.  One that reports a failure may still have taken effect. -/
def Call : (q : DirectoryCall P) → DirectoryFlash P → q.Answer → DirectoryFlash P → Prop
  | .readSlot i, s, r, t => r = s.slot i ∧ t = s
  | .writeSlot i slot, s, r, t => t = s.setSlot i slot ∨ r ≠ espOk ∧ t = s
  | .readSelector, s, r, t => r = s.selector ∧ t = s
  | .writeSelector v, s, r, t => t = s.select v ∨ r ≠ espOk ∧ t = s

def Cut (q : DirectoryCall P) (s t : DirectoryFlash P) : Prop := ∃ r, Call q s r t

/-- Calls none of which fails. -/
def ideal : (q : DirectoryCall P) → DirectoryFlash P → q.Answer × DirectoryFlash P
  | .readSlot i, s => (s.slot i, s)
  | .writeSlot i slot, s => (espOk, s.setSlot i slot)
  | .readSelector, s => (s.selector, s)
  | .writeSelector v, s => (espOk, s.select v)

theorem ideal_call (q : DirectoryCall P) (s : DirectoryFlash P) :
    Call q s (ideal q s).1 (ideal q s).2 := by
  cases q with
  | readSlot i => exact ⟨rfl, rfl⟩
  | writeSlot i slot => exact .inl rfl
  | readSelector => exact ⟨rfl, rfl⟩
  | writeSelector v => exact .inl rfl

@[simp] theorem slot_setSlot (s : DirectoryFlash P) (i : UInt8) (slot : DirectorySlot P) :
    (s.setSlot i slot).slot i = .ok slot := by
  unfold setSlot DirectoryFlash.slot
  split <;> rfl

@[simp] theorem setSlot_selector (s : DirectoryFlash P) (i : UInt8) (slot : DirectorySlot P) :
    (s.setSlot i slot).selector = s.selector := by
  unfold setSlot
  split <;> rfl

@[simp] theorem slot_select (s : DirectoryFlash P) (i j : UInt8) : (s.select i).slot j = s.slot j := rfl

@[simp] theorem select_selector (s : DirectoryFlash P) (i : UInt8) : (s.select i).selector = .ok i := rfl

theorem slot_setSlot_of_ne (s : DirectoryFlash P) {i j : UInt8} (hi : i ≤ 1) (hj : j ≤ 1)
    (hne : j ≠ i) (slot : DirectorySlot P) : (s.setSlot i slot).slot j = s.slot j := by
  rcases eq_zero_or_one hi with rfl | rfl <;> rcases eq_zero_or_one hj with rfl | rfl
  · exact absurd rfl hne
  · rfl
  · rfl
  · exact absurd rfl hne

/-- What a commit of `slot` to `i` leaves at any point. -/
def Leaves (s : DirectoryFlash P) (i : UInt8) (slot : DirectorySlot P) (t : DirectoryFlash P) : Prop :=
  t = s ∨ t = s.setSlot i slot ∨ t = (s.setSlot i slot).select i

def IdealCall (q : DirectoryCall P) (s : DirectoryFlash P) (r : q.Answer) (t : DirectoryFlash P) :
    Prop := ideal q s = (r, t)

/-- An answer that reports no failed write. -/
def AnswerOk : (q : DirectoryCall P) → q.Answer → Prop
  | .writeSlot _ _, r => r = espOk
  | .writeSelector _, r => r = espOk
  | _, _ => True

/-- No write of a transcript reported a failure. -/
def WritesOk (tr : List (Σ q : DirectoryCall P, q.Answer)) : Prop := ∀ x ∈ tr, AnswerOk x.1 x.2

theorem Call.ideal {q : DirectoryCall P} {s t : DirectoryFlash P} {r : q.Answer} (h : Call q s r t)
    (hr : AnswerOk q r) : IdealCall q s r t := by
  cases q with
  | readSlot i =>
    obtain ⟨rfl, rfl⟩ := h
    rfl
  | writeSlot i slot =>
    obtain rfl := h.resolve_right fun h => h.1 hr
    exact Prod.ext hr.symm rfl
  | readSelector =>
    obtain ⟨rfl, rfl⟩ := h
    rfl
  | writeSelector v =>
    obtain rfl := h.resolve_right fun h => h.1 hr
    exact Prod.ext hr.symm rfl

/-- Without a failed write a program runs as over ideal calls. -/
theorem exec_ideal {α : Type} {p : DirectoryProg P α} {s t : DirectoryFlash P}
    {tr : List (Σ q : DirectoryCall P, q.Answer)} {a : α} (h : Prog.Exec Call p s tr a t)
    (hw : WritesOk tr) : Prog.Exec IdealCall p s tr a t := by
  induction h with
  | ret a s => exact .ret a s
  | ask hq _ ih =>
    refine .ask (hq.ideal (hw _ List.mem_cons_self)) (ih fun x hx => ?_)
    exact hw x (List.mem_cons_of_mem _ hx)

/-- Ideal calls report no failed write. -/
theorem playS_writesOk {α : Type} (p : DirectoryProg P α) (s : DirectoryFlash P) :
    WritesOk (p.playS DirectoryFlash.ideal s).1 := by
  induction p generalizing s with
  | ret a => exact fun x hx => absurd hx List.not_mem_nil
  | ask q k ih =>
    intro x hx
    rcases List.mem_cons.mp hx with rfl | hx
    · cases q <;> first | rfl | trivial
    · exact ih _ _ x hx

end DirectoryFlash

open DirectoryFlash

/-! ## The commit -/

/-- `argus_security_directory_snapshot_t` and `argus_machine_directory_snapshot_t`. -/
structure DirectorySnapshot (P : Type) where
  payload : P
  generation : UInt32
deriving DecidableEq

/-- `s_snapshot` and `s_active_slot`. -/
structure DirectoryRam (P : Type) where
  snapshot : DirectorySnapshot P
  activeSlot : UInt8
deriving DecidableEq

/-- The generation a commit gives to its slot. -/
def nextGeneration (generation : UInt32) : UInt32 :=
  if generation + 1 = 0 then 1 else generation + 1

theorem nextGeneration_ne_zero (generation : UInt32) : nextGeneration generation ≠ 0 := by
  unfold nextGeneration
  split
  · decide
  · next h => exact h

namespace DirectoryRam

/-- The slot a commit writes to. -/
def target (ram : DirectoryRam P) : UInt8 :=
  if ram.snapshot.generation = 0 then 0 else ram.activeSlot ^^^ 1

def record (k : DirectoryKind P) (ram : DirectoryRam P) (payload : P) : DirectorySlot P :=
  .record k (nextGeneration ram.snapshot.generation) payload

/-- The statics after a commit. -/
def committed (ram : DirectoryRam P) (payload : P) : DirectoryRam P where
  snapshot := ⟨payload, nextGeneration ram.snapshot.generation⟩
  activeSlot := ram.target

/-- `argus_machine_directory_commit_precondition`, and the same check of the other
directory, which has no state to be ready. -/
def CommitPrecondition (k : DirectoryKind P) (ready : Bool) (ram : DirectoryRam P) (payload : P)
    (expectedGeneration : UInt32) : Prop :=
  ready = true ∧ k.payloadValid payload = true ∧ expectedGeneration = ram.snapshot.generation

instance (ready : Bool) (ram : DirectoryRam P) (payload : P) (expectedGeneration : UInt32) :
    Decidable (CommitPrecondition k ready ram payload expectedGeneration) :=
  inferInstanceAs (Decidable (_ ∧ _ ∧ _))

/-- `commit_locked`. -/
def commitLocked [DecidableEq P] (k : DirectoryKind P) (ready : Bool) (ram : DirectoryRam P)
    (payload : P) (expectedGeneration : UInt32) : DirectoryProg P (EspErr × DirectoryRam P) :=
  if ¬ CommitPrecondition k ready ram payload expectedGeneration then .ret (espErrInvalidState, ram)
  else
    .ask (.writeSlot ram.target (ram.record k payload)) fun err =>
    if err ≠ espOk then .ret (err, ram)
    else
      .ask (.readSlot ram.target) fun readback =>
      match readback with
      | .error err => .ret (err, ram)
      | .ok back =>
        if back.valid k = false ∨ ram.record k payload ≠ back then .ret (espErrInvalidCrc, ram)
        else
          .ask (.writeSelector ram.target) fun err =>
          if err ≠ espOk then .ret (err, ram) else .ret (espOk, ram.committed payload)

theorem target_le {ram : DirectoryRam P} (h : ram.activeSlot ≤ 1) : ram.target ≤ 1 := by
  unfold target
  split
  · decide
  · rcases eq_zero_or_one h with hs | hs <;> rw [hs] <;> decide

/-- A commit never writes the slot the snapshot is kept in. -/
theorem target_ne {ram : DirectoryRam P} (h : ram.activeSlot ≤ 1) (hg : ram.snapshot.generation ≠ 0) :
    ram.target ≠ ram.activeSlot := by
  unfold target
  rw [if_neg hg]
  rcases eq_zero_or_one h with hs | hs <;> rw [hs] <;> decide

theorem record_valid (ram : DirectoryRam P) {payload : P} (h : k.payloadValid payload = true) :
    (ram.record k payload).valid k = true :=
  DirectorySlot.record_valid (nextGeneration_ne_zero _) h

/-- The read-back finds the record as it was written. -/
theorem readback_ok (ram : DirectoryRam P) {payload : P} (h : k.payloadValid payload = true) :
    ¬ ((ram.record k payload).valid k = false ∨ ram.record k payload ≠ ram.record k payload) := by
  rintro (hv | hne)
  · rw [ram.record_valid h] at hv
    cases hv
  · exact hne rfl

variable [DecidableEq P] {ram : DirectoryRam P} {ready : Bool} {payload : P}
  {expectedGeneration : UInt32}

theorem commitLocked_refused (h : ¬ CommitPrecondition k ready ram payload expectedGeneration) :
    commitLocked k ready ram payload expectedGeneration = .ret (espErrInvalidState, ram) := if_pos h

/-- **A commit at every point.**  It leaves nothing, its slot, or its slot and the
selector, and `ESP_OK` means the last. -/
theorem commitLocked_spec (h : CommitPrecondition k ready ram payload expectedGeneration)
    (s : DirectoryFlash P) :
    (commitLocked k ready ram payload expectedGeneration).wpS Call
      (fun q t => s.Leaves ram.target (ram.record k payload) t ∧
        ∀ u, Cut q t u → s.Leaves ram.target (ram.record k payload) u)
      (fun a t => a.1 ≠ espOk ∧ a.2 = ram ∧ s.Leaves ram.target (ram.record k payload) t ∨
        a = (espOk, ram.committed payload) ∧
          t = (s.setSlot ram.target (ram.record k payload)).select ram.target) s := by
  have hslot {r : EspErr} {t : DirectoryFlash P}
      (ht : Call (.writeSlot ram.target (ram.record k payload)) s r t) :
      s.Leaves ram.target (ram.record k payload) t := by
    rcases ht with rfl | ⟨-, rfl⟩
    · exact .inr (.inl rfl)
    · exact .inl rfl
  unfold commitLocked
  rw [if_neg (not_not.mpr h)]
  refine ⟨⟨.inl rfl, fun u ⟨r, hu⟩ => hslot hu⟩, fun r t ht => ?_⟩
  beta_reduce
  split
  · next hr => exact .inl ⟨hr, rfl, hslot ht⟩
  · next hr =>
    have hwritten : t = s.setSlot ram.target (ram.record k payload) :=
      ht.resolve_right fun h => h.1 (not_not.mp hr)
    subst hwritten
    refine ⟨⟨.inr (.inl rfl), ?_⟩, ?_⟩
    · rintro u ⟨r, -, rfl⟩
      exact .inr (.inl rfl)
    rintro _ _ ⟨rfl, rfl⟩
    rw [DirectoryFlash.slot_setSlot]
    dsimp only
    rw [if_neg (readback_ok ram h.2.1)]
    have hsel {r : EspErr} {t : DirectoryFlash P} (ht : Call (.writeSelector ram.target)
        (s.setSlot ram.target (ram.record k payload)) r t) :
        s.Leaves ram.target (ram.record k payload) t := by
      rcases ht with rfl | ⟨-, rfl⟩
      · exact .inr (.inr rfl)
      · exact .inr (.inl rfl)
    refine ⟨⟨.inr (.inl rfl), fun u ⟨r, hu⟩ => hsel hu⟩, fun r t ht => ?_⟩
    beta_reduce
    split
    · next hr => exact .inl ⟨hr, rfl, hsel ht⟩
    · next hr => exact .inr ⟨rfl, ht.resolve_right fun h => h.1 (not_not.mp hr)⟩

/-- A commit cut off after its first write. -/
theorem commitLocked_cut (h : CommitPrecondition k ready ram payload expectedGeneration)
    (s : DirectoryFlash P) :
    Prog.Crash Call Cut (commitLocked k ready ram payload expectedGeneration) s
      (s.setSlot ram.target (ram.record k payload)) := by
  unfold commitLocked
  rw [if_neg (not_not.mpr h)]
  exact .inside ⟨espOk, .inl rfl⟩

/-- A commit whose calls all succeed. -/
theorem commitLocked_ideal (h : CommitPrecondition k ready ram payload expectedGeneration)
    (s : DirectoryFlash P) :
    (commitLocked k ready ram payload expectedGeneration).wpS IdealCall (fun _ _ => True)
      (fun a t => a = (espOk, ram.committed payload) ∧
        t = (s.setSlot ram.target (ram.record k payload)).select ram.target) s := by
  unfold commitLocked
  rw [if_neg (not_not.mpr h)]
  refine ⟨trivial, ?_⟩
  rintro _ _ ⟨⟩
  beta_reduce
  rw [if_neg (not_not.mpr rfl)]
  refine ⟨trivial, ?_⟩
  rintro _ _ ⟨⟩
  rw [DirectoryFlash.slot_setSlot]
  dsimp only
  rw [if_neg (readback_ok ram h.2.1)]
  refine ⟨trivial, ?_⟩
  rintro _ _ ⟨⟩
  beta_reduce
  rw [if_neg (not_not.mpr rfl)]
  exact ⟨rfl, rfl⟩

end DirectoryRam

end Argus
