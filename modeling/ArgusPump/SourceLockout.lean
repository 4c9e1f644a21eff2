import ArgusPump.MachineThrottle

/-!
# The failure lockout of a source

`bucket_for` stops at the first free slot, so once a success has freed a slot in front of it, a
source's own bucket is no longer found: the source starts over in the free slot.  While every
call finds the bucket its source has, the table is one lockout for each source.

    every call finds its own bucket, at most 8 sources → a call is locked out ↔ its own fifth
      failure in a window is less than the cooldown ago                 (source_lockout)
    a success of another source frees a slot in front → the lockout is lost
                                                                        (lockout_lost)
-/

namespace Argus

open Interact

/-! ## What a source's own calls amount to -/

/-- The start of the source's window, and its failures in it. -/
structure SourceWindow where
  startedUs : Option UInt64
  failures : Nat

/-- A window starts with the first call, and with the first call that is not locked out after
the window's end; a success ends it, and the failure that reaches the limit counts afresh. -/
def SourceWindow.next (key : UInt32) (w : SourceWindow) (m : MachineAuthMove) : SourceWindow :=
  match m.ev with
  | .admission peerKey nowUs answer =>
    if peerKey ≠ key then w
    else
      match w.startedUs, answer with
      | none, _ => ⟨some nowUs, 0⟩
      | some _, .lockedOut _ => w
      | some startedUs, _ =>
        if startedUs.toNat + machineAuthWindowUs.toNat < nowUs.toNat then ⟨some nowUs, 0⟩ else w
  | .record peerKey _ success =>
    if peerKey ≠ key then w
    else if success then ⟨none, 0⟩
    else { w with failures := (w.failures + 1) % machineAuthFailureLimit.toNat }

def sourceWindow (key : UInt32) (ms : List MachineAuthMove) : SourceWindow :=
  ms.foldl (.next key) ⟨none, 0⟩

/-- The run recorded a failure of a call of the source that started at `startUs`, the last of
as many in one window as lock it out. -/
def LocksOut (key : UInt32) (startUs : UInt64) (ms : List MachineAuthMove) : Prop :=
  ∃ l m r, ms = l ++ m :: r ∧ m.ev = .record key startUs false ∧
    (sourceWindow key l).failures + 1 = machineAuthFailureLimit.toNat

theorem sourceWindow_snoc (key : UInt32) (ms : List MachineAuthMove) (m : MachineAuthMove) :
    sourceWindow key (ms ++ [m]) = (sourceWindow key ms).next key m :=
  List.foldl_concat ..

theorem locksOut_snoc {key : UInt32} {startUs : UInt64} {ms : List MachineAuthMove}
    {m : MachineAuthMove} :
    LocksOut key startUs (ms ++ [m]) ↔ LocksOut key startUs ms ∨
      m.ev = .record key startUs false ∧
        (sourceWindow key ms).failures + 1 = machineAuthFailureLimit.toNat := by
  constructor
  · rintro ⟨l, n, r, hms, hev, hcount⟩
    rcases List.eq_nil_or_concat r with rfl | ⟨r, k, rfl⟩
    · obtain ⟨rfl, hn⟩ := List.append_inj' hms rfl
      cases hn
      exact .inr ⟨hev, hcount⟩
    · rw [List.concat_eq_append, ← List.cons_append, ← List.append_assoc] at hms
      obtain ⟨rfl, -⟩ := List.append_inj' hms rfl
      exact .inl ⟨l, n, r, rfl, hev, hcount⟩
  · rintro (⟨l, n, r, rfl, hev, hcount⟩ | ⟨hev, hcount⟩)
    · exact ⟨l, n, r ++ [m], by rw [List.append_assoc, List.cons_append], hev, hcount⟩
    · exact ⟨ms, m, [], rfl, hev, hcount⟩

/-- The source of a call. -/
def MachineAuthAct.peerKey : MachineAuthAct → UInt32
  | .admission peerKey _ _ | .record peerKey _ _ => peerKey

theorem locksOut_of_getElem? {key : UInt32} {startUs : UInt64} {ms : List MachineAuthMove} {i : Nat}
    (hev : ms[i]?.map Move.ev = some (.record key startUs false))
    (hcount : (sourceWindow key (ms.take i)).failures + 1 = machineAuthFailureLimit.toNat) :
    LocksOut key startUs ms := by
  obtain ⟨m, hm, hev⟩ := Option.map_eq_some_iff.mp hev
  obtain ⟨hi, rfl⟩ := List.getElem?_eq_some_iff.mp hm
  refine ⟨ms.take i, ms[i], ms.drop (i + 1), ?_, hev, hcount⟩
  rw [← List.drop_eq_getElem_cons hi, List.take_append_drop]

/-- What a call is locked out for. -/
def SourceLockout (ms : List MachineAuthMove) : Prop :=
  ∀ l m r key nowUs answer, ms = l ++ m :: r → m.ev = .admission key nowUs answer →
    ((∃ retry, answer = .lockedOut retry) ↔
      ∃ startUs, LocksOut key startUs l ∧ nowUs.toNat < startUs.toNat + machineAuthCooldownUs.toNat)

theorem SourceLockout.getElem? {ms : List MachineAuthMove} (h : SourceLockout ms) {i : Nat} {key : UInt32}
    {nowUs : UInt64} {answer : KdfAdmission} (hev : ms[i]?.map Move.ev = some (.admission key nowUs answer)) :
    (∃ retry, answer = .lockedOut retry) ↔ ∃ startUs, LocksOut key startUs (ms.take i) ∧
      nowUs.toNat < startUs.toNat + machineAuthCooldownUs.toNat := by
  obtain ⟨m, hm, hev⟩ := Option.map_eq_some_iff.mp hev
  obtain ⟨hi, rfl⟩ := List.getElem?_eq_some_iff.mp hm
  refine h (ms.take i) ms[i] (ms.drop (i + 1)) key nowUs answer ?_ hev
  rw [← List.drop_eq_getElem_cons hi, List.take_append_drop]

/-- No free slot stands in front of the bucket of the call's source. -/
def OwnBucketFirst (m : MachineAuthMove) : Prop :=
  match m.ev with
  | .admission key _ _ => ∀ i j, (m.pre.throttle.buckets i).inUse = true →
      (m.pre.throttle.buckets i).peerKey = key → j < i → (m.pre.throttle.buckets j).inUse = true
  | .record .. => True

instance (m : MachineAuthMove) : Decidable (OwnBucketFirst m) := by
  unfold OwnBucketFirst
  split
  · infer_instance
  · infer_instance

/-! ## One source -/

theorem AuthBucket.admit_zero (peerKey : UInt32) (nowUs : UInt64) :
    AuthBucket.zero.admission peerKey nowUs = (none, ⟨peerKey, nowUs, 0, 0, true⟩) := by
  unfold admission zero
  dsimp only
  rw [if_neg Bool.false_ne_true, if_neg (UInt64.not_lt.mpr UInt64.zero_le), UInt64.sub_self,
    if_neg (by decide)]

theorem AuthBucket.admit_inUse {b : AuthBucket} (h : b.inUse = true) (peerKey : UInt32) (nowUs : UInt64) :
    b.admission peerKey nowUs =
      if b.blockedUntilUs > nowUs then (some (b.blockedUntilUs - nowUs), b)
      else if nowUs - b.windowStartedUs > machineAuthWindowUs then
        (none, { b with windowStartedUs := nowUs, failures := 0 })
      else (none, b) := by
  unfold admission
  rw [if_pos h]

/-- What the bucket of a source, if it has one, shows of the source's own calls. -/
structure SourceInv (key : UInt32) (ms : List MachineAuthMove) (clockUs : UInt64)
    (bucket : Option AuthBucket) : Prop where
  started : (sourceWindow key ms).startedUs = bucket.map AuthBucket.windowStartedUs
  failures : (sourceWindow key ms).failures = (bucket.getD .zero).failures.toNat
  few : (sourceWindow key ms).failures < machineAuthFailureLimit.toNat
  window : (bucket.getD .zero).windowStartedUs ≤ clockUs
  blocked : (bucket.getD .zero).blockedUntilUs ≠ 0 → ∃ startUs, LocksOut key startUs ms ∧
    (bucket.getD .zero).blockedUntilUs.toNat = startUs.toNat + machineAuthCooldownUs.toNat
  locked : ∀ startUs, LocksOut key startUs ms →
    clockUs.toNat < startUs.toNat + machineAuthCooldownUs.toNat →
    startUs.toNat + machineAuthCooldownUs.toNat ≤ (bucket.getD .zero).blockedUntilUs.toNat

namespace SourceInv

variable {key : UInt32} {ms : List MachineAuthMove} {m : MachineAuthMove} {clockUs nowUs : UInt64}
  {bucket : Option AuthBucket}

theorem start : SourceInv key [] 0 none where
  started := rfl
  failures := rfl
  few := show 0 < 5 by decide
  window := UInt64.le_refl _
  blocked h := absurd rfl h
  locked startUs h := by
    obtain ⟨l, m, r, hms, -⟩ := h
    exact absurd hms (by simp)

/-- A call that does not record a failure that locks out. -/
theorem unlocked (h : SourceInv key ms clockUs bucket) (hle : clockUs ≤ nowUs)
    (hm : ∀ startUs, m.ev ≠ .record key startUs false) {next : Option AuthBucket}
    (hstarted : (sourceWindow key (ms ++ [m])).startedUs = next.map AuthBucket.windowStartedUs)
    (hfailures : (sourceWindow key (ms ++ [m])).failures = (next.getD .zero).failures.toNat)
    (hfew : (sourceWindow key (ms ++ [m])).failures < machineAuthFailureLimit.toNat)
    (hwindow : (next.getD .zero).windowStartedUs ≤ nowUs)
    (hblocked : (next.getD .zero).blockedUntilUs = (bucket.getD .zero).blockedUntilUs) :
    SourceInv key (ms ++ [m]) nowUs next := by
  have hiff {startUs : UInt64} : LocksOut key startUs (ms ++ [m]) ↔ LocksOut key startUs ms := by
    rw [locksOut_snoc]
    exact ⟨fun h => h.resolve_right fun hr => hm startUs hr.1, .inl⟩
  refine ⟨hstarted, hfailures, hfew, hwindow, fun hne => ?_, fun startUs hlocks hlt => ?_⟩
  · rw [hblocked] at hne ⊢
    obtain ⟨startUs, hlocks, heq⟩ := h.blocked hne
    exact ⟨startUs, hiff.mpr hlocks, heq⟩
  · rw [hblocked]
    have hclock := UInt64.le_iff_toNat_le.mp hle
    exact h.locked startUs (hiff.mp hlocks) (by omega)

/-- Another source's call. -/
theorem other (h : SourceInv key ms clockUs bucket) (hle : clockUs ≤ nowUs) (hne : m.ev.peerKey ≠ key) :
    SourceInv key (ms ++ [m]) nowUs bucket := by
  have hsame : sourceWindow key (ms ++ [m]) = sourceWindow key ms := by
    rw [sourceWindow_snoc]
    unfold SourceWindow.next
    cases hev : m.ev with
    | admission peerKey nowUs answer =>
      rw [hev] at hne
      exact if_pos hne
    | record peerKey nowUs success =>
      rw [hev] at hne
      exact if_pos hne
  refine h.unlocked hle (fun startUs hev => ?_) ?_ ?_ ?_ (UInt64.le_trans h.window hle) rfl
  · rw [hev] at hne
    exact hne rfl
  · rw [hsame]
    exact h.started
  · rw [hsame]
    exact h.failures
  · rw [hsame]
    exact h.few

/-- A call of the source: what `throttle_admit` makes of its bucket. -/
theorem admission (h : SourceInv key ms clockUs bucket) (hle : clockUs ≤ nowUs) {answer : KdfAdmission}
    (hev : m.ev = .admission key nowUs answer) (huse : ∀ b ∈ bucket, b.inUse = true)
    (hanswer : (∃ retry, answer = .lockedOut retry) ↔
      ((bucket.getD .zero).admission key nowUs).1.isSome = true) :
    SourceInv key (ms ++ [m]) nowUs (some ((bucket.getD .zero).admission key nowUs).2) := by
  have hm (startUs : UInt64) : m.ev ≠ .record key startUs false := by
    rw [hev]
    exact MachineAuthAct.noConfusion
  have hclock := UInt64.le_iff_toNat_le.mp hle
  have hnext : sourceWindow key (ms ++ [m]) = (sourceWindow key ms).next key m := sourceWindow_snoc ..
  unfold SourceWindow.next at hnext
  rw [hev] at hnext
  dsimp only at hnext
  rw [if_neg (not_not.mpr rfl), h.started] at hnext
  cases bucket with
  | none =>
    dsimp only [Option.map_none, Option.getD_none] at hnext hanswer ⊢
    rw [AuthBucket.admit_zero]
    refine h.unlocked hle hm ?_ ?_ ?_ (UInt64.le_refl _) rfl
    · rw [hnext]
      rfl
    · rw [hnext]
      rfl
    · rw [hnext]
      exact show 0 < 5 by decide
  | some b =>
    dsimp only [Option.map_some, Option.getD_some] at hnext hanswer ⊢
    have hwindow : b.windowStartedUs ≤ nowUs := UInt64.le_trans h.window hle
    have helapsed := UInt64.toNat_sub_of_le _ _ hwindow
    have hstarted := UInt64.le_iff_toNat_le.mp hwindow
    have hkept (hw : sourceWindow key (ms ++ [m]) = sourceWindow key ms) :
        SourceInv key (ms ++ [m]) nowUs (some b) := by
      refine h.unlocked hle hm ?_ ?_ ?_ hwindow rfl
      · rw [hw]
        exact h.started
      · rw [hw]
        exact h.failures
      · rw [hw]
        exact h.few
    rw [AuthBucket.admit_inUse (huse b rfl)] at hanswer ⊢
    split
    · next hblocked =>
      rw [if_pos hblocked] at hanswer
      obtain ⟨retry, rfl⟩ := hanswer.mpr rfl
      exact hkept hnext
    · next hblocked =>
      rw [if_neg hblocked] at hanswer
      have hopen : ¬ ∃ retry, answer = .lockedOut retry := fun hlocked => by
        have hsome := hanswer.mp hlocked
        split at hsome
        · cases hsome
        · cases hsome
      have hnext' : sourceWindow key (ms ++ [m]) =
          if b.windowStartedUs.toNat + machineAuthWindowUs.toNat < nowUs.toNat then ⟨some nowUs, 0⟩
          else sourceWindow key ms := by
        cases answer with
        | lockedOut retry => exact absurd ⟨retry, rfl⟩ hopen
        | _ => exact hnext
      split
      · next hover =>
        have hlt := UInt64.lt_iff_toNat_lt.mp hover
        rw [if_pos (by omega)] at hnext'
        refine h.unlocked hle hm ?_ ?_ ?_ (UInt64.le_refl _) rfl
        · rw [hnext']
          rfl
        · rw [hnext']
          rfl
        · rw [hnext']
          exact show 0 < 5 by decide
      · next hover =>
        have hle' := UInt64.le_iff_toNat_le.mp (UInt64.not_lt.mp hover)
        rw [if_neg (by omega)] at hnext'
        exact hkept hnext'

theorem next_record {startUs : UInt64} (hev : m.ev = .record key startUs false) :
    sourceWindow key (ms ++ [m]) =
      { sourceWindow key ms with
        failures := ((sourceWindow key ms).failures + 1) % machineAuthFailureLimit.toNat } := by
  rw [sourceWindow_snoc]
  unfold SourceWindow.next
  rw [hev]
  dsimp only
  rw [if_neg (not_not.mpr rfl), if_neg Bool.false_ne_true]

/-- The failure that reaches the limit. -/
theorem lock {b : AuthBucket} (h : SourceInv key ms clockUs (some b)) {startUs untilUs : UInt64}
    (hev : m.ev = .record key startUs false)
    (hcount : (sourceWindow key ms).failures + 1 = machineAuthFailureLimit.toNat)
    (huntil : untilUs.toNat = startUs.toNat + machineAuthCooldownUs.toNat)
    (hpast : ∀ s, LocksOut key s ms → s.toNat + machineAuthCooldownUs.toNat ≤ clockUs.toNat) :
    SourceInv key (ms ++ [m]) clockUs (some { b with blockedUntilUs := untilUs, failures := 0 }) := by
  have hnew : LocksOut key startUs (ms ++ [m]) := locksOut_snoc.mpr (.inr ⟨hev, hcount⟩)
  have hnext : sourceWindow key (ms ++ [m]) = _ := next_record hev
  rw [hcount, Nat.mod_self] at hnext
  refine ⟨?_, ?_, ?_, h.window, fun _ => ⟨startUs, hnew, huntil⟩, fun s hlocks hnow => ?_⟩
  · rw [hnext]
    exact h.started
  · rw [hnext]
    rfl
  · rw [hnext]
    exact show 0 < 5 by decide
  · rcases locksOut_snoc.mp hlocks with hlocks | ⟨hsame, -⟩
    · exact absurd (hpast s hlocks) (Nat.not_le_of_lt hnow)
    · rw [hev] at hsame
      cases hsame
      exact huntil.ge

/-- A failure below the limit. -/
theorem fail {b : AuthBucket} (h : SourceInv key ms clockUs (some b)) {startUs : UInt64} {failures : UInt8}
    (hev : m.ev = .record key startUs false)
    (hcount : (sourceWindow key ms).failures + 1 ≠ machineAuthFailureLimit.toNat)
    (hfailures : failures.toNat = (sourceWindow key ms).failures + 1) :
    SourceInv key (ms ++ [m]) clockUs (some { b with failures := failures }) := by
  have hfew := h.few
  have hnext : sourceWindow key (ms ++ [m]) = _ := next_record hev
  rw [Nat.mod_eq_of_lt (by omega)] at hnext
  have hiff {s : UInt64} : LocksOut key s (ms ++ [m]) ↔ LocksOut key s ms := by
    rw [locksOut_snoc]
    exact ⟨fun h => h.resolve_right fun hr => hcount hr.2, .inl⟩
  refine ⟨?_, ?_, ?_, h.window, fun hne => ?_, fun s hlocks hnow => ?_⟩
  · rw [hnext]
    exact h.started
  · rw [hnext]
    exact hfailures.symm
  · rw [hnext]
    dsimp only
    omega
  · obtain ⟨s, hlocks, heq⟩ := h.blocked hne
    exact ⟨s, hiff.mpr hlocks, heq⟩
  · exact h.locked s (hiff.mp hlocks) hnow

/-- A success. -/
theorem succeed {startUs : UInt64}
    (hev : m.ev = .record key startUs true)
    (hpast : ∀ s, LocksOut key s ms → s.toNat + machineAuthCooldownUs.toNat ≤ clockUs.toNat) :
    SourceInv key (ms ++ [m]) clockUs none := by
  have hnext : sourceWindow key (ms ++ [m]) = ⟨none, 0⟩ := by
    rw [sourceWindow_snoc]
    unfold SourceWindow.next
    rw [hev]
    dsimp only
    rw [if_neg (not_not.mpr rfl), if_pos rfl]
  refine ⟨?_, ?_, ?_, UInt64.zero_le, fun hne => absurd rfl hne, fun s hlocks hnow => ?_⟩
  · rw [hnext]
    rfl
  · rw [hnext]
    rfl
  · rw [hnext]
    exact show 0 < 5 by decide
  · rcases locksOut_snoc.mp hlocks with hlocks | ⟨hfalse, -⟩
    · exact absurd (hpast s hlocks) (Nat.not_le_of_lt hnow)
    · rw [hev] at hfalse
      cases hfalse

/-- The result of a call of the source, at a time its bucket was not blocked. -/
theorem record {b : AuthBucket} (h : SourceInv key ms clockUs (some b)) {startUs : UInt64} {success : Bool}
    (hev : m.ev = .record key startUs success) (hblocked : b.blockedUntilUs ≤ startUs)
    (hstart : startUs ≤ clockUs) (hlt : startUs.toNat < 2 ^ 63) :
    SourceInv key (ms ++ [m]) clockUs (if success then none else some (b.record startUs success)) := by
  have hblocked' := UInt64.le_iff_toNat_le.mp hblocked
  have hstart' := UInt64.le_iff_toNat_le.mp hstart
  have hpast (s : UInt64) (hlocks : LocksOut key s ms) :
      s.toNat + machineAuthCooldownUs.toNat ≤ clockUs.toNat := by
    by_contra hno
    have hlocked := h.locked s hlocks (Nat.lt_of_not_le hno)
    rw [Option.getD_some] at hlocked
    omega
  cases success with
  | true => exact succeed hev hpast
  | false =>
    have hcount : (sourceWindow key ms).failures = b.failures.toNat := h.failures
    have hlimit : machineAuthFailureLimit.toNat = 5 := rfl
    have hfew := h.few
    have hsucc : (b.failures + 1).toNat = b.failures.toNat + 1 := by
      rw [UInt8.toNat_add]
      exact Nat.mod_eq_of_lt (by show b.failures.toNat + 1 < 2 ^ 8; omega)
    have hreached : b.failures + 1 ≥ machineAuthFailureLimit ↔
        (sourceWindow key ms).failures + 1 = machineAuthFailureLimit.toNat := by
      rw [ge_iff_le, UInt8.le_iff_toNat_le, hsucc]
      omega
    have huntil : (startUs + machineAuthCooldownUs).toNat =
        startUs.toNat + machineAuthCooldownUs.toNat := by
      have hcooldown : machineAuthCooldownUs.toNat < 2 ^ 32 := by decide
      rw [UInt64.toNat_add]
      exact Nat.mod_eq_of_lt (by omega)
    rw [if_neg Bool.false_ne_true]
    unfold AuthBucket.record
    rw [if_neg Bool.false_ne_true]
    split
    · next hge => exact h.lock hev (hreached.mp hge) huntil hpast
    · next hge => exact h.fail hev (fun heq => hge (hreached.mpr heq)) (hsucc.trans (by rw [hcount]))

end SourceInv

/-! ## The table -/

/-- The source of a bucket in use. -/
def AuthBucket.key (bucket : AuthBucket) : Option UInt32 :=
  if bucket.inUse then some bucket.peerKey else none

namespace AuthBucket

variable {b : AuthBucket} {k : UInt32}

theorem key_eq_some : b.key = some k ↔ b.inUse = true ∧ b.peerKey = k := by
  unfold key
  split
  · next h => simp [h]
  · next h => simp [h]

theorem key_eq_none : b.key = none ↔ b.inUse = false := by
  unfold key
  split
  · next h => simp [h]
  · next h => simp [h]

end AuthBucket

/-- The bucket of the source, if it has one, and where the scan of `bucket_for` stops. -/
structure BucketSlot (buckets : Fin 8 → AuthBucket) (key : UInt32) (i : Fin 8) : Prop where
  found : bucketFound buckets key = some i
  own : ∀ j, (buckets j).key = some key → j = i
  other : ∀ k, (buckets i).key = some k → k = key
  before : ∀ j < i, (buckets j).inUse = true
  holds : buckets i = (Slots.get AuthBucket.key buckets key).getD .zero

section Table

variable {buckets : Fin 8 → AuthBucket} {key : UInt32} {i : Fin 8}

/-- The scan stops at the source's own bucket when no free slot is in front of it. -/
theorem bucketSlot_own (hkeyed : Slots.Keyed AuthBucket.key buckets) (hi : (buckets i).key = some key)
    (hbefore : ∀ j < i, (buckets j).inUse = true) : BucketSlot buckets key i := by
  have hfound : bucketFound buckets key = some i := by
    cases hj : bucketFound buckets key with
    | none =>
      have hall := List.find?_eq_none.mp hj i (List.mem_finRange i)
      rw [(AuthBucket.key_eq_some.mp hi).2] at hall
      simp at hall
    | some j =>
      obtain ⟨hstop, hskipped⟩ := Slots.find_spec hj
      congr 1
      rcases lt_trichotomy j i with hlt | heq | hgt
      · rw [hbefore j hlt, Bool.not_true, Bool.false_or] at hstop
        exact hkeyed j i key
          (AuthBucket.key_eq_some.mpr ⟨hbefore j hlt, of_decide_eq_true hstop⟩) hi
      · exact heq
      · have hskip := hskipped i hgt
        rw [(AuthBucket.key_eq_some.mp hi).2] at hskip
        simp at hskip
  refine ⟨hfound, fun j hj => hkeyed j i key hj hi, fun k hk => Option.some.inj (hk.symm.trans hi),
    hbefore, ?_⟩
  rw [(Slots.get_eq_some hkeyed).mpr ⟨i, rfl, hi⟩, Option.getD_some]

/-- A source without a bucket gets the first free one. -/
theorem bucketSlot_free (hfree : ∀ i, (buckets i).key = none → buckets i = .zero)
    (hnone : ∀ i, (buckets i).key ≠ some key) (hroom : ∃ i, (buckets i).key = none) :
    ∃ i, BucketSlot buckets key i := by
  obtain ⟨j, hj⟩ := hroom
  cases hi : bucketFound buckets key with
  | none =>
    have hall := List.find?_eq_none.mp hi j (List.mem_finRange j)
    rw [AuthBucket.key_eq_none.mp hj] at hall
    simp at hall
  | some i =>
    obtain ⟨hstop, hskipped⟩ := Slots.find_spec hi
    have hfreed : (buckets i).key = none := by
      rw [AuthBucket.key_eq_none]
      by_contra huse
      rw [Bool.not_eq_false] at huse
      rw [huse, Bool.not_true, Bool.false_or] at hstop
      exact hnone i (AuthBucket.key_eq_some.mpr ⟨huse, of_decide_eq_true hstop⟩)
    refine ⟨i, hi, fun j hj => absurd hj (hnone j), fun k hk => ?_, fun j hlt => ?_, ?_⟩
    · rw [hfreed] at hk
      cases hk
    · have hskip := hskipped j hlt
      rw [Bool.or_eq_false_iff] at hskip
      simpa using hskip.1
    · rw [Slots.get_eq_none.mpr hnone, Option.getD_none]
      exact hfree i hfreed

theorem BucketSlot.bucketFor (h : BucketSlot buckets key i) (nowUs : UInt64) :
    bucketFor buckets key nowUs = (i, buckets) := by
  unfold Argus.bucketFor
  rw [h.found]

theorem BucketSlot.throttleAdmit (h : BucketSlot buckets key i) (nowUs : UInt64) :
    throttleAdmit buckets key nowUs =
      (((buckets i).admission key nowUs).1, Function.update buckets i ((buckets i).admission key nowUs).2) := by
  unfold Argus.throttleAdmit
  rw [h.bucketFor]

theorem BucketSlot.recordAuthResult (h : BucketSlot buckets key i) (nowUs : UInt64) (success : Bool) :
    recordAuthResult buckets key nowUs success =
      Function.update buckets i ((buckets i).record nowUs success) := by
  unfold Argus.recordAuthResult
  rw [h.bucketFor]

end Table

/-! ## Runs -/

/-- A call that derives: its bucket is found, and was not blocked when it started. -/
def Derives (buckets : Fin 8 → AuthBucket) (clockUs : UInt64) (c : UInt32 × UInt64) : Prop :=
  c.2 ≤ clockUs ∧ c.2.toNat < 2 ^ 63 ∧ ∃ i, (buckets i).key = some c.1 ∧
    (∀ j < i, (buckets j).inUse = true) ∧ (buckets i).blockedUntilUs ≤ c.2

section Derives

variable {buckets : Fin 8 → AuthBucket} {key : UInt32} {i : Fin 8} {bucket : AuthBucket}
  {clockUs nowUs : UInt64}

theorem inUse_update (hnew : bucket.key = some key) {j : Fin 8} (hj : (buckets j).inUse = true) :
    (Function.update buckets i bucket j).inUse = true := by
  by_cases hji : j = i
  · rw [hji, Function.update_self]
    exact (AuthBucket.key_eq_some.mp hnew).1
  · rw [Function.update_of_ne hji]
    exact hj

/-- Another call leaves the bucket of one that derives. -/
theorem Derives.update {c : UInt32 × UInt64} (h : Derives buckets clockUs c) (hle : clockUs ≤ nowUs)
    (hslot : BucketSlot buckets key i) (hnew : bucket.key = some key)
    (hblocked : bucket.blockedUntilUs = (buckets i).blockedUntilUs) :
    Derives (Function.update buckets i bucket) nowUs c := by
  obtain ⟨hclock, hlt, j, hj, hbefore, hopen⟩ := h
  refine ⟨UInt64.le_trans hclock hle, hlt, j, ?_, fun k hk => inUse_update hnew (hbefore k hk), ?_⟩
  · by_cases hji : j = i
    · rw [hji] at hj ⊢
      rw [Function.update_self, hslot.other c.1 hj]
      exact hnew
    · rw [Function.update_of_ne hji]
      exact hj
  · by_cases hji : j = i
    · rw [hji] at hopen ⊢
      rw [Function.update_self, hblocked]
      exact hopen
    · rw [Function.update_of_ne hji]
      exact hopen

theorem Derives.enter (hslot : BucketSlot buckets key i) (hnew : bucket.key = some key)
    (hlt : nowUs.toNat < 2 ^ 63) (hopen : bucket.blockedUntilUs ≤ nowUs) :
    Derives (Function.update buckets i bucket) nowUs (key, nowUs) := by
  refine ⟨UInt64.le_refl _, hlt, i, ?_, fun j hj => inUse_update hnew (hslot.before j hj), ?_⟩
  · rw [Function.update_self]
    exact hnew
  · rw [Function.update_self]
    exact hopen

end Derives

/-- What holds of the table after the calls of `ms`, whose sources are among `keys`. -/
structure LockoutInv (keys : List UInt32) (ms : List MachineAuthMove) (s : MachineAuth) : Prop where
  keyed : Slots.Keyed AuthBucket.key s.throttle.buckets
  known : ∀ i k, (s.throttle.buckets i).key = some k → k ∈ keys
  free : ∀ i, (s.throttle.buckets i).key = none → s.throttle.buckets i = .zero
  sources : ∀ key, SourceInv key ms s.clockUs (Slots.get AuthBucket.key s.throttle.buckets key)
  inflight : ∀ c ∈ s.inflight, Derives s.throttle.buckets s.clockUs c
  one : s.inflight.length = s.throttle.kdfAdmitted ∧ s.throttle.kdfAdmitted ≤ 1

theorem AuthBucket.admit_spec {b : AuthBucket} {key : UInt32} (nowUs : UInt64)
    (h : b = .zero ∨ b.key = some key) :
    (b.admission key nowUs).2.key = some key ∧ (b.admission key nowUs).2.blockedUntilUs = b.blockedUntilUs ∧
      ((b.admission key nowUs).1 = none → b.blockedUntilUs ≤ nowUs) := by
  rcases h with rfl | hkey
  · rw [admit_zero]
    exact ⟨key_eq_some.mpr ⟨rfl, rfl⟩, rfl, fun _ => UInt64.zero_le⟩
  · rw [admit_inUse (key_eq_some.mp hkey).1]
    split
    · exact ⟨hkey, rfl, fun hnone => by cases hnone⟩
    · next hopen =>
      split
      · exact ⟨hkey, rfl, fun _ => UInt64.not_lt.mp hopen⟩
      · exact ⟨hkey, rfl, fun _ => UInt64.not_lt.mp hopen⟩

/-- A success frees the bucket, a failure leaves it to its source. -/
theorem AuthBucket.record_key {b : AuthBucket} {key : UInt32} (nowUs : UInt64) (success : Bool)
    (h : b.key = some key) :
    ((b.record nowUs success).key = some key ∨ b.record nowUs success = .zero) ∧
      (if (b.record nowUs success).inUse then some (b.record nowUs success) else none) =
        if success then none else some (b.record nowUs success) := by
  cases success with
  | true => exact ⟨.inr rfl, rfl⟩
  | false =>
    have hsame : (b.record nowUs false).inUse = b.inUse ∧ (b.record nowUs false).peerKey = b.peerKey := by
      unfold record
      rw [if_neg Bool.false_ne_true]
      split
      · exact ⟨rfl, rfl⟩
      · exact ⟨rfl, rfl⟩
    have hkey := key_eq_some.mp h
    rw [if_neg Bool.false_ne_true]
    generalize b.record nowUs false = next at hsame ⊢
    refine ⟨.inl (key_eq_some.mpr ⟨hsame.1.trans hkey.1, hsame.2.trans hkey.2⟩), if_pos ?_⟩
    exact hsame.1.trans hkey.1

namespace LockoutInv

variable {keys : List UInt32} {ms : List MachineAuthMove} {s t : MachineAuth}

theorem start (keys : List UInt32) : LockoutInv keys [] .boot where
  keyed := Slots.keyed_of_free fun _ => rfl
  known i k h := by cases h
  free i _ := rfl
  sources key := by
    rw [show Slots.get AuthBucket.key MachineAuth.boot.throttle.buckets key = none from
      Slots.get_eq_none.mpr fun _ h => by cases h]
    exact .start
  inflight c h := absurd h List.not_mem_nil
  one := ⟨rfl, Nat.zero_le _⟩

/-- The slot a call of the source works on. -/
theorem slot (h : LockoutInv keys ms s) (hlen : keys.length ≤ 8) {key : UInt32} (hkey : key ∈ keys)
    (hfirst : ∀ i j, (s.throttle.buckets i).inUse = true → (s.throttle.buckets i).peerKey = key →
      j < i → (s.throttle.buckets j).inUse = true) : ∃ i, BucketSlot s.throttle.buckets key i := by
  by_cases hown : ∃ i, (s.throttle.buckets i).key = some key
  · obtain ⟨i, hi⟩ := hown
    have hi' := AuthBucket.key_eq_some.mp hi
    exact ⟨i, bucketSlot_own h.keyed hi fun j hj => hfirst i j hi'.1 hi'.2 hj⟩
  · have hnone (i : Fin 8) : (s.throttle.buckets i).key ≠ some key := fun hi => hown ⟨i, hi⟩
    exact bucketSlot_free h.free hnone (Slots.exists_unkeyed h.keyed hlen hkey h.known hnone)

/-- A step that rewrites the slot of its source. -/
theorem update (h : LockoutInv keys ms s) {m : MachineAuthMove} {key : UInt32} {i : Fin 8}
    {bucket : AuthBucket} (hkey : key ∈ keys) (hev : m.ev.peerKey = key) (hle : s.clockUs ≤ t.clockUs)
    (hslot : BucketSlot s.throttle.buckets key i) (hbucket : bucket.key = some key ∨ bucket = .zero)
    (hbuckets : t.throttle.buckets = Function.update s.throttle.buckets i bucket)
    (hsource : SourceInv key (ms ++ [m]) t.clockUs (if bucket.inUse then some bucket else none))
    (hinflight : ∀ c ∈ t.inflight, Derives t.throttle.buckets t.clockUs c)
    (hone : t.inflight.length = t.throttle.kdfAdmitted ∧ t.throttle.kdfAdmitted ≤ 1) :
    LockoutInv keys (ms ++ [m]) t := by
  have hnew (k : UInt32) (hk : bucket.key = some k) : k = key := by
    rcases hbucket with hkey | rfl
    · exact Option.some.inj (hk.symm.trans hkey)
    · cases hk
  refine ⟨?_, fun j k hj => ?_, fun j hj => ?_, fun k => ?_, hinflight, hone⟩
  · rw [hbuckets]
    refine h.keyed.update fun j k hk hj => ?_
    cases hnew k hk
    exact hslot.own j hj
  · rw [hbuckets] at hj
    by_cases hji : j = i
    · rw [hji, Function.update_self] at hj
      cases hnew k hj
      exact hkey
    · rw [Function.update_of_ne hji] at hj
      exact h.known j k hj
  · rw [hbuckets] at hj ⊢
    by_cases hji : j = i
    · rw [hji, Function.update_self] at hj ⊢
      rcases hbucket with hsome | rfl
      · cases hsome.symm.trans hj
      · rfl
    · rw [Function.update_of_ne hji] at hj ⊢
      exact h.free j hj
  · rw [hbuckets]
    by_cases hk : k = key
    · rw [hk]
      rcases hbucket with hsome | rfl
      · rw [if_pos (AuthBucket.key_eq_some.mp hsome).1] at hsource
        rw [Slots.get_update_self h.keyed hslot.own hsome]
        exact hsource
      · rw [Slots.get_update_none hslot.own fun hno => by cases hno]
        exact hsource
    · rw [Slots.get_update_of_ne (fun hik => hk (hslot.other k hik)) fun hbk => hk (hnew k hbk)]
      exact (h.sources k).other hle fun heq => hk (heq.symm.trans hev)

/-- A call that asks for admission. -/
theorem admission (h : LockoutInv keys ms s) (hlen : keys.length ≤ 8) {key : UInt32} {nowUs : UInt64}
    {answer : KdfAdmission} {throttle : MachineThrottle} (hle : s.clockUs ≤ nowUs)
    (hlt : nowUs.toNat < 2 ^ 63) (hanswer : s.throttle.admission key nowUs = (answer, throttle))
    (hkey : key ∈ keys) (ht : t = ⟨throttle, nowUs,
      if answer = .admitted then (key, nowUs) :: s.inflight else s.inflight⟩)
    (hfirst : OwnBucketFirst ⟨s, .admission key nowUs answer, t⟩) :
    LockoutInv keys (ms ++ [⟨s, .admission key nowUs answer, t⟩]) t := by
  subst ht
  have hcase := MachineThrottle.admit_cases hanswer
  obtain ⟨i, hslot⟩ := h.slot hlen hkey hfirst
  have hthrottle := hslot.throttleAdmit nowUs
  have hbuckets := hcase.buckets_eq
  have hlocked := hcase.lockedOut_iff
  rw [hthrottle] at hbuckets hlocked
  dsimp only at hbuckets hlocked
  have hown : s.throttle.buckets i = .zero ∨ (s.throttle.buckets i).key = some key := by
    cases hi : (s.throttle.buckets i).key with
    | none => exact .inl (h.free i hi)
    | some k =>
      cases hslot.other k hi
      exact .inr rfl
  obtain ⟨hnew, hblocked, hopen⟩ := AuthBucket.admit_spec nowUs hown
  let m : MachineAuthMove := ⟨s, .admission key nowUs answer, ⟨throttle, nowUs,
    if answer = .admitted then (key, nowUs) :: s.inflight else s.inflight⟩⟩
  have hsource := SourceInv.admission (m := m) (h.sources key) hle rfl
    (fun b hb => by
      obtain ⟨j, -, hj⟩ := Slots.exists_of_get hb
      exact (AuthBucket.key_eq_some.mp hj).1)
    (by rw [← hslot.holds]; exact hlocked)
  rw [← hslot.holds] at hsource
  refine h.update hkey rfl hle hslot (.inl hnew) hbuckets ?_ (fun c hc => ?_) ?_
  · rw [if_pos (AuthBucket.key_eq_some.mp hnew).1]
    exact hsource
  · dsimp only at hc ⊢
    rw [hbuckets]
    have hold (hc : c ∈ s.inflight) := (h.inflight c hc).update hle hslot hnew hblocked
    split at hc
    · next hadmitted =>
      rcases List.mem_cons.mp hc with rfl | hc
      · refine .enter hslot hnew hlt ?_
        rw [hblocked]
        refine hopen ?_
        rw [← Option.not_isSome_iff_eq_none, ← hlocked, hadmitted]
        rintro ⟨retry, hno⟩
        cases hno
      · exact hold hc
    · exact hold hc
  · have hone := hcase.kdfAdmitted_eq
    dsimp only
    rw [hone.1]
    split
    · next hadmitted =>
      have hzero := hone.2 hadmitted
      rw [List.length_cons, h.one.1, hzero]
      exact ⟨rfl, Nat.le_refl _⟩
    · exact h.one

/-- The result of the call that derives, the only one. -/
theorem record (h : LockoutInv keys ms s) {key : UInt32} {startUs : UInt64} {success : Bool}
    (hmem : (key, startUs) ∈ s.inflight) (hkey : key ∈ keys)
    (ht : t = { s with
      throttle := s.throttle.record key startUs success
      inflight := s.inflight.erase (key, startUs) }) :
    LockoutInv keys (ms ++ [⟨s, .record key startUs success, t⟩]) t := by
  subst ht
  obtain ⟨hstart, hlt, i, hi, hbefore, hopen⟩ := h.inflight _ hmem
  have hslot := bucketSlot_own h.keyed hi hbefore
  have hget : Slots.get AuthBucket.key s.throttle.buckets key = some (s.throttle.buckets i) :=
    (Slots.get_eq_some h.keyed).mpr ⟨i, rfl, hi⟩
  have hsource := h.sources key
  rw [hget] at hsource
  let m : MachineAuthMove := ⟨s, .record key startUs success,
    { s with
      throttle := s.throttle.record key startUs success
      inflight := s.inflight.erase (key, startUs) }⟩
  have hrecorded := SourceInv.record (m := m) hsource rfl hopen hstart hlt
  have hspec := AuthBucket.record_key startUs success hi
  have hlength := List.length_erase_of_mem hmem
  have hone := h.one
  have hidle : (s.inflight.erase (key, startUs)).length = 0 := by omega
  refine h.update hkey rfl (UInt64.le_refl _) hslot hspec.1 (hslot.recordAuthResult startUs success) ?_
    (fun c hc => ?_) ⟨?_, ?_⟩
  · rw [hspec.2]
    exact hrecorded
  · dsimp only at hc
    rw [List.length_eq_zero_iff.mp hidle] at hc
    exact absurd hc List.not_mem_nil
  · show (s.inflight.erase (key, startUs)).length = s.throttle.kdfAdmitted - 1
    omega
  · show s.throttle.kdfAdmitted - 1 ≤ 1
    omega

/-- **Every step keeps the invariant.** -/
theorem step (h : LockoutInv keys ms s) (hlen : keys.length ≤ 8) {ev : MachineAuthAct}
    (hstep : MachineAuthStep s ev t) (hkey : ev.peerKey ∈ keys) (hfirst : OwnBucketFirst ⟨s, ev, t⟩) :
    LockoutInv keys (ms ++ [⟨s, ev, t⟩]) t := by
  cases hstep with
  | admission hle hlt hanswer => exact h.admission hlen hle hlt hanswer hkey rfl hfirst
  | record hmem => exact h.record hmem hkey rfl

end LockoutInv

theorem lockoutInv_run {keys : List UInt32} {ms : List MachineAuthMove}
    (h : IsRun MachineAuthStep .boot ms) (hlen : keys.length ≤ 8) (hkeys : ∀ m ∈ ms, m.ev.peerKey ∈ keys)
    (hfirst : ∀ m ∈ ms, OwnBucketFirst m) : LockoutInv keys ms (final MachineAuth.boot ms) := by
  refine h.inv_past_of (I := fun s ms => LockoutInv keys ms s)
    (K := fun _ m => m.ev.peerKey ∈ keys ∧ OwnBucketFirst m) (.start keys) (fun l m r heq => ?_)
    fun ns m hinv hstep hmet => hinv.step hlen hstep hmet.1 hmet.2
  have hm : m ∈ ms := by
    rw [heq]
    exact List.mem_append_right _ List.mem_cons_self
  exact ⟨hkeys m hm, hfirst m hm⟩

/-- The answer to a call, by the bucket of its source. -/
theorem LockoutInv.lockedOut_iff {keys : List UInt32} {ms : List MachineAuthMove} {s t : MachineAuth}
    (h : LockoutInv keys ms s) (hlen : keys.length ≤ 8) {key : UInt32} {nowUs : UInt64}
    {answer : KdfAdmission} (hstep : MachineAuthStep s (.admission key nowUs answer) t)
    (hkey : key ∈ keys) (hfirst : OwnBucketFirst ⟨s, .admission key nowUs answer, t⟩) :
    (∃ retry, answer = .lockedOut retry) ↔
      nowUs < ((Slots.get AuthBucket.key s.throttle.buckets key).getD .zero).blockedUntilUs := by
  cases hstep with
  | @admission key nowUs answer throttle hle hlt hanswer =>
    obtain ⟨i, hslot⟩ := h.slot hlen hkey hfirst
    rw [(MachineThrottle.admit_cases hanswer).lockedOut_iff, hslot.throttleAdmit, ← hslot.holds]
    cases hi : (s.throttle.buckets i).key with
    | none =>
      rw [h.free i hi, AuthBucket.admit_zero]
      simp [AuthBucket.zero]
    | some k =>
      rw [AuthBucket.admit_inUse (AuthBucket.key_eq_some.mp hi).1]
      by_cases hblocked : (s.throttle.buckets i).blockedUntilUs > nowUs
      · rw [if_pos hblocked]
        exact ⟨fun _ => hblocked, fun _ => rfl⟩
      · rw [if_neg hblocked]
        refine ⟨fun hsome => ?_, fun hlt => absurd hlt hblocked⟩
        split at hsome
        · cases hsome
        · cases hsome

/-- **One lockout for each source**, in a run where every call finds the bucket of its source. -/
theorem source_lockout {keys : List UInt32} {ms : List MachineAuthMove}
    (h : IsRun MachineAuthStep .boot ms) (hlen : keys.length ≤ 8) (hkeys : ∀ m ∈ ms, m.ev.peerKey ∈ keys)
    (hfirst : ∀ m ∈ ms, OwnBucketFirst m) : SourceLockout ms := by
  intro l m r key nowUs answer hms hev
  rw [hms, isRun_append, isRun_cons] at h
  obtain ⟨hrun, hpre, hstep, -⟩ := h
  have hmem : m ∈ ms := by
    rw [hms]
    exact List.mem_append_right _ List.mem_cons_self
  have hpast {n : MachineAuthMove} (hn : n ∈ l) : n ∈ ms := by
    rw [hms]
    exact List.mem_append_left _ hn
  have hinv := lockoutInv_run hrun hlen (fun n hn => hkeys n (hpast hn)) fun n hn => hfirst n (hpast hn)
  have hkey := hkeys m hmem
  have hown := hfirst m hmem
  obtain ⟨pre, ev, post⟩ := m
  cases hpre
  cases hev
  have hle : (final MachineAuth.boot l).clockUs.toNat ≤ nowUs.toNat :=
    UInt64.le_iff_toNat_le.mp hstep.admit_clock.1
  rw [hinv.lockedOut_iff hlen hstep hkey hown]
  have hsource := hinv.sources key
  constructor
  · intro hblocked
    have hlt := UInt64.lt_iff_toNat_lt.mp hblocked
    obtain ⟨startUs, hlocks, heq⟩ := hsource.blocked fun hzero => by
      rw [hzero] at hblocked
      exact absurd hblocked (UInt64.not_lt.mpr UInt64.zero_le)
    exact ⟨startUs, hlocks, by omega⟩
  · rintro ⟨startUs, hlocks, hlt⟩
    have huntil := hsource.locked startUs hlocks (by omega)
    exact UInt64.lt_iff_toNat_lt.mpr (by omega)

/-- Five failures, a call that is locked out, and a call after the cooldown. -/
theorem source_lockout_five :
    SourceLockout (machineAuthTrace (wholeCall 7 1 true ++ wholeCall 7 2 false ++ wholeCall 7 3 false ++
      wholeCall 7 4 false ++ wholeCall 7 5 false ++ wholeCall 7 10000006 false ++
      [.enter 7 40000005] ++ wholeCall 7 40000006 true)) ∧
    ∃ m ∈ machineAuthTrace (wholeCall 7 1 true ++ wholeCall 7 2 false ++ wholeCall 7 3 false ++
      wholeCall 7 4 false ++ wholeCall 7 5 false ++ wholeCall 7 10000006 false ++
      [.enter 7 40000005] ++ wholeCall 7 40000006 true),
      m.ev = .admission 7 40000005 (.lockedOut 1) := by
  refine ⟨source_lockout (isRun_machineAuthTrace _) (show ([7] : List UInt32).length ≤ 8 by decide) ?_ ?_, ?_⟩
  · decide +kernel
  · decide +kernel
  · decide +kernel

/-- Source 2 is locked out, and a success of source 1 frees the slot in front of its bucket. -/
def lockoutLostCalls : List MachineAuthCall :=
  wholeCall 1 1 false ++ wholeCall 2 2 false ++ wholeCall 2 3 false ++ wholeCall 2 4 false ++
    wholeCall 2 5 false ++ wholeCall 2 10000001 false ++ wholeCall 1 10000002 true ++ [.enter 2 10000003]

/-- **A lockout is lost** when the success of another source frees a slot in front. -/
theorem lockout_lost :
    ¬ ∀ (keys : List UInt32) (ms : List MachineAuthMove), IsRun MachineAuthStep .boot ms →
      keys.length ≤ 8 → (∀ m ∈ ms, m.ev.peerKey ∈ keys) → SourceLockout ms := by
  intro h
  have hlockout := h [1, 2] _ (isRun_machineAuthTrace lockoutLostCalls) (by decide) (by decide +kernel)
  have hlocks : LocksOut 2 10000001 ((machineAuthTrace lockoutLostCalls).take 14) :=
    locksOut_of_getElem? (show ((machineAuthTrace lockoutLostCalls).take 14)[11]?.map Move.ev =
      some (.record 2 10000001 false) by decide +kernel) (by decide +kernel)
  have hev : (machineAuthTrace lockoutLostCalls)[14]?.map Move.ev = some (.admission 2 10000003 .admitted) := by
    decide +kernel
  obtain ⟨retry, hno⟩ := (hlockout.getElem? hev).mpr ⟨10000001, hlocks, by decide⟩
  cases hno

end Argus
