import Mathlib.Data.List.Induction
import ArgusPump.Lib.Debounce

/-!
# The recovery button detector

`argus_recovery_detector_update` of `main/argus_local_recovery.c` on any sequence of samples,
against the history of the samples: a release is qualified when the debounced level goes from
low to high, was high before the press, and the press counted for long enough.

    the flags and timers of the detector, by the history                 (DetectorInv)
    it reports just the first qualified release                          (recovery_detector)

Left out: the NULL argument.
-/

namespace Argus

open Interact
open Interact.Debounce (held settled Was span timeAt SinceBecame)

def recoveryDebounceMs : UInt32 := 100
def recoveryHoldMs : UInt32 := 10000

/-- `argus_recovery_detector_result_t`. -/
inductive RecoveryDetect
  | none | qualifiedRelease
deriving DecidableEq

/-- `argus_recovery_detector_t`. -/
structure RecoveryDetector where
  rawHigh : Bool
  stableHigh : Bool
  stableInitialized : Bool
  startupReleaseSeen : Bool
  holdQualified : Bool
  triggered : Bool
  rawStableMs : UInt32
  heldMs : UInt32
deriving DecidableEq

structure RecoverySample where
  levelHigh : Bool
  elapsedMs : UInt32

def addBounded (value increment : UInt32) : UInt32 :=
  if 0xFFFFFFFF - value < increment then 0xFFFFFFFF else value + increment

namespace RecoveryDetector

/-- `argus_recovery_detector_init`. -/
def init (initialHigh : Bool) : RecoveryDetector := ⟨initialHigh, initialHigh, false, false, false, false, 0, 0⟩

/-- The raw level and how long it has been what it is. -/
def track (d : RecoveryDetector) (s : RecoverySample) : RecoveryDetector :=
  if s.levelHigh ≠ d.rawHigh then { d with rawHigh := s.levelHigh, rawStableMs := s.elapsedMs }
  else { d with rawStableMs := addBounded d.rawStableMs s.elapsedMs }

/-- The rest of an update, behind the debounce. -/
def settle (d : RecoveryDetector) (elapsedMs : UInt32) : RecoveryDetector × RecoveryDetect :=
  let changed : Bool := ¬ d.stableInitialized ∨ d.stableHigh ≠ d.rawHigh
  let priorHigh := d.stableHigh
  let d := { d with stableHigh := d.rawHigh, stableInitialized := true }
  if d.stableHigh then
    let d := { d with startupReleaseSeen := true, heldMs := 0 }
    if changed ∧ ¬ priorHigh ∧ d.holdQualified then ({ d with triggered := true }, .qualifiedRelease)
    else ({ d with holdQualified := false }, .none)
  else if ¬ d.startupReleaseSeen then ({ d with heldMs := 0, holdQualified := false }, .none)
  else
    let heldMs := addBounded (if changed then 0 else d.heldMs) elapsedMs
    ({ d with heldMs := heldMs, holdQualified := d.holdQualified ∨ heldMs ≥ recoveryHoldMs }, .none)

/-- `argus_recovery_detector_update`. -/
def update (d : RecoveryDetector) (s : RecoverySample) : RecoveryDetector × RecoveryDetect :=
  if s.elapsedMs = 0 ∨ d.triggered then (d, .none)
  else if (d.track s).rawStableMs < recoveryDebounceMs then (d.track s, .none)
  else (d.track s).settle s.elapsedMs

/-- After some samples. -/
def run (d : RecoveryDetector) (samples : List RecoverySample) : RecoveryDetector :=
  samples.foldl (fun d s => (d.update s).1) d

/-- What the updates of some samples report. -/
def reports (d : RecoveryDetector) : List RecoverySample → List RecoveryDetect
  | [] => []
  | s :: samples => (d.update s).2 :: (d.update s).1.reports samples

/-- Its debounced level is high; none until it knows. -/
def level (d : RecoveryDetector) : Option Bool := if d.stableInitialized then some d.stableHigh else none

end RecoveryDetector

/-! ## The history -/

abbrev RecoveryHistory := List (Debounce.Sample Bool)

def debouncedHigh (h : RecoveryHistory) : Option Bool := settled recoveryDebounceMs.toNat h

/-- The debounced level was high before it last went low, and the time since then at which the raw
level had been low for the debounce time makes a hold. -/
def HeldAfterHigh (h : RecoveryHistory) : Prop :=
  ∃ k, SinceBecame recoveryDebounceMs.toNat false h k ∧ Was recoveryDebounceMs.toNat true (h.drop k) ∧
    recoveryHoldMs.toNat ≤ timeAt recoveryDebounceMs.toNat false k h

/-- The newest sample is a qualified release. -/
def QualifiedRelease : RecoveryHistory → Prop
  | [] => False
  | s :: h => debouncedHigh h = some false ∧ debouncedHigh (s :: h) = some true ∧ HeldAfterHigh h

theorem heldAfterHigh_iff {h : RecoveryHistory} :
    HeldAfterHigh h ↔ Was recoveryDebounceMs.toNat true h ∧
      recoveryHoldMs.toNat ≤
        timeAt recoveryDebounceMs.toNat false (span recoveryDebounceMs.toNat false h) h := by
  unfold HeldAfterHigh
  simp only [Debounce.sinceBecame_iff, exists_eq_left]
  rw [Debounce.was_drop_span (by decide)]

instance : DecidablePred HeldAfterHigh := fun _ => decidable_of_iff' _ heldAfterHigh_iff

instance : DecidablePred QualifiedRelease
  | [] => inferInstanceAs (Decidable False)
  | s :: h => inferInstanceAs
      (Decidable (debouncedHigh h = some false ∧ debouncedHigh (s :: h) = some true ∧ HeldAfterHigh h))

/-- The samples that are taken, newest first: those that stand for some time, up to the first
qualified release. -/
def taken (samples : List RecoverySample) : RecoveryHistory :=
  samples.foldl
    (fun h s => if s.elapsedMs = 0 ∨ QualifiedRelease h then h else ⟨s.levelHigh, s.elapsedMs.toNat⟩ :: h) []

/-! ## The detector keeps the history -/

theorem addBounded_toNat (value increment : UInt32) :
    (addBounded value increment).toNat = min 0xFFFFFFFF (value.toNat + increment.toNat) := by
  have hvalue := value.toNat_lt
  have hroom : (0xFFFFFFFF - value).toNat = 0xFFFFFFFF - value.toNat := by
    rw [UInt32.toNat_sub_of_le _ _ (UInt32.le_iff_toNat_le.mpr (Nat.le_of_lt_succ hvalue))]
    rfl
  unfold addBounded
  by_cases hfull : 0xFFFFFFFF - value < increment
  · rw [if_pos hfull]
    rw [UInt32.lt_iff_toNat_lt, hroom] at hfull
    show 0xFFFFFFFF = _
    omega
  · rw [if_neg hfull]
    rw [UInt32.lt_iff_toNat_lt, hroom] at hfull
    rw [UInt32.toNat_add]
    omega

namespace RecoveryDetector

variable {d : RecoveryDetector} {elapsedMs : UInt32}

theorem level_eq_low : d.level = some false ↔ d.stableInitialized = true ∧ d.stableHigh = false := by
  unfold level
  by_cases hknown : d.stableInitialized = true
  · simp [hknown]
  · simp [hknown]

theorem settle_release (hraw : d.rawHigh = true) (hlow : d.stableHigh = false)
    (hhold : d.holdQualified = true) :
    d.settle elapsedMs =
      ({ d with stableHigh := true, stableInitialized := true, startupReleaseSeen := true,
                heldMs := 0, triggered := true }, .qualifiedRelease) := by
  simp [settle, hraw, hlow, hhold]

theorem settle_high (hraw : d.rawHigh = true) (hhold : d.holdQualified = false) :
    d.settle elapsedMs =
      ({ d with stableHigh := true, stableInitialized := true, startupReleaseSeen := true,
                heldMs := 0, holdQualified := false }, .none) := by
  simp [settle, hraw, hhold]

theorem settle_boot (hraw : d.rawHigh = false) (hseen : d.startupReleaseSeen = false) :
    d.settle elapsedMs =
      ({ d with stableHigh := false, stableInitialized := true, heldMs := 0, holdQualified := false },
        .none) := by
  simp [settle, hraw, hseen]

theorem settle_hold (hraw : d.rawHigh = false) (hseen : d.startupReleaseSeen = true) :
    d.settle elapsedMs =
      ({ d with stableHigh := false, stableInitialized := true,
                heldMs := addBounded (if d.level = some false then d.heldMs else 0) elapsedMs,
                holdQualified := d.holdQualified ∨
                  addBounded (if d.level = some false then d.heldMs else 0) elapsedMs ≥ recoveryHoldMs },
        .none) := by
  by_cases hlow : d.level = some false
  · obtain ⟨hknown, hstable⟩ := level_eq_low.mp hlow
    simp [settle, hraw, hseen, hknown, hstable, hlow]
  · have hchanged : d.stableInitialized = false ∨ d.stableHigh = true := by
      by_contra hsame
      exact hlow (level_eq_low.mpr (by simpa using hsame))
    simp [settle, hraw, hseen, hchanged, hlow]

end RecoveryDetector

/-- What the detector holds after the samples of a history; its hold timer and its flag count until
it has triggered. -/
structure DetectorInv (d : RecoveryDetector) (h : RecoveryHistory) : Prop where
  rawHigh : ∀ s, h.head? = some s → s.level = d.rawHigh
  rawStableMs : d.rawStableMs.toNat = min 0xFFFFFFFF (held h)
  level : d.level = debouncedHigh h
  seen : d.startupReleaseSeen = true ↔ Was recoveryDebounceMs.toNat true h
  triggered : d.triggered = true ↔ QualifiedRelease h
  heldMs : d.triggered = false → debouncedHigh h = some false → d.startupReleaseSeen = true →
    d.heldMs.toNat = min 0xFFFFFFFF
      (timeAt recoveryDebounceMs.toNat false (span recoveryDebounceMs.toNat false h) h)
  holdQualified : d.triggered = false →
    (d.holdQualified = true ↔ debouncedHigh h = some false ∧ HeldAfterHigh h)

namespace DetectorInv

theorem start (initialHigh : Bool) : DetectorInv (.init initialHigh) [] where
  rawHigh s hs := by cases hs
  rawStableMs := rfl
  level := rfl
  seen := iff_of_false Bool.false_ne_true Debounce.was_nil
  triggered := iff_of_false Bool.false_ne_true id
  heldMs _ hlow := by cases hlow
  holdQualified _ := iff_of_false Bool.false_ne_true fun hlow => by cases hlow.1

end DetectorInv

/-- Within an update that takes a sample: the raw level is the sample's, the rest is as before. -/
structure DetectorTracks (d : RecoveryDetector) (x : Debounce.Sample Bool) (h : RecoveryHistory) : Prop where
  rawHigh : d.rawHigh = x.level
  rawStableMs : d.rawStableMs.toNat = min 0xFFFFFFFF (held (x :: h))
  level : d.level = debouncedHigh h
  seen : d.startupReleaseSeen = true ↔ Was recoveryDebounceMs.toNat true h
  running : d.triggered = false
  heldMs : debouncedHigh h = some false → d.startupReleaseSeen = true →
    d.heldMs.toNat = min 0xFFFFFFFF
      (timeAt recoveryDebounceMs.toNat false (span recoveryDebounceMs.toNat false h) h)
  holdQualified : d.holdQualified = true ↔ debouncedHigh h = some false ∧ HeldAfterHigh h

variable {d : RecoveryDetector} {x : Debounce.Sample Bool} {h : RecoveryHistory}

/-- The level's timer, saturating. -/
theorem DetectorInv.track_eq (hinv : DetectorInv d h) (s : RecoverySample) :
    ∃ rawStableMs : UInt32, d.track s = { d with rawHigh := s.levelHigh, rawStableMs := rawStableMs } ∧
      rawStableMs.toNat = min 0xFFFFFFFF (held (⟨s.levelHigh, s.elapsedMs.toNat⟩ :: h)) := by
  have helapsed := s.elapsedMs.toNat_lt
  unfold RecoveryDetector.track
  by_cases hsame : s.levelHigh = d.rawHigh
  · have hheld : held (⟨s.levelHigh, s.elapsedMs.toNat⟩ :: h) = s.elapsedMs.toNat + held h := by
      cases h with
      | nil => simp [held]
      | cons y h =>
        rw [held, if_pos (by rw [List.head?_cons, Option.map_some, hinv.rawHigh y rfl, hsame])]
    rw [if_neg (not_not.mpr hsame)]
    refine ⟨_, by rw [hsame], ?_⟩
    rw [addBounded_toNat, hinv.rawStableMs, hheld]
    omega
  · have hheld : held (⟨s.levelHigh, s.elapsedMs.toNat⟩ :: h) = s.elapsedMs.toNat := by
      cases h with
      | nil => simp [held]
      | cons y h =>
        rw [held, if_neg, Nat.add_zero]
        rw [List.head?_cons, Option.map_some, hinv.rawHigh y rfl]
        exact fun heq => hsame (Option.some.inj heq).symm
    rw [if_pos hsame]
    refine ⟨_, rfl, ?_⟩
    rw [hheld]
    omega

theorem DetectorInv.track (hinv : DetectorInv d h) (hrun : d.triggered = false) (s : RecoverySample) :
    DetectorTracks (d.track s) ⟨s.levelHigh, s.elapsedMs.toNat⟩ h := by
  obtain ⟨rawStableMs, htrack, hraw⟩ := hinv.track_eq s
  rw [htrack]
  exact ⟨rfl, hraw, hinv.level, hinv.seen, hrun, hinv.heldMs hrun, hinv.holdQualified hrun⟩

namespace DetectorTracks

theorem head (htracks : DetectorTracks d x h) : ∀ s, (x :: h).head? = some s → s.level = d.rawHigh := by
  intro s hs
  rw [← Option.some.inj hs]
  exact htracks.rawHigh.symm

theorem not_release (hhigh : debouncedHigh h = some false → debouncedHigh (x :: h) ≠ some true) :
    ¬ QualifiedRelease (x :: h) :=
  fun hq => hhigh hq.1 hq.2.1

/-- A sample during the debounce changes nothing more. -/
theorem bounce (htracks : DetectorTracks d x h) (hx : held (x :: h) < recoveryDebounceMs.toNat) :
    DetectorInv d (x :: h) ∧ ¬ QualifiedRelease (x :: h) := by
  have hsame : debouncedHigh (x :: h) = debouncedHigh h := Debounce.settled_of_bounce hx
  have hno : ¬ QualifiedRelease (x :: h) := by
    refine not_release fun hlow => ?_
    rw [hsame, hlow]
    decide
  have hwas : Was recoveryDebounceMs.toNat true (x :: h) ↔ Was recoveryDebounceMs.toNat true h := by
    rw [Debounce.was_cons]
    refine ⟨?_, .inr⟩
    rintro (hhigh | hwas)
    · exact Debounce.was_of_settled (hsame.symm.trans hhigh)
    · exact hwas
  have htime (hlow : debouncedHigh h = some false) :
      timeAt recoveryDebounceMs.toNat false (span recoveryDebounceMs.toNat false (x :: h)) (x :: h) =
        timeAt recoveryDebounceMs.toNat false (span recoveryDebounceMs.toNat false h) h := by
    rw [Debounce.span_of_eq (hsame.trans hlow), Debounce.timeAt_cons_of_bounce hx]
  refine ⟨⟨htracks.head, htracks.rawStableMs, ?_, ?_, ?_, ?_, ?_⟩, hno⟩
  · exact htracks.level.trans hsame.symm
  · exact htracks.seen.trans hwas.symm
  · exact iff_of_false (by simp [htracks.running]) hno
  · intro _ hlow hseen
    rw [hsame] at hlow
    rw [htime hlow]
    exact htracks.heldMs hlow hseen
  · intro _
    refine htracks.holdQualified.trans ?_
    rw [hsame]
    refine and_congr_right fun hlow => ?_
    rw [heldAfterHigh_iff, heldAfterHigh_iff, hwas, htime hlow]

/-- The level held for the debounce time: high, -/
theorem high (htracks : DetectorTracks d x h) (hx : recoveryDebounceMs.toNat ≤ held (x :: h))
    (hhigh : x.level = true) (elapsedMs : UInt32) :
    DetectorInv (d.settle elapsedMs).1 (x :: h) ∧
      ((d.settle elapsedMs).2 = .qualifiedRelease ↔ QualifiedRelease (x :: h)) := by
  have hraw : d.rawHigh = true := htracks.rawHigh.trans hhigh
  have hnow : debouncedHigh (x :: h) = some true :=
    (Debounce.settled_of_held hx).trans (congrArg some hhigh)
  have hnotLow : debouncedHigh (x :: h) ≠ some false := by
    rw [hnow]
    decide
  have hrelease : QualifiedRelease (x :: h) ↔ d.holdQualified = true := by
    rw [htracks.holdQualified]
    exact ⟨fun hq => ⟨hq.1, hq.2.2⟩, fun hq => ⟨hq.1, hnow, hq.2⟩⟩
  have hseen : Was recoveryDebounceMs.toNat true (x :: h) := Debounce.was_of_settled hnow
  by_cases hhold : d.holdQualified = true
  · have hlow : d.level = some false := htracks.level.trans (htracks.holdQualified.mp hhold).1
    have hq : QualifiedRelease (x :: h) := hrelease.mpr hhold
    rw [RecoveryDetector.settle_release hraw (RecoveryDetector.level_eq_low.mp hlow).2 hhold]
    refine ⟨⟨htracks.head, htracks.rawStableMs, hnow.symm, iff_of_true rfl hseen, iff_of_true rfl hq, ?_, ?_⟩,
      iff_of_true rfl hq⟩
    · intro hrun
      cases hrun
    · intro hrun
      cases hrun
  · have hno : ¬ QualifiedRelease (x :: h) := fun hq => hhold (hrelease.mp hq)
    rw [RecoveryDetector.settle_high hraw (Bool.eq_false_iff.mpr hhold)]
    refine ⟨⟨htracks.head, htracks.rawStableMs, hnow.symm, iff_of_true rfl hseen, ?_, ?_, ?_⟩,
      iff_of_false RecoveryDetect.noConfusion hno⟩
    · exact iff_of_false (by simp [htracks.running]) hno
    · intro _ hlow
      exact absurd hlow hnotLow
    · intro _
      exact iff_of_false Bool.false_ne_true fun hq => hnotLow hq.1

/-- low since boot, -/
theorem boot (htracks : DetectorTracks d x h) (hx : recoveryDebounceMs.toNat ≤ held (x :: h))
    (hlow : x.level = false) (hseen : d.startupReleaseSeen = false) (elapsedMs : UInt32) :
    DetectorInv (d.settle elapsedMs).1 (x :: h) ∧
      ((d.settle elapsedMs).2 = .qualifiedRelease ↔ QualifiedRelease (x :: h)) := by
  have hnow : debouncedHigh (x :: h) = some false :=
    (Debounce.settled_of_held hx).trans (congrArg some hlow)
  have hno : ¬ QualifiedRelease (x :: h) := by
    refine not_release fun _ => ?_
    rw [hnow]
    decide
  have hwas : ¬ Was recoveryDebounceMs.toNat true (x :: h) := by
    rw [Debounce.was_cons]
    rintro (hhigh | hwas)
    · cases hnow.symm.trans hhigh
    · rw [htracks.seen.mpr hwas] at hseen
      cases hseen
  rw [RecoveryDetector.settle_boot (htracks.rawHigh.trans hlow) hseen]
  refine ⟨⟨htracks.head, htracks.rawStableMs, hnow.symm, ?_, ?_, ?_, ?_⟩, iff_of_false RecoveryDetect.noConfusion hno⟩
  · exact iff_of_false (by simp [hseen]) hwas
  · exact iff_of_false (by simp [htracks.running]) hno
  · intro _ _ hseen'
    exact absurd (hseen.symm.trans hseen') (by decide)
  · intro _
    exact iff_of_false Bool.false_ne_true fun hq => hwas (heldAfterHigh_iff.mp hq.2).1

/-- or low after it was high. -/
theorem hold (htracks : DetectorTracks d x h) (hx : recoveryDebounceMs.toNat ≤ held (x :: h))
    (hlow : x.level = false) (hseen : d.startupReleaseSeen = true) {elapsedMs : UInt32}
    (helapsed : x.time = elapsedMs.toNat) :
    DetectorInv (d.settle elapsedMs).1 (x :: h) ∧
      ((d.settle elapsedMs).2 = .qualifiedRelease ↔ QualifiedRelease (x :: h)) := by
  have hnow : debouncedHigh (x :: h) = some false :=
    (Debounce.settled_of_held hx).trans (congrArg some hlow)
  have hno : ¬ QualifiedRelease (x :: h) := by
    refine not_release fun _ => ?_
    rw [hnow]
    decide
  have hbefore : Was recoveryDebounceMs.toNat true h := htracks.seen.mp hseen
  have hwas : Was recoveryDebounceMs.toNat true (x :: h) := Debounce.was_cons.mpr (.inr hbefore)
  have htime :
      timeAt recoveryDebounceMs.toNat false (span recoveryDebounceMs.toNat false (x :: h)) (x :: h) =
        x.time + timeAt recoveryDebounceMs.toNat false (span recoveryDebounceMs.toNat false h) h := by
    rw [Debounce.span_of_eq hnow, Debounce.timeAt_cons_of_held hx hlow]
  -- A new press starts its timer; a press that goes on keeps it.
  have htimer : (if d.level = some false then d.heldMs else 0).toNat =
      min 0xFFFFFFFF (timeAt recoveryDebounceMs.toNat false (span recoveryDebounceMs.toNat false h) h) := by
    by_cases hpress : d.level = some false
    · rw [if_pos hpress]
      exact htracks.heldMs (htracks.level.symm.trans hpress) hseen
    · rw [if_neg hpress]
      rw [htracks.level] at hpress
      rw [Debounce.span_of_ne hpress]
      rfl
  have hheldMs : (addBounded (if d.level = some false then d.heldMs else 0) elapsedMs).toNat =
      min 0xFFFFFFFF
        (timeAt recoveryDebounceMs.toNat false (span recoveryDebounceMs.toNat false (x :: h)) (x :: h)) := by
    rw [addBounded_toNat, htimer, htime, helapsed]
    omega
  have hhold : (d.holdQualified = true ∨
      addBounded (if d.level = some false then d.heldMs else 0) elapsedMs ≥ recoveryHoldMs) ↔
        HeldAfterHigh (x :: h) := by
    have hlimit : recoveryHoldMs.toNat = 10000 := rfl
    rw [heldAfterHigh_iff, and_iff_right hwas, ge_iff_le, UInt32.le_iff_toNat_le, hheldMs]
    constructor
    · rintro (hqualified | henough)
      · have hprior := (heldAfterHigh_iff.mp (htracks.holdQualified.mp hqualified).2).2
        rw [htime]
        omega
      · omega
    · intro henough
      refine .inr ?_
      omega
  rw [RecoveryDetector.settle_hold (htracks.rawHigh.trans hlow) hseen]
  refine ⟨⟨htracks.head, htracks.rawStableMs, hnow.symm, ?_, ?_, ?_, ?_⟩, iff_of_false RecoveryDetect.noConfusion hno⟩
  · exact iff_of_true hseen hwas
  · exact iff_of_false (by simp [htracks.running]) hno
  · intro _ _ _
    exact hheldMs
  · intro _
    rw [and_iff_right hnow, ← hhold]
    exact decide_eq_true_iff

end DetectorTracks

/-! ## A run -/

theorem RecoveryDetector.update_skip {s : RecoverySample} (hskip : s.elapsedMs = 0 ∨ d.triggered = true) :
    d.update s = (d, .none) := if_pos hskip

/-- A sample that is taken. -/
theorem DetectorInv.take (hinv : DetectorInv d h) {s : RecoverySample}
    (hs : ¬ (s.elapsedMs = 0 ∨ d.triggered = true)) :
    DetectorInv (d.update s).1 (⟨s.levelHigh, s.elapsedMs.toNat⟩ :: h) ∧
      ((d.update s).2 = .qualifiedRelease ↔ QualifiedRelease (⟨s.levelHigh, s.elapsedMs.toNat⟩ :: h)) := by
  obtain ⟨-, hrun⟩ := not_or.mp hs
  have htracks := hinv.track (Bool.eq_false_iff.mpr hrun) s
  have hdebounce : (d.track s).rawStableMs < recoveryDebounceMs ↔
      held (⟨s.levelHigh, s.elapsedMs.toNat⟩ :: h) < recoveryDebounceMs.toNat := by
    have hlimit : recoveryDebounceMs.toNat = 100 := rfl
    rw [UInt32.lt_iff_toNat_lt, htracks.rawStableMs]
    omega
  unfold RecoveryDetector.update
  rw [if_neg hs]
  by_cases hbounce : (d.track s).rawStableMs < recoveryDebounceMs
  · rw [if_pos hbounce]
    obtain ⟨hkept, hno⟩ := htracks.bounce (hdebounce.mp hbounce)
    exact ⟨hkept, iff_of_false RecoveryDetect.noConfusion hno⟩
  · rw [if_neg hbounce]
    rw [hdebounce, Nat.not_lt] at hbounce
    by_cases hhigh : s.levelHigh = true
    · exact htracks.high hbounce hhigh s.elapsedMs
    · have hlow : s.levelHigh = false := Bool.eq_false_iff.mpr hhigh
      by_cases hseen : (d.track s).startupReleaseSeen = true
      · exact htracks.hold hbounce hlow hseen rfl
      · exact htracks.boot hbounce hlow (Bool.eq_false_iff.mpr hseen) s.elapsedMs

theorem taken_append (samples : List RecoverySample) (s : RecoverySample) :
    taken (samples ++ [s]) =
      if s.elapsedMs = 0 ∨ QualifiedRelease (taken samples) then taken samples
      else ⟨s.levelHigh, s.elapsedMs.toNat⟩ :: taken samples := by
  unfold taken
  rw [List.foldl_append]
  rfl

theorem RecoveryDetector.run_append (samples : List RecoverySample) (s : RecoverySample) :
    d.run (samples ++ [s]) = ((d.run samples).update s).1 := by
  unfold RecoveryDetector.run
  rw [List.foldl_append]
  rfl

theorem detectorInv_run (initialHigh : Bool) (samples : List RecoverySample) :
    DetectorInv ((RecoveryDetector.init initialHigh).run samples) (taken samples) := by
  induction samples using List.reverseRecOn with
  | nil => exact .start initialHigh
  | append_singleton samples s ih =>
    rw [RecoveryDetector.run_append, taken_append]
    by_cases hskip : s.elapsedMs = 0 ∨ ((RecoveryDetector.init initialHigh).run samples).triggered = true
    · rw [if_pos ((or_congr_right ih.triggered).mp hskip), RecoveryDetector.update_skip hskip]
      exact ih
    · rw [if_neg (mt (or_congr_right ih.triggered).mpr hskip)]
      exact (ih.take hskip).1

/-- A report is a qualified release, and all of them are reported. -/
theorem report_iff (initialHigh : Bool) (samples : List RecoverySample) (s : RecoverySample) :
    (((RecoveryDetector.init initialHigh).run samples).update s).2 = .qualifiedRelease ↔
      debouncedHigh (taken samples) = some false ∧ debouncedHigh (taken (samples ++ [s])) = some true ∧
        HeldAfterHigh (taken samples) := by
  have hinv := detectorInv_run initialHigh samples
  rw [taken_append]
  by_cases hskip : s.elapsedMs = 0 ∨ ((RecoveryDetector.init initialHigh).run samples).triggered = true
  · rw [if_pos ((or_congr_right hinv.triggered).mp hskip), RecoveryDetector.update_skip hskip]
    refine iff_of_false RecoveryDetect.noConfusion ?_
    rintro ⟨hlow, hhigh, -⟩
    cases hlow.symm.trans hhigh
  · rw [if_neg (mt (or_congr_right hinv.triggered).mpr hskip)]
    exact (hinv.take hskip).2

theorem triggered_of_report {initialHigh : Bool} {samples : List RecoverySample} {s : RecoverySample}
    (hreport : (((RecoveryDetector.init initialHigh).run samples).update s).2 = .qualifiedRelease) :
    ((RecoveryDetector.init initialHigh).run (samples ++ [s])).triggered = true := by
  obtain ⟨hlow, hhigh, hheld⟩ := (report_iff initialHigh samples s).mp hreport
  rw [(detectorInv_run initialHigh (samples ++ [s])).triggered]
  rw [taken_append] at hhigh ⊢
  by_cases hskip : s.elapsedMs = 0 ∨ QualifiedRelease (taken samples)
  · rw [if_pos hskip] at hhigh
    cases hlow.symm.trans hhigh
  · rw [if_neg hskip] at hhigh ⊢
    exact ⟨hlow, hhigh, hheld⟩

namespace RecoveryDetector

theorem reports_append (samples : List RecoverySample) (s : RecoverySample) :
    d.reports (samples ++ [s]) = d.reports samples ++ [((d.run samples).update s).2] := by
  induction samples generalizing d with
  | nil => rfl
  | cons s' samples ih => exact congrArg (_ :: ·) ih

theorem getElem?_reports (samples : List RecoverySample) (i : Nat) :
    (d.reports samples)[i]? = samples[i]?.map fun s => ((d.run (samples.take i)).update s).2 := by
  induction samples generalizing d i with
  | nil => rfl
  | cons s samples ih =>
    cases i with
    | zero => rfl
    | succ i => exact ih i

end RecoveryDetector

/-- One report at the most, and only of a detector that has triggered. -/
theorem count_reports (initialHigh : Bool) (samples : List RecoverySample) :
    ((RecoveryDetector.init initialHigh).reports samples).count .qualifiedRelease ≤
      if ((RecoveryDetector.init initialHigh).run samples).triggered then 1 else 0 := by
  induction samples using List.reverseRecOn with
  | nil => exact Nat.zero_le _
  | append_singleton samples s ih =>
    rw [RecoveryDetector.reports_append, List.count_append]
    by_cases hdone : ((RecoveryDetector.init initialHigh).run samples).triggered = true
    · rw [if_pos hdone] at ih
      rw [RecoveryDetector.run_append, RecoveryDetector.update_skip (.inr hdone), if_pos hdone]
      exact ih
    · rw [if_neg hdone] at ih
      by_cases hreport :
          (((RecoveryDetector.init initialHigh).run samples).update s).2 = .qualifiedRelease
      · rw [if_pos (triggered_of_report hreport), hreport]
        exact Nat.add_le_add_right ih 1
      · rw [List.count_singleton, if_neg (by simpa using hreport)]
        omega

/-! ## The detector -/

/-- The samples that stand for some time, newest first. -/
def standing (samples : List RecoverySample) : RecoveryHistory :=
  (samples.filter (·.elapsedMs ≠ 0)).reverse.map fun s => ⟨s.levelHigh, s.elapsedMs.toNat⟩

/-- The debounced level was high less than `recoveryHoldMs` ago. -/
def ShortHold (h : RecoveryHistory) : Prop :=
  ∃ k, debouncedHigh (h.drop k) = some true ∧ Debounce.total (h.take k) < recoveryHoldMs.toNat

theorem not_heldAfterHigh_of_shortHold (hshort : ShortHold h) : ¬ HeldAfterHigh h := by
  obtain ⟨k, hhigh, htotal⟩ := hshort
  have hne : debouncedHigh (h.drop k) ≠ some false := by
    rw [hhigh]
    decide
  rw [heldAfterHigh_iff]
  rintro ⟨-, henough⟩
  have hle := Debounce.timeAt_le_total (n := recoveryDebounceMs.toNat) (a := false) (h := h)
    (Debounce.span_le hne)
  omega

theorem standing_append (samples : List RecoverySample) (s : RecoverySample) :
    standing (samples ++ [s]) =
      if s.elapsedMs = 0 then standing samples
      else ⟨s.levelHigh, s.elapsedMs.toNat⟩ :: standing samples := by
  unfold standing
  rw [List.filter_append]
  by_cases hs : s.elapsedMs = 0
  · simp [hs]
  · simp [hs]

theorem report_of_qualifiedRelease {initialHigh : Bool} {samples : List RecoverySample}
    (hrelease : QualifiedRelease (taken samples)) :
    .qualifiedRelease ∈ (RecoveryDetector.init initialHigh).reports samples := by
  induction samples using List.reverseRecOn with
  | nil => exact hrelease.elim
  | append_singleton samples s ih =>
    rw [RecoveryDetector.reports_append, List.mem_append]
    by_cases hskip : s.elapsedMs = 0 ∨ QualifiedRelease (taken samples)
    · rw [taken_append, if_pos hskip] at hrelease
      exact .inl (ih hrelease)
    · have hreport := (report_iff initialHigh samples s).mpr
      rw [taken_append, if_neg hskip] at hrelease hreport
      exact .inr (List.mem_singleton.mpr (hreport hrelease).symm)

/-- Until the release all samples that stand for some time are taken. -/
theorem taken_eq_standing {initialHigh : Bool} {samples : List RecoverySample}
    (hquiet : .qualifiedRelease ∉ (RecoveryDetector.init initialHigh).reports samples) :
    taken samples = standing samples := by
  induction samples using List.reverseRecOn with
  | nil => rfl
  | append_singleton samples s ih =>
    rw [RecoveryDetector.reports_append, List.mem_append, not_or] at hquiet
    have hno : ¬ QualifiedRelease (taken samples) := fun hq => hquiet.1 (report_of_qualifiedRelease hq)
    rw [taken_append, standing_append, ih hquiet.1]
    rw [ih hquiet.1] at hno
    simp only [hno, or_false]

/-- One report at the most, at the sample with which the debounced level goes from low to high
after a hold that began with a press; held since boot, too short or bouncing makes no report. -/
theorem recovery_detector (initialHigh : Bool) (samples : List RecoverySample) :
    ((RecoveryDetector.init initialHigh).reports samples).count .qualifiedRelease ≤ 1 ∧
    (∀ i, ((RecoveryDetector.init initialHigh).run (samples.take i)).level =
      debouncedHigh (taken (samples.take i))) ∧
    (∀ i, ((RecoveryDetector.init initialHigh).reports samples)[i]? = some .qualifiedRelease ↔
      debouncedHigh (taken (samples.take i)) = some false ∧
      debouncedHigh (taken (samples.take (i + 1))) = some true ∧
      HeldAfterHigh (taken (samples.take i))) ∧
    (∀ i, .qualifiedRelease ∉ (RecoveryDetector.init initialHigh).reports (samples.take i) →
      taken (samples.take i) = standing (samples.take i)) ∧
    (∀ i, Debounce.NeverHeld recoveryDebounceMs.toNat true (taken (samples.take i)) ∨
        ShortHold (taken (samples.take i)) ∨
        Debounce.NeverHeld recoveryDebounceMs.toNat false (taken (samples.take i)) →
      ((RecoveryDetector.init initialHigh).reports samples)[i]? ≠ some .qualifiedRelease) := by
  have hiff : ∀ i, ((RecoveryDetector.init initialHigh).reports samples)[i]? = some .qualifiedRelease ↔
      debouncedHigh (taken (samples.take i)) = some false ∧
      debouncedHigh (taken (samples.take (i + 1))) = some true ∧
      HeldAfterHigh (taken (samples.take i)) := by
    intro i
    rw [RecoveryDetector.getElem?_reports]
    by_cases hi : i < samples.length
    · rw [List.take_succ_eq_append_getElem hi, ← report_iff initialHigh, List.getElem?_eq_getElem hi]
      exact Option.some_inj
    · have hall : samples.length ≤ i := Nat.le_of_not_lt hi
      rw [List.take_of_length_le hall, List.take_of_length_le (Nat.le_succ_of_le hall),
        List.getElem?_eq_none hall]
      refine iff_of_false (by simp) ?_
      rintro ⟨hlow, hhigh, -⟩
      cases hlow.symm.trans hhigh
  refine ⟨?_, ?_, hiff, ?_, ?_⟩
  · have hcount := count_reports initialHigh samples
    split at hcount
    · exact hcount
    · omega
  · intro i
    exact (detectorInv_run initialHigh (samples.take i)).level
  · intro i hquiet
    exact taken_eq_standing hquiet
  · intro i hcase hreport
    obtain ⟨hlow, -, hheld⟩ := (hiff i).mp hreport
    rcases hcase with hboot | hshort | hbounce
    · exact Debounce.not_was_of_neverHeld hboot (heldAfterHigh_iff.mp hheld).1
    · exact not_heldAfterHigh_of_shortHold hshort hheld
    · exact Debounce.not_was_of_neverHeld hbounce (Debounce.was_of_settled hlow)

example : (RecoveryDetector.init true).reports
    [⟨true, 100⟩, ⟨false, 100⟩, ⟨true, 20⟩, ⟨false, 9900⟩, ⟨true, 100⟩, ⟨false, 10000⟩, ⟨true, 100⟩] =
      [.none, .none, .none, .none, .qualifiedRelease, .none, .none] := by
  decide

end Argus
