import ArgusPump.Trajectory

/-!
# The ramp

What the ticks and the calls of `main/argus_trajectory.c` do to the variables of the ramp,
whatever the step generator answers.

    a tick moves the rate by at most one delta, and past the target only while a reversal
    that was taken back is brought to zero                        (Tracks.ticked, ticked_between)
    a tick brings the ramp one tick closer to its target          (ticksLeft_ticked)
-/

namespace Argus

namespace Traj

/-- The limits of a configuration for which the delta of a tick does not overflow. -/
structure Rampable (cfg : ArgusConfig) : Prop where
  accel_pos : 0 < cfg.accelMilliRpmPerSec
  accel_fits : cfg.accelMilliRpmPerSec * 20 ≤ 2147483647
  decel_pos : 0 < cfg.decelMilliRpmPerSec
  decel_fits : cfg.decelMilliRpmPerSec * 20 ≤ 2147483647

/-- Neither does the rate of an accelerating tick. -/
def Room (cfg : ArgusConfig) : Prop :=
  cfg.maxOutputMilliRpm + max 1 (cfg.accelMilliRpmPerSec * 20 / 1000) ≤ 2147483648

/-! ## Deltas -/

theorem i32_eq {x : Int} (hlo : -2147483648 ≤ x) (hhi : x ≤ 2147483647) : i32 x = x := by
  unfold i32
  rw [Int.bmod_def]
  omega

theorem delta_eq {limit : Int} (hpos : 0 < limit) (hfits : limit * 20 ≤ 2147483647) :
    delta limit = max 1 (limit * 20 / 1000) := by
  unfold delta
  rw [i32_eq (by omega) hfits, Int.tdiv_eq_ediv_of_nonneg (by omega)]
  dsimp only
  split <;> omega

/-- The ticks it takes to close a gap. -/
def stepsTo (gap d : Int) : Nat := ((gap + d - 1) / d).toNat

theorem stepsTo_nonpos {g d : Int} (hd : 1 ≤ d) (h : g ≤ 0) : stepsTo g d = 0 := by
  have hlt : (g + d - 1) / d < 1 := Int.ediv_lt_of_lt_mul (by omega) (by omega)
  unfold stepsTo
  omega

theorem stepsTo_pos {g d : Int} (hd : 1 ≤ d) (h : 0 < g) :
    stepsTo g d = stepsTo (g - d) d + 1 := by
  have hnonneg : 0 ≤ (g - 1) / d := Int.ediv_nonneg (by omega) (by omega)
  have hgap : g + d - 1 = g - 1 + 1 * d := by omega
  have hless : g - d + d - 1 = g - 1 := by omega
  unfold stepsTo
  rw [hgap, hless, Int.add_mul_ediv_right _ _ (by omega)]
  omega

/-- One step closer. -/
theorem stepsTo_closer {g d : Int} (hd : 1 ≤ d) :
    stepsTo (max 0 (g - d)) d = stepsTo g d - 1 := by
  by_cases hpos : 0 < g
  · rw [stepsTo_pos hd hpos, Nat.add_sub_cancel]
    by_cases hmore : 0 < g - d
    · rw [Int.max_eq_right (by omega)]
    · rw [stepsTo_nonpos hd (by omega), stepsTo_nonpos hd (by omega)]
  · rw [stepsTo_nonpos hd (by omega), stepsTo_nonpos hd (by omega)]

/-- Where the next step goes past the end. -/
theorem stepsTo_le_one {g d : Int} (hd : 1 ≤ d) (hle : g ≤ d) : stepsTo g d ≤ 1 := by
  have hcloser := stepsTo_closer (g := g) hd
  rw [stepsTo_nonpos hd (by omega)] at hcloser
  omega

/-! ## Ticks -/

/-- A tick ramps down to zero, to turn or to finish a turn. -/
def Reverses (traj : Traj) : Prop :=
  traj.targetForward ≠ traj.currentForward ∨ traj.isReversing = true

instance (traj : Traj) : Decidable traj.Reverses := inferInstanceAs (Decidable (_ ∨ _))

/-- The variables after a tick. -/
def ticked (traj : Traj) : Traj :=
  if traj.Reverses then
    if traj.appliedRpmMilli > 0 then
      let applied := i32 (traj.appliedRpmMilli - delta traj.decelLimit)
      if applied ≤ 0 then
        { traj with
          rampActive := true
          currentForward := traj.targetForward
          isReversing := false
          appliedRpmMilli := 0 }
      else { traj with isReversing := true, rampActive := true, appliedRpmMilli := applied }
    else { traj with currentForward := traj.targetForward, isReversing := false }
  else { traj with rampActive := (targetRamp traj).2, appliedRpmMilli := (targetRamp traj).1 }

/-- The variables follow the configuration. -/
structure Tracks (cfg : ArgusConfig) (traj : Traj) : Prop where
  configured : traj.cfg = some cfg
  accelLimit : traj.accelLimit = cfg.accelMilliRpmPerSec
  decelLimit : traj.decelLimit = cfg.decelMilliRpmPerSec
  target_nonneg : 0 ≤ traj.targetRpmMilli
  target_le : traj.targetRpmMilli ≤ cfg.maxOutputMilliRpm
  applied_nonneg : 0 ≤ traj.appliedRpmMilli
  applied_le : traj.appliedRpmMilli ≤ cfg.maxOutputMilliRpm

/-- The rate `rpmMilli` in the direction `forward`, counted forward. -/
def signed (forward : Bool) (rpmMilli : Int) : Int := if forward then rpmMilli else -rpmMilli

/-- A reversal has been taken back, and is still being brought to zero. -/
def TakenBack (traj : Traj) : Prop :=
  traj.isReversing = true ∧ traj.targetForward = traj.currentForward

instance (traj : Traj) : Decidable traj.TakenBack := inferInstanceAs (Decidable (_ ∧ _))

/-- The applied rate is on the same side of the target as before, or there. -/
structure StaysBehind (traj traj' : Traj) : Prop where
  below : signed traj.currentForward traj.appliedRpmMilli ≤
      signed traj.targetForward traj.targetRpmMilli →
    signed traj'.currentForward traj'.appliedRpmMilli ≤
      signed traj.targetForward traj.targetRpmMilli
  above : signed traj.targetForward traj.targetRpmMilli ≤
      signed traj.currentForward traj.appliedRpmMilli →
    signed traj.targetForward traj.targetRpmMilli ≤
      signed traj'.currentForward traj'.appliedRpmMilli

/-- The target is reached, in its direction. -/
structure OnTarget (traj : Traj) : Prop where
  applied : traj.appliedRpmMilli = traj.targetRpmMilli
  forward : traj.currentForward = traj.targetForward
  isReversing : traj.isReversing = false

section Ticks

variable {cfg : ArgusConfig} {traj : Traj}

/-- What one tick does, with its deltas. -/
inductive Ticked (cfg : ArgusConfig) (traj : Traj) : Traj → Prop
  | slow {a d : Int} : traj.Reverses → d = max 1 (cfg.decelMilliRpmPerSec * 20 / 1000) →
      a = traj.appliedRpmMilli - d → 0 < a →
      Ticked cfg traj { traj with isReversing := true, rampActive := true, appliedRpmMilli := a }
  | turn {b : Bool} : traj.Reverses →
      traj.appliedRpmMilli ≤ max 1 (cfg.decelMilliRpmPerSec * 20 / 1000) →
      Ticked cfg traj { traj with
        rampActive := b
        currentForward := traj.targetForward
        isReversing := false
        appliedRpmMilli := 0 }
  | ramp {a : Int} {b : Bool} : ¬ traj.Reverses →
      (traj.appliedRpmMilli ≤ traj.targetRpmMilli →
        a = min traj.targetRpmMilli
          (traj.appliedRpmMilli + max 1 (cfg.accelMilliRpmPerSec * 20 / 1000))) →
      (traj.targetRpmMilli ≤ traj.appliedRpmMilli →
        a = max traj.targetRpmMilli
          (traj.appliedRpmMilli - max 1 (cfg.decelMilliRpmPerSec * 20 / 1000))) →
      Ticked cfg traj { traj with rampActive := b, appliedRpmMilli := a }

theorem Tracks.slower (h : Tracks cfg traj) (hcfg : Rampable cfg) (hmax : traj.appliedRpmMilli ≤ 2147483647) :
    i32 (traj.appliedRpmMilli - delta traj.decelLimit) =
      traj.appliedRpmMilli - max 1 (cfg.decelMilliRpmPerSec * 20 / 1000) := by
  have happlied := h.applied_nonneg
  have hfits := hcfg.decel_fits
  rw [h.decelLimit, delta_eq hcfg.decel_pos hfits]
  exact i32_eq (by omega) (by omega)

theorem Tracks.faster (h : Tracks cfg traj) (hcfg : Rampable cfg) (hroom : Room cfg)
    (hlt : traj.appliedRpmMilli < traj.targetRpmMilli) :
    i32 (traj.appliedRpmMilli + delta traj.accelLimit) =
      traj.appliedRpmMilli + max 1 (cfg.accelMilliRpmPerSec * 20 / 1000) := by
  have happlied := h.applied_nonneg
  have htarget := h.target_le
  unfold Room at hroom
  rw [h.accelLimit, delta_eq hcfg.accel_pos hcfg.accel_fits]
  exact i32_eq (by omega) (by omega)

theorem Tracks.targetRamp (h : Tracks cfg traj) (hcfg : Rampable cfg) (hroom : Room cfg) :
    (traj.appliedRpmMilli ≤ traj.targetRpmMilli → (targetRamp traj).1 =
      min traj.targetRpmMilli
        (traj.appliedRpmMilli + max 1 (cfg.accelMilliRpmPerSec * 20 / 1000))) ∧
    (traj.targetRpmMilli ≤ traj.appliedRpmMilli → (targetRamp traj).1 =
      max traj.targetRpmMilli
        (traj.appliedRpmMilli - max 1 (cfg.decelMilliRpmPerSec * 20 / 1000))) := by
  have hmax : traj.appliedRpmMilli ≤ 2147483647 := by
    have hle := h.applied_le
    unfold Room at hroom
    omega
  unfold Traj.targetRamp
  split
  next hlt =>
    rw [h.faster hcfg hroom hlt]
    constructor
    · intro _
      dsimp only
      split <;> omega
    · omega
  next hge =>
    split
    next hgt =>
      rw [h.slower hcfg hmax]
      constructor
      · omega
      · intro _
        dsimp only
        split <;> omega
    next hle => constructor <;> omega

theorem Tracks.ticked (h : Tracks cfg traj) (hcfg : Rampable cfg) (hroom : Room cfg) :
    Ticked cfg traj traj.ticked := by
  have happlied := h.applied_nonneg
  have hmax : traj.appliedRpmMilli ≤ 2147483647 := by
    have hle := h.applied_le
    unfold Room at hroom
    omega
  unfold Traj.ticked
  split
  next hrev =>
    split
    next hpos =>
      dsimp only
      rw [h.slower hcfg hmax]
      split
      next hdown => exact .turn hrev (by omega)
      next hdown => exact .slow hrev rfl rfl (by omega)
    next hzero =>
      have hz : traj.appliedRpmMilli = 0 := by omega
      have heq : { traj with currentForward := traj.targetForward, isReversing := false } =
          { traj with
            rampActive := traj.rampActive
            currentForward := traj.targetForward
            isReversing := false
            appliedRpmMilli := 0 } := by
        rw [← hz]
      rw [heq]
      exact .turn hrev (by omega)
  next hrev =>
    obtain ⟨hup, hdown⟩ := h.targetRamp hcfg hroom
    exact .ramp hrev hup hdown

theorem Ticked.tracks {traj' : Traj} (ht : Ticked cfg traj traj') (h : Tracks cfg traj) :
    Tracks cfg traj' := by
  obtain ⟨hc, ha, hd, htarget, htargetMax, happlied, happliedMax⟩ := h
  have hmax := cfg.maxOutput_nonneg
  cases ht with
  | slow hrev hd' ha' hpos =>
    refine ⟨hc, ha, hd, htarget, htargetMax, ?_, ?_⟩
    · dsimp only
      omega
    · dsimp only
      omega
  | turn hrev hle => exact ⟨hc, ha, hd, htarget, htargetMax, Int.le_refl 0, hmax⟩
  | ramp hrev hup hdown =>
    refine ⟨hc, ha, hd, htarget, htargetMax, ?_, ?_⟩
    · dsimp only
      omega
    · dsimp only
      omega

/-- A tick raises the rate by at most one delta, and lowers it by at most one. -/
theorem Ticked.moves {traj' : Traj} (ht : Ticked cfg traj traj') (h : Tracks cfg traj) :
    traj'.appliedRpmMilli ≤
        traj.appliedRpmMilli + max 1 (cfg.accelMilliRpmPerSec * 20 / 1000) ∧
      traj.appliedRpmMilli ≤
        traj'.appliedRpmMilli + max 1 (cfg.decelMilliRpmPerSec * 20 / 1000) := by
  have happlied := h.applied_nonneg
  cases ht with
  | slow hrev hd ha hpos =>
    dsimp only
    omega
  | turn hrev hle =>
    dsimp only
    omega
  | ramp hrev hup hdown =>
    dsimp only
    omega

/-- Only a tick that brings the rate to zero turns. -/
theorem Ticked.turns {traj' : Traj} (ht : Ticked cfg traj traj')
    (hne : traj'.currentForward ≠ traj.currentForward) : traj'.appliedRpmMilli = 0 := by
  cases ht with
  | slow hrev hd ha hpos => exact absurd rfl hne
  | turn hrev hle => rfl
  | ramp hrev hup hdown => exact absurd rfl hne

/-- A tick does not go past the target, unless it finishes a reversal that was taken back. -/
theorem Ticked.between {traj' : Traj} (ht : Ticked cfg traj traj') (h : Tracks cfg traj)
    (hback : ¬ traj.TakenBack) : StaysBehind traj traj' := by
  have happlied := h.applied_nonneg
  have htarget := h.target_nonneg
  have hopposite (hrev : traj.Reverses) : traj.targetForward = !traj.currentForward := by
    rcases hrev with hne | hset
    · exact Bool.eq_not.mpr hne
    · exact Bool.eq_not.mpr fun heq => hback ⟨hset, heq⟩
  cases ht with
  | slow hrev hd ha hpos =>
    have hopp := hopposite hrev
    constructor
    · rw [hopp]
      cases traj.currentForward <;> simp [signed] <;> omega
    · rw [hopp]
      cases traj.currentForward <;> simp [signed] <;> omega
  | turn hrev hle =>
    have hopp := hopposite hrev
    constructor
    · dsimp only
      rw [hopp]
      cases traj.currentForward <;> simp [signed] <;> omega
    · dsimp only
      rw [hopp]
      cases traj.currentForward <;> simp [signed] <;> omega
  | ramp hrev hup hdown =>
    have hsame : traj.targetForward = traj.currentForward := by
      by_contra hne
      exact hrev (.inl hne)
    constructor
    · rw [hsame]
      cases traj.currentForward <;> simp [signed] <;> omega
    · rw [hsame]
      cases traj.currentForward <;> simp [signed] <;> omega

/-- A reversal that was taken back goes on down to zero. -/
theorem Ticked.takenBack {traj' : Traj} (ht : Ticked cfg traj traj') (h : Tracks cfg traj)
    (hback : traj.TakenBack) : traj'.appliedRpmMilli =
      max 0 (traj.appliedRpmMilli - max 1 (cfg.decelMilliRpmPerSec * 20 / 1000)) := by
  have happlied := h.applied_nonneg
  cases ht with
  | slow hrev hd ha hpos =>
    dsimp only
    omega
  | turn hrev hle =>
    dsimp only
    omega
  | ramp hrev hup hdown => exact absurd (.inr hback.1) hrev

/-! ## Termination -/

/-- The ticks to the target: down to zero first where the ramp reverses. -/
def ticksLeft (cfg : ArgusConfig) (traj : Traj) : Nat :=
  let accel := max 1 (cfg.accelMilliRpmPerSec * 20 / 1000)
  let decel := max 1 (cfg.decelMilliRpmPerSec * 20 / 1000)
  if traj.Reverses then
    max 1 (stepsTo traj.appliedRpmMilli decel) + stepsTo traj.targetRpmMilli accel
  else
    stepsTo (traj.targetRpmMilli - traj.appliedRpmMilli) accel +
      stepsTo (traj.appliedRpmMilli - traj.targetRpmMilli) decel

theorem Ticked.ticksLeft {traj' : Traj} (ht : Ticked cfg traj traj') (h : Tracks cfg traj) :
    traj'.ticksLeft cfg = traj.ticksLeft cfg - 1 := by
  have happlied := h.applied_nonneg
  have htarget := h.target_nonneg
  have haccel : 1 ≤ max 1 (cfg.accelMilliRpmPerSec * 20 / 1000) := Int.le_max_left _ _
  have hdecel : 1 ≤ max 1 (cfg.decelMilliRpmPerSec * 20 / 1000) := Int.le_max_left _ _
  unfold Traj.ticksLeft
  dsimp only
  cases ht with
  | slow hrev hd ha hpos =>
    rw [if_pos (.inr rfl), if_pos hrev]
    dsimp only
    rw [stepsTo_pos hdecel (g := traj.appliedRpmMilli) (by omega), ← hd, ← ha,
      stepsTo_pos (hd ▸ hdecel) hpos]
    omega
  | turn hrev hle =>
    have hsteps := stepsTo_le_one hdecel hle
    rw [if_neg (by simp [Reverses]), if_pos hrev]
    dsimp only
    rw [stepsTo_nonpos hdecel (g := 0 - traj.targetRpmMilli) (by omega), Int.sub_zero]
    omega
  | @ramp a b hrev hup hdown =>
    have hrev' : ¬ ({ traj with rampActive := b, appliedRpmMilli := a } : Traj).Reverses := hrev
    rw [if_neg hrev', if_neg hrev]
    dsimp only
    rcases Int.le_total traj.appliedRpmMilli traj.targetRpmMilli with hle | hge
    · have hup := hup hle
      have hgap : traj.targetRpmMilli - a = max 0 (traj.targetRpmMilli - traj.appliedRpmMilli -
          max 1 (cfg.accelMilliRpmPerSec * 20 / 1000)) := by omega
      rw [hgap, stepsTo_closer haccel, stepsTo_nonpos hdecel (g := a - _) (by omega),
        stepsTo_nonpos hdecel (g := _ - traj.targetRpmMilli) (by omega)]
      omega
    · have hdown := hdown hge
      have hgap : a - traj.targetRpmMilli = max 0 (traj.appliedRpmMilli - traj.targetRpmMilli -
          max 1 (cfg.decelMilliRpmPerSec * 20 / 1000)) := by omega
      rw [hgap, stepsTo_closer hdecel, stepsTo_nonpos haccel (g := _ - a) (by omega),
        stepsTo_nonpos haccel (g := _ - traj.appliedRpmMilli) (by omega)]
      omega

theorem onTarget_of_ticksLeft (h : traj.ticksLeft cfg = 0) : OnTarget traj := by
  have haccel : 1 ≤ max 1 (cfg.accelMilliRpmPerSec * 20 / 1000) := Int.le_max_left _ _
  have hdecel : 1 ≤ max 1 (cfg.decelMilliRpmPerSec * 20 / 1000) := Int.le_max_left _ _
  unfold ticksLeft at h
  dsimp only at h
  by_cases hrev : traj.Reverses
  · rw [if_pos hrev] at h
    omega
  · rw [if_neg hrev] at h
    unfold Reverses at hrev
    simp only [ne_eq, not_or, not_not, Bool.not_eq_true] at hrev
    refine ⟨?_, hrev.1.symm, hrev.2⟩
    by_contra hne
    rcases Int.lt_or_gt_of_ne hne with hlt | hgt
    · rw [stepsTo_pos haccel (g := traj.targetRpmMilli - traj.appliedRpmMilli) (by omega)] at h
      omega
    · rw [stepsTo_pos hdecel (g := traj.appliedRpmMilli - traj.targetRpmMilli) (by omega)] at h
      omega

end Ticks

/-! ## Calls -/

/-- The calls that steer the ramp, and its tick; `recover` comes in two parts. -/
inductive RampCall
  | setTarget (rpmMilli : Int) (forward : Bool)
  | stopNormal
  | stopImmediate
  | unlock
  | recover
  | verify
  | tick
deriving DecidableEq

def RampCall.prog : RampCall → TrajM EspErr
  | .setTarget rpmMilli forward => Traj.setTargetRpmMilli rpmMilli forward
  | .stopNormal => Traj.stopNormal
  | .stopImmediate => Traj.stopImmediate
  | .unlock => Traj.unlock
  | .recover => Traj.recoverStop
  | .verify => Traj.recoverVerify
  | .tick => do
      Traj.tick
      return espOk

/-- The variables after `set_target_rpm_milli`. -/
def steered (cfg : ArgusConfig) (rpmMilli : Int) (forward : Bool) (traj : Traj) : Traj :=
  let rpmMilli := if rpmMilli < 0 then 0 else rpmMilli
  let rpmMilli := if rpmMilli > cfg.maxOutputMilliRpm then cfg.maxOutputMilliRpm else rpmMilli
  { traj with
    targetRpmMilli := rpmMilli
    targetForward := forward
    isReversing := traj.isReversing || (forward != traj.currentForward && traj.appliedRpmMilli > 0) }

/-- The variables after a call. -/
def RampCall.after (cfg : ArgusConfig) (c : RampCall) (traj : Traj) : Traj :=
  match c with
  | .setTarget rpmMilli forward => traj.steered cfg rpmMilli forward
  | .stopNormal => traj.steered cfg 0 traj.targetForward
  | .stopImmediate | .unlock | .recover => traj.zeroed
  | .verify => traj
  | .tick => traj.ticked

theorem Tracks.after {cfg : ArgusConfig} {traj : Traj} (h : Tracks cfg traj) (hcfg : Rampable cfg)
    (hroom : Room cfg) (c : RampCall) : Tracks cfg (c.after cfg traj) := by
  have hmax := cfg.maxOutput_nonneg
  have hsteered (rpmMilli : Int) (forward : Bool) : Tracks cfg (traj.steered cfg rpmMilli forward) := by
    refine ⟨h.configured, h.accelLimit, h.decelLimit, ?_, ?_, h.applied_nonneg, h.applied_le⟩
    · unfold steered
      dsimp only
      split <;> split <;> omega
    · unfold steered
      dsimp only
      split <;> split <;> omega
  have hzeroed : Tracks cfg traj.zeroed :=
    ⟨h.configured, h.accelLimit, h.decelLimit, Int.le_refl 0, hmax, Int.le_refl 0, hmax⟩
  cases c with
  | setTarget rpmMilli forward => exact hsteered rpmMilli forward
  | stopNormal => exact hsteered 0 traj.targetForward
  | stopImmediate => exact hzeroed
  | unlock => exact hzeroed
  | recover => exact hzeroed
  | verify => exact h
  | tick => exact (h.ticked hcfg hroom).tracks h

/-- Only a tick turns. -/
theorem RampCall.after_forward {cfg : ArgusConfig} {traj : Traj} {c : RampCall} (hc : c ≠ .tick) :
    (c.after cfg traj).currentForward = traj.currentForward := by
  cases c with
  | tick => exact absurd rfl hc
  | _ => rfl

theorem RampCall.after_cfg {cfg : ArgusConfig} {traj : Traj} (c : RampCall) :
    (c.after cfg traj).cfg = traj.cfg := by
  cases c with
  | tick =>
    change traj.ticked.cfg = traj.cfg
    unfold ticked
    split
    · split
      · dsimp only
        split <;> rfl
      · rfl
    · rfl
  | _ => rfl

theorem tracks_init {cfg : ArgusConfig} : Tracks cfg (.init cfg) :=
  ⟨rfl, rfl, rfl, Int.le_refl 0, cfg.maxOutput_nonneg, Int.le_refl 0, cfg.maxOutput_nonneg⟩

end Traj

end Argus
