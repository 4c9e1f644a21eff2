import ArgusPump.StepPins

/-!
# The generated step count

`s_step_count` is to be the number of assertions of STEP, signed by the direction.  The alarm
callback and the kickstart of `set_rate` both start steps, but only the callback keeps
`pin_asserted`: the alarm after a kickstart finds STEP active, starts the same step again and
counts it twice.

    every alarm that starts a step, and every kickstart, finds STEP inactive and DIR at the
    level of s_forward → the count is the net number of assertions       (step_count_exact)
-/

namespace Argus

open Interact

namespace StepGen

/-- STEP is inactive, and DIR at the level of `s_forward`. -/
structure Poised (gen : StepGen) (p : Pins) : Prop where
  step : p.step ≠ gen.stepActiveLevel
  dir : p.dir = gen.dirLevel

instance (gen : StepGen) (p : Pins) : Decidable (Poised gen p) :=
  decidable_of_iff (p.step ≠ gen.stepActiveLevel ∧ p.dir = gen.dirLevel)
    ⟨fun ⟨hstep, hdir⟩ => ⟨hstep, hdir⟩, fun ⟨hstep, hdir⟩ => ⟨hstep, hdir⟩⟩

/-- An alarm that starts a step starts a new one. -/
def CountsAlarm (_ : Alarm) (gen : StepGen) (p : Pins) : Prop := gen.StepDue → Poised gen p

/-- A kickstart starts a new step. -/
def CountsCall (q : HwCall) (p : Pins) : Prop :=
  q.call = .gpioSetLevel .step q.gen.stepActiveLevel → Poised q.gen p

/-- The moves of a run that count as they should. -/
def Counts (m : PinMove) : Prop := Device.Within CountsCall CountsAlarm (fun _ _ _ => True) m

instance (a : Alarm) (gen : StepGen) (p : Pins) : Decidable (CountsAlarm a gen p) :=
  inferInstanceAs (Decidable (gen.StepDue → Poised gen p))

instance (q : HwCall) (p : Pins) : Decidable (CountsCall q p) :=
  inferInstanceAs (Decidable (q.call = .gpioSetLevel .step q.gen.stepActiveLevel → Poised q.gen p))

instance (m : PinMove) : Decidable (Counts m) := inferInstanceAs (Decidable (Device.Within _ _ _ m))

/-- The generator after `argus_step_gen_init`, or later after `argus_step_gen_reset_step_count`. -/
structure CountStart (s : PinState) : Prop where
  idle : s.task = .idle
  polar : s.mem.Polar
  stepCount : s.mem.stepCount = 0
  net : s.world.net = 0

/-! ## One alarm -/

/-- The count is `d` behind the pins. -/
structure Behind (d : Int) (gen : StepGen) (p : Pins) : Prop where
  polar : gen.Polar
  net : gen.stepCount + d = p.net

/-- The sign of a step. -/
def sign (forward : Bool) : Int := if forward then 1 else -1

theorem write_low_net {gen : StepGen} (h : gen.Polar) (p : Pins) :
    (p.write gen .step gen.stepInactiveLevel).net = p.net := by
  change ite _ _ _ = _
  rw [if_neg]
  rintro ⟨heq, -⟩
  exact h.step heq.symm

theorem write_high_net {gen : StepGen} (h : gen.Polar) {p : Pins} (hp : Poised gen p) :
    (p.write gen .step gen.stepActiveLevel).net = p.net + sign gen.forward := by
  change ite _ _ _ = _
  rw [if_pos ⟨rfl, hp.step⟩, hp.dir]
  unfold dirLevel sign
  by_cases hf : gen.forward = true
  · simp [hf]
  · simp only [hf, Bool.false_eq_true, if_false]
    rw [if_neg h.dir.symm]
    rfl

theorem accept_polar {gen : StepGen} (h : gen.Polar) : gen.accept.Polar := by
  obtain ⟨-, -, -, -, -, -, hactive, hinactive, hforward, hreverse⟩ := accept_frame gen
  constructor
  · rw [hactive, hinactive]
    exact h.step
  · rw [hforward, hreverse]
    exact h.dir

theorem accept_poised {gen : StepGen} {p : Pins} (h : Poised gen p) : Poised gen.accept p := by
  obtain ⟨hdir, -, -, -, -, -, hactive, -, hforward, hreverse⟩ := accept_frame gen
  constructor
  · rw [hactive]
    exact h.step
  · unfold dirLevel
    rw [hdir, hforward, hreverse]
    exact h.dir

theorem due_of_assert {gen : StepGen} (hpin : gen.pinAsserted = false) (hrun : gen.running = true)
    (hdrv : gen.driverEnabled = true) (hne : gen.accept.activeTiming.integer ≠ 0) :
    gen.StepDue := by
  rw [accept_integer] at hne
  refine ⟨hpin, hrun, hdrv, ?_, ?_⟩
  · by_cases hstop : gen.pendingTiming.immediateStop = true
    · rw [if_pos hstop] at hne
      exact absurd rfl hne
    · exact Bool.eq_false_iff.mpr hstop
  · intro hz
    rw [hz, ite_self] at hne
    exact hne rfl

/-- An alarm that counts as it should keeps the count as far behind as it was. -/
theorem behind_stable (d : Int) : pinDevice.Stable CountsAlarm (Behind d) := by
  intro a gen p gen' p' hK hh h
  cases served_of_handle hh with
  | deassert hpin hdir =>
    refine ⟨⟨h.polar.step, h.polar.dir⟩, ?_⟩
    rw [write_low_net h.polar]
    exact h.net
  | turn hpin hdir =>
    refine ⟨⟨h.polar.step, h.polar.dir⟩, ?_⟩
    change gen.stepCount + d = (p.write gen .step gen.stepInactiveLevel).net
    rw [write_low_net h.polar]
    exact h.net
  | idle hpin hguard =>
    refine ⟨h.polar, ?_⟩
    rw [write_low_net h.polar]
    exact h.net
  | still hpin hrun hdrv hzero =>
    have hpolar := accept_polar h.polar
    refine ⟨hpolar, ?_⟩
    rw [write_low_net hpolar, (accept_frame gen).2.1]
    exact h.net
  | assert hpin hrun hdrv hne =>
    have hpolar := accept_polar h.polar
    have hpoised := accept_poised (hK (due_of_assert hpin hrun hdrv hne))
    refine ⟨⟨hpolar.step, hpolar.dir⟩, ?_⟩
    rw [write_high_net hpolar hpoised]
    have hcount : gen.accept.asserted.stepCount = gen.stepCount + sign gen.accept.forward := by
      unfold asserted sign
      rw [(accept_frame gen).2.1]
      split <;> rfl
    have hnet := h.net
    omega

/-- An alarm keeps a direction that nobody is about to change. -/
theorem aimed_stable (K : Alarm → StepGen → Pins → Prop) (f : Bool) :
    pinDevice.Stable K fun gen _ => gen.forward = f ∧ gen.pendingTiming.directionForward = f := by
  rintro a gen p gen' p' - hh ⟨hforward, hpending⟩
  have haccept : gen.accept.forward = f ∧ gen.accept.pendingTiming.directionForward = f := by
    obtain ⟨hf, -, -, -, hp, -⟩ := accept_frame gen
    rw [hf, hp]
    exact ⟨hforward, hpending⟩
  cases served_of_handle hh with
  | deassert hpin hdir => exact ⟨hpending, hpending⟩
  | turn hpin hdir => exact ⟨hpending, hpending⟩
  | idle hpin hguard => exact ⟨hforward, hpending⟩
  | still hpin hrun hdrv hzero => exact haccept
  | assert hpin hrun hdrv hne => exact haccept

/-! ## The calls -/

/-- The count is `d` behind the pins, and nobody is about to change the direction `f`. -/
def Aimed (d : Int) (f : Bool) (gen : StepGen) (p : Pins) : Prop :=
  Behind d gen p ∧ gen.forward = f ∧ gen.pendingTiming.directionForward = f

theorem aimed_behind_stable (d : Int) (f : Bool) : pinDevice.Stable CountsAlarm (Aimed d f) :=
  (behind_stable d).and (aimed_stable CountsAlarm f)

theorem behind_pulseOnly :
    PulseOnly Pins.apply (ServesAlarm Pins.apply) CountsCall CountsAlarm (fun _ _ => True) (Behind 0) where
  stable := behind_stable 0
  seen _ _ _ := trivial
  silent c gen masked p hc := Pins.apply_silent c gen masked p hc
  pulse gen gen' p hsame h := by
    obtain ⟨-, -, hcount, -, hactive, hinactive, hfwd, hrev⟩ := hsame
    refine ⟨⟨?_, ?_⟩, ?_⟩
    · rw [hactive, hinactive]
      exact h.polar.step
    · rw [hfwd, hrev]
      exact h.polar.dir
    · rw [hcount]
      exact h.net
  stopped := pins_stopped CountsAlarm
  low gen masked p h _ _ := ⟨h.polar, (write_low_net h.polar p).symm ▸ h.net⟩
  turn gen masked p h := ⟨h.polar, h.net⟩

/-- The pins run ahead by one step between the assertion and its count, and an alarm in between
leaves that step and its direction alone. -/
theorem kickstart_behind (rpmMilli : Int) :
    pinDevice.Takes CountsCall CountsAlarm (fun _ _ => True) (Behind 0) (Behind 0)
      (kickstart rpmMilli) := by
  have hP := behind_pulseOnly
  have hj (P : StepGen → Pins → Prop) : ∀ gen p, P gen p → True := fun _ _ _ => trivial
  unfold kickstart
  refine .bind (hP.ask rfl) fun e => .ite (.bind (hP.assign ?_) fun _ => .pure _) ?_
  · exact fun _ => ⟨rfl, rfl, rfl, rfl, rfl, rfl, rfl, rfl⟩
  refine .bind hP.readCount fun a => ?_
  have haimed (f : Bool) {c : Hw} {masked : Bool} (hc : c.silent = true) :
      pinDevice.Takes CountsCall CountsAlarm (fun _ _ => True) (Aimed 0 f) (Aimed 0 f)
        (hw_ c masked) :=
    pins_hw_ (aimed_behind_stable 0 f) (hj _) hc
  have hfirst (f : Bool) : pinDevice.Takes CountsCall CountsAlarm (fun _ _ => True)
      (fun gen p => Behind 0 gen p ∧ gen.pendingTiming.directionForward = f) (Behind 0) (do
        modify fun gen => { gen with
          activeTiming := gen.pendingTiming
          generatedRpmMilli := rpmMilli
          remAccumulator := 0
          forward := gen.pendingTiming.directionForward }
        hw_ .exitCritical false
        setDir false
        hw_ (.delayUs 5) false
        setStep true false
        modify fun gen => { gen with
          nextStepTicks := gen.activeTiming.integer
          stepCount := if gen.forward then gen.stepCount + 1 else gen.stepCount - 1 }
        hw_ (.gptimerSetAlarmAction (a.2 + 150)) false
        modify fun gen => { gen with errorState := .none }
        return espOk) := by
    refine .bind (M := Aimed 0 f) ?_ fun _ => .bind (haimed f rfl) fun _ => ?_
    · exact .modify fun gen p h => ⟨⟨⟨h.1.polar.step, h.1.polar.dir⟩, h.1.net⟩, h.2, h.2⟩
    refine .bind (M := Aimed 0 f) ?_ fun _ => .bind (haimed f rfl) fun _ => ?_
    · exact takes_setDir (aimed_behind_stable 0 f) (hj _) (hj _)
        fun gen p h => ⟨⟨h.1.polar, h.1.net⟩, h.2⟩
    refine .bind (M := Aimed (sign f) f) ?_ fun _ => .bind (M := Behind 0) ?_ fun _ => ?_
    · refine takes_setStep (aimed_behind_stable (sign f) f) (hj _) (hj _) fun gen p h hE => ?_
      refine ⟨⟨h.1.polar, ?_⟩, h.2⟩
      have hpoised : Poised gen p := hE rfl
      have hnet := h.1.net
      change gen.stepCount + sign f = (p.write gen .step gen.stepActiveLevel).net
      rw [write_high_net h.1.polar hpoised, h.2.1]
      omega
    · refine .modify fun gen p h => ⟨⟨h.1.polar.step, h.1.polar.dir⟩, ?_⟩
      have hnet := h.1.net
      rw [← h.2.1] at hnet
      unfold sign at hnet
      dsimp only
      by_cases hf : gen.forward = true
      · rw [if_pos hf] at hnet ⊢
        omega
      · rw [if_neg hf] at hnet ⊢
        omega
    refine .bind (M := Behind 0) ?_ fun _ => .bind (hP.assign ?_) fun _ => .pure _
    · exact takes_hw_ (behind_stable 0) (hj _) (hj _) fun _ _ h _ => h
    · exact fun _ => ⟨rfl, rfl, rfl, rfl, rfl, rfl, rfl, rfl⟩
  exact fun gen p h => hfirst gen.pendingTiming.directionForward gen p ⟨h, rfl⟩

/-- **The step count.**  Where every alarm that starts a step and every kickstart finds STEP
inactive and DIR at the level of `s_forward`, the count is exact between calls. -/
theorem step_count_exact {s : PinState} {ms : List PinMove} (hs : CountStart s)
    (h : IsRun pinStep s ms) (hms : ∀ m ∈ ms, Counts m) :
    ∀ m ∈ ms, m.post.task = .idle → m.post.mem.stepCount = m.post.world.net := by
  have hstart : Behind 0 s.mem s.world := by
    refine ⟨hs.polar, ?_⟩
    rw [hs.stepCount, hs.net]
    rfl
  have hcall (c : Call) := c.keeps behind_pulseOnly fun rpmMilli =>
    (kickstart_behind rpmMilli).strengthen fun _ _ h => h.2
  have hinv := Device.invariant (fun _ _ _ => trivial) (behind_stable 0)
    (fun _ _ _ _ _ _ _ _ => trivial) (fun c m w _ hI => hcall c m w hI) h hs.idle hstart hms
  intro m hm hidle
  have hnet := ((hinv m hm).2 hidle).net
  omega

theorem countStart_of_booted {cfg : ArgusConfig} {s : PinState} (h : Booted cfg s) :
    CountStart s := by
  rw [h.spec]
  exact ⟨rfl, polar_initialized cfg, rfl, rfl⟩

/-- A rate, a start, and three alarms: one step and the beginning of another. -/
theorem step_count_two_steps :
    let ms := playPins bootedPins (undisturbed .arm 3 ++ undisturbed (.setRate 60000 8000) 4 ++
      undisturbed .start 2 ++ [.interrupt (alarmAt 10000), .interrupt (alarmAt 10150), .interrupt (alarmAt 11250)])
    (∀ m ∈ ms, m.post.task = .idle → m.post.mem.stepCount = m.post.world.net) ∧
      (final bootedPins ms).world.net = 2 :=
  ⟨step_count_exact (countStart_of_booted bootedPins_booted) (isRun_playPins _ _) (by decide),
    by decide⟩

/-- A start, a rate and one alarm: one assertion of STEP, counted twice. -/
theorem step_count_kickstart :
    ¬ ∀ (cfg : ArgusConfig) (s : PinState) (ms : List PinMove), Booted cfg s →
      IsRun pinStep s ms → ∀ m ∈ ms, m.post.task = .idle → m.post.mem.stepCount = m.post.world.net := by
  intro h
  let ms := playPins bootedPins (undisturbed .arm 3 ++ undisturbed .start 2 ++
    undisturbed (.setRate 60000 8000) 11 ++ [.interrupt (alarmAt 150)])
  let m := ms.get ⟨38, by decide⟩
  have hcount := h argusConfig bootedPins ms bootedPins_booted (isRun_playPins _ _) m
    (List.get_mem _ _) rfl
  exact absurd hcount (by decide)

end StepGen

end Argus
