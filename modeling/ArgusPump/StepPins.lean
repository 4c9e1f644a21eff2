import ArgusPump.StepCalls

/-!
# The STEP and DIR pins

`Pins` is what the motor driver sees of the step generator: the levels of its two inputs, and what
has happened to them.
-/

namespace Argus

open Interact

/-- The levels of the two pins, and what was seen of them. -/
structure Pins where
  step : Nat
  dir : Nat
  /-- Inactive-to-active transitions of STEP with DIR forward, less those with DIR reverse. -/
  net : Int
  /-- DIR has changed while STEP was active. -/
  glitched : Bool
deriving DecidableEq, Repr

def Pins.write (gen : StepGen) (pin : Pin) (level : Nat) (p : Pins) : Pins :=
  match pin with
  | .step =>
    { p with
      step := level
      net :=
        if level = gen.stepActiveLevel ∧ p.step ≠ gen.stepActiveLevel then
          if p.dir = gen.dirForwardLevel then p.net + 1 else p.net - 1
        else p.net }
  | .dir =>
    { p with
      dir := level
      glitched := p.glitched || (level ≠ p.dir ∧ p.step = gen.stepActiveLevel) }
  | .en => p

/-- What a driver call does to the pins. -/
def Pins.apply (q : HwCall) (p : Pins) : Pins :=
  match q.call with
  | .gpioSetLevel pin level => p.write q.gen pin level
  | _ => p

theorem Pins.apply_silent (c : Hw) (gen : StepGen) (masked : Bool) (p : Pins)
    (hc : c.silent = true) : p.apply ⟨c, gen, masked⟩ = p := by
  cases c with
  | gpioSetLevel pin level =>
    cases pin with
    | step => exact absurd hc Bool.false_ne_true
    | dir => exact absurd hc Bool.false_ne_true
    | en => rfl
  | _ => rfl

namespace StepGen

/-- The generator, its alarm and its pins. -/
def pinDevice : Device HwCall (fun _ => HwAnswer) StepGen Pins Alarm :=
  genDevice Pins.apply (ServesAlarm Pins.apply)

abbrev PinState := Machine HwCall (fun _ => HwAnswer) StepGen Pins EspErr

abbrev PinMove := Move PinState (MachineEv Call Alarm)

def pinStep : PinState → MachineEv Call Alarm → PinState → Prop := pinDevice.Step Call.prog

/-! ## One alarm -/

/-- What one alarm does to the variables and the pins. -/
inductive PinsServed (i : Alarm) (gen : StepGen) (p : Pins) : StepGen → Pins → Prop
  | deassert : gen.pinAsserted = true → gen.pendingTiming.directionForward = gen.forward →
      PinsServed i gen p (gen.deasserted i.alarmValue) (p.write gen .step gen.stepInactiveLevel)
  | turn : gen.pinAsserted = true → gen.pendingTiming.directionForward ≠ gen.forward →
      PinsServed i gen p (gen.deasserted i.alarmValue)
        ((p.write gen .step gen.stepInactiveLevel).write (gen.deasserted i.alarmValue) .dir
          (gen.deasserted i.alarmValue).dirLevel)
  | idle : gen.pinAsserted = false → gen.running = false ∨ gen.driverEnabled = false →
      PinsServed i gen p gen (p.write gen .step gen.stepInactiveLevel)
  | still : gen.pinAsserted = false → gen.running = true → gen.driverEnabled = true →
      gen.accept.activeTiming.integer = 0 →
      PinsServed i gen p gen.accept (p.write gen.accept .step gen.accept.stepInactiveLevel)
  | assert : gen.pinAsserted = false → gen.running = true → gen.driverEnabled = true →
      gen.accept.activeTiming.integer ≠ 0 →
      PinsServed i gen p gen.accept.asserted (p.write gen.accept .step gen.accept.stepActiveLevel)

theorem served_of_handle {i : Alarm} {gen gen' : StepGen} {p p' : Pins}
    (h : pinDevice.handle i (gen, p) (gen', p')) : PinsServed i gen p gen' p' := by
  cases served_of_exec Pins.apply h with
  | deassert hpin hdir => exact .deassert hpin hdir
  | turn hpin hdir => exact .turn hpin hdir
  | idle hpin hguard => exact .idle hpin hguard
  | still hpin hrun hdrv hzero => exact .still hpin hrun hdrv hzero
  | assert hpin hrun hdrv hne => exact .assert hpin hrun hdrv hne

/-- An alarm leaves the pending rate alone. -/
theorem pins_stopped (K : Alarm → StepGen → Pins → Prop) :
    pinDevice.Stable K fun gen _ => gen.pendingTiming.integer = 0 := by
  intro i gen p gen' p' _ hh h
  rw [(served_of_exec Pins.apply hh).pending.1]
  exact h

/-! ## Calls that leave the pins alone -/

section Silent

variable {E : HwCall → Pins → Prop} {K : Alarm → StepGen → Pins → Prop}
  {J P : StepGen → Pins → Prop}

theorem pins_hw {c : Hw} {masked : Bool} (hP : pinDevice.Stable K P)
    (hPJ : ∀ gen p, P gen p → J gen p) (hc : c.silent = true) :
    pinDevice.Takes E K J P P (hw c masked) := by
  refine takes_hw hP hPJ hPJ fun gen p h _ => ?_
  rw [Pins.apply_silent c gen masked p hc]
  exact h

theorem pins_hw_ {c : Hw} {masked : Bool} (hP : pinDevice.Stable K P)
    (hPJ : ∀ gen p, P gen p → J gen p) (hc : c.silent = true) :
    pinDevice.Takes E K J P P (hw_ c masked) := by
  refine takes_hw_ hP hPJ hPJ fun gen p h _ => ?_
  rw [Pins.apply_silent c gen masked p hc]
  exact h

theorem pins_rawCount {masked : Bool} (hP : pinDevice.Stable K P)
    (hPJ : ∀ gen p, P gen p → J gen p) : pinDevice.Takes E K J P P (rawCount masked) :=
  takes_rawCount hP hPJ hPJ fun _ _ h _ => h

end Silent

/-! ## After `argus_step_gen_init` -/

section Boot

theorem quiet_hw_ (c : Hw) (masked : Bool) (post : Unit × StepGen → Pins → Prop) (gen : StepGen)
    (p : Pins) : Prog.wpTS (Quiet Pins.apply) (fun _ _ => True) (hw_ c masked) post gen p ↔
      post ((), gen) (p.apply ⟨c, gen, masked⟩) := by
  constructor
  · intro h
    exact h.2 ⟨espOk, 0, gen⟩ _ ⟨rfl, rfl⟩
  · rintro h
    refine ⟨trivial, ?_⟩
    rintro r p' ⟨hr, rfl⟩
    change post ((), r.gen) _
    rw [hr]
    exact h

theorem quiet_setStep (active masked : Bool) (post : Unit × StepGen → Pins → Prop) (gen : StepGen)
    (p : Pins) : Prog.wpTS (Quiet Pins.apply) (fun _ _ => True) (setStep active masked) post gen p ↔
      post ((), gen)
        (p.write gen .step (if active then gen.stepActiveLevel else gen.stepInactiveLevel)) :=
  quiet_hw_ _ masked post gen p

theorem quiet_setDir (masked : Bool) (post : Unit × StepGen → Pins → Prop) (gen : StepGen)
    (p : Pins) : Prog.wpTS (Quiet Pins.apply) (fun _ _ => True) (setDir masked) post gen p ↔
      post ((), gen) (p.write gen .dir gen.dirLevel) :=
  quiet_hw_ _ masked post gen p

/-- A driver call that may fail. -/
theorem quiet_attempt {c : Hw} {fail rest : GenM EspErr} {post : EspErr × StepGen → Pins → Prop}
    {gen : StepGen} {p : Pins}
    (hfail : Prog.wpTS (Quiet Pins.apply) (fun _ _ => True) fail post gen (p.apply ⟨c, gen, false⟩))
    (hrest : Prog.wpTS (Quiet Pins.apply) (fun _ _ => True) rest post gen (p.apply ⟨c, gen, false⟩)) :
    Prog.wpTS (Quiet Pins.apply) (fun _ _ => True)
      (do if (← hw c false) ≠ espOk then fail else rest) post gen p := by
  rw [Prog.wpTS_bind]
  refine ⟨trivial, ?_⟩
  rintro r p' ⟨hr, rfl⟩
  change Prog.wpTS (Quiet Pins.apply) _ (ite _ _ _) post r.gen _
  rw [hr]
  split
  · exact hfail
  · exact hrest

def initialized (cfg : ArgusConfig) : StepGen :=
  { unset with
    timer := true
    enGpio := cfg.enGpio
    stepActiveLevel := if cfg.stepActiveLow then 0 else 1
    stepInactiveLevel := if cfg.stepActiveLow then 1 else 0
    dirForwardLevel := if cfg.dirInverted then 0 else 1
    dirReverseLevel := if cfg.dirInverted then 1 else 0 }

/-- `argus_step_gen_init` has succeeded, and the pins are watched from here on. -/
def Booted (cfg : ArgusConfig) (s : PinState) : Prop :=
  ∃ p calls w, Prog.Exec (Quiet Pins.apply) (init cfg .unset) p calls (espOk, s.mem) w ∧
    s = ⟨s.mem, { w with net := 0, glitched := false }, .idle⟩

theorem polar_initialized (cfg : ArgusConfig) : (initialized cfg).Polar := by
  have hdiff (b : Bool) : (if b then 0 else 1) ≠ if b then 1 else 0 := by
    cases b <;> decide
  exact ⟨hdiff cfg.stepActiveLow, hdiff cfg.dirInverted⟩

theorem init_spec (cfg : ArgusConfig) (p : Pins) :
    Prog.wpTS (Quiet Pins.apply) (fun _ _ => True) (init cfg) (fun a w => a.1 = espOk → a.2 = initialized cfg ∧
      w.step = (initialized cfg).stepInactiveLevel ∧ w.dir = (initialized cfg).dirForwardLevel)
      .unset p := by
  have hne : espFail ≠ espOk := by decide
  have hfail {gen : StepGen} {p : Pins} : Prog.wpTS (Quiet Pins.apply) (fun _ _ => True) initFail
      (fun a w => a.1 = espOk → a.2 = initialized cfg ∧
        w.step = (initialized cfg).stepInactiveLevel ∧ w.dir = (initialized cfg).dirForwardLevel)
      gen p := by
    unfold initFail setStep
    simp only [Prog.wpTS_bind, Prog.wpTS_get, Prog.wpTS_modify, Prog.wpTS_pure, quiet_hw_]
    exact fun hc => absurd hc hne
  unfold init
  rw [Prog.wpTS_bind, Prog.wpTS_modify]
  refine quiet_attempt (fun hc => absurd hc hne) ?_
  rw [Prog.wpTS_bind, quiet_setStep, Prog.wpTS_bind, quiet_setDir, Prog.wpTS_bind, quiet_hw_]
  refine quiet_attempt hfail ?_
  rw [Prog.wpTS_bind, Prog.wpTS_modify]
  refine quiet_attempt hfail ?_
  rw [Prog.wpTS_bind, Prog.wpTS_modify]
  refine quiet_attempt hfail (quiet_attempt hfail (quiet_attempt hfail ?_))
  exact fun _ => ⟨rfl, rfl, rfl⟩

theorem Booted.spec {cfg : ArgusConfig} {s : PinState} (h : Booted cfg s) :
    s = ⟨initialized cfg, ⟨(initialized cfg).stepInactiveLevel,
      (initialized cfg).dirForwardLevel, 0, false⟩, .idle⟩ := by
  obtain ⟨p, calls, w, hrun, hs⟩ := h
  obtain ⟨hmem, hstep, hdir⟩ := hrun.of_wpS (init_spec cfg p) rfl
  have hmem : s.mem = initialized cfg := hmem
  rw [hs, hmem, ← hstep, ← hdir]

end Boot

/-! ## Runs that are played -/

/-- Every driver call succeeds; the counter reads 0. -/
def smoothReply (_ : HwCall) (gen : StepGen) : HwAnswer := ⟨espOk, 0, gen⟩

def serveAlarm {σ : Type} (act : HwCall → σ → σ) (i : Alarm) (x : StepGen × σ) : StepGen × σ :=
  let out := (timerAlarm i.alarmValue x.1).playS
    (fun q w => (⟨i.rawErr, i.rawCount, q.gen⟩, act q w)) x.2
  (out.2.1.2, out.2.2)

theorem serveAlarm_serves {σ : Type} (act : HwCall → σ → σ) (i : Alarm) (x : StepGen × σ) :
    ServesAlarm act i x (serveAlarm act i x) :=
  ⟨_, Prog.playS_exec (fun _ _ => ⟨⟨rfl, rfl⟩, fun _ => ⟨rfl, rfl⟩⟩) _ _⟩

/-- An alarm that is not late. -/
def alarmAt (alarmValue : UInt64) : Alarm := ⟨alarmValue, espOk, 0⟩

def playPins : PinState → List (MachineEv Call Alarm) → List PinMove :=
  pinDevice.playMachine Call.prog smoothReply (serveAlarm Pins.apply)

theorem isRun_playPins (s : PinState) (evs : List (MachineEv Call Alarm)) :
    IsRun pinStep s (playPins s evs) := by
  exact Device.isRun_playMachine (fun _ _ => rfl) (serveAlarm_serves Pins.apply) s evs

/-- A call that is not interrupted and makes `n` driver calls. -/
def undisturbed {ι : Type} (c : Call) (n : Nat) : List (MachineEv Call ι) :=
  .begin c :: (List.replicate n [.act, .answer]).flatten ++ [.act]

def bootedPins : PinState := ⟨initialized argusConfig, ⟨1, 0, 0, false⟩, .idle⟩

theorem bootedPins_booted : Booted argusConfig bootedPins := by
  have hrun := Prog.playS_exec (H := Quiet Pins.apply) (f := fun q p => (smoothReply q q.gen, p.apply q))
    (fun _ _ => ⟨rfl, rfl⟩) (init argusConfig .unset) ⟨0, 0, 0, false⟩
  exact ⟨_, _, _, hrun, rfl⟩

end StepGen

end Argus
