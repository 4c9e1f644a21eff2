import ArgusPump.Lib.Interrupt
import ArgusPump.StepGen

/-!
# The step generator under interrupts

The calls of `main/argus_step_gen.c` come one after another, as the trajectory mutex has them; a
timer alarm is served in one piece, between two statements of a call or between two calls.  What
a driver call does outside the variables is left open: `act` on a world `σ`.

    what one alarm leaves                                          (served_of_exec)
    the calls leave a step in progress alone, but for a kickstart  (Call.keeps)
-/

namespace Argus

open Interact

/-- A call that drives neither STEP nor DIR nor the timer's alarm. -/
def Hw.silent : Hw → Bool
  | .gpioSetLevel .step _ | .gpioSetLevel .dir _ | .gptimerSetAlarmAction _ => false
  | _ => true

namespace StepGen

/-- The calls of a task, once the generator is initialized. -/
inductive Call
  | arm
  | start
  | setRate (rpmMilli : Int) (stepsPerRev : UInt32)
  | setDirection (forward : Bool)
  | stopImmediate
  | stopProfiled
  | disableDriver
  | enableDriver
deriving DecidableEq, Repr

def Call.prog : Call → GenM EspErr
  | .arm => StepGen.arm
  | .start => StepGen.start
  | .setRate rpmMilli stepsPerRev => StepGen.setRate rpmMilli stepsPerRev
  | .setDirection forward => StepGen.setDirection forward
  | .stopImmediate => StepGen.stopImmediate
  | .stopProfiled => StepGen.stopProfiled
  | .disableDriver => StepGen.disableDriver
  | .enableDriver => StepGen.enableDriver

/-- An alarm: `alarm_value`, and what `gptimer_get_raw_count` answers while it is served. -/
structure Alarm where
  alarmValue : UInt64
  rawErr : EspErr
  rawCount : UInt64
deriving DecidableEq, Repr

/-- What `set_rate` does with a rate in range, once the driver is enabled. -/
def takeRate (rpmMilli : Int) (stepsPerRev : UInt32) : GenM EspErr := do
  let num : UInt64 := 600000000000
  let den : UInt64 := UInt64.ofNat rpmMilli.toNat * stepsPerRev.toUInt64
  if num / den < 300 then return ← rejectRate
  modify fun gen => { gen with
    requestedRpmMilli := rpmMilli
    pendingTiming := { gen.pendingTiming with
      integer := num / den, remainder := num % den, denominator := den, immediateStop := false } }
  hw_ .exitCritical false
  if (← get).generatedRpmMilli = 0 ∧ (← get).running then return ← kickstart rpmMilli
  modify fun gen => { gen with errorState := .none }
  return espOk

/-! ## One alarm -/

/-- The pending rate, taken on at the start of a step. -/
def accept (gen : StepGen) : StepGen :=
  if gen.pendingTiming.immediateStop then
    { gen with
      activeTiming := { gen.activeTiming with integer := 0, remainder := 0, denominator := 0 }
      generatedRpmMilli := 0
      pendingTiming := { gen.pendingTiming with immediateStop := false } }
  else if gen.activeTiming.integer ≠ gen.pendingTiming.integer ∨
      gen.activeTiming.remainder ≠ gen.pendingTiming.remainder ∨
      gen.activeTiming.denominator ≠ gen.pendingTiming.denominator then
    { gen with
      activeTiming := gen.pendingTiming
      generatedRpmMilli := gen.requestedRpmMilli
      remAccumulator := 0 }
  else gen

/-- The variables after an assertion of STEP. -/
def asserted (gen : StepGen) : StepGen :=
  let acc := gen.remAccumulator + gen.activeTiming.remainder
  let carry : Bool := acc ≥ gen.activeTiming.denominator
  { gen with
    pinAsserted := true
    remAccumulator := if carry then acc - gen.activeTiming.denominator else acc
    nextStepTicks := if carry then gen.activeTiming.integer + 1 else gen.activeTiming.integer
    stepCount := if gen.forward then gen.stepCount + 1 else gen.stepCount - 1 }

/-- The variables after a deassertion. -/
def deasserted (gen : StepGen) (alarmValue : UInt64) : StepGen :=
  { gen with
    pinAsserted := false
    lastDeassertionTicks := alarmValue
    forward := gen.pendingTiming.directionForward }

/-- The level of DIR for `s_forward`. -/
def dirLevel (gen : StepGen) : Nat :=
  if gen.forward then gen.dirForwardLevel else gen.dirReverseLevel

/-- The inactive part of the step in progress. -/
def lowTicks (gen : StepGen) : UInt64 :=
  if gen.nextStepTicks > 150 then gen.nextStepTicks - 150 else 1

/-- `next` would be missed. -/
def Alarm.Late (i : Alarm) (next : UInt64) : Prop := i.rawErr = espOk ∧ next ≤ i.rawCount + 30

instance (i : Alarm) (next : UInt64) : Decidable (i.Late next) :=
  inferInstanceAs (Decidable (_ ∧ _))

/-- The alarm that is programmed for `next`. -/
def Alarm.clamp (i : Alarm) (next : UInt64) : UInt64 :=
  if i.Late next then i.rawCount + 30 else next

/-- The levels of each pin differ, as `argus_step_gen_init` sets them. -/
structure Polar (gen : StepGen) : Prop where
  step : gen.stepActiveLevel ≠ gen.stepInactiveLevel
  dir : gen.dirForwardLevel ≠ gen.dirReverseLevel

/-- The next alarm starts a step. -/
structure StepDue (gen : StepGen) : Prop where
  pinAsserted : gen.pinAsserted = false
  running : gen.running = true
  driverEnabled : gen.driverEnabled = true
  immediateStop : gen.pendingTiming.immediateStop = false
  integer : gen.pendingTiming.integer ≠ 0

instance (gen : StepGen) : Decidable gen.StepDue :=
  decidable_of_iff (gen.pinAsserted = false ∧ gen.running = true ∧ gen.driverEnabled = true ∧
      gen.pendingTiming.immediateStop = false ∧ gen.pendingTiming.integer ≠ 0)
    ⟨fun ⟨h1, h2, h3, h4, h5⟩ => ⟨h1, h2, h3, h4, h5⟩,
      fun ⟨h1, h2, h3, h4, h5⟩ => ⟨h1, h2, h3, h4, h5⟩⟩

theorem accept_frame (gen : StepGen) :
    gen.accept.forward = gen.forward ∧ gen.accept.stepCount = gen.stepCount ∧
    gen.accept.running = gen.running ∧ gen.accept.driverEnabled = gen.driverEnabled ∧
    gen.accept.pendingTiming.directionForward = gen.pendingTiming.directionForward ∧
    gen.accept.pendingTiming.integer = gen.pendingTiming.integer ∧
    gen.accept.stepActiveLevel = gen.stepActiveLevel ∧
    gen.accept.stepInactiveLevel = gen.stepInactiveLevel ∧
    gen.accept.dirForwardLevel = gen.dirForwardLevel ∧
    gen.accept.dirReverseLevel = gen.dirReverseLevel := by
  unfold accept
  split
  · exact ⟨rfl, rfl, rfl, rfl, rfl, rfl, rfl, rfl, rfl, rfl⟩
  · split
    · exact ⟨rfl, rfl, rfl, rfl, rfl, rfl, rfl, rfl, rfl, rfl⟩
    · exact ⟨rfl, rfl, rfl, rfl, rfl, rfl, rfl, rfl, rfl, rfl⟩

/-- The period that the next step has. -/
theorem accept_integer (gen : StepGen) :
    gen.accept.activeTiming.integer =
      if gen.pendingTiming.immediateStop then 0 else gen.pendingTiming.integer := by
  unfold accept
  split
  · rfl
  · split
    · rfl
    next hsame =>
      simp only [not_or, not_not] at hsame
      exact hsame.1

section World

variable {σ ι α β : Type} (act : HwCall → σ → σ)

def lowStep (gen : StepGen) : HwCall := ⟨.gpioSetLevel .step gen.stepInactiveLevel, gen, true⟩

def highStep (gen : StepGen) : HwCall := ⟨.gpioSetLevel .step gen.stepActiveLevel, gen, true⟩

def turnDir (gen : StepGen) : HwCall := ⟨.gpioSetLevel .dir gen.dirLevel, gen, true⟩

/-- The next alarm is programmed. -/
def programmed (i : Alarm) (gen : StepGen) (next : UInt64) (w : σ) : σ :=
  act ⟨.gptimerSetAlarmAction (i.clamp next), gen, true⟩ (act ⟨.gptimerGetRawCount, gen, true⟩ w)

/-- What one alarm does to the variables and the world. -/
inductive Served (i : Alarm) (gen : StepGen) (w : σ) : StepGen → σ → Prop
  | deassert : gen.pinAsserted = true → gen.pendingTiming.directionForward = gen.forward →
      Served i gen w (gen.deasserted i.alarmValue)
        (programmed act i (gen.deasserted i.alarmValue) (i.alarmValue + gen.lowTicks)
          (act gen.lowStep w))
  | turn : gen.pinAsserted = true → gen.pendingTiming.directionForward ≠ gen.forward →
      Served i gen w (gen.deasserted i.alarmValue)
        (programmed act i (gen.deasserted i.alarmValue) (i.alarmValue + gen.lowTicks)
          (act (gen.deasserted i.alarmValue).turnDir (act gen.lowStep w)))
  | idle : gen.pinAsserted = false → gen.running = false ∨ gen.driverEnabled = false →
      Served i gen w gen (act gen.lowStep w)
  | still : gen.pinAsserted = false → gen.running = true → gen.driverEnabled = true →
      gen.accept.activeTiming.integer = 0 →
      Served i gen w gen.accept (act gen.accept.lowStep w)
  | assert : gen.pinAsserted = false → gen.running = true → gen.driverEnabled = true →
      gen.accept.activeTiming.integer ≠ 0 →
      Served i gen w gen.accept.asserted
        (programmed act i gen.accept.asserted (i.alarmValue + 150) (act gen.accept.highStep w))

/-- No alarm is served: a call goes on with the variables it was made with. -/
def Quiet (q : HwCall) (w : σ) (r : HwAnswer) (w' : σ) : Prop := r.gen = q.gen ∧ w' = act q w

/-- The same, while the alarm `i` is served. -/
def Masked (i : Alarm) (q : HwCall) (w : σ) (r : HwAnswer) (w' : σ) : Prop :=
  Quiet act q w r w' ∧ (q.call = .gptimerGetRawCount → r.result = i.rawErr ∧ r.count = i.rawCount)

theorem masked_hw_ (i : Alarm) (c : Hw) (masked : Bool) (hc : c ≠ .gptimerGetRawCount)
    (post : Unit × StepGen → σ → Prop) (gen : StepGen) (w : σ) :
    Prog.wpTS (Masked act i) (fun _ _ => True) (hw_ c masked) post gen w ↔
      post ((), gen) (act ⟨c, gen, masked⟩ w) := by
  constructor
  · intro h
    exact h.2 ⟨espOk, 0, gen⟩ _ ⟨⟨rfl, rfl⟩, fun hraw => absurd hraw hc⟩
  · intro h
    refine ⟨trivial, ?_⟩
    rintro r w' ⟨⟨hr, rfl⟩, -⟩
    change post ((), r.gen) _
    rw [hr]
    exact h

theorem masked_rawCount {i : Alarm} {masked : Bool}
    {post : (EspErr × UInt64) × StepGen → σ → Prop} {gen : StepGen} {w : σ}
    (h : post ((i.rawErr, if i.rawErr = espOk then i.rawCount else 0), gen)
      (act ⟨.gptimerGetRawCount, gen, masked⟩ w)) :
    Prog.wpTS (Masked act i) (fun _ _ => True) (rawCount masked) post gen w := by
  refine ⟨trivial, ?_⟩
  rintro r w' ⟨⟨hr, rfl⟩, hraw⟩
  obtain ⟨herr, hcount⟩ := hraw rfl
  change post ((r.result, if r.result = espOk then r.count else 0), r.gen) _
  rw [hr, herr, hcount]
  exact h

theorem masked_scheduleAlarm {i : Alarm} {post : Unit × StepGen → σ → Prop} {gen : StepGen} {w : σ}
    (next : UInt64) (h : post ((), gen) (programmed act i gen next w)) :
    Prog.wpTS (Masked act i) (fun _ _ => True) (scheduleAlarm next) post gen w := by
  have hclamp : (if i.rawErr = espOk ∧ next ≤ (if i.rawErr = espOk then i.rawCount else 0) + 30
      then (if i.rawErr = espOk then i.rawCount else 0) + 30 else next) = i.clamp next := by
    unfold Alarm.clamp Alarm.Late
    by_cases he : i.rawErr = espOk
    · simp only [he, if_true, true_and]
    · simp only [he, if_false, false_and]
  unfold scheduleAlarm
  rw [Prog.wpTS_bind]
  refine masked_rawCount act ?_
  dsimp only
  rw [masked_hw_ act i _ _ (by intro hc; cases hc), hclamp]
  exact h

theorem timerAlarm_served (i : Alarm) (gen : StepGen) (w : σ) :
    Prog.wpTS (Masked act i) (fun _ _ => True) (timerAlarm i.alarmValue)
      (fun a w' => Served act i gen w a.2 w') gen w := by
  have hstep (active masked : Bool) (post : Unit × StepGen → σ → Prop) (gen : StepGen) (w : σ) :
      Prog.wpTS (Masked act i) (fun _ _ => True) (setStep active masked) post gen w ↔
        post ((), gen) (act ⟨.gpioSetLevel .step
          (if active then gen.stepActiveLevel else gen.stepInactiveLevel), gen, masked⟩ w) :=
    masked_hw_ act i _ masked (by intro hc; cases hc) post gen w
  have hdir (masked : Bool) (post : Unit × StepGen → σ → Prop) (gen : StepGen) (w : σ) :
      Prog.wpTS (Masked act i) (fun _ _ => True) (setDir masked) post gen w ↔
        post ((), gen) (act ⟨.gpioSetLevel .dir gen.dirLevel, gen, masked⟩ w) :=
    masked_hw_ act i _ masked (by intro hc; cases hc) post gen w
  unfold timerAlarm
  simp only [Prog.wpTS_bind, Prog.wpTS_get, Prog.wpTS_ite, Prog.wpTS_modify, Prog.wpTS_set,
    Prog.wpTS_pure, hstep, hdir]
  split
  next hpin =>
    split
    next hturn => exact masked_scheduleAlarm act _ (.turn hpin hturn)
    next hturn =>
      refine masked_scheduleAlarm act _ ?_
      have hsame : gen.pendingTiming.directionForward = gen.forward := not_not.mp hturn
      have hgen : { gen with pinAsserted := false, lastDeassertionTicks := i.alarmValue } =
          gen.deasserted i.alarmValue := by
        unfold deasserted
        rw [hsame]
      rw [hgen]
      exact .deassert hpin hsame
  next hpin =>
    have hpin : gen.pinAsserted = false := Bool.eq_false_iff.mpr hpin
    split
    next hguard =>
      refine .idle hpin ?_
      simpa using hguard
    next hguard =>
      simp only [not_or, not_not] at hguard
      obtain ⟨hrun, hdrv⟩ := hguard
      change ite (gen.accept.activeTiming.integer = 0) _ _
      by_cases hzero : gen.accept.activeTiming.integer = 0
      · rw [if_pos hzero]
        exact .still hpin hrun hdrv hzero
      · rw [if_neg hzero]
        exact masked_scheduleAlarm act _ (.assert hpin hrun hdrv hzero)

/-- The alarm `i` is served. -/
def ServesAlarm (i : Alarm) (x y : StepGen × σ) : Prop :=
  ∃ calls, Prog.Exec (Masked act i) (timerAlarm i.alarmValue x.1) x.2 calls ((), y.1) y.2

theorem served_of_exec {i : Alarm} {gen gen' : StepGen} {w w' : σ}
    (h : ServesAlarm act i (gen, w) (gen', w')) : Served act i gen w gen' w' := by
  obtain ⟨calls, hrun⟩ := h
  exact hrun.of_wpS (timerAlarm_served act i gen w)

/-- An alarm leaves the pending rate alone. -/
theorem Served.pending {act : HwCall → σ → σ} {i : Alarm} {gen gen' : StepGen} {w w' : σ}
    (h : Served act i gen w gen' w') :
    gen'.pendingTiming.integer = gen.pendingTiming.integer ∧
    gen'.pendingTiming.remainder = gen.pendingTiming.remainder ∧
    gen'.pendingTiming.denominator = gen.pendingTiming.denominator := by
  have haccept : gen.accept.pendingTiming.integer = gen.pendingTiming.integer ∧
      gen.accept.pendingTiming.remainder = gen.pendingTiming.remainder ∧
      gen.accept.pendingTiming.denominator = gen.pendingTiming.denominator := by
    unfold accept
    split
    · exact ⟨rfl, rfl, rfl⟩
    · split <;> exact ⟨rfl, rfl, rfl⟩
  cases h with
  | deassert hpin hdir => exact ⟨rfl, rfl, rfl⟩
  | turn hpin hdir => exact ⟨rfl, rfl, rfl⟩
  | idle hpin hguard => exact ⟨rfl, rfl, rfl⟩
  | still hpin hrun hdrv hzero => exact haccept
  | assert hpin hrun hdrv hne => exact haccept

/-- The generator as a device. -/
def genDevice (handle : ι → StepGen × σ → StepGen × σ → Prop) :
    Device HwCall (fun _ => HwAnswer) StepGen σ ι where
  mem q := q.gen
  masked q := q.masked
  back _ r := r.gen
  act := act
  handle := handle

/-! ## Driver calls of a program -/

section Calls

variable {act} {handle : ι → StepGen × σ → StepGen × σ → Prop} {E : HwCall → σ → Prop}
  {K : ι → StepGen → σ → Prop} {J P T : StepGen → σ → Prop}

theorem takes_hw {c : Hw} {masked : Bool} (hT : (genDevice act handle).Stable K T)
    (hPJ : ∀ gen w, P gen w → J gen w) (hTJ : ∀ gen w, T gen w → J gen w)
    (hact : ∀ gen w, P gen w → E ⟨c, gen, masked⟩ w → T gen (act ⟨c, gen, masked⟩ w)) :
    (genDevice act handle).Takes E K J P T (hw c masked) :=
  .ask (fun _ => rfl) (fun _ => rfl) (fun _ _ => rfl) hT hPJ hTJ hact

theorem takes_hw_ {c : Hw} {masked : Bool} (hT : (genDevice act handle).Stable K T)
    (hPJ : ∀ gen w, P gen w → J gen w) (hTJ : ∀ gen w, T gen w → J gen w)
    (hact : ∀ gen w, P gen w → E ⟨c, gen, masked⟩ w → T gen (act ⟨c, gen, masked⟩ w)) :
    (genDevice act handle).Takes E K J P T (hw_ c masked) :=
  .ask (fun _ => rfl) (fun _ => rfl) (fun _ _ => rfl) hT hPJ hTJ hact

theorem takes_rawCount {masked : Bool} (hT : (genDevice act handle).Stable K T)
    (hPJ : ∀ gen w, P gen w → J gen w) (hTJ : ∀ gen w, T gen w → J gen w)
    (hact : ∀ gen w, P gen w → E ⟨.gptimerGetRawCount, gen, masked⟩ w →
      T gen (act ⟨.gptimerGetRawCount, gen, masked⟩ w)) :
    (genDevice act handle).Takes E K J P T (rawCount masked) :=
  .ask (fun _ => rfl) (fun _ => rfl) (fun _ _ => rfl) hT hPJ hTJ hact

/-- STEP is driven to its active or inactive level. -/
theorem takes_setStep {active masked : Bool} (hT : (genDevice act handle).Stable K T)
    (hPJ : ∀ gen w, P gen w → J gen w) (hTJ : ∀ gen w, T gen w → J gen w)
    (hact : ∀ gen w, P gen w →
      E ⟨.gpioSetLevel .step (if active then gen.stepActiveLevel else gen.stepInactiveLevel), gen,
        masked⟩ w →
      T gen (act ⟨.gpioSetLevel .step
        (if active then gen.stepActiveLevel else gen.stepInactiveLevel), gen, masked⟩ w)) :
    (genDevice act handle).Takes E K J P T (setStep active masked) :=
  .ask (fun _ => rfl) (fun _ => rfl) (fun _ _ => rfl) hT hPJ hTJ hact

/-- DIR is driven to the level of `s_forward`. -/
theorem takes_setDir {masked : Bool} (hT : (genDevice act handle).Stable K T)
    (hPJ : ∀ gen w, P gen w → J gen w) (hTJ : ∀ gen w, T gen w → J gen w)
    (hact : ∀ gen w, P gen w → T gen (act ⟨.gpioSetLevel .dir gen.dirLevel, gen, masked⟩ w)) :
    (genDevice act handle).Takes E K J P T (setDir masked) :=
  .ask (fun _ => rfl) (fun _ => rfl) (fun _ _ => rfl) hT hPJ hTJ fun gen w h _ => hact gen w h

/-! ## What the calls leave alone -/

/-- The variables of a step in progress. -/
structure SamePulse (gen gen' : StepGen) : Prop where
  remAccumulator : gen'.remAccumulator = gen.remAccumulator
  nextStepTicks : gen'.nextStepTicks = gen.nextStepTicks
  stepCount : gen'.stepCount = gen.stepCount
  pinAsserted : gen'.pinAsserted = gen.pinAsserted
  stepActiveLevel : gen'.stepActiveLevel = gen.stepActiveLevel
  stepInactiveLevel : gen'.stepInactiveLevel = gen.stepInactiveLevel
  dirForwardLevel : gen'.dirForwardLevel = gen.dirForwardLevel
  dirReverseLevel : gen'.dirReverseLevel = gen.dirReverseLevel

/-- `P` is about those variables, and what a call does to the world keeps it. -/
structure PulseOnly (act : HwCall → σ → σ) (handle : ι → StepGen × σ → StepGen × σ → Prop)
    (E : HwCall → σ → Prop) (K : ι → StepGen → σ → Prop) (J P : StepGen → σ → Prop) : Prop where
  stable : (genDevice act handle).Stable K P
  seen : ∀ gen w, P gen w → J gen w
  silent : ∀ c gen masked w, c.silent = true → act ⟨c, gen, masked⟩ w = w
  pulse : ∀ gen gen' w, SamePulse gen gen' → P gen w → P gen' w
  stopped : (genDevice act handle).Stable K fun gen _ => gen.pendingTiming.integer = 0
  low : ∀ gen masked w, P gen w → gen.pendingTiming.integer = 0 →
    E ⟨.gpioSetLevel .step gen.stepInactiveLevel, gen, masked⟩ w →
    P gen (act ⟨.gpioSetLevel .step gen.stepInactiveLevel, gen, masked⟩ w)
  turn : ∀ gen masked w, P gen w → P gen (act ⟨.gpioSetLevel .dir gen.dirLevel, gen, masked⟩ w)

variable (hP : PulseOnly act handle E K J P)

include hP

theorem PulseOnly.ask {c : Hw} {masked : Bool} (hc : c.silent = true) :
    (genDevice act handle).Takes E K J P P (hw c masked) := by
  refine takes_hw hP.stable hP.seen hP.seen fun gen w h _ => ?_
  rw [hP.silent c gen masked w hc]
  exact h

theorem PulseOnly.ask_ {c : Hw} {masked : Bool} (hc : c.silent = true) :
    (genDevice act handle).Takes E K J P P (hw_ c masked) := by
  refine takes_hw_ hP.stable hP.seen hP.seen fun gen w h _ => ?_
  rw [hP.silent c gen masked w hc]
  exact h

theorem PulseOnly.readCount {masked : Bool} :
    (genDevice act handle).Takes E K J P P (rawCount masked) := by
  refine takes_rawCount hP.stable hP.seen hP.seen fun gen w h _ => ?_
  rw [hP.silent _ gen masked w rfl]
  exact h

theorem PulseOnly.driveDir {masked : Bool} :
    (genDevice act handle).Takes E K J P P (setDir masked) :=
  takes_setDir hP.stable hP.seen hP.seen fun gen w h => hP.turn gen masked w h

theorem PulseOnly.assign {f : StepGen → StepGen} (hf : ∀ gen, SamePulse gen (f gen)) :
    (genDevice act handle).Takes E K J P P (modify f : GenM Unit) :=
  .modify fun gen w h => hP.pulse gen (f gen) w (hf gen) h

/-- `P`, with no rate pending. -/
def Halted (P : StepGen → σ → Prop) (gen : StepGen) (w : σ) : Prop :=
  P gen w ∧ gen.pendingTiming.integer = 0

theorem PulseOnly.halted_stable : (genDevice act handle).Stable K (Halted P) :=
  hP.stable.and hP.stopped

theorem PulseOnly.halting {f : StepGen → StepGen} (hf : ∀ gen, SamePulse gen (f gen))
    (hzero : ∀ gen, (f gen).pendingTiming.integer = 0) :
    (genDevice act handle).Takes E K J P (Halted P) (modify f : GenM Unit) :=
  .modify fun gen w h => ⟨hP.pulse gen (f gen) w (hf gen) h, hzero gen⟩

theorem PulseOnly.haltedAsk {c : Hw} {masked : Bool} (hc : c.silent = true) :
    (genDevice act handle).Takes E K J (Halted P) (Halted P) (hw c masked) := by
  have hseen (gen : StepGen) (w : σ) (h : Halted P gen w) : J gen w := hP.seen gen w h.1
  refine takes_hw hP.halted_stable hseen hseen fun gen w h _ => ?_
  rw [hP.silent c gen masked w hc]
  exact h

theorem PulseOnly.haltedAsk_ {c : Hw} {masked : Bool} (hc : c.silent = true) :
    (genDevice act handle).Takes E K J (Halted P) (Halted P) (hw_ c masked) := by
  have hseen (gen : StepGen) (w : σ) (h : Halted P gen w) : J gen w := hP.seen gen w h.1
  refine takes_hw_ hP.halted_stable hseen hseen fun gen w h _ => ?_
  rw [hP.silent c gen masked w hc]
  exact h

theorem PulseOnly.stepLow {masked : Bool} :
    (genDevice act handle).Takes E K J (Halted P) P (setStep false masked) :=
  takes_setStep hP.stable (fun gen w h => hP.seen gen w h.1) hP.seen
    fun gen w h hE => hP.low gen masked w h.1 h.2 hE

theorem PulseOnly.arm : (genDevice act handle).Takes E K J P P arm := by
  unfold StepGen.arm
  refine .bind .get fun _ => .ite (.pure _) (.bind (hP.ask rfl) fun e => .ite (.pure _) ?_)
  have hover (e : EspErr) : (genDevice act handle).Takes E K J (Halted P) P (pure e : GenM EspErr) :=
    fun _ _ h => h.1
  refine .bind (hP.halting ?_ fun _ => rfl) fun _ => .bind (hP.haltedAsk_ rfl) fun _ => ?_
  · exact fun _ => ⟨rfl, rfl, rfl, rfl, rfl, rfl, rfl, rfl⟩
  refine .bind (hP.haltedAsk rfl) fun e => .ite (hover _) (.ite ?_ (hover _))
  refine .bind hP.stepLow fun _ => .bind (hP.assign ?_) fun _ => .pure _
  exact fun _ => ⟨rfl, rfl, rfl, rfl, rfl, rfl, rfl, rfl⟩

theorem PulseOnly.start : (genDevice act handle).Takes E K J P P start := by
  unfold StepGen.start
  refine .bind .get fun _ => .ite (.pure _) (.bind (hP.ask rfl) fun e => .ite (.pure _) ?_)
  refine .bind (hP.assign ?_) fun _ => .bind (hP.ask rfl) fun e => .pure _
  exact fun _ => ⟨rfl, rfl, rfl, rfl, rfl, rfl, rfl, rfl⟩

theorem PulseOnly.enableDriver : (genDevice act handle).Takes E K J P P enableDriver := by
  unfold StepGen.enableDriver
  refine .bind .get fun _ => .ite (.pure _) (.bind (hP.ask rfl) fun e => .ite (.pure _) ?_)
  refine .bind .get fun _ => .ite (.bind (hP.ask_ rfl) fun _ => .bind (hP.assign ?_) fun _ => ?_) (.pure _)
  · exact fun _ => ⟨rfl, rfl, rfl, rfl, rfl, rfl, rfl, rfl⟩
  · exact .bind (hP.ask_ rfl) fun _ => .pure _

theorem PulseOnly.halt :
    (genDevice act handle).Takes E K J P (Halted P) (modify halt : GenM Unit) :=
  hP.halting (fun _ => ⟨rfl, rfl, rfl, rfl, rfl, rfl, rfl, rfl⟩) fun _ => rfl

theorem PulseOnly.disableDriver : (genDevice act handle).Takes E K J P P disableDriver := by
  unfold StepGen.disableDriver
  refine .bind .get fun _ => .ite (.pure _) (.bind (hP.ask rfl) fun e => .ite (.pure _) ?_)
  refine .bind hP.halt fun _ => .bind (hP.haltedAsk_ rfl) fun _ => .bind .get fun _ => ?_
  have hrest : (genDevice act handle).Takes E K J (Halted P) P (do
      setStep false false
      hw_ (.gpioSetLevel .en 1) false
      modify fun gen => { gen with driverEnabled := false, errorState := .none }
      return espOk) := by
    refine .bind hP.stepLow fun _ => .bind (hP.ask_ rfl) fun _ => .bind (hP.assign ?_) fun _ => .pure _
    exact fun _ => ⟨rfl, rfl, rfl, rfl, rfl, rfl, rfl, rfl⟩
  exact .ite (.bind (hP.haltedAsk_ rfl) fun _ => hrest) hrest

theorem PulseOnly.stopImmediate : (genDevice act handle).Takes E K J P P stopImmediate := by
  unfold StepGen.stopImmediate
  refine .bind .get fun _ => .ite (.pure _) (.bind (hP.ask rfl) fun e => .ite (.pure _) ?_)
  refine .bind .get fun _ => .bind hP.halt fun _ => .bind (hP.haltedAsk_ rfl) fun _ => ?_
  have hfinish (err : EspErr) : (genDevice act handle).Takes E K J (Halted P) P (do
      setStep false false
      let a ← rawCount false
      if a.1 = espOk then modify fun gen => { gen with lastDeassertionTicks := a.2 }
      modify fun gen => { gen with errorState := .none }
      return err) := by
    have hlast : (genDevice act handle).Takes E K J P P (do
        modify fun gen => { gen with errorState := .none }
        return err) :=
      .bind (hP.assign fun _ => ⟨rfl, rfl, rfl, rfl, rfl, rfl, rfl, rfl⟩) fun _ => .pure _
    refine .bind hP.stepLow fun _ => .bind hP.readCount fun a => ?_
    refine .ite (.bind (hP.assign ?_) fun _ => hlast) hlast
    exact fun _ => ⟨rfl, rfl, rfl, rfl, rfl, rfl, rfl, rfl⟩
  have herr (err : EspErr) : (genDevice act handle).Takes E K J (Halted P) P (do
      if err ≠ espOk ∧ err ≠ espErrInvalidState then
        modify fun gen => { gen with errorState := .timingUpdateFailed }
      setStep false false
      let a ← rawCount false
      if a.1 = espOk then modify fun gen => { gen with lastDeassertionTicks := a.2 }
      modify fun gen => { gen with errorState := .none }
      return err) := by
    refine .ite (.bind (M := Halted P) (.modify fun gen w h => ?_) fun _ => hfinish err) (hfinish err)
    exact ⟨hP.pulse gen _ w ⟨rfl, rfl, rfl, rfl, rfl, rfl, rfl, rfl⟩ h.1, h.2⟩
  exact .ite (.bind (hP.haltedAsk rfl) herr) (.bind (.pure _) herr)

theorem PulseOnly.stopProfiled : (genDevice act handle).Takes E K J P P stopProfiled := by
  unfold StepGen.stopProfiled
  refine .bind (hP.assign ?_) fun _ => .bind (hP.ask_ rfl) fun _ => .bind (hP.assign ?_) fun _ => .pure _
  · exact fun _ => ⟨rfl, rfl, rfl, rfl, rfl, rfl, rfl, rfl⟩
  · exact fun _ => ⟨rfl, rfl, rfl, rfl, rfl, rfl, rfl, rfl⟩

theorem PulseOnly.setDirection (forward : Bool) :
    (genDevice act handle).Takes E K J P P (setDirection forward) := by
  unfold StepGen.setDirection
  refine .bind (hP.ask rfl) fun e => .ite (.pure _) (.bind .get fun _ => .ite (.pure _) ?_)
  refine .bind (hP.ask_ rfl) fun _ => .bind .get fun _ => ?_
  have hturn : (genDevice act handle).Takes E K J P P (do
      modify fun gen =>
        { gen with
          pendingTiming := { gen.pendingTiming with directionForward := forward }, forward := forward }
      setDir true
      hw_ .exitCritical false
      hw_ (.delayUs 5) false
      return espOk) := by
    refine .bind (hP.assign fun _ => ⟨rfl, rfl, rfl, rfl, rfl, rfl, rfl, rfl⟩) fun _ => ?_
    exact .bind hP.driveDir fun _ => .bind (hP.ask_ rfl) fun _ => .bind (hP.ask_ rfl) fun _ => .pure _
  refine .ite (.bind hP.readCount fun a => ?_) hturn
  exact .ite (.bind (hP.ask_ rfl) fun _ => hturn) hturn

theorem PulseOnly.rejectRate : (genDevice act handle).Takes E K J P P rejectRate := by
  unfold StepGen.rejectRate
  exact .bind (hP.assign fun _ => ⟨rfl, rfl, rfl, rfl, rfl, rfl, rfl, rfl⟩) fun _ => .pure _

theorem PulseOnly.setRate_zero {rpmMilli : Int} {stepsPerRev : UInt32} (hzero : rpmMilli = 0) :
    (genDevice act handle).Takes E K J P P (setRate rpmMilli stepsPerRev) := by
  unfold StepGen.setRate
  refine .bind .get fun _ => .ite (.pure _) ?_
  rw [if_pos hzero]
  refine .bind (hP.halting ?_ fun _ => rfl) fun _ => ?_
  · exact fun _ => ⟨rfl, rfl, rfl, rfl, rfl, rfl, rfl, rfl⟩
  · exact .bind (hP.haltedAsk_ rfl) fun _ => .bind hP.stepLow fun _ => .pure _

section Kickstart

-- A kickstart comes where the generator runs at rate 0.
variable (hkick : ∀ rpmMilli, (genDevice act handle).Takes E K J
  (fun gen w => (gen.generatedRpmMilli = 0 ∧ gen.running = true) ∧ P gen w) P (kickstart rpmMilli))

include hkick

theorem PulseOnly.takeRate (rpmMilli : Int) (stepsPerRev : UInt32) :
    (genDevice act handle).Takes E K J P P (takeRate rpmMilli stepsPerRev) := by
  unfold StepGen.takeRate
  refine .ite hP.rejectRate ?_
  refine .bind (hP.assign fun _ => ⟨rfl, rfl, rfl, rfl, rfl, rfl, rfl, rfl⟩) fun _ => ?_
  refine .bind (hP.ask_ rfl) fun _ => .get_bind fun gen => .get_bind fun gen' => ?_
  by_cases hgo : gen.generatedRpmMilli = 0 ∧ gen'.running = true
  · rw [if_pos hgo]
    refine (hkick rpmMilli).strengthen fun gen'' w h => ?_
    obtain ⟨rfl, rfl, h⟩ := h
    exact ⟨hgo, h⟩
  · rw [if_neg hgo]
    refine .bind (M := P) (.modify fun gen'' w h => ?_) fun _ => .pure _
    exact hP.pulse gen'' _ w ⟨rfl, rfl, rfl, rfl, rfl, rfl, rfl, rfl⟩ h.2.2

theorem PulseOnly.setRate (rpmMilli : Int) (stepsPerRev : UInt32) :
    (genDevice act handle).Takes E K J P P (setRate rpmMilli stepsPerRev) := by
  by_cases hzero : rpmMilli = 0
  · exact hP.setRate_zero hzero
  unfold StepGen.setRate
  refine .bind .get fun _ => .ite (.pure _) ?_
  rw [if_neg hzero]
  refine .ite hP.rejectRate (.ite hP.rejectRate (.bind .get fun _ => ?_))
  have hrest := hP.takeRate hkick rpmMilli stepsPerRev
  exact .ite (.bind hP.enableDriver fun e => .ite (.pure _) hrest) hrest

theorem Call.keeps (c : Call) : (genDevice act handle).Takes E K J P P c.prog := by
  cases c with
  | arm => exact hP.arm
  | start => exact hP.start
  | setRate rpmMilli stepsPerRev => exact hP.setRate hkick rpmMilli stepsPerRev
  | setDirection forward => exact hP.setDirection forward
  | stopImmediate => exact hP.stopImmediate
  | stopProfiled => exact hP.stopProfiled
  | disableDriver => exact hP.disableDriver
  | enableDriver => exact hP.enableDriver

end Kickstart

end Calls

end World

end StepGen

end Argus
