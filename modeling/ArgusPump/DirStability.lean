import ArgusPump.StepCount

/-!
# The DIR pin during a pulse

DIR is not to change while STEP is active.  The alarm callback changes it after a deassertion;
`set_direction` does so outside the critical section of its check, so an alarm that starts a
step in between leaves STEP active.

    every set_direction that changes the direction is called with no rate pending on an idle
    pulse stream → DIR never changes while STEP is active                    (dir_stable)
-/

namespace Argus

open Interact

namespace StepGen

/-- No step can start: stopped, disabled or without a rate. -/
def Resting (gen : StepGen) : Prop :=
  ¬ (gen.running = true ∧ gen.driverEnabled = true ∧ gen.pendingTiming.integer ≠ 0)

/-- A `set_direction` that changes the direction is called where no step can start, or where one
has started and the call is refused. -/
def TurnsAtRest (c : Call) (gen : StepGen) (_ : Pins) : Prop :=
  match c with
  | .setDirection forward => forward = gen.forward ∨ gen.Resting ∨ gen.activeTiming.integer ≠ 0
  | _ => True

instance (gen : StepGen) : Decidable gen.Resting := inferInstanceAs (Decidable (¬ (_ ∧ _ ∧ _)))

instance (c : Call) (gen : StepGen) (p : Pins) : Decidable (TurnsAtRest c gen p) :=
  match c with
  | .setDirection _ => inferInstanceAs (Decidable (_ ∨ _ ∨ _))
  | .arm | .start | .setRate _ _ | .stopImmediate | .stopProfiled | .disableDriver
  | .enableDriver => .isTrue trivial

/-- The moves of a run that turn at rest. -/
def Turns (m : PinMove) : Prop := Device.Within (fun _ _ => True) (fun _ _ _ => True) TurnsAtRest m

instance (m : PinMove) : Decidable (Turns m) := inferInstanceAs (Decidable (Device.Within _ _ _ m))

/-- `argus_step_gen_init` and one `argus_step_gen_arm` have succeeded. -/
def Armed (cfg : ArgusConfig) (s : PinState) : Prop :=
  s.task = .idle ∧ ∃ s0 calls, Booted cfg s0 ∧
    Prog.Exec (pinDevice.Meets (fun _ _ => True) fun _ _ _ => True) (arm s0.mem) s0.world calls
      (espOk, s.mem) s.world

/-! ## The invariant -/

structure DirKept (gen : StepGen) (p : Pins) : Prop where
  polar : gen.Polar
  glitched : p.glitched = false
  aimed : gen.pendingTiming.directionForward = gen.forward
  dir : p.dir = gen.dirLevel
  stop : gen.pendingTiming.immediateStop = true → gen.pendingTiming.integer = 0
  rest : gen.running = false → gen.activeTiming.integer = 0

/-- STEP is active only while the generator runs at a rate. -/
structure DirInv (gen : StepGen) (p : Pins) : Prop extends DirKept gen p where
  step : p.step = gen.stepActiveLevel → gen.running = true ∧ gen.activeTiming.integer ≠ 0

/-- STEP is inactive and stays so. -/
structure DirRest (gen : StepGen) (p : Pins) : Prop extends DirKept gen p where
  step : p.step ≠ gen.stepActiveLevel
  resting : gen.Resting

/-- What holds at any moment. -/
structure DirSeen (gen : StepGen) (p : Pins) : Prop where
  polar : gen.Polar
  glitched : p.glitched = false

theorem DirRest.inv {gen : StepGen} {p : Pins} (h : DirRest gen p) : DirInv gen p :=
  ⟨h.toDirKept, fun hstep => absurd hstep h.step⟩

theorem DirKept.seen {gen : StepGen} {p : Pins} (h : DirKept gen p) : DirSeen gen p :=
  ⟨h.polar, h.glitched⟩

/-- Every interrupt is allowed. -/
abbrev anyAlarm : Alarm → StepGen → Pins → Prop := fun _ _ _ => True

theorem seen_stable : pinDevice.Stable anyAlarm DirSeen := by
  rintro a gen p gen' p' - hh h
  cases served_of_handle hh with
  | deassert hpin hdir => exact ⟨⟨h.polar.step, h.polar.dir⟩, h.glitched⟩
  | turn hpin hdir =>
    refine ⟨⟨h.polar.step, h.polar.dir⟩, ?_⟩
    have hlow : ¬ gen.stepInactiveLevel = gen.stepActiveLevel := fun he => h.polar.step he.symm
    change (p.glitched || decide (_ ∧ gen.stepInactiveLevel = gen.stepActiveLevel)) = false
    simp [hlow, h.glitched]
  | idle hpin hguard => exact ⟨h.polar, h.glitched⟩
  | still hpin hrun hdrv hzero => exact ⟨accept_polar h.polar, h.glitched⟩
  | assert hpin hrun hdrv hne =>
    have hpolar := accept_polar h.polar
    exact ⟨⟨hpolar.step, hpolar.dir⟩, h.glitched⟩

theorem DirKept.accept {gen : StepGen} {p : Pins} (h : DirKept gen p) (hrun : gen.running = true) :
    DirKept gen.accept p := by
  obtain ⟨hforward, -, hrunning, -, haimed, hinteger, hactive, -, hfwd, hrev⟩ := accept_frame gen
  refine ⟨accept_polar h.polar, h.glitched, ?_, ?_, ?_, ?_⟩
  · rw [haimed, hforward]
    exact h.aimed
  · unfold dirLevel
    rw [hforward, hfwd, hrev]
    exact h.dir
  · intro hstop
    rw [hinteger]
    apply h.stop
    unfold StepGen.accept at hstop
    split at hstop
    · cases hstop
    · split at hstop <;> exact hstop
  · intro hf
    rw [hrunning, hrun] at hf
    cases hf

theorem DirKept.deassert {gen : StepGen} {p : Pins} (h : DirKept gen p) (a : UInt64) (level : Nat) :
    DirKept (gen.deasserted a) (p.write gen .step level) := by
  refine ⟨⟨h.polar.step, h.polar.dir⟩, h.glitched, rfl, ?_, h.stop, h.rest⟩
  change p.dir = if gen.pendingTiming.directionForward then _ else _
  rw [h.aimed]
  exact h.dir

/-- What one alarm leaves of that. -/
structure DirServed (gen : StepGen) (gen' : StepGen) (p' : Pins) : Prop where
  kept : DirKept gen' p'
  forward : gen'.forward = gen.forward
  running : gen'.running = gen.running
  driverEnabled : gen'.driverEnabled = gen.driverEnabled
  integer : gen'.pendingTiming.integer = gen.pendingTiming.integer
  immediateStop : gen.pendingTiming.immediateStop = false →
    gen'.pendingTiming.immediateStop = false
  step : p'.step ≠ gen'.stepActiveLevel ∨ gen.StepDue ∧ gen'.activeTiming.integer ≠ 0
  active : gen'.activeTiming.integer = gen.activeTiming.integer ∨
    gen'.activeTiming.integer = gen.accept.activeTiming.integer

theorem accept_immediateStop {gen : StepGen} (h : gen.pendingTiming.immediateStop = false) :
    gen.accept.pendingTiming.immediateStop = false := by
  unfold accept
  rw [if_neg (by simp [h])]
  split <;> exact h

theorem DirKept.served {a : Alarm} {gen gen' : StepGen} {p p' : Pins} (h : DirKept gen p)
    (hh : pinDevice.handle a (gen, p) (gen', p')) : DirServed gen gen' p' := by
  have hlow : gen.stepInactiveLevel ≠ gen.stepActiveLevel := h.polar.step.symm
  cases served_of_handle hh with
  | deassert hpin hdir => exact ⟨h.deassert a.alarmValue _, hdir, rfl, rfl, rfl, id, .inl hlow, .inl rfl⟩
  | turn hpin hdir => exact absurd h.aimed hdir
  | idle hpin hguard =>
    have hkept : DirKept gen (p.write gen .step gen.stepInactiveLevel) :=
      ⟨h.polar, h.glitched, h.aimed, h.dir, h.stop, h.rest⟩
    exact ⟨hkept, rfl, rfl, rfl, rfl, id, .inl hlow, .inl rfl⟩
  | still hpin hrun hdrv hzero =>
    have hacc := h.accept hrun
    have hkept : DirKept gen.accept (p.write gen.accept .step gen.accept.stepInactiveLevel) :=
      ⟨hacc.polar, hacc.glitched, hacc.aimed, hacc.dir, hacc.stop, hacc.rest⟩
    obtain ⟨hforward, -, hrunning, hdriver, -, hinteger, -⟩ := accept_frame gen
    exact ⟨hkept, hforward, hrunning, hdriver, hinteger, accept_immediateStop, .inl hacc.polar.step.symm,
      .inr rfl⟩
  | assert hpin hrun hdrv hne =>
    have hacc := h.accept hrun
    have hkept : DirKept gen.accept.asserted
        (p.write gen.accept .step gen.accept.stepActiveLevel) :=
      ⟨⟨hacc.polar.step, hacc.polar.dir⟩, hacc.glitched, hacc.aimed, hacc.dir, hacc.stop, hacc.rest⟩
    obtain ⟨hforward, -, hrunning, hdriver, -, hinteger, -⟩ := accept_frame gen
    exact ⟨hkept, hforward, hrunning, hdriver, hinteger, accept_immediateStop,
      .inr ⟨due_of_assert hpin hrun hdrv hne, hne⟩, .inr rfl⟩

/-! ## What alarms keep -/

theorem inv_stable : pinDevice.Stable anyAlarm DirInv := by
  rintro a gen p gen' p' - hh h
  have hserved := h.toDirKept.served hh
  refine ⟨hserved.kept, fun hactive => ?_⟩
  rcases hserved.step with hlow | ⟨hdue, hne⟩
  · exact absurd hactive hlow
  · exact ⟨hserved.running.trans hdue.running, hne⟩

theorem rest_stable : pinDevice.Stable anyAlarm DirRest := by
  rintro a gen p gen' p' - hh h
  have hserved := h.toDirKept.served hh
  refine ⟨hserved.kept, ?_, ?_⟩
  · rcases hserved.step with hlow | ⟨hdue, -⟩
    · exact hlow
    · exact absurd ⟨hdue.running, hdue.driverEnabled, hdue.integer⟩ h.resting
  · unfold Resting
    rw [hserved.running, hserved.driverEnabled, hserved.integer]
    exact h.resting

/-- Stopped, with STEP still to be driven inactive. -/
structure DirHalted (gen : StepGen) (p : Pins) : Prop extends DirKept gen p where
  stopped : gen.running = false

theorem halted_stable : pinDevice.Stable anyAlarm DirHalted := by
  rintro a gen p gen' p' - hh h
  have hserved := h.toDirKept.served hh
  exact ⟨hserved.kept, hserved.running.trans h.stopped⟩

/-- A rate is pending. -/
structure DirPending (gen : StepGen) (p : Pins) : Prop extends DirInv gen p where
  integer : gen.pendingTiming.integer ≠ 0
  immediateStop : gen.pendingTiming.immediateStop = false

theorem pending_stable : pinDevice.Stable anyAlarm DirPending := by
  intro a gen p gen' p' hK hh h
  have hserved := h.toDirKept.served hh
  refine ⟨inv_stable a gen p gen' p' hK hh h.toDirInv, ?_, hserved.immediateStop h.immediateStop⟩
  rw [hserved.integer]
  exact h.integer

/-- The same, on a running generator. -/
structure DirGoing (gen : StepGen) (p : Pins) : Prop extends DirPending gen p where
  running : gen.running = true

theorem going_stable : pinDevice.Stable anyAlarm DirGoing := by
  intro a gen p gen' p' hK hh h
  exact ⟨pending_stable a gen p gen' p' hK hh h.toDirPending,
    (h.toDirKept.served hh).running.trans h.running⟩

/-- The same, with a rate taken on. -/
structure DirStarted (gen : StepGen) (p : Pins) : Prop extends DirGoing gen p where
  active : gen.activeTiming.integer ≠ 0

theorem started_stable : pinDevice.Stable anyAlarm DirStarted := by
  intro a gen p gen' p' hK hh h
  refine ⟨going_stable a gen p gen' p' hK hh h.toDirGoing, ?_⟩
  rcases (h.toDirKept.served hh).active with hsame | haccept
  · rw [hsame]
    exact h.active
  · rw [haccept, accept_integer, if_neg (by simp [h.immediateStop])]
    exact h.integer

/-- `set_direction f` will be refused, or finds the generator at rest or turned to `f`. -/
structure DirTurns (f : Bool) (gen : StepGen) (p : Pins) : Prop extends DirInv gen p where
  turns : gen.forward = f ∨ gen.Resting ∨ gen.activeTiming.integer ≠ 0

theorem turns_stable (f : Bool) : pinDevice.Stable anyAlarm (DirTurns f) := by
  intro a gen p gen' p' hK hh h
  refine ⟨inv_stable a gen p gen' p' hK hh h.toDirInv, ?_⟩
  have hserved := h.toDirKept.served hh
  rcases h.turns with hf | hrest | hne
  · exact .inl (hserved.forward.trans hf)
  · refine .inr (.inl ?_)
    unfold Resting
    rw [hserved.running, hserved.driverEnabled, hserved.integer]
    exact hrest
  · rcases hserved.active with hsame | haccept
    · rw [hsame]
      exact .inr (.inr hne)
    · by_cases hzero : gen.pendingTiming.integer = 0
      · refine .inr (.inl fun hdue => hdue.2.2 ?_)
        rw [hserved.integer]
        exact hzero
      · have hstop : ¬ gen.pendingTiming.immediateStop = true := fun hstop => hzero (h.stop hstop)
        rw [haccept, accept_integer, if_neg hstop]
        exact .inr (.inr hzero)

/-! ## The calls -/

section Calls

/-- From `P` to `T`, and DIR is stable on the way. -/
abbrev DirTakes {α : Type} (P T : StepGen → Pins → Prop) (m : GenM α) : Prop :=
  pinDevice.Takes (fun _ _ => True) anyAlarm DirSeen P T m

theorem inv_seen (gen : StepGen) (p : Pins) (h : DirInv gen p) : DirSeen gen p := h.toDirKept.seen

theorem dir_silent {c : Hw} {masked : Bool} (hc : c.silent = true) :
    DirTakes DirInv DirInv (hw c masked) :=
  pins_hw inv_stable inv_seen hc

theorem dir_silent_ {c : Hw} {masked : Bool} (hc : c.silent = true) :
    DirTakes DirInv DirInv (hw_ c masked) :=
  pins_hw_ inv_stable inv_seen hc

theorem DirInv.low {gen : StepGen} {p : Pins} (h : DirInv gen p) :
    DirInv gen (p.write gen .step gen.stepInactiveLevel) :=
  ⟨⟨h.polar, h.glitched, h.aimed, h.dir, h.stop, h.rest⟩,
    fun hactive => absurd hactive h.polar.step.symm⟩

theorem dir_low {masked : Bool} : DirTakes DirInv DirInv (setStep false masked) :=
  takes_setStep inv_stable inv_seen inv_seen fun _ _ h _ => h.low

/-- An assignment to variables that the pins do not depend on. -/
theorem DirInv.error {gen : StepGen} {p : Pins} (h : DirInv gen p) (e : StepGenError) :
    DirInv { gen with errorState := e } p :=
  ⟨⟨⟨h.polar.step, h.polar.dir⟩, h.glitched, h.aimed, h.dir, h.stop, h.rest⟩, h.step⟩

theorem start_dir : DirTakes DirInv DirInv start := by
  unfold start
  refine .bind .get fun _ => .ite (.pure _) (.bind (dir_silent rfl) fun e => .ite (.pure _) ?_)
  refine .bind (M := DirInv) ?_ fun _ => .bind (dir_silent rfl) fun e => .pure _
  refine .modify fun gen p h => ?_
  exact ⟨⟨⟨h.polar.step, h.polar.dir⟩, h.glitched, h.aimed, h.dir, h.stop, fun hf => by cases hf⟩,
    fun hactive => ⟨rfl, (h.step hactive).2⟩⟩

theorem enableDriver_dir : DirTakes DirInv DirInv enableDriver := by
  unfold enableDriver
  refine .bind .get fun _ => .ite (.pure _) (.bind (dir_silent rfl) fun e => .ite (.pure _) ?_)
  refine .bind .get fun _ => .ite ?_ (.pure _)
  refine .bind (dir_silent_ rfl) fun _ => .bind (M := DirInv) ?_ fun _ => ?_
  · refine .modify fun gen p h => ?_
    exact ⟨⟨⟨h.polar.step, h.polar.dir⟩, h.glitched, h.aimed, h.dir, h.stop, h.rest⟩, h.step⟩
  · exact .bind (dir_silent_ rfl) fun _ => .pure _

theorem stopProfiled_dir : DirTakes DirInv DirInv stopProfiled := by
  unfold stopProfiled
  refine .bind (M := DirInv) ?_ fun _ => .bind (dir_silent_ rfl) fun _ => ?_
  · refine .modify fun gen p h => ?_
    exact ⟨⟨⟨h.polar.step, h.polar.dir⟩, h.glitched, h.aimed, h.dir, fun _ => rfl, h.rest⟩, h.step⟩
  · exact .bind (.modify fun gen p h => h.error .none) fun _ => .pure _

/-! ### Stopping -/

theorem halted_seen (gen : StepGen) (p : Pins) (h : DirHalted gen p) : DirSeen gen p :=
  h.toDirKept.seen

theorem rest_seen (gen : StepGen) (p : Pins) (h : DirRest gen p) : DirSeen gen p :=
  h.toDirKept.seen

theorem dir_halt : DirTakes DirInv DirHalted (modify halt : GenM Unit) := by
  refine .modify fun gen p h => ?_
  exact ⟨⟨⟨h.polar.step, h.polar.dir⟩, h.glitched, h.aimed, h.dir, fun _ => rfl, fun _ => rfl⟩, rfl⟩

theorem halted_silent {c : Hw} {masked : Bool} (hc : c.silent = true) :
    DirTakes DirHalted DirHalted (hw c masked) :=
  pins_hw halted_stable halted_seen hc

theorem halted_silent_ {c : Hw} {masked : Bool} (hc : c.silent = true) :
    DirTakes DirHalted DirHalted (hw_ c masked) :=
  pins_hw_ halted_stable halted_seen hc

theorem halted_low {masked : Bool} : DirTakes DirHalted DirRest (setStep false masked) := by
  refine takes_setStep rest_stable halted_seen rest_seen fun gen p h _ => ?_
  refine ⟨⟨h.polar, h.glitched, h.aimed, h.dir, h.stop, h.rest⟩, h.polar.step.symm, ?_⟩
  rintro ⟨hrun, -⟩
  rw [h.stopped] at hrun
  cases hrun

theorem rest_silent_ {c : Hw} {masked : Bool} (hc : c.silent = true) :
    DirTakes DirRest DirRest (hw_ c masked) :=
  pins_hw_ rest_stable rest_seen hc

theorem disableDriver_dir : DirTakes DirInv DirInv disableDriver := by
  unfold disableDriver
  refine .bind .get fun _ => .ite (.pure _) (.bind (dir_silent rfl) fun e => .ite (.pure _) ?_)
  refine .bind dir_halt fun _ => .bind (halted_silent_ rfl) fun _ => .bind .get fun _ => ?_
  have hrest : DirTakes DirHalted DirInv (do
      setStep false false
      hw_ (.gpioSetLevel .en 1) false
      modify fun gen => { gen with driverEnabled := false, errorState := .none }
      return espOk) := by
    refine .bind halted_low fun _ => .bind (rest_silent_ rfl) fun _ => ?_
    refine .bind (M := DirInv) (.modify fun gen p h => ?_) fun _ => .pure _
    have hinv := h.inv
    exact ⟨⟨⟨h.polar.step, h.polar.dir⟩, h.glitched, h.aimed, h.dir, h.stop, h.rest⟩, hinv.step⟩
  exact .ite (.bind (halted_silent_ rfl) fun _ => hrest) hrest

theorem stopImmediate_dir : DirTakes DirInv DirInv stopImmediate := by
  unfold stopImmediate
  refine .bind .get fun _ => .ite (.pure _) (.bind (dir_silent rfl) fun e => .ite (.pure _) ?_)
  refine .bind .get fun _ => .bind dir_halt fun _ => .bind (halted_silent_ rfl) fun _ => ?_
  have hfinish (err : EspErr) : DirTakes DirHalted DirInv (do
      setStep false false
      let a ← rawCount false
      if a.1 = espOk then modify fun gen => { gen with lastDeassertionTicks := a.2 }
      modify fun gen => { gen with errorState := .none }
      return err) := by
    refine .bind (halted_low.weaken fun _ _ h => h.inv) fun _ => ?_
    refine .bind (pins_rawCount inv_stable inv_seen) fun a => ?_
    have hlast : DirTakes DirInv DirInv (do
        modify fun gen => { gen with errorState := .none }
        return err) :=
      .bind (.modify fun gen p h => h.error .none) fun _ => .pure _
    refine .ite (.bind (M := DirInv) (.modify fun gen p h => ?_) fun _ => hlast) hlast
    exact ⟨⟨⟨h.polar.step, h.polar.dir⟩, h.glitched, h.aimed, h.dir, h.stop, h.rest⟩, h.step⟩
  have herr (err : EspErr) : DirTakes DirHalted DirInv (do
      if err ≠ espOk ∧ err ≠ espErrInvalidState then
        modify fun gen => { gen with errorState := .timingUpdateFailed }
      setStep false false
      let a ← rawCount false
      if a.1 = espOk then modify fun gen => { gen with lastDeassertionTicks := a.2 }
      modify fun gen => { gen with errorState := .none }
      return err) := by
    refine .ite (.bind (M := DirHalted) (.modify fun gen p h => ?_) fun _ => hfinish err) (hfinish err)
    exact ⟨⟨⟨h.polar.step, h.polar.dir⟩, h.glitched, h.aimed, h.dir, h.stop, h.rest⟩, h.stopped⟩
  exact .ite (.bind (halted_silent rfl) herr) (.bind (.pure _) herr)

/-! ### Turning -/

/-- `set_direction f` has passed its check. -/
def DirClear (f : Bool) (gen : StepGen) (p : Pins) : Prop :=
  DirRest gen p ∨ DirInv gen p ∧ gen.forward = f

theorem clear_stable (f : Bool) : pinDevice.Stable anyAlarm (DirClear f) := by
  intro a gen p gen' p' hK hh h
  rcases h with hrest | ⟨hinv, hf⟩
  · exact .inl (rest_stable a gen p gen' p' hK hh hrest)
  · exact .inr ⟨inv_stable a gen p gen' p' hK hh hinv, (hinv.toDirKept.served hh).forward.trans hf⟩

theorem clear_seen (f : Bool) (gen : StepGen) (p : Pins) (h : DirClear f gen p) :
    DirSeen gen p := by
  rcases h with hrest | ⟨hinv, -⟩
  · exact hrest.toDirKept.seen
  · exact hinv.toDirKept.seen

theorem DirTurns.clear {f : Bool} {gen : StepGen} {p : Pins} (h : DirTurns f gen p)
    (hpass : ¬ (gen.running = true ∧ gen.activeTiming.integer > 0)) : DirClear f gen p := by
  have hlow (hne : gen.running = true → gen.activeTiming.integer = 0) :
      p.step ≠ gen.stepActiveLevel := by
    intro hactive
    obtain ⟨hrun, hpos⟩ := h.step hactive
    exact hpos (hne hrun)
  have hzero (hrun : gen.running = true) : gen.activeTiming.integer = 0 := by
    by_cases hz : gen.activeTiming.integer = 0
    · exact hz
    · exact absurd ⟨hrun, UInt64.pos_iff_ne_zero.mpr hz⟩ hpass
  rcases h.turns with hf | hrest | hne
  · exact .inr ⟨h.toDirInv, hf⟩
  · exact .inl ⟨h.toDirKept, hlow hzero, hrest⟩
  · refine .inl ⟨h.toDirKept, hlow hzero, ?_⟩
    rintro ⟨hrun, -⟩
    exact hne (hzero hrun)

/-- The direction is set, and DIR is still to be driven to it. -/
structure DirTurned (gen : StepGen) (p : Pins) : Prop where
  seen : DirSeen gen p
  inv : DirInv gen (p.write gen .dir gen.dirLevel)

theorem DirClear.turned {f : Bool} {gen : StepGen} {p : Pins} (h : DirClear f gen p) :
    DirTurned { gen with
      pendingTiming := { gen.pendingTiming with directionForward := f }, forward := f } p := by
  rcases h with hrest | ⟨hinv, rfl⟩
  · have hglitch : (p.glitched || decide ((if f then gen.dirForwardLevel else gen.dirReverseLevel) ≠
        p.dir ∧ p.step = gen.stepActiveLevel)) = false := by
      simp [hrest.glitched, hrest.step]
    refine ⟨⟨⟨hrest.polar.step, hrest.polar.dir⟩, hrest.glitched⟩, ?_⟩
    exact ⟨⟨⟨hrest.polar.step, hrest.polar.dir⟩, hglitch, rfl, rfl, hrest.stop, hrest.rest⟩,
      fun hactive => absurd hactive hrest.step⟩
  · have hglitch : (p.glitched || decide (gen.dirLevel ≠ p.dir ∧ p.step = gen.stepActiveLevel)) =
        false := by
      simp [hinv.glitched, hinv.dir]
    refine ⟨⟨⟨hinv.polar.step, hinv.polar.dir⟩, hinv.glitched⟩, ?_⟩
    exact ⟨⟨⟨hinv.polar.step, hinv.polar.dir⟩, hglitch, rfl, rfl, hinv.stop, hinv.rest⟩, hinv.step⟩

theorem setDirection_dir (f : Bool) : DirTakes (DirTurns f) DirInv (setDirection f) := by
  unfold setDirection
  have hturns (gen : StepGen) (p : Pins) (h : DirTurns f gen p) : DirSeen gen p :=
    h.toDirKept.seen
  have hrefused : DirTakes (DirTurns f) DirInv (pure espErrInvalidState : GenM EspErr) :=
    fun _ _ h => h.toDirInv
  refine .bind (pins_hw (turns_stable f) hturns rfl) fun e => .ite ?_ (.get_bind fun gen => ?_)
  · exact fun _ _ h => h.toDirInv
  by_cases hpass : gen.running = true ∧ gen.activeTiming.integer > 0
  · rw [if_pos hpass]
    exact hrefused.strengthen fun _ _ h => h.2
  rw [if_neg hpass]
  have hclear (c : Hw) (hc : c.silent = true) : DirTakes (DirClear f) (DirClear f) (hw_ c false) :=
    pins_hw_ (clear_stable f) (clear_seen f) hc
  have hturn : DirTakes (DirClear f) DirInv (do
      modify fun gen =>
        { gen with
          pendingTiming := { gen.pendingTiming with directionForward := f }, forward := f }
      setDir true
      hw_ .exitCritical false
      hw_ (.delayUs 5) false
      return espOk) := by
    refine .bind (M := DirTurned) (.modify fun gen p h => h.turned) fun _ => ?_
    refine .bind (M := DirInv) ?_ fun _ => ?_
    · exact takes_setDir inv_stable (fun _ _ h => h.seen) inv_seen fun _ _ h => h.inv
    · exact .bind (dir_silent_ rfl) fun _ => .bind (dir_silent_ rfl) fun _ => .pure _
  have hrest : DirTakes (DirClear f) DirInv (do
      hw_ .exitCritical false
      if (← get).timer then
        let a ← rawCount false
        if a.1 ≠ espOk ∨ a.2 - gen.lastDeassertionTicks < 50 then hw_ (.delayUs 5) false
      modify fun gen =>
        { gen with
          pendingTiming := { gen.pendingTiming with directionForward := f }, forward := f }
      setDir true
      hw_ .exitCritical false
      hw_ (.delayUs 5) false
      return espOk) := by
    refine .bind (hclear _ rfl) fun _ => .bind .get fun _ => .ite ?_ hturn
    refine .bind (pins_rawCount (clear_stable f) (clear_seen f)) fun a => .ite ?_ hturn
    exact .bind (hclear _ rfl) fun _ => hturn
  refine hrest.strengthen fun gen' p h => ?_
  obtain ⟨rfl, hturns⟩ := h
  exact hturns.clear hpass

/-! ### Rates -/

theorem DirInv.rejected {gen : StepGen} {p : Pins} (h : DirInv gen p) :
    DirInv { gen with errorState := .timingUpdateFailed } p :=
  h.error .timingUpdateFailed

theorem kickstart_dir (rpmMilli : Int) : DirTakes DirGoing DirInv (kickstart rpmMilli) := by
  unfold kickstart
  have hgoing (gen : StepGen) (p : Pins) (h : DirGoing gen p) : DirSeen gen p := h.toDirKept.seen
  have hstarted (gen : StepGen) (p : Pins) (h : DirStarted gen p) : DirSeen gen p :=
    h.toDirKept.seen
  have hcall (c : Hw) (hc : c.silent = true) : DirTakes DirStarted DirStarted (hw_ c false) :=
    pins_hw_ started_stable hstarted hc
  refine .bind (pins_hw going_stable hgoing rfl) fun e => .ite ?_ ?_
  · refine .bind (M := DirInv) (.modify fun gen p h => ?_) fun _ => .pure _
    exact h.toDirInv.error .timingUpdateFailed
  refine .bind (pins_rawCount going_stable hgoing) fun a => .bind (M := DirStarted) ?_ fun _ => ?_
  · refine .modify fun gen p h => ?_
    have hkept : DirKept { gen with
        activeTiming := gen.pendingTiming
        generatedRpmMilli := rpmMilli
        remAccumulator := 0
        forward := gen.pendingTiming.directionForward } p := by
      refine ⟨⟨h.polar.step, h.polar.dir⟩, h.glitched, rfl, ?_, h.stop, fun hf => ?_⟩
      · change p.dir = if gen.pendingTiming.directionForward then _ else _
        rw [h.aimed]
        exact h.dir
      · exact absurd (h.running.symm.trans hf) (by decide)
    exact ⟨⟨⟨⟨hkept, fun _ => ⟨h.running, h.integer⟩⟩, h.integer, h.immediateStop⟩, h.running⟩,
      h.integer⟩
  refine .bind (hcall _ rfl) fun _ => .bind (M := DirStarted) ?_ fun _ => ?_
  · refine takes_setDir started_stable hstarted hstarted fun gen p h => ?_
    have hglitch : (p.glitched || decide (gen.dirLevel ≠ p.dir ∧ p.step = gen.stepActiveLevel)) =
        false := by
      simp [h.glitched, h.dir]
    have hkept : DirKept gen (p.write gen .dir gen.dirLevel) :=
      ⟨h.polar, hglitch, h.aimed, rfl, h.stop, h.rest⟩
    exact ⟨⟨⟨⟨hkept, h.step⟩, h.integer, h.immediateStop⟩, h.running⟩, h.active⟩
  refine .bind (hcall _ rfl) fun _ => .bind (M := DirStarted) ?_ fun _ => ?_
  · refine takes_setStep started_stable hstarted hstarted fun gen p h _ => ?_
    have hkept : DirKept gen (p.write gen .step gen.stepActiveLevel) :=
      ⟨h.polar, h.glitched, h.aimed, h.dir, h.stop, h.rest⟩
    exact ⟨⟨⟨⟨hkept, fun _ => ⟨h.running, h.active⟩⟩, h.integer, h.immediateStop⟩, h.running⟩,
      h.active⟩
  refine .bind (M := DirInv) (.modify fun gen p h => ?_) fun _ => ?_
  · exact ⟨⟨⟨h.polar.step, h.polar.dir⟩, h.glitched, h.aimed, h.dir, h.stop, h.rest⟩, h.step⟩
  · refine .bind (M := DirInv) (takes_hw_ inv_stable inv_seen inv_seen fun _ _ h _ => h) fun _ => ?_
    exact .bind (.modify fun _ _ h => h.error .none) fun _ => .pure _

theorem rejectRate_dir : DirTakes DirInv DirInv rejectRate := by
  unfold rejectRate
  exact .bind (.modify fun _ _ h => h.rejected) fun _ => .pure _

theorem takeRate_dir (rpmMilli : Int) (stepsPerRev : UInt32) :
    DirTakes DirInv DirInv (takeRate rpmMilli stepsPerRev) := by
  unfold takeRate
  generalize UInt64.ofNat rpmMilli.toNat * stepsPerRev.toUInt64 = den
  dsimp only
  by_cases hshort : (600000000000 : UInt64) / den < 300
  · rw [if_pos hshort]
    exact rejectRate_dir
  rw [if_neg hshort]
  have hne : (600000000000 : UInt64) / den ≠ 0 := by
    intro hz
    rw [hz] at hshort
    exact hshort (by decide)
  have hpending (gen : StepGen) (p : Pins) (h : DirPending gen p) : DirSeen gen p :=
    h.toDirKept.seen
  refine .bind (M := DirPending) (.modify fun gen p h => ?_) fun _ => ?_
  · refine ⟨⟨⟨⟨h.polar.step, h.polar.dir⟩, h.glitched, h.aimed, h.dir, fun hf => ?_, h.rest⟩, h.step⟩,
      hne, rfl⟩
    cases hf
  refine .bind (pins_hw_ pending_stable hpending rfl) fun _ => .get_bind fun gen => ?_
  refine .get_bind fun gen' => ?_
  by_cases hgo : gen.generatedRpmMilli = 0 ∧ gen'.running = true
  · rw [if_pos hgo]
    refine (kickstart_dir rpmMilli).strengthen fun gen'' p h => ?_
    obtain ⟨rfl, rfl, hpend⟩ := h
    exact ⟨hpend, hgo.2⟩
  · rw [if_neg hgo]
    refine .bind (M := DirInv) (.modify fun gen p h => ?_) fun _ => .pure _
    exact h.2.2.toDirInv.error .none

theorem setRate_dir (rpmMilli : Int) (stepsPerRev : UInt32) :
    DirTakes DirInv DirInv (setRate rpmMilli stepsPerRev) := by
  unfold setRate
  refine .bind .get fun _ => .ite (.pure _) (.ite ?_ ?_)
  · refine .bind (M := DirInv) (.modify fun gen p h => ?_) fun _ => ?_
    · exact ⟨⟨⟨h.polar.step, h.polar.dir⟩, h.glitched, h.aimed, h.dir, fun _ => rfl, h.rest⟩, h.step⟩
    · exact .bind (dir_silent_ rfl) fun _ => .bind dir_low fun _ => .pure _
  refine .ite rejectRate_dir (.ite rejectRate_dir (.bind .get fun _ => ?_))
  have hrest := takeRate_dir rpmMilli stepsPerRev
  exact .ite (.bind enableDriver_dir fun e => .ite (.pure _) hrest) hrest

end Calls

/-! ## Runs -/

theorem Call.dir {c : Call} (hc : c ≠ .arm) {gen : StepGen} {p : Pins} (h : DirInv gen p)
    (hturn : TurnsAtRest c gen p) :
    Prog.wpTS (pinDevice.Meets (fun _ _ => True) anyAlarm)
      (pinDevice.AtCall (fun _ _ => True) DirSeen) c.prog (fun a p => DirInv a.2 p) gen p := by
  cases c with
  | arm => exact absurd rfl hc
  | start => exact start_dir gen p h
  | setRate rpmMilli stepsPerRev => exact setRate_dir rpmMilli stepsPerRev gen p h
  | setDirection forward =>
    refine setDirection_dir forward gen p ⟨h, ?_⟩
    rcases hturn with hf | hrest
    · exact .inl hf.symm
    · exact .inr hrest
  | stopImmediate => exact stopImmediate_dir gen p h
  | stopProfiled => exact stopProfiled_dir gen p h
  | disableDriver => exact disableDriver_dir gen p h
  | enableDriver => exact enableDriver_dir gen p h

theorem write_low_same {gen : StepGen} (h : gen.Polar) {p : Pins}
    (hp : p.step = gen.stepInactiveLevel) : p.write gen .step gen.stepInactiveLevel = p := by
  obtain ⟨step, dir, net, glitched⟩ := p
  have hnet := write_low_net h ⟨step, dir, net, glitched⟩
  cases hp
  exact congrArg (fun n => (⟨_, dir, n, glitched⟩ : Pins)) hnet

/-- What `init` leaves takes no notice of alarms. -/
def AsBooted (cfg : ArgusConfig) (gen : StepGen) (p : Pins) : Prop :=
  gen = initialized cfg ∧
    p = ⟨(initialized cfg).stepInactiveLevel, (initialized cfg).dirForwardLevel, 0, false⟩

theorem booted_stable (cfg : ArgusConfig) : pinDevice.Stable anyAlarm (AsBooted cfg) := by
  rintro a gen p gen' p' - hh ⟨rfl, rfl⟩
  cases served_of_handle hh with
  | deassert hpin hdir => cases hpin
  | turn hpin hdir => cases hpin
  | idle hpin hguard =>
    refine ⟨rfl, ?_⟩
    exact write_low_same (polar_initialized cfg) rfl
  | still hpin hrun hdrv hzero => cases hrun
  | assert hpin hrun hdrv hne => cases hrun

theorem arm_dir {cfg : ArgusConfig} {gen : StepGen} {p : Pins} (h : AsBooted cfg gen p) :
    Prog.wpTS (pinDevice.Meets (fun _ _ => True) anyAlarm)
      (pinDevice.AtCall (fun _ _ => True) DirSeen) arm (fun a p => a.1 = espOk → DirInv a.2 p)
      gen p := by
  have hseen (gen : StepGen) (p : Pins) (h : AsBooted cfg gen p) : DirSeen gen p := by
    obtain ⟨rfl, rfl⟩ := h
    exact ⟨polar_initialized cfg, rfl⟩
  have hrest : DirTakes (AsBooted cfg) DirInv (do
      modify fun gen =>
        let pending : Timing := ⟨0, 0, 0, gen.forward, false⟩
        { gen with
          requestedRpmMilli := 0
          generatedRpmMilli := 0
          running := false
          pendingTiming := pending
          activeTiming := pending }
      hw_ .exitCritical false
      let err ← hw .gptimerStart false
      if err = espErrInvalidState then return espOk
      if err ≠ espOk then
        setStep false false
        modify fun gen => { gen with errorState := .timingUpdateFailed }
      return err) := by
    refine .bind (M := DirInv) (.modify fun gen p h => ?_) fun _ => ?_
    · obtain ⟨rfl, rfl⟩ := h
      have hpolar := polar_initialized cfg
      exact ⟨⟨⟨hpolar.step, hpolar.dir⟩, rfl, rfl, rfl, fun _ => rfl, fun _ => rfl⟩,
        fun hactive => absurd hactive hpolar.step.symm⟩
    refine .bind (dir_silent_ rfl) fun _ => .bind (dir_silent rfl) fun e => .ite (.pure _) ?_
    refine .ite (.bind dir_low fun _ => ?_) (.pure _)
    exact .bind (.modify fun _ _ h => h.error .timingUpdateFailed) fun _ => .pure _
  have htimer : gen.timer = true := by
    rw [h.1]
    rfl
  unfold arm
  rw [Prog.wpTS_bind, Prog.wpTS_get, if_neg (not_not.mpr htimer), Prog.wpTS_bind]
  refine ⟨⟨hseen _ _ h, fun _ => hseen _ _ h⟩, fun r p' hr => ?_⟩
  have hbooted : AsBooted cfg r.gen p' := hr.2.keeps (booted_stable cfg) h
  change Prog.wpTS _ _ (ite _ _ _) _ r.gen p'
  by_cases he : r.result ≠ espOk
  · rw [if_pos he]
    have hne : espErrTimeout ≠ espOk := by decide
    exact fun hc => absurd hc hne
  · rw [if_neg he]
    exact Prog.wpTS_mono (fun a _ h (_ : a.1 = espOk) => h) (hrest _ _ hbooted)

/-- **DIR is stable.**  After `init` and one `arm`, where no `set_direction` changes the direction
of a running, enabled generator with a rate pending and none taken on, DIR never changes while
STEP is active. -/
theorem dir_stable {cfg : ArgusConfig} {s : PinState} {ms : List PinMove} (hs : Armed cfg s)
    (h : IsRun pinStep s ms) (harm : ∀ m ∈ ms, m.ev ≠ .begin .arm)
    (hms : ∀ m ∈ ms, Turns m) :
    ∀ m ∈ ms, m.post.world.glitched = false := by
  obtain ⟨hidle, s0, calls, hboot, hrun⟩ := hs
  have hbooted : AsBooted cfg s0.mem s0.world := by
    rw [hboot.spec]
    exact ⟨rfl, rfl⟩
  have hstart : DirInv s.mem s.world := hrun.of_wpS (arm_dir hbooted) rfl
  have hwithin (m : PinMove) (hm : m ∈ ms) : Device.Within (fun _ _ => True) anyAlarm
      (fun c gen p => c ≠ .arm ∧ TurnsAtRest c gen p) m := by
    have hturn : Device.Within _ _ TurnsAtRest m := hms m hm
    unfold Device.Within at hturn ⊢
    split
    next c hev =>
      rw [hev] at hturn
      refine ⟨?_, hturn⟩
      rintro rfl
      exact harm m hm hev
    · exact fun _ _ _ => trivial
    · trivial
    · trivial
  have hinv := Device.invariant inv_seen inv_stable seen_stable
    (fun c gen p hc hI => Call.dir hc.1 hI hc.2) h hidle hstart hwithin
  exact fun m hm => (hinv m hm).1.glitched

/-- The boot state after an undisturbed `arm`. -/
def armedPins : PinState := final bootedPins (playPins bootedPins (undisturbed .arm 3))

theorem armedPins_armed : Armed argusConfig armedPins := by
  have hrun := Prog.playS_exec (H := pinDevice.Meets (fun _ _ => True) anyAlarm)
    (f := fun q p => (smoothReply q q.gen, p.apply q))
    (fun q p => ⟨trivial, .refl q _⟩) (arm bootedPins.mem) bootedPins.world
  exact ⟨rfl, bootedPins, _, bootedPins_booted, hrun⟩

/-- A rate, a start, a step, a stop and a turn. -/
theorem dir_stable_turn :
    let ms := playPins armedPins (undisturbed (.setRate 60000 8000) 4 ++ undisturbed .start 2 ++
      [.interrupt (alarmAt 10000), .interrupt (alarmAt 10150)] ++ undisturbed .stopImmediate 5 ++
      undisturbed (.setDirection false) 6)
    (∀ m ∈ ms, m.post.world.glitched = false) ∧ (final armedPins ms).world.dir = 1 :=
  ⟨dir_stable armedPins_armed (isRun_playPins _ _) (by decide) (by decide), by decide⟩

/-- A rate pending, the generator started, and an alarm after `set_direction` has made its check:
STEP is active when DIR changes. -/
theorem dir_changes_during_pulse :
    ¬ ∀ (cfg : ArgusConfig) (s : PinState) (ms : List PinMove), Armed cfg s → IsRun pinStep s ms →
      (∀ m ∈ ms, m.ev ≠ .begin .arm) → ∀ m ∈ ms, m.post.world.glitched = false := by
  intro h
  let ms := playPins armedPins (undisturbed (.setRate 60000 8000) 4 ++ undisturbed .start 2 ++
    [.begin (.setDirection false), .act, .answer, .act, .interrupt (alarmAt 10000), .answer, .act, .answer,
      .act, .answer, .act])
  have hstable := h argusConfig armedPins ms armedPins_armed (isRun_playPins _ _) (by decide)
  let m := ms.get ⟨26, by decide⟩
  exact absurd (hstable m (List.get_mem _ _)) (by decide)

end StepGen

end Argus
