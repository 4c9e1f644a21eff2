import ArgusPump.RampTicks
import ArgusPump.StepPins

/-!
# The ramp and the step generator

The calls of `main/argus_trajectory.c` come one after another, under `s_traj_mutex`, over the
step generator of `main/argus_step_gen.c`; a timer alarm is served between two calls, or in a
driver call that does not mask it.  `xSemaphoreTake` waits for as long as it takes.

    the rate keeps its bounds, ticks are as RampTicks says, the generator faces the current
    direction, and the target is reached                               (trajectory_ramp)
-/

namespace Argus

open Interact

namespace StepGen

/-- The generator and its alarms. -/
def alarmDevice : Device HwCall (fun _ => HwAnswer) StepGen Unit Alarm :=
  genDevice (fun _ w => w) (ServesAlarm fun _ w => w)

/-- A driver call: alarms may be served in it, and a mutex is waited for. -/
def Drives (q : HwCall) (w : Unit) (r : HwAnswer) (w' : Unit) : Prop :=
  alarmDevice.Leaves (fun _ _ _ => True) q (q.gen, w) (r.gen, w') ∧
    (q.call = .takeLifecycle → r.result = espOk)

/-- The generator is set up, and faces `f` now and after its next step. -/
structure Faces (f : Bool) (gen : StepGen) : Prop where
  timer : gen.timer = true
  forward : gen.forward = f
  pending : gen.pendingTiming.directionForward = f

/-- No pulse is generated. -/
structure Stopped (gen : StepGen) : Prop where
  running : gen.running = false
  generated : gen.generatedRpmMilli = 0
  pending : gen.pendingTiming.integer = 0
  active : gen.activeTiming.integer = 0

/-! ## Alarms -/

theorem accept_timer (gen : StepGen) : gen.accept.timer = gen.timer := by
  unfold accept
  split
  · rfl
  · split <;> rfl

theorem faces_accept {f : Bool} {gen : StepGen} (h : Faces f gen) : Faces f gen.accept := by
  obtain ⟨hforward, -, -, -, hpending, -⟩ := accept_frame gen
  exact ⟨(accept_timer gen).trans h.timer, hforward.trans h.forward, hpending.trans h.pending⟩

theorem faces_stable (f : Bool) :
    alarmDevice.Stable (fun _ _ _ => True) fun gen _ => Faces f gen := by
  intro i gen w gen' w' _ hserves h
  cases served_of_exec _ hserves with
  | deassert hpin hdir => exact ⟨h.timer, h.pending, h.pending⟩
  | turn hpin hdir => exact ⟨h.timer, h.pending, h.pending⟩
  | idle hpin hguard => exact h
  | still hpin hrun hdrv hzero => exact faces_accept h
  | assert hpin hrun hdrv hne =>
    have haccept := faces_accept h
    exact ⟨haccept.timer, haccept.forward, haccept.pending⟩

theorem stopped_stable : alarmDevice.Stable (fun _ _ _ => True) fun gen _ => Stopped gen := by
  intro i gen w gen' w' _ hserves h
  cases served_of_exec _ hserves with
  | deassert hpin hdir => exact ⟨h.running, h.generated, h.pending, h.active⟩
  | turn hpin hdir => exact ⟨h.running, h.generated, h.pending, h.active⟩
  | idle hpin hguard => exact h
  | still hpin hrun hdrv hzero => exact absurd (h.running.symm.trans hrun) Bool.false_ne_true
  | assert hpin hrun hdrv hne => exact absurd (h.running.symm.trans hrun) Bool.false_ne_true

/-! ## Calls that keep the direction -/

section Keep

variable {f : Bool}

/-- From `Faces f` to `Faces f`, whatever the drivers answer. -/
abbrev KeepsFace (f : Bool) {α : Type} (p : GenM α) : Prop :=
  alarmDevice.Takes (fun _ _ => True) (fun _ _ _ => True) (fun _ _ => True)
    (fun gen _ => Faces f gen) (fun gen _ => Faces f gen) p

theorem keepsFace_hw (c : Hw) (masked : Bool) : KeepsFace f (hw c masked) :=
  takes_hw (faces_stable f) (fun _ _ _ => trivial) (fun _ _ _ => trivial) fun _ _ h _ => h

theorem keepsFace_hw_ (c : Hw) (masked : Bool) : KeepsFace f (hw_ c masked) :=
  takes_hw_ (faces_stable f) (fun _ _ _ => trivial) (fun _ _ _ => trivial) fun _ _ h _ => h

theorem keepsFace_rawCount (masked : Bool) : KeepsFace f (rawCount masked) :=
  takes_rawCount (faces_stable f) (fun _ _ _ => trivial) (fun _ _ _ => trivial) fun _ _ h _ => h

theorem keepsFace_setStep (active masked : Bool) : KeepsFace f (setStep active masked) :=
  .bind .get fun _ => keepsFace_hw_ _ masked

theorem keepsFace_setDir (masked : Bool) : KeepsFace f (setDir masked) :=
  .bind .get fun _ => keepsFace_hw_ _ masked

theorem keepsFace_modify {g : StepGen → StepGen} (htimer : ∀ gen, (g gen).timer = gen.timer)
    (hforward : ∀ gen, (g gen).forward = gen.forward)
    (hpending : ∀ gen, (g gen).pendingTiming.directionForward = gen.pendingTiming.directionForward) :
    KeepsFace f (modify g : GenM Unit) :=
  .modify fun gen _ h =>
    ⟨(htimer gen).trans h.timer, (hforward gen).trans h.forward, (hpending gen).trans h.pending⟩

theorem keepsFace_start : KeepsFace f start := by
  unfold start
  refine .bind .get fun _ => .ite (.pure _) (.bind (keepsFace_hw _ _) fun _ => .ite (.pure _) ?_)
  refine .bind (keepsFace_modify ?_ ?_ ?_) fun _ => .bind (keepsFace_hw _ _) fun _ => .pure _
  · exact fun _ => rfl
  · exact fun _ => rfl
  · exact fun _ => rfl

theorem keepsFace_enableDriver : KeepsFace f enableDriver := by
  unfold enableDriver
  refine .bind .get fun _ => .ite (.pure _) (.bind (keepsFace_hw _ _) fun _ => .ite (.pure _) ?_)
  refine .bind .get fun _ => .ite ?_ (.pure _)
  refine .bind (keepsFace_hw_ _ _) fun _ => .bind (keepsFace_modify ?_ ?_ ?_) fun _ => ?_
  · exact fun _ => rfl
  · exact fun _ => rfl
  · exact fun _ => rfl
  · exact .bind (keepsFace_hw_ _ _) fun _ => .pure _

theorem keepsFace_halt : KeepsFace f (modify halt : GenM Unit) :=
  keepsFace_modify (fun _ => rfl) (fun _ => rfl) fun _ => rfl

theorem keepsFace_disableDriver : KeepsFace f disableDriver := by
  unfold disableDriver
  refine .bind .get fun _ => .ite (.pure _) (.bind (keepsFace_hw _ _) fun _ => .ite (.pure _) ?_)
  refine .bind keepsFace_halt fun _ => .bind (keepsFace_hw_ _ _) fun _ => .bind .get fun _ => ?_
  have hrest : KeepsFace f (do
      setStep false false
      hw_ (.gpioSetLevel .en 1) false
      modify fun gen => { gen with driverEnabled := false, errorState := .none }
      return espOk) := by
    refine .bind (keepsFace_setStep _ _) fun _ => .bind (keepsFace_hw_ _ _) fun _ => ?_
    refine .bind (keepsFace_modify ?_ ?_ ?_) fun _ => .pure _
    · exact fun _ => rfl
    · exact fun _ => rfl
    · exact fun _ => rfl
  exact .ite (.bind (keepsFace_hw_ _ _) fun _ => hrest) hrest

theorem keepsFace_stopProfiled : KeepsFace f stopProfiled := by
  unfold stopProfiled
  refine .bind (keepsFace_modify ?_ ?_ ?_) fun _ => .bind (keepsFace_hw_ _ _) fun _ => ?_
  · exact fun _ => rfl
  · exact fun _ => rfl
  · exact fun _ => rfl
  refine .bind (keepsFace_modify ?_ ?_ ?_) fun _ => .pure _
  · exact fun _ => rfl
  · exact fun _ => rfl
  · exact fun _ => rfl

theorem keepsFace_rejectRate : KeepsFace f rejectRate := by
  unfold rejectRate
  refine .bind (keepsFace_modify ?_ ?_ ?_) fun _ => .pure _
  · exact fun _ => rfl
  · exact fun _ => rfl
  · exact fun _ => rfl

/-- A kickstart turns to the pending direction, which is the same. -/
theorem keepsFace_kickstart (rpmMilli : Int) : KeepsFace f (kickstart rpmMilli) := by
  have herror (e : StepGenError) : KeepsFace f (modify fun gen => { gen with errorState := e }) :=
    keepsFace_modify (fun _ => rfl) (fun _ => rfl) fun _ => rfl
  unfold kickstart
  refine .bind (keepsFace_hw _ _) fun _ => .ite (.bind (herror _) fun _ => .pure _) ?_
  refine .bind (keepsFace_rawCount _) fun _ => .bind (M := fun gen _ => Faces f gen) ?_ fun _ => ?_
  · exact .modify fun gen _ h => ⟨h.timer, h.pending, h.pending⟩
  refine .bind (keepsFace_hw_ _ _) fun _ => .bind (keepsFace_setDir _) fun _ => ?_
  refine .bind (keepsFace_hw_ _ _) fun _ => .bind (keepsFace_setStep _ _) fun _ => ?_
  refine .bind (keepsFace_modify ?_ ?_ ?_) fun _ => .bind (keepsFace_hw_ _ _) fun _ => ?_
  · exact fun _ => rfl
  · exact fun _ => rfl
  · exact fun _ => rfl
  · exact .bind (herror _) fun _ => .pure _

theorem keepsFace_setRate (rpmMilli : Int) (stepsPerRev : UInt32) :
    KeepsFace f (setRate rpmMilli stepsPerRev) := by
  have htake : KeepsFace f (takeRate rpmMilli stepsPerRev) := by
    unfold takeRate
    refine .ite keepsFace_rejectRate (.bind (keepsFace_modify ?_ ?_ ?_) fun _ => ?_)
    · exact fun _ => rfl
    · exact fun _ => rfl
    · exact fun _ => rfl
    refine .bind (keepsFace_hw_ _ _) fun _ => .bind .get fun _ => .bind .get fun _ => ?_
    refine .ite (keepsFace_kickstart rpmMilli) (.bind (keepsFace_modify ?_ ?_ ?_) fun _ => .pure _)
    · exact fun _ => rfl
    · exact fun _ => rfl
    · exact fun _ => rfl
  unfold setRate
  refine .bind .get fun _ => .ite (.pure _) (.ite ?_ ?_)
  · refine .bind (keepsFace_modify ?_ ?_ ?_) fun _ => ?_
    · exact fun _ => rfl
    · exact fun _ => rfl
    · exact fun _ => rfl
    · exact .bind (keepsFace_hw_ _ _) fun _ => .bind (keepsFace_setStep _ _) fun _ => .pure _
  refine .ite keepsFace_rejectRate (.ite keepsFace_rejectRate (.bind .get fun _ => ?_))
  exact .ite (.bind keepsFace_enableDriver fun _ => .ite (.pure _) htake) htake

end Keep

/-! ## Stopping and turning -/

section Drive

variable {f : Bool} {gen : StepGen}

theorem drives_hw {P : StepGen → Prop} (hP : alarmDevice.Stable (fun _ _ _ => True) fun gen _ => P gen)
    {c : Hw} {masked : Bool} {post : EspErr × StepGen → Unit → Prop} (h : P gen)
    (hpost : ∀ e gen', (c = .takeLifecycle → e = espOk) → P gen' → post (e, gen') ()) :
    Prog.wpTS Drives (fun _ _ => True) (hw c masked) post gen () :=
  ⟨trivial, fun r _ hr => hpost r.result r.gen hr.2 (hr.1.keeps hP h)⟩

theorem drives_hw_ {P : StepGen → Prop} (hP : alarmDevice.Stable (fun _ _ _ => True) fun gen _ => P gen)
    {c : Hw} {masked : Bool} {post : Unit × StepGen → Unit → Prop} (h : P gen)
    (hpost : ∀ gen', P gen' → post ((), gen') ()) :
    Prog.wpTS Drives (fun _ _ => True) (hw_ c masked) post gen () :=
  ⟨trivial, fun r _ hr => hpost r.gen (hr.1.keeps hP h)⟩

theorem drives_rawCount {P : StepGen → Prop}
    (hP : alarmDevice.Stable (fun _ _ _ => True) fun gen _ => P gen) {masked : Bool}
    {post : (EspErr × UInt64) × StepGen → Unit → Prop} (h : P gen)
    (hpost : ∀ a gen', P gen' → post (a, gen') ()) :
    Prog.wpTS Drives (fun _ _ => True) (rawCount masked) post gen () :=
  ⟨trivial, fun r _ hr => hpost _ r.gen (hr.1.keeps hP h)⟩

/-- Stopped, in a direction. -/
structure Rests (f : Bool) (gen : StepGen) : Prop where
  faces : Faces f gen
  stopped : Stopped gen

theorem rests_stable (f : Bool) :
    alarmDevice.Stable (fun _ _ _ => True) fun gen _ => Rests f gen := by
  intro i gen w gen' w' hK hserves h
  exact ⟨faces_stable f i gen w gen' w' hK hserves h.faces,
    stopped_stable i gen w gen' w' hK hserves h.stopped⟩

theorem rests_halt (h : Faces f gen) : Rests f gen.halt :=
  ⟨⟨h.timer, h.forward, h.pending⟩, ⟨rfl, rfl, rfl, rfl⟩⟩

theorem stopImmediate_rests (h : Faces f gen) :
    Prog.wpTS Drives (fun _ _ => True) stopImmediate (fun a _ => Rests f a.2) gen () := by
  have hrest := rests_stable f
  have hfinish (err : EspErr) {gen : StepGen} (h : Rests f gen) :
      Prog.wpTS Drives (fun _ _ => True) (do
        if err ≠ espOk ∧ err ≠ espErrInvalidState then
          modify fun gen => { gen with errorState := .timingUpdateFailed }
        setStep false false
        let a ← rawCount false
        if a.1 = espOk then modify fun gen => { gen with lastDeassertionTicks := a.2 }
        modify fun gen => { gen with errorState := .none }
        return err) (fun a _ => Rests f a.2) gen () := by
    have hlast {gen : StepGen} (h : Rests f gen) : Prog.wpTS Drives (fun _ _ => True) (do
        setStep false false
        let a ← rawCount false
        if a.1 = espOk then modify fun gen => { gen with lastDeassertionTicks := a.2 }
        modify fun gen => { gen with errorState := .none }
        return err) (fun a _ => Rests f a.2) gen () := by
      rw [Prog.wpTS_bind]
      refine drives_hw_ hrest h fun gen h => ?_
      rw [Prog.wpTS_bind]
      refine drives_rawCount hrest h fun a gen h => ?_
      rw [Prog.wpTS_ite]
      obtain ⟨⟨htimer, hforward, hpending⟩, ⟨hrun, hgen, hpend, hactive⟩⟩ := h
      split
      · exact ⟨⟨htimer, hforward, hpending⟩, ⟨hrun, hgen, hpend, hactive⟩⟩
      · exact ⟨⟨htimer, hforward, hpending⟩, ⟨hrun, hgen, hpend, hactive⟩⟩
    rw [Prog.wpTS_ite]
    split
    · refine hlast ⟨⟨h.faces.timer, h.faces.forward, h.faces.pending⟩, ?_⟩
      exact ⟨h.stopped.running, h.stopped.generated, h.stopped.pending, h.stopped.active⟩
    · exact hlast h
  unfold stopImmediate
  rw [Prog.wpTS_bind, Prog.wpTS_get, Prog.wpTS_ite, if_neg (by simp [h.timer]), Prog.wpTS_bind]
  refine drives_hw (faces_stable f) h fun e gen he h => ?_
  rw [Prog.wpTS_ite, if_neg (by simp [he rfl]), Prog.wpTS_bind, Prog.wpTS_get, Prog.wpTS_bind,
    Prog.wpTS_modify, Prog.wpTS_bind]
  refine drives_hw_ hrest (rests_halt h) fun gen h => ?_
  rw [Prog.wpTS_ite]
  split
  · rw [Prog.wpTS_bind]
    exact drives_hw hrest h fun e gen _ h => hfinish e h
  · exact hfinish espOk h

theorem setDirection_rests (g : Bool) (h : Rests f gen) :
    Prog.wpTS Drives (fun _ _ => True) (setDirection g) (fun a _ => Rests g a.2) gen () := by
  have hturn {gen : StepGen} (h : Rests f gen) : Prog.wpTS Drives (fun _ _ => True) (do
      modify fun gen =>
        { gen with
          pendingTiming := { gen.pendingTiming with directionForward := g }, forward := g }
      setDir true
      hw_ .exitCritical false
      hw_ (.delayUs 5) false
      return espOk) (fun a _ => Rests g a.2) gen () := by
    rw [Prog.wpTS_bind, Prog.wpTS_modify, Prog.wpTS_bind]
    refine drives_hw_ (rests_stable g) ?_ fun gen h => ?_
    · refine ⟨⟨h.faces.timer, rfl, rfl⟩, ?_⟩
      exact ⟨h.stopped.running, h.stopped.generated, h.stopped.pending, h.stopped.active⟩
    rw [Prog.wpTS_bind]
    refine drives_hw_ (rests_stable g) h fun gen h => ?_
    rw [Prog.wpTS_bind]
    exact drives_hw_ (rests_stable g) h fun gen h => h
  unfold setDirection
  rw [Prog.wpTS_bind]
  refine drives_hw (rests_stable f) h fun e gen he h => ?_
  rw [Prog.wpTS_ite, if_neg (by simp [he rfl]), Prog.wpTS_bind, Prog.wpTS_get, Prog.wpTS_ite,
    if_neg (by simp [h.stopped.running]), Prog.wpTS_bind]
  refine drives_hw_ (rests_stable f) h fun gen h => ?_
  rw [Prog.wpTS_bind, Prog.wpTS_get, Prog.wpTS_ite, if_pos h.faces.timer, Prog.wpTS_bind]
  refine drives_rawCount (rests_stable f) h fun a gen h => ?_
  rw [Prog.wpTS_ite]
  split
  · rw [Prog.wpTS_bind]
    exact drives_hw_ (rests_stable f) h fun gen h => hturn h
  · exact hturn h

end Drive

/-! ## Boot -/

/-- `argus_step_gen_init`, `arm` and `start` have succeeded; no alarm comes before the timer is
started. -/
def Boots (cfg : ArgusConfig) (gen : StepGen) : Prop :=
  ∃ p p' calls calls' gen₀,
    Prog.Exec (Quiet Pins.apply) (init cfg .unset) p calls (espOk, gen₀) p' ∧
    Prog.Exec Drives ((do
      if (← arm) = espOk then start else return espFail : GenM EspErr) gen₀) () calls' (espOk, gen) ()

/-- Before `arm`, alarms leave everything as it is. -/
structure Unarmed (gen : StepGen) : Prop where
  timer : gen.timer = true
  forward : gen.forward = true
  pinAsserted : gen.pinAsserted = false
  running : gen.running = false

theorem unarmed_stable : alarmDevice.Stable (fun _ _ _ => True) fun gen _ => Unarmed gen := by
  intro i gen w gen' w' _ hserves h
  cases served_of_exec _ hserves with
  | deassert hpin hdir => exact absurd (h.pinAsserted.symm.trans hpin) Bool.false_ne_true
  | turn hpin hdir => exact absurd (h.pinAsserted.symm.trans hpin) Bool.false_ne_true
  | idle hpin hguard => exact h
  | still hpin hrun hdrv hzero => exact absurd (h.running.symm.trans hrun) Bool.false_ne_true
  | assert hpin hrun hdrv hne => exact absurd (h.running.symm.trans hrun) Bool.false_ne_true

theorem arm_faces {gen : StepGen} (h : Unarmed gen) :
    Prog.wpTS Drives (fun _ _ => True) arm (fun a _ => Faces true a.2) gen () := by
  have hface := faces_stable true
  unfold arm
  rw [Prog.wpTS_bind, Prog.wpTS_get, Prog.wpTS_ite, if_neg (by simp [h.timer]), Prog.wpTS_bind]
  refine drives_hw unarmed_stable h fun e gen he h => ?_
  rw [Prog.wpTS_ite, if_neg (by simp [he rfl]), Prog.wpTS_bind, Prog.wpTS_modify, Prog.wpTS_bind]
  refine drives_hw_ hface ⟨h.timer, h.forward, h.forward⟩ fun gen h => ?_
  rw [Prog.wpTS_bind]
  refine drives_hw hface h fun e gen _ h => ?_
  rw [Prog.wpTS_ite]
  split
  · exact h
  rw [Prog.wpTS_ite]
  split
  · rw [Prog.wpTS_bind]
    exact drives_hw_ hface h fun gen h => ⟨h.timer, h.forward, h.pending⟩
  · exact h

theorem keeps_drives {α : Type} {f : Bool} {p : GenM α} (hp : KeepsFace f p) {gen : StepGen}
    (h : Faces f gen) :
    Prog.wpTS Drives (fun _ _ => True) p (fun a _ => Faces f a.2) gen () := by
  refine Prog.wpS_answers (H := alarmDevice.Meets (fun _ _ => True) fun _ _ _ => True) ?_ _ _ ?_
  · exact fun q w r w' hr => ⟨trivial, hr.1⟩
  · exact Prog.wpS_mono (fun _ _ _ => trivial) (fun _ _ h => h) _ _ (hp gen () h)

theorem Boots.faces {cfg : ArgusConfig} {gen : StepGen} (h : Boots cfg gen) : Faces true gen := by
  obtain ⟨p, p', calls, calls', gen₀, hinit, hrun⟩ := h
  obtain ⟨hgen, -⟩ := hinit.of_wpS (init_spec cfg p) rfl
  have hgen : gen₀ = initialized cfg := hgen
  have hunarmed : Unarmed gen₀ := by
    rw [hgen]
    exact ⟨rfl, rfl, rfl, rfl⟩
  have hboot : Prog.wpTS Drives (fun _ _ => True) (do
      if (← arm) = espOk then start else return espFail : GenM EspErr)
      (fun a _ => Faces true a.2) gen₀ () := by
    rw [Prog.wpTS_bind]
    refine Prog.wpTS_mono (fun a _ h => ?_) (arm_faces hunarmed)
    rw [Prog.wpTS_ite]
    split
    · exact keeps_drives keepsFace_start h
    · exact h
  exact hrun.of_wpS hboot

end StepGen

/-! ## Calls of the ramp -/

namespace Traj

open StepGen

/-- A function of the step generator runs. -/
def Generates (c : StepCall) (gen : StepGen) (r : StepAnswer) (gen' : StepGen) : Prop :=
  ∃ calls, Prog.Exec Drives (c.prog gen) () calls (r, gen') ()

theorem Generates.stops {f : Bool} {gen gen' : StepGen} {r : StepAnswer}
    (h : Generates .stopImmediate gen r gen') (hface : Faces f gen) : Rests f gen' := by
  obtain ⟨calls, hrun⟩ := h
  have hstop : Prog.wpTS Drives (fun _ _ => True) StepCall.stopImmediate.prog
      (fun a _ => Rests f a.2) gen () := Prog.wpTS_map.mpr (stopImmediate_rests hface)
  exact hrun.of_wpS hstop

theorem Generates.keeps {c : StepCall} {f : Bool} {gen gen' : StepGen} {r : StepAnswer}
    (h : Generates c gen r gen') (hc : ∀ g, c ≠ .setDirection g) (hface : Faces f gen) :
    Faces f gen' := by
  by_cases hstop : c = .stopImmediate
  · rw [hstop] at h
    exact (h.stops hface).faces
  obtain ⟨calls, hrun⟩ := h
  have hkeep : KeepsFace f c.prog := by
    cases c with
    | start => exact .map keepsFace_start
    | stopImmediate => exact absurd rfl hstop
    | stopProfiled => exact .map keepsFace_stopProfiled
    | setDirection g => exact absurd rfl (hc g)
    | setRate rpmMilli stepsPerRev => exact .map (keepsFace_setRate rpmMilli stepsPerRev)
    | enableDriver => exact .map keepsFace_enableDriver
    | disableDriver => exact .map keepsFace_disableDriver
    | isDriverEnabled => exact .bind .get fun _ => .pure _
    | getGenerated => exact .bind .get fun _ => .pure _
    | getSnapshot => exact .bind .get fun _ => .bind .get fun _ => .pure _
    | clearError =>
      exact .bind (keepsFace_modify (fun _ => rfl) (fun _ => rfl) fun _ => rfl) fun _ => .pure _
  exact hrun.of_wpS (keeps_drives hkeep hface)

theorem Generates.turns {f g : Bool} {gen gen' : StepGen} {r : StepAnswer}
    (h : Generates (.setDirection g) gen r gen') (hrest : Rests f gen) : Rests g gen' := by
  obtain ⟨calls, hrun⟩ := h
  have hturn : Prog.wpTS Drives (fun _ _ => True) (StepCall.setDirection g).prog
      (fun a _ => Rests g a.2) gen () := Prog.wpTS_map.mpr (setDirection_rests g hrest)
  exact hrun.of_wpS hturn

theorem Generates.reads {gen gen' : StepGen} {r : StepAnswer} (h : Generates .getGenerated gen r gen') :
    r.generatedRpmMilli = gen.generatedRpmMilli ∧ gen' = gen := by
  obtain ⟨calls, hrun⟩ := h
  exact hrun.of_wpS
    (show Prog.wpTS Drives (fun _ _ => True) StepCall.getGenerated.prog
      (fun a _ => a.1.generatedRpmMilli = gen.generatedRpmMilli ∧ a.2 = gen) gen () from ⟨rfl, rfl⟩)

section Specs

variable {f : Bool} {traj : Traj} {gen : StepGen}

theorem wpTS_gen {c : StepCall} {post : StepAnswer × Traj → StepGen → Prop}
    (h : ∀ r gen', Generates c gen r gen' → post (r, traj) gen') :
    Prog.wpTS Generates (fun _ _ => True) (Traj.gen c) post traj gen :=
  ⟨trivial, fun r gen' hr => h r gen' hr⟩

theorem faces_gen {c : StepCall} {post : StepAnswer × Traj → StepGen → Prop} (hface : Faces f gen)
    (hc : ∀ g, c ≠ .setDirection g) (h : ∀ r gen', Faces f gen' → post (r, traj) gen') :
    Prog.wpTS Generates (fun _ _ => True) (Traj.gen c) post traj gen :=
  wpTS_gen fun r gen' hr => h r gen' (hr.keeps hc hface)

theorem applySpeed_faces (applied : Int) (stepsPerRev : UInt32) (hface : Faces f gen) :
    Prog.wpTS Generates (fun _ _ => True) (applySpeed applied stepsPerRev)
      (fun a gen' => a.2 = traj ∧ Faces f gen') traj gen := by
  have hrest {gen : StepGen} (hface : Faces f gen) : Prog.wpTS Generates (fun _ _ => True) (do
      let _ ← Traj.gen .start
      let _ ← Traj.gen (.setRate applied stepsPerRev)
      pure () : TrajM Unit) (fun a gen' => a.2 = traj ∧ Faces f gen') traj gen := by
    rw [Prog.wpTS_bind]
    refine faces_gen hface (fun _ hc => by cases hc) fun r gen hface => ?_
    rw [Prog.wpTS_bind]
    exact faces_gen hface (fun _ hc => by cases hc) fun r gen hface => ⟨rfl, hface⟩
  unfold applySpeed
  rw [Prog.wpTS_ite]
  split
  · rw [Prog.wpTS_bind]
    refine faces_gen hface (fun _ hc => by cases hc) fun r gen hface => ?_
    rw [Prog.wpTS_ite]
    split
    · rw [Prog.wpTS_bind]
      exact faces_gen hface (fun _ hc => by cases hc) fun r gen hface => hrest hface
    · exact hrest hface
  rw [Prog.wpTS_ite]
  split
  · rw [Prog.wpTS_bind]
    refine faces_gen hface (fun _ hc => by cases hc) fun r gen hface => ?_
    rw [Prog.wpTS_ite]
    split
    · rw [Prog.wpTS_bind]
      exact faces_gen hface (fun _ hc => by cases hc) fun r gen hface => ⟨rfl, hface⟩
    · exact ⟨rfl, hface⟩
  · exact ⟨rfl, hface⟩

/-- A generator that is stopped is left alone at rate 0. -/
theorem applySpeed_rests {applied : Int} (hle : applied ≤ 0) (stepsPerRev : UInt32)
    (hrest : Rests f gen) : Prog.wpTS Generates (fun _ _ => True) (applySpeed applied stepsPerRev)
      (fun a gen' => a.2 = traj ∧ Rests f gen') traj gen := by
  unfold applySpeed
  rw [Prog.wpTS_ite, if_neg (by omega), Prog.wpTS_ite]
  split
  · rw [Prog.wpTS_bind]
    refine wpTS_gen fun r gen' hr => ?_
    obtain ⟨hgenerated, rfl⟩ := hr.reads
    rw [Prog.wpTS_ite, if_neg (by simp [hgenerated, hrest.stopped.generated])]
    exact ⟨rfl, hrest⟩
  · exact ⟨rfl, hrest⟩

theorem switchDirection_rests (g : Bool) (hface : Faces f gen) :
    Prog.wpTS Generates (fun _ _ => True) (switchDirection g) (fun a gen' =>
      a.2 = { traj with currentForward := g, isReversing := false } ∧ Rests g gen') traj gen := by
  unfold switchDirection
  rw [Prog.wpTS_bind]
  refine wpTS_gen fun r gen hr => ?_
  have hrest := hr.stops hface
  rw [Prog.wpTS_bind]
  refine wpTS_gen fun r gen hr => ?_
  exact ⟨rfl, hr.turns hrest⟩

/-- A tick, and what it leaves of the generator. -/
theorem tick_faces {cfg : ArgusConfig} (hcfg : traj.cfg = some cfg)
    (hface : Faces traj.currentForward gen) :
    Prog.wpTS Generates (fun _ _ => True) tick (fun a gen' => a.2 = traj.ticked ∧
      Faces a.2.currentForward gen' ∧
      (a.2.currentForward ≠ traj.currentForward → Stopped gen')) traj gen := by
  have hspeed {t : Traj} {gen : StepGen} (applied : Int)
      (ht : { t with appliedRpmMilli := applied } = traj.ticked)
      (hsame : t.currentForward = traj.currentForward) (hface : Faces traj.currentForward gen) :
      Prog.wpTS Generates (fun _ _ => True) (do
        modify fun t => { t with appliedRpmMilli := applied }
        applySpeed applied cfg.stepsPerRev.toUInt32) (fun a gen' => a.2 = traj.ticked ∧
        Faces a.2.currentForward gen' ∧
        (a.2.currentForward ≠ traj.currentForward → Stopped gen')) t gen := by
    rw [Prog.wpTS_bind, Prog.wpTS_modify]
    refine Prog.wpTS_mono (fun a gen' h => ?_) (applySpeed_faces applied _ hface)
    obtain ⟨hout, hface⟩ := h
    have hkept : a.2.currentForward = traj.currentForward := by
      rw [hout]
      exact hsame
    exact ⟨hout.trans ht, hkept.symm ▸ hface, fun hne => absurd hkept hne⟩
  have hswitch {t : Traj} {applied : Int} (hle : applied ≤ 0) (hsame : t.currentForward = traj.currentForward)
      (ht : ({ t with
        currentForward := traj.targetForward
        isReversing := false
        appliedRpmMilli := applied } : Traj) = traj.ticked) :
      Prog.wpTS Generates (fun _ _ => True) (switchDirection traj.targetForward) (fun b gen' =>
        Prog.wpTS Generates (fun _ _ => True) (do
          modify fun t => { t with appliedRpmMilli := applied }
          applySpeed applied cfg.stepsPerRev.toUInt32) (fun a gen' => a.2 = traj.ticked ∧
          Faces a.2.currentForward gen' ∧
          (a.2.currentForward ≠ traj.currentForward → Stopped gen')) b.2 gen') t gen := by
    refine Prog.wpTS_mono (fun a gen' h => ?_) (switchDirection_rests traj.targetForward hface)
    obtain ⟨hout, hrest⟩ := h
    rw [Prog.wpTS_bind, Prog.wpTS_modify, hout]
    refine Prog.wpTS_mono (fun a gen' h => ?_) (applySpeed_rests hle _ hrest)
    obtain ⟨hout, hrest⟩ := h
    rw [hout]
    exact ⟨ht, hrest.faces, fun _ => hrest.stopped⟩
  unfold tick
  rw [Prog.wpTS_bind, Prog.wpTS_get]
  dsimp only
  rw [hcfg]
  dsimp only
  rw [Prog.wpTS_ite]
  split
  next hrev =>
    have hrev : traj.Reverses := hrev
    rw [Prog.wpTS_bind]
    unfold reverseRamp
    rw [Prog.wpTS_ite]
    split
    next hpos =>
      rw [Prog.wpTS_bind, Prog.wpTS_modify]
      dsimp only
      rw [Prog.wpTS_ite]
      split
      next hdown =>
        rw [Prog.wpTS_bind]
        refine hswitch (Int.le_refl 0) rfl ?_
        unfold ticked
        rw [if_pos hrev, if_pos hpos]
        exact (if_pos hdown).symm
      next hdown =>
        refine hspeed _ ?_ rfl hface
        unfold ticked
        rw [if_pos hrev, if_pos hpos]
        exact (if_neg hdown).symm
    next hzero =>
      rw [Prog.wpTS_bind]
      refine hswitch (Int.not_lt.mp hzero) rfl ?_
      unfold ticked
      rw [if_pos hrev, if_neg hzero]
  next hrev =>
    have hrev : ¬ traj.Reverses := hrev
    rw [Prog.wpTS_bind, Prog.wpTS_modify]
    refine hspeed _ ?_ rfl hface
    unfold ticked
    rw [if_neg hrev]

theorem steered_faces {cfg : ArgusConfig} (hcfg : traj.cfg = some cfg) (rpmMilli : Int)
    (forward : Bool) (hface : Faces f gen) :
    Prog.wpTS Generates (fun _ _ => True) (setTargetRpmMilli rpmMilli forward)
      (fun a gen' => a.2 = traj.steered cfg rpmMilli forward ∧ Faces f gen') traj gen := by
  have henable (c : Prop) [Decidable c] (t : Traj) : Prog.wpTS Generates (fun _ _ => True) (do
      if c then
        if (← Traj.gen .isDriverEnabled).enabled = false then
          let _ ← Traj.gen .enableDriver
      return espOk) (fun a gen' => a.2 = t ∧ Faces f gen') t gen := by
    rw [Prog.wpTS_ite]
    split
    · rw [Prog.wpTS_bind]
      refine faces_gen hface (fun _ hc => by cases hc) fun r gen hface => ?_
      rw [Prog.wpTS_ite]
      split
      · rw [Prog.wpTS_bind]
        exact faces_gen hface (fun _ hc => by cases hc) fun r gen hface => ⟨rfl, hface⟩
      · exact ⟨rfl, hface⟩
    · exact ⟨rfl, hface⟩
  unfold setTargetRpmMilli
  rw [Prog.wpTS_bind, Prog.wpTS_get]
  dsimp only
  rw [hcfg]
  exact henable _ (traj.steered cfg rpmMilli forward)

/-- What a call leaves of the ramp and the generator. -/
theorem RampCall.prog_faces {cfg : ArgusConfig} (c : RampCall) (hcfg : traj.cfg = some cfg)
    (hface : Faces traj.currentForward gen) :
    Prog.wpTS Generates (fun _ _ => True) c.prog (fun a gen' => a.2 = c.after cfg traj ∧
      Faces a.2.currentForward gen' ∧
      (a.2.currentForward ≠ traj.currentForward → Stopped gen')) traj gen := by
  have hkeep {t : Traj} {gen' : StepGen} (ht : t.currentForward = traj.currentForward)
      (h : Faces traj.currentForward gen') :
      Faces t.currentForward gen' ∧ (t.currentForward ≠ traj.currentForward → Stopped gen') :=
    ⟨ht.symm ▸ h, fun hne => absurd ht hne⟩
  have hsteer (rpmMilli : Int) (forward : Bool) : Prog.wpTS Generates (fun _ _ => True)
      (setTargetRpmMilli rpmMilli forward) (fun a gen' => a.2 = traj.steered cfg rpmMilli forward ∧
      Faces a.2.currentForward gen' ∧
      (a.2.currentForward ≠ traj.currentForward → Stopped gen')) traj gen := by
    refine Prog.wpTS_mono (fun a gen' h => ⟨h.1, ?_⟩) (steered_faces hcfg rpmMilli forward hface)
    refine hkeep ?_ h.2
    rw [h.1]
    rfl
  cases c with
  | setTarget rpmMilli forward => exact hsteer rpmMilli forward
  | stopNormal => exact hsteer 0 traj.targetForward
  | stopImmediate =>
    unfold RampCall.prog Traj.stopImmediate
    rw [Prog.wpTS_bind, Prog.wpTS_modify, Prog.wpTS_bind]
    exact faces_gen hface (fun _ hc => by cases hc) fun r gen' h => ⟨rfl, hkeep rfl h⟩
  | unlock =>
    unfold RampCall.prog Traj.unlock
    rw [Prog.wpTS_bind, Prog.wpTS_modify, Prog.wpTS_bind]
    exact faces_gen hface (fun _ hc => by cases hc) fun r gen' h => ⟨rfl, hkeep rfl h⟩
  | recover =>
    unfold RampCall.prog Traj.recoverStop
    rw [Prog.wpTS_bind, Prog.wpTS_modify, Prog.wpTS_bind]
    refine faces_gen hface (fun _ hc => by cases hc) fun r gen' h => ?_
    rw [Prog.wpTS_bind]
    refine faces_gen h (fun _ hc => by cases hc) fun r gen' h => ?_
    rw [Prog.wpTS_bind]
    exact faces_gen h (fun _ hc => by cases hc) fun r gen' h => ⟨rfl, hkeep rfl h⟩
  | verify =>
    unfold RampCall.prog Traj.recoverVerify
    rw [Prog.wpTS_bind]
    exact faces_gen hface (fun _ hc => by cases hc) fun r gen' h => ⟨rfl, hkeep rfl h⟩
  | tick =>
    unfold RampCall.prog
    rw [Prog.wpTS_bind]
    exact Prog.wpTS_mono (fun a gen' h => h) (tick_faces hcfg hface)

end Specs

end Traj

/-! ## Runs -/

/-- The ramp and the step generator. -/
structure Rig where
  traj : Traj
  gen : StepGen

inductive RigEv
  | call (c : Traj.RampCall)
  | alarm (i : StepGen.Alarm)

abbrev RigMove := Move Rig RigEv

namespace Traj

open StepGen

def rigStep (s : Rig) (ev : RigEv) (t : Rig) : Prop :=
  match ev with
  | .call c => ∃ calls e, Prog.Exec Generates (c.prog s.traj) s.gen calls (e, t.traj) t.gen
  | .alarm i => t.traj = s.traj ∧ ServesAlarm (fun _ w => w) i (s.gen, ()) (t.gen, ())

/-- After boot. -/
structure RigStart (cfg : ArgusConfig) (s : Rig) : Prop where
  traj : s.traj = .init cfg
  gen : Boots cfg s.gen

def isTick (m : RigMove) : Bool :=
  match m.ev with
  | .call .tick => true
  | _ => false

/-- A tick or an alarm. -/
def Undisturbed (m : RigMove) : Prop :=
  match m.ev with
  | .call c => c = .tick
  | .alarm _ => True

instance (m : RigMove) : Decidable (Undisturbed m) :=
  match m with
  | ⟨_, .call c, _⟩ => inferInstanceAs (Decidable (c = .tick))
  | ⟨_, .alarm _, _⟩ => inferInstanceAs (Decidable True)

/-- What holds of every move of the ramp. -/
structure RampMove (cfg : ArgusConfig) (m : RigMove) : Prop where
  nonneg : 0 ≤ m.post.traj.appliedRpmMilli
  le_max : m.post.traj.appliedRpmMilli ≤ cfg.maxOutputMilliRpm
  raises : isTick m = true → m.post.traj.appliedRpmMilli ≤
    m.pre.traj.appliedRpmMilli + max 1 (cfg.accelMilliRpmPerSec * 20 / 1000)
  lowers : isTick m = true → m.pre.traj.appliedRpmMilli ≤
    m.post.traj.appliedRpmMilli + max 1 (cfg.decelMilliRpmPerSec * 20 / 1000)
  behind : isTick m = true → ¬ m.pre.traj.TakenBack → StaysBehind m.pre.traj m.post.traj
  takenBack : isTick m = true → m.pre.traj.TakenBack → m.post.traj.appliedRpmMilli =
    max 0 (m.pre.traj.appliedRpmMilli - max 1 (cfg.decelMilliRpmPerSec * 20 / 1000))
  turns : m.post.traj.currentForward ≠ m.pre.traj.currentForward →
    isTick m = true ∧ m.post.traj.appliedRpmMilli = 0 ∧ Stopped m.post.gen
  faces : 0 < m.post.traj.appliedRpmMilli → m.post.gen.forward = m.post.traj.currentForward

/-- The generator faces the current direction. -/
structure RigFaces (cfg : ArgusConfig) (s : Rig) : Prop where
  configured : s.traj.cfg = some cfg
  faces : Faces s.traj.currentForward s.gen

theorem RigStart.rigFaces {cfg : ArgusConfig} {s : Rig} (h : RigStart cfg s) : RigFaces cfg s := by
  constructor
  · rw [h.traj]
    rfl
  · rw [h.traj]
    exact h.gen.faces

/-- One call. -/
theorem RigFaces.call {cfg : ArgusConfig} {s t : Rig} {c : RampCall} (h : RigFaces cfg s)
    (hs : rigStep s (.call c) t) : t.traj = c.after cfg s.traj ∧ RigFaces cfg t ∧
      (t.traj.currentForward ≠ s.traj.currentForward → Stopped t.gen) := by
  obtain ⟨calls, e, hrun⟩ := hs
  obtain ⟨htraj, hface, hstop⟩ := hrun.of_wpS (c.prog_faces h.configured h.faces)
  have htraj : t.traj = c.after cfg s.traj := htraj
  refine ⟨htraj, ⟨?_, hface⟩, hstop⟩
  rw [htraj, RampCall.after_cfg]
  exact h.configured

theorem RigFaces.alarm {cfg : ArgusConfig} {s t : Rig} {i : Alarm} (h : RigFaces cfg s)
    (hs : rigStep s (.alarm i) t) : t.traj = s.traj ∧ RigFaces cfg t := by
  obtain ⟨htraj, hserves⟩ := hs
  refine ⟨htraj, ?_, ?_⟩
  · rw [htraj]
    exact h.configured
  · rw [htraj]
    exact faces_stable _ i s.gen () t.gen () trivial hserves h.faces

section Invariant

variable {cfg : ArgusConfig} (hcfg : Rampable cfg) (hroom : Room cfg)

include hcfg hroom

theorem rig_step {m : RigMove} (hface : RigFaces cfg m.pre) (htrack : Tracks cfg m.pre.traj)
    (hs : rigStep m.pre m.ev m.post) :
    RigFaces cfg m.post ∧ Tracks cfg m.post.traj ∧ RampMove cfg m := by
  obtain ⟨pre, ev, post⟩ := m
  dsimp only at hface htrack hs ⊢
  cases ev with
  | alarm i =>
    obtain ⟨htraj, hface'⟩ := hface.alarm hs
    have htrack' : Tracks cfg post.traj := htraj ▸ htrack
    refine ⟨hface', htrack', htrack'.applied_nonneg, htrack'.applied_le, ?_, ?_, ?_, ?_, ?_, ?_⟩
    · exact fun ht => absurd ht Bool.false_ne_true
    · exact fun ht => absurd ht Bool.false_ne_true
    · exact fun ht => absurd ht Bool.false_ne_true
    · exact fun ht => absurd ht Bool.false_ne_true
    · exact fun hne => absurd (congrArg currentForward htraj) hne
    · exact fun _ => hface'.faces.forward
  | call c =>
    obtain ⟨htraj, hface', hstop⟩ := hface.call hs
    have htrack' : Tracks cfg post.traj := htraj ▸ htrack.after hcfg hroom c
    have hticked (ht : isTick ⟨pre, .call c, post⟩ = true) : Ticked cfg pre.traj post.traj := by
      have hc : c = .tick := by
        cases c with
        | tick => rfl
        | _ => exact absurd ht Bool.false_ne_true
      rw [htraj, hc]
      exact htrack.ticked hcfg hroom
    refine ⟨hface', htrack', htrack'.applied_nonneg, htrack'.applied_le, ?_, ?_, ?_, ?_, ?_, ?_⟩
    · exact fun ht => ((hticked ht).moves htrack).1
    · exact fun ht => ((hticked ht).moves htrack).2
    · exact fun ht => (hticked ht).between htrack
    · exact fun ht => (hticked ht).takenBack htrack
    · intro hne
      have ht : isTick ⟨pre, .call c, post⟩ = true := by
        by_contra hno
        have hc : c ≠ .tick := by
          rintro rfl
          exact hno rfl
        rw [htraj, RampCall.after_forward hc] at hne
        exact hne rfl
      exact ⟨ht, (hticked ht).turns hne, hstop hne⟩
    · exact fun _ => hface'.faces.forward

omit hcfg hroom in
theorem iterate_sub_one (n x : Nat) : (· - 1)^[n] x = x - n := by
  induction n with
  | zero => rfl
  | succ n ih =>
    rw [Function.iterate_succ_apply', ih]
    omega

/-- Ticks bring the ramp to its target. -/
theorem rig_settles {s : Rig} {ms : List RigMove} (hface : RigFaces cfg s) (htrack : Tracks cfg s.traj)
    (h : IsRun rigStep s ms) (hms : ∀ m ∈ ms, Undisturbed m)
    (hcount : s.traj.ticksLeft cfg ≤ ms.countP isTick) : OnTarget (final s ms).traj := by
  have hinv := (h.inv (I := fun t => RigFaces cfg t ∧ Tracks cfg t.traj) ⟨hface, htrack⟩
    fun m hi hs => by
      obtain ⟨hface', htrack', -⟩ := rig_step hcfg hroom hi.1 hi.2 hs
      exact ⟨hface', htrack'⟩).1
  have hleft := h.iterate (fun t => t.traj.ticksLeft cfg) (· - 1) isTick fun m hm => ?_
  · apply onTarget_of_ticksLeft
    rw [hleft, iterate_sub_one]
    omega
  · obtain ⟨hface, htrack⟩ := (hinv m hm).1
    have hs := h.step_of_mem m hm
    obtain ⟨pre, ev, post⟩ := m
    cases ev with
    | alarm i => exact congrArg (ticksLeft cfg) (hface.alarm hs).1
    | call c =>
      have hc : c = .tick := hms _ hm
      subst hc
      have hticked : Ticked cfg pre.traj post.traj := by
        rw [(hface.call hs).1]
        exact htrack.ticked hcfg hroom
      exact hticked.ticksLeft htrack

/-- **The trajectory ramp.** -/
theorem trajectory_ramp {s : Rig} (hs : RigStart cfg s) {ms : List RigMove}
    (h : IsRun rigStep s ms) :
    (∀ m ∈ ms, RampMove cfg m) ∧
      ∀ ns, IsRun rigStep (final s ms) ns → (∀ m ∈ ns, Undisturbed m) →
        (final s ms).traj.ticksLeft cfg ≤ ns.countP isTick →
        OnTarget (final (final s ms) ns).traj := by
  have htrack : Tracks cfg s.traj := by
    rw [hs.traj]
    exact tracks_init
  have hinv := h.inv (I := fun t => RigFaces cfg t ∧ Tracks cfg t.traj) ⟨hs.rigFaces, htrack⟩
    fun m hi hs => by
      obtain ⟨hface', htrack', -⟩ := rig_step hcfg hroom hi.1 hi.2 hs
      exact ⟨hface', htrack'⟩
  constructor
  · intro m hm
    obtain ⟨hface, htrack⟩ := (hinv.1 m hm).1
    exact (rig_step hcfg hroom hface htrack (h.step_of_mem m hm)).2.2
  · intro ns hns hquiet hcount
    exact rig_settles hcfg hroom hinv.2.1 hinv.2.2 hns hquiet hcount

end Invariant

/-! ## Runs that are played -/

def playGen (c : StepCall) (gen : StepGen) : StepAnswer × StepGen :=
  let out := (c.prog gen).playS (fun q w => (smoothReply q q.gen, w)) ()
  (out.2.1.1, out.2.1.2)

theorem drives_smooth (q : HwCall) (w : Unit) : Drives q w (smoothReply q q.gen) w :=
  ⟨Device.Leaves.refl q _, fun _ => rfl⟩

theorem playGen_generates (c : StepCall) (gen : StepGen) :
    Generates c gen (playGen c gen).1 (playGen c gen).2 :=
  ⟨_, Prog.playS_exec drives_smooth (c.prog gen) ()⟩

def playCall (c : RampCall) (s : Rig) : Rig :=
  let out := (c.prog s.traj).playS playGen s.gen
  ⟨out.2.1.2, out.2.2⟩

def playRig (s : Rig) (cs : List RampCall) : List RigMove :=
  traceWhile (fun s c => some (.call c, playCall c s)) s cs

theorem isRun_playRig (s : Rig) (cs : List RampCall) : IsRun rigStep s (playRig s cs) := by
  refine isRun_traceWhile (fun s c ev t h => ?_) s cs
  cases h
  exact ⟨_, _, Prog.playS_exec playGen_generates (c.prog s.traj) s.gen⟩

/-- `arm` and `start`, every driver call answering `ESP_OK`. -/
def armed (gen : StepGen) : StepGen :=
  ((do if (← arm) = espOk then start else return espFail : GenM EspErr) gen).playS
    (fun q w => (smoothReply q q.gen, w)) () |>.2.1.2

def bootedRig (cfg : ArgusConfig) : Rig := ⟨.init cfg, armed (initialized cfg)⟩

theorem bootedRig_start (cfg : ArgusConfig) : RigStart cfg (bootedRig cfg) := by
  have hinit := Prog.playS_exec (H := Quiet Pins.apply)
    (f := fun q p => (smoothReply q q.gen, p.apply q)) (fun _ _ => ⟨rfl, rfl⟩)
    (StepGen.init cfg .unset) ⟨0, 0, 0, false⟩
  have hboot := Prog.playS_exec (H := Drives) (f := fun q w => (smoothReply q q.gen, w)) drives_smooth
    ((do if (← arm) = espOk then start else return espFail : GenM EspErr) (initialized cfg)) ()
  exact ⟨rfl, _, _, _, _, _, hinit, hboot⟩

/-- From rest to 0.3 rpm, back through zero and on to 0.3 rpm in reverse. -/
theorem trajectory_ramp_reversal :
    let ms := playRig (bootedRig argusConfig) [.setTarget 300 true, .tick, .tick, .setTarget 300 false]
    let s := final (bootedRig argusConfig) ms
    let ns := playRig s [.tick, .tick, .tick, .tick]
    (∀ m ∈ ms, RampMove argusConfig m) ∧ s.traj.ticksLeft argusConfig = 4 ∧
      OnTarget (final s ns).traj := by
  have hcfg : Rampable argusConfig := ⟨by decide, by decide, by decide, by decide⟩
  have hroom : Room argusConfig := by
    unfold Room
    decide
  have hstart := bootedRig_start argusConfig
  have hramp := trajectory_ramp hcfg hroom hstart (isRun_playRig _ [.setTarget 300 true, .tick, .tick,
    .setTarget 300 false])
  exact ⟨hramp.1, by decide, hramp.2 _ (isRun_playRig _ _) (by decide) (by decide)⟩

/-! ## Without room, and with reversals that are taken back -/

/-- A configuration whose maximum is `INT32_MAX`. -/
def highestConfig : ArgusConfig :=
  { argusConfig with
    maxOutputMilliRpm := 2147483647
    accelMilliRpmPerSec := 107374182
    maxOutput_nonneg := by decide }

/-- `n` ticks up towards `INT32_MAX`. -/
structure Climbs (n : Nat) (traj : Traj) : Prop where
  applied : traj.appliedRpmMilli = 2147483 * n
  target : traj.targetRpmMilli = 2147483647
  accelLimit : traj.accelLimit = 107374182
  straight : ¬ traj.Reverses

theorem targetRamp_rises {traj : Traj} (h : traj.appliedRpmMilli < traj.targetRpmMilli) :
    (targetRamp traj).1 =
      if i32 (traj.appliedRpmMilli + delta traj.accelLimit) ≥ traj.targetRpmMilli then
        traj.targetRpmMilli
      else i32 (traj.appliedRpmMilli + delta traj.accelLimit) := by
  unfold targetRamp
  rw [if_pos h]
  dsimp only
  split
  · rfl
  · rfl

theorem Climbs.targetRamp {n : Nat} {traj : Traj} (h : Climbs n traj) (hn : n ≤ 1000) :
    (Traj.targetRamp traj).1 =
      if i32 (2147483 * (n + 1)) ≥ 2147483647 then 2147483647 else i32 (2147483 * (n + 1)) := by
  have happlied := h.applied
  have hdelta : delta traj.accelLimit = 2147483 := by
    rw [h.accelLimit, delta_eq (by omega) (by omega)]
    omega
  have hnext : traj.appliedRpmMilli + delta traj.accelLimit = 2147483 * (n + 1) := by omega
  have hlt : traj.appliedRpmMilli < traj.targetRpmMilli := by
    rw [h.target]
    omega
  rw [targetRamp_rises hlt, hnext, h.target]

theorem Climbs.tick {n : Nat} {traj : Traj} (h : Climbs n traj) (hn : n < 1000) :
    Climbs (n + 1) traj.ticked := by
  have hramp := h.targetRamp (Nat.le_of_lt hn)
  rw [i32_eq (by omega) (by omega), if_neg (by omega)] at hramp
  have hticked : traj.ticked =
      { traj with rampActive := (Traj.targetRamp traj).2, appliedRpmMilli := (Traj.targetRamp traj).1 } :=
    if_neg h.straight
  rw [hticked]
  refine ⟨?_, h.target, h.accelLimit, h.straight⟩
  dsimp only
  omega

/-- The state at the end of a run from boot. -/
def Reached (cfg : ArgusConfig) (s : Rig) : Prop :=
  ∃ s₀ ms, RigStart cfg s₀ ∧ IsRun rigStep s₀ ms ∧ final s₀ ms = s

section Reached

variable {cfg : ArgusConfig} {s : Rig} (h : Reached cfg s)

include h

theorem Reached.play (c : RampCall) : Reached cfg (playCall c s) := by
  obtain ⟨s₀, ms, hstart, hrun, rfl⟩ := h
  refine ⟨s₀, ms ++ playRig (final s₀ ms) [c], hstart, ?_, ?_⟩
  · exact (isRun_append ..).mpr ⟨hrun, isRun_playRig _ _⟩
  · rw [final_append]
    rfl

/-- What holds of every move holds of the next. -/
theorem Reached.next {P : RigMove → Prop} (c : RampCall)
    (hall : ∀ (s₀ : Rig) (ms : List RigMove), RigStart cfg s₀ → IsRun rigStep s₀ ms →
      ∀ m ∈ ms, P m) : P ⟨s, .call c, playCall c s⟩ := by
  obtain ⟨s₀, ms, hstart, hrun, rfl⟩ := h
  refine hall s₀ (ms ++ playRig (final s₀ ms) [c]) hstart ?_ _ ?_
  · exact (isRun_append ..).mpr ⟨hrun, isRun_playRig _ _⟩
  · exact List.mem_append_right _ List.mem_cons_self

omit h in
theorem reached_boot : Reached cfg (bootedRig cfg) :=
  ⟨_, [], bootedRig_start cfg, trivial, rfl⟩

end Reached

theorem RigFaces.playCall {cfg : ArgusConfig} {s : Rig} (h : RigFaces cfg s) (c : RampCall) :
    (playCall c s).traj = c.after cfg s.traj ∧ RigFaces cfg (playCall c s) := by
  obtain ⟨htraj, hface, -⟩ := h.call (isRun_playRig s [c]).2.1
  exact ⟨htraj, hface⟩

/-- A state that the calls `cs` lead to. -/
theorem exists_reached (cfg : ArgusConfig) (cs : List RampCall) :
    ∃ s, Reached cfg s ∧ RigFaces cfg s ∧
      s.traj = cs.foldl (fun traj c => c.after cfg traj) (.init cfg) := by
  suffices h : ∀ (s : Rig), Reached cfg s → RigFaces cfg s →
      ∃ t, Reached cfg t ∧ RigFaces cfg t ∧
        t.traj = cs.foldl (fun traj c => c.after cfg traj) s.traj from
    h _ reached_boot (bootedRig_start cfg).rigFaces
  induction cs with
  | nil => exact fun s hr hf => ⟨s, hr, hf, rfl⟩
  | cons c cs ih =>
    intro s hr hf
    obtain ⟨htraj, hf'⟩ := hf.playCall c
    obtain ⟨t, hrt, hft, ht⟩ := ih _ (hr.play c) hf'
    refine ⟨t, hrt, hft, ht.trans ?_⟩
    rw [htraj]
    rfl

theorem climbs {cfg : ArgusConfig} {s : Rig} (hr : Reached cfg s) (hf : RigFaces cfg s)
    (h : Climbs 0 s.traj) {n : Nat} (hn : n ≤ 1000) :
    ∃ t, Reached cfg t ∧ RigFaces cfg t ∧ Climbs n t.traj := by
  induction n with
  | zero => exact ⟨s, hr, hf, h⟩
  | succ n ih =>
    obtain ⟨t, hrt, hft, hclimb⟩ := ih (by omega)
    obtain ⟨htraj, hft'⟩ := hft.playCall .tick
    refine ⟨_, hrt.play .tick, hft', ?_⟩
    rw [htraj]
    exact hclimb.tick (by omega)

/-- A reversal that is taken back drops the rate below its target, and near `INT32_MAX` an
accelerating tick overflows. -/
theorem trajectory_ramp_fails :
    (¬ ∀ cfg, Rampable cfg → Room cfg → ∀ (s : Rig) (ms : List RigMove), RigStart cfg s →
      IsRun rigStep s ms → ∀ m ∈ ms, isTick m = true → StaysBehind m.pre.traj m.post.traj) ∧
    ¬ ∀ cfg, Rampable cfg → ∀ (s : Rig) (ms : List RigMove), RigStart cfg s → IsRun rigStep s ms →
      ∀ m ∈ ms, 0 ≤ m.post.traj.appliedRpmMilli := by
  constructor
  · intro h
    have hroom : Room argusConfig := by
      unfold Room
      decide
    obtain ⟨s, hr, hf, hs⟩ := exists_reached argusConfig [.setTarget 1000 true, .tick, .tick, .tick,
      .tick, .tick, .setTarget 1000 false, .tick, .setTarget 700 true]
    obtain ⟨htraj, -⟩ := hf.playCall .tick
    have hstay := hr.next .tick (h argusConfig ⟨by decide, by decide, by decide, by decide⟩ hroom) rfl
    have habove := hstay.above
    dsimp only at habove
    rw [htraj, hs] at habove
    exact absurd (habove (by decide)) (by decide)
  · intro h
    obtain ⟨s, hr, hf, hs⟩ := exists_reached highestConfig [.setTarget 2147483647 true]
    have hbottom : Climbs 0 s.traj := by
      rw [hs]
      exact ⟨rfl, rfl, rfl, by decide⟩
    obtain ⟨t, hrt, hft, hclimb⟩ := climbs hr hf hbottom (Nat.le_refl 1000)
    obtain ⟨htraj, -⟩ := hft.playCall .tick
    have hlow : t.traj.ticked.appliedRpmMilli = -2145336813 := by
      have hticked : t.traj.ticked.appliedRpmMilli = (Traj.targetRamp t.traj).1 :=
        congrArg appliedRpmMilli (if_neg hclimb.straight)
      have hwrap : i32 (2147483 * (((1000 : Nat) : Int) + 1)) = -2145336813 := by
        unfold i32
        rw [Int.bmod_def]
        omega
      rw [hticked, hclimb.targetRamp (Nat.le_refl 1000), hwrap, if_neg (by omega)]
    have hneg := hrt.next .tick (h highestConfig ⟨by decide, by decide, by decide, by decide⟩)
    dsimp only at hneg
    rw [htraj] at hneg
    change 0 ≤ t.traj.ticked.appliedRpmMilli at hneg
    omega

end Traj

end Argus
