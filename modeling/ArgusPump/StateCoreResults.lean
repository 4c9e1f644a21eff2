import ArgusPump.StateCoreRuns

/-!
# What a call returns and what it leaves behind

`set_target`, `start`, `stop_normal`, `unlock` and `recover` return an error code
and leave a machine state.  A caller that reports the one and shows the other
needs both to agree (`ResultAgrees`): `ESP_OK` with every callback answered well
and no fault, or an error with the fault recorded.  With callbacks that no E-stop
interrupts,

    set_target, start, stop_normal    always agree
    unlock                            iff disable_driver answers ESP_OK
    recover                           iff no latch is held and no error is left after
                                      a recovery that answered ESP_OK

(`result_agrees_iff`).
-/

namespace Argus

open Interact

/-- Every callback answered `ESP_OK`, and `get_error`, if it was read, `0`. -/
def AllAnsweredOk (calls : CoreTranscript) : Prop := ∀ x ∈ calls, x.2.result = espOk

instance (calls : CoreTranscript) : Decidable (AllAnsweredOk calls) :=
  inferInstanceAs (Decidable (∀ x ∈ calls, _))

/-- The result that is returned and the state that is left tell the same story. -/
def ResultAgrees (calls : CoreTranscript) (err : EspErr) (core : StateCore) : Prop :=
  (err = espOk ∧ AllAnsweredOk calls ∧ core.machineState ≠ .faulted) ∨
    (err ≠ espOk ∧ core.machineState = .faulted ∧ core.faultCode ≠ 0)

instance (calls : CoreTranscript) (err : EspErr) (core : StateCore) :
    Decidable (ResultAgrees calls err core) :=
  inferInstanceAs (Decidable (_ ∨ _))

/-- The five operations that hand a lower layer's result on. -/
def CoreOp.handsOn : CoreOp → Bool
  | .setTarget _ _ | .start | .stopNormal | .unlock | .recover => true
  | .estop | .resetEstop | .evaluatePeriodic _ _ _ _ => false

/-- `recover` itself was called and failed. -/
def RecoverFailed (calls : CoreTranscript) : Prop :=
  ∃ x ∈ calls, x.1.callback = .recover ∧ x.2.result ≠ espOk

instance (calls : CoreTranscript) : Decidable (RecoverFailed calls) :=
  inferInstanceAs (Decidable (∃ x ∈ calls, _))

/-- When an operation's result and state agree: what `unlock` asks of `disable_driver`, and
`recover` of the latch and of its two callbacks. -/
def CoreOp.AgreesWhen (op : CoreOp) (core : StateCore) (calls : CoreTranscript) : Prop :=
  match op with
  | .unlock => AllAnsweredOk calls
  | .recover => core.estopLatched = false ∧ (AllAnsweredOk calls ∨ RecoverFailed calls)
  | _ => True

namespace StateCore

variable {core core' : StateCore} {calls : CoreTranscript} {err : EspErr}

theorem quiet_answer (v : UInt32) (q : CoreCall) : quiet q ⟨v, q.core⟩ := rfl

/-- A callback that leaves the core alone, or a NULL entry. -/
theorem runs_callback_quiet {c : Callback} {k : UInt32 → StateCore → CoreProg}
    {a : EspErr × StateCore} (h : Prog.Runs quiet (core.callback c k) calls a) :
    (∃ v calls', calls = ⟨⟨c, core⟩, ⟨v, core⟩⟩ :: calls' ∧
      Prog.Runs quiet (k v core) calls' a) ∨ Prog.Runs quiet (k espOk core) calls a := by
  rcases runs_callback h with ⟨v, core1, calls', rfl, hq, hr⟩ | hr
  · have hq : core1 = core := hq
    subst hq
    exact .inl ⟨v, calls', rfl, hr⟩
  · exact .inr hr

theorem setTarget_agrees (rpmMilli : Int) (forward : Bool)
    (h : Prog.Runs quiet (core.setTarget rpmMilli forward) calls (err, core'))
    (hc : calls ≠ []) : ResultAgrees calls err core' := by
  unfold setTarget at h
  split at h; · simp_all
  split at h; · simp_all
  split at h; · simp_all
  split at h; · simp_all
  split at h; · simp_all
  dsimp only at h
  split at h
  next hs =>
    rcases runs_callback_quiet h with ⟨v, calls', rfl, hr⟩ | hr
    · split at hr
      next hv =>
        obtain ⟨rfl, ha⟩ := (Prog.runs_ret_iff _ _ _).mp hr
        obtain ⟨rfl, rfl⟩ := Prod.mk.inj ha
        exact .inr ⟨hv, rfl, hv⟩
      next hv =>
        obtain ⟨rfl, ha⟩ := (Prog.runs_ret_iff _ _ _).mp hr
        obtain ⟨rfl, rfl⟩ := Prod.mk.inj ha
        refine .inl ⟨rfl, by simpa [AllAnsweredOk] using hv, ?_⟩
        rcases hs with hs | hs <;> simp [hs]
    · split at hr <;> simp_all
  · simp_all

/-- What `start` does once a callback that it waits for has answered. -/
theorem startFinish_agrees {entryGen v : UInt32}
    (h : Prog.Runs quiet (startFinish entryGen v core) calls (err, core'))
    (hp : ¬ core.preempted entryGen) (hs : core.machineState ≠ .faulted) :
    calls = [] ∧ err = v ∧ (v = espOk → core'.machineState ≠ .faulted) ∧
      (v ≠ espOk → core'.machineState = .faulted ∧ core'.faultCode ≠ 0) := by
  rw [startFinish, if_neg hp] at h
  split at h
  next hv =>
    obtain ⟨rfl, ha⟩ := (Prog.runs_ret_iff _ _ _).mp h
    obtain ⟨rfl, rfl⟩ := Prod.mk.inj ha
    exact ⟨rfl, rfl, fun he => absurd he hv, fun _ => ⟨rfl, hv⟩⟩
  next hv =>
    obtain ⟨rfl, ha⟩ := (Prog.runs_ret_iff _ _ _).mp h
    obtain ⟨rfl, rfl⟩ := Prod.mk.inj ha
    exact ⟨rfl, rfl, fun _ => hs, fun he => absurd he hv⟩

theorem start_agrees (h : Prog.Runs quiet core.start calls (err, core')) (hc : calls ≠ []) :
    ResultAgrees calls err core' := by
  unfold start at h
  split at h; · simp_all
  next hl =>
  split at h; · simp_all
  split at h; · simp_all
  split at h; · simp_all
  split at h; · simp_all
  have hp : ¬ { core with machineState := .starting }.preempted core.commandGeneration := by
    simp_all [preempted]
  -- the rate call, made by a core that the driver left in `STARTING`
  have hrate : ∀ calls', Prog.Runs quiet ({ core with machineState := .starting }.callback
      (.setTargetRate core.configuredTargetRpmMilli core.requestedForward)
      (startFinish core.commandGeneration)) calls' (err, core') →
      calls' = [] ∧ err = espOk ∧ core'.machineState ≠ .faulted ∨
        ResultAgrees calls' err core' := by
    intro calls' h
    rcases runs_callback_quiet h with ⟨v, calls2, rfl, hr⟩ | hr
    · obtain ⟨rfl, rfl, hok, hbad⟩ := startFinish_agrees hr hp (by simp)
      by_cases hv : err = espOk
      · exact .inr (.inl ⟨hv, by simp [AllAnsweredOk, hv], hok hv⟩)
      · exact .inr (.inr ⟨hv, hbad hv⟩)
    · obtain ⟨rfl, rfl, hok, -⟩ := startFinish_agrees hr hp (by simp)
      exact .inl ⟨rfl, rfl, hok rfl⟩
  rcases runs_callback_quiet h with ⟨v, calls', rfl, hr⟩ | hr
  · rw [if_neg hp] at hr
    split at hr
    next hv =>
      rcases hrate _ hr with ⟨rfl, rfl, hf⟩ | hf | hf
      · exact .inl ⟨rfl, by simp [AllAnsweredOk, hv], hf⟩
      · exact .inl ⟨hf.1, by simpa [AllAnsweredOk, hv] using hf.2.1, hf.2.2⟩
      · exact .inr hf
    next hv =>
      obtain ⟨rfl, rfl, -, hbad⟩ := startFinish_agrees hr hp (by simp)
      exact .inr ⟨hv, hbad hv⟩
  · rw [if_neg hp, if_pos rfl] at hr
    rcases hrate _ hr with ⟨rfl, -⟩ | hf
    · exact absurd rfl hc
    · exact hf

theorem stopNormal_agrees (h : Prog.Runs quiet core.stopNormal calls (err, core'))
    (hc : calls ≠ []) : ResultAgrees calls err core' := by
  unfold stopNormal at h
  split at h; · simp_all
  split at h; · simp_all
  rcases runs_callback_quiet h with ⟨v, calls', rfl, hr⟩ | hr
  · split at hr
    next hv =>
      obtain ⟨rfl, ha⟩ := (Prog.runs_ret_iff _ _ _).mp hr
      obtain ⟨rfl, rfl⟩ := Prod.mk.inj ha
      exact .inr ⟨hv, rfl, hv⟩
    next hv =>
      obtain ⟨rfl, ha⟩ := (Prog.runs_ret_iff _ _ _).mp hr
      obtain ⟨rfl, rfl⟩ := Prod.mk.inj ha
      have hv : err = espOk := Decidable.of_not_not hv
      exact .inl ⟨hv, by simpa [AllAnsweredOk] using hv, by simp⟩
  · split at hr <;> simp_all

/-- `unlock` writes `UNLOCKED` whatever the driver answers. -/
theorem unlock_agrees (h : Prog.Runs quiet core.unlock calls (err, core')) (hc : calls ≠ []) :
    ResultAgrees calls err core' ↔ AllAnsweredOk calls := by
  unfold unlock at h
  split at h; · simp_all
  split at h; · simp_all
  split at h; · simp_all
  rcases runs_callback_quiet h with ⟨v, calls', rfl, hr⟩ | hr
  · obtain ⟨rfl, ha⟩ := (Prog.runs_ret_iff _ _ _).mp hr
    obtain ⟨rfl, rfl⟩ := Prod.mk.inj ha
    simp [ResultAgrees, AllAnsweredOk]
  · simp_all

/-- The verdict of `recover`: `rec_err` decides what is returned, both answers decide the state. -/
theorem recoverFinish_agrees {recErr errVal : UInt32}
    (h : Prog.Runs quiet (recoverFinish recErr errVal core) calls (err, core')) :
    calls = [] ∧ err = recErr ∧
      (core'.machineState = .faulted ↔ recErr ≠ espOk ∨ errVal ≠ 0) ∧
      (core'.machineState = .faulted → core'.faultCode ≠ 0) := by
  obtain ⟨rfl, rfl, hf⟩ := recoverFinish_runs h
  unfold recoverFinish at h
  split at h
  next hv =>
    obtain ⟨-, ha⟩ := (Prog.runs_ret_iff _ _ _).mp h
    obtain ⟨-, rfl⟩ := Prod.mk.inj ha
    exact ⟨rfl, rfl, by simp [hv], by simp⟩
  next hv =>
    obtain ⟨-, ha⟩ := (Prog.runs_ret_iff _ _ _).mp h
    obtain ⟨-, rfl⟩ := Prod.mk.inj ha
    refine ⟨rfl, rfl, iff_of_true rfl ?_, fun _ he => hv (hf.mp he)⟩
    by_contra hc
    exact hv ⟨by_contra fun h1 => hc (.inl h1), by_contra fun h2 => hc (.inr h2)⟩

theorem recover_agrees (h : Prog.Runs quiet core.recover calls (err, core')) (hc : calls ≠ []) :
    ResultAgrees calls err core' ↔
      core.estopLatched = false ∧ (AllAnsweredOk calls ∨ RecoverFailed calls) := by
  unfold recover at h
  split at h; · simp_all
  -- a latch that is held at entry ends the call before `get_error`, in `RECOVERING`
  by_cases hl : core.estopLatched = true
  · have hp : { core with machineState := .recovering }.preempted core.commandGeneration :=
      .inr (.inl hl)
    refine iff_of_false ?_ (by simp [hl])
    rcases runs_callback_quiet h with ⟨v, calls', rfl, hr⟩ | hr
    · rw [if_pos hp] at hr
      obtain ⟨rfl, ha⟩ := (Prog.runs_ret_iff _ _ _).mp hr
      obtain ⟨rfl, rfl⟩ := Prod.mk.inj ha
      simp [ResultAgrees, reject, espErrInvalidState, espOk]
    · rw [if_pos hp] at hr
      exact absurd ((Prog.runs_ret_iff _ _ _).mp hr).1 hc
  · have hp : ¬ { core with machineState := .recovering }.preempted core.commandGeneration := by
      simp_all [preempted]
    rw [Bool.not_eq_true] at hl
    rcases runs_callback_quiet h with ⟨v, calls', rfl, hr⟩ | hr
    · rw [if_neg hp] at hr
      rcases runs_callback_quiet hr with ⟨e, calls2, rfl, hg⟩ | hg
      · obtain ⟨rfl, rfl, hf, hcode⟩ := recoverFinish_agrees hg
        by_cases hv : err = espOk <;> by_cases he : e = 0 <;>
          simp_all [ResultAgrees, AllAnsweredOk, RecoverFailed, espOk]
      · obtain ⟨rfl, rfl, hf, hcode⟩ := recoverFinish_agrees hg
        by_cases hv : err = espOk <;>
          simp_all [ResultAgrees, AllAnsweredOk, RecoverFailed, espOk]
    · rw [if_neg hp] at hr
      rcases runs_callback_quiet hr with ⟨e, calls2, rfl, hg⟩ | hg
      · obtain ⟨rfl, rfl, hf, hcode⟩ := recoverFinish_agrees hg
        by_cases he : e = 0 <;>
          simp_all [ResultAgrees, AllAnsweredOk, RecoverFailed, espOk]
      · exact absurd (recoverFinish_agrees hg).1 hc

end StateCore

/-- **State and result, exactly.**  A call that reaches a lower layer, with no E-stop inside,
returns `ESP_OK` on good answers and no fault, or an error with the fault recorded, iff it is no
`unlock` whose driver call failed and no `recover` that is latched out or leaves an error behind
a recovery that went well. -/
theorem result_agrees_iff (op : CoreOp) (core core' : StateCore) (calls : CoreTranscript)
    (err : EspErr) (hop : op.handsOn = true)
    (h : Prog.Runs StateCore.quiet (op.prog core) calls (err, core')) (hc : calls ≠ []) :
    ResultAgrees calls err core' ↔ op.AgreesWhen core calls := by
  cases op with
  | setTarget rpmMilli forward =>
    exact iff_of_true (StateCore.setTarget_agrees rpmMilli forward h hc) trivial
  | start => exact iff_of_true (StateCore.start_agrees h hc) trivial
  | stopNormal => exact iff_of_true (StateCore.stopNormal_agrees h hc) trivial
  | unlock => exact StateCore.unlock_agrees h hc
  | recover => exact StateCore.recover_agrees h hc
  | estop => simp [CoreOp.handsOn] at hop
  | resetEstop => simp [CoreOp.handsOn] at hop
  | evaluatePeriodic a g ramp e => simp [CoreOp.handsOn] at hop

/-- A recovery that fails: the error is returned and recorded. -/
theorem result_agrees_recover_failed :
    let run := (CoreOp.recover.prog (StateCore.init productionOps)).play
      fun q => ⟨espFail, q.core⟩
    ResultAgrees run.1 run.2.1 run.2.2 :=
  (result_agrees_iff .recover (StateCore.init productionOps) _ _ _ rfl
    (Prog.play_runs (StateCore.quiet_answer espFail) _) (by decide)).mpr ⟨rfl, .inr (by decide)⟩

/-- A driver that cannot be disabled: `unlock` returns its error on a machine shown `UNLOCKED`. -/
theorem result_disagrees_in_unlock :
    ¬ ∀ (ops : MotionOps) (core : StateCore),
      Reach (coreStep StateCore.interruptible) (StateCore.init ops) core →
      ∀ (op : CoreOp) (core' : StateCore) (calls : CoreTranscript) (err : EspErr),
        op.handsOn = true → Prog.Runs StateCore.quiet (op.prog core) calls (err, core') →
        calls ≠ [] → ResultAgrees calls err core' := by
  intro h
  let ms := playOps answerOk (StateCore.init productionOps)
    [.setTarget 1000 true, .start, .stopNormal, .evaluatePeriodic 0 0 false 0]
  let holding := final (StateCore.init productionOps) ms
  let run := (CoreOp.unlock.prog holding).play fun q => ⟨espFail, q.core⟩
  have hr : Reach (coreStep StateCore.interruptible) (StateCore.init productionOps) holding :=
    ⟨ms, playOps_isRun interruptible_answerOk _ _, rfl⟩
  have hrun : Prog.Runs StateCore.quiet (CoreOp.unlock.prog holding) run.1 run.2 :=
    Prog.play_runs (StateCore.quiet_answer espFail) _
  exact absurd (h productionOps holding hr .unlock run.2.2 run.1 run.2.1 rfl hrun (by decide))
    (by decide)

end Argus
