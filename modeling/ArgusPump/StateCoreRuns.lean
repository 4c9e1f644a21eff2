import Mathlib.Data.List.Induction
import ArgusPump.Lib.Run
import ArgusPump.StateCore

/-!
# Runs of the machine state core

A run calls the eight operations in any order with any arguments; every callback
may answer anything.  `quiet` callbacks leave the core alone, `interruptible`
ones may have an E-stop run inside them (`estop_interruptible`).

    latch ⇔ EMERGENCY_STOPPED, left only by reset_estop    (latch_law_iff)
    FAULTED left to a startable state only by recover      (fault_latch_iff)
    an E-stop inside a callback wins                       (estop_preempts_iff)

Each holds under a condition on the operations called, which the theorem names.
-/

namespace Argus

open Interact

/-- A call of one of the `argus_state_core_*` operations. -/
inductive CoreOp
  | setTarget (rpmMilli : Int) (forward : Bool)
  | start
  | stopNormal
  | unlock
  | estop
  | resetEstop
  | recover
  | evaluatePeriodic (appliedRpm generatedRpm : Int) (rampActive : Bool) (latchedError : UInt32)
deriving DecidableEq, Repr

def CoreOp.prog : CoreOp → StateCore → CoreProg
  | .setTarget rpmMilli forward, core => core.setTarget rpmMilli forward
  | .start, core => core.start
  | .stopNormal, core => core.stopNormal
  | .unlock, core => core.unlock
  | .estop, core => core.estop
  | .resetEstop, core => core.resetEstop
  | .recover, core => core.recover
  | .evaluatePeriodic applied generated ramp err, core =>
      .ret (espOk, core.evaluatePeriodic applied generated ramp err)

abbrev CoreTranscript := List ((_ : CoreCall) × CoreAnswer)

/-- One executed operation: the callbacks it made, their answers, and what it returned. -/
structure CoreEvent where
  op : CoreOp
  calls : CoreTranscript
  err : EspErr

abbrev CoreMove := Move StateCore CoreEvent

def coreStep (ok : CoreCall → CoreAnswer → Prop) (core : StateCore) (ev : CoreEvent)
    (core' : StateCore) : Prop :=
  Prog.Runs ok (ev.op.prog core) ev.calls (ev.err, core')

/-! ## What callbacks may do to the core -/

namespace StateCore

/-- The core after an E-stop. -/
def estopped (core : StateCore) : StateCore :=
  if core.machineState = .emergencyStopped then core else core.latchEstop

def quiet (q : CoreCall) (r : CoreAnswer) : Prop := r.core = q.core

def interruptible (q : CoreCall) (r : CoreAnswer) : Prop :=
  r.core = q.core ∨ r.core = q.core.estopped

theorem estopped_eq_self {core : StateCore} (h : core.machineState = .emergencyStopped) :
    core.estopped = core := if_pos h

theorem estopped_eq_latch {core : StateCore} (h : core.machineState ≠ .emergencyStopped) :
    core.estopped = core.latchEstop := if_neg h

@[simp] theorem estopped_machineState (core : StateCore) :
    core.estopped.machineState = .emergencyStopped := by
  unfold estopped
  split
  · assumption
  · rfl

@[simp] theorem estopped_faultCode (core : StateCore) :
    core.estopped.faultCode = core.faultCode := by
  unfold estopped
  split <;> rfl

theorem estopped_latched {core : StateCore} (h : core.estopLatched = true ∨
    core.machineState ≠ .emergencyStopped) : core.estopped.estopLatched = true := by
  unfold estopped
  split
  · exact h.resolve_right (by simp_all)
  · rfl

/-- **`estopped` is what running `estop` does**, also when another E-stop lands in its callback. -/
theorem estop_interruptible (core : StateCore) :
    core.estop.wp interruptible (fun _ => True) fun a => a = (espOk, core.estopped) := by
  unfold estop callback
  split
  next h => simp [estopped_eq_self h]
  next h =>
  rw [estopped_eq_latch h]
  have hl : core.latchEstop.estopped = core.latchEstop := estopped_eq_self rfl
  split
  · refine ⟨trivial, fun r hr => ?_⟩
    rcases hr with hr | hr <;> simp_all
  · simp

theorem callback_wp {ok : CoreCall → CoreAnswer → Prop} {post : EspErr × StateCore → Prop}
    {core : StateCore} {c : Callback} {k : UInt32 → StateCore → CoreProg}
    (hq : ok ⟨c, core⟩ ⟨espOk, core⟩)
    (h : ∀ v core', ok ⟨c, core⟩ ⟨v, core'⟩ → (k v core').wp ok (fun _ => True) post) :
    (core.callback c k).wp ok (fun _ => True) post := by
  unfold callback
  split
  · exact ⟨trivial, fun r hr => h r.result r.core hr⟩
  · exact h _ _ hq

end StateCore

/-- The run that makes the calls `ops` one after another against `env`. -/
def playOps (env : CoreCall → CoreAnswer) : StateCore → List CoreOp → List CoreMove
  | _, [] => []
  | core, op :: ops =>
      let r := (op.prog core).play env
      ⟨core, ⟨op, r.1, r.2.1⟩, r.2.2⟩ :: playOps env r.2.2 ops

theorem playOps_isRun {ok : CoreCall → CoreAnswer → Prop} {env : CoreCall → CoreAnswer}
    (h : ∀ q, ok q (env q)) (core : StateCore) (ops : List CoreOp) :
    IsRun (coreStep ok) core (playOps env core ops) := by
  induction ops generalizing core with
  | nil => trivial
  | cons op ops ih => exact ⟨rfl, Prog.play_runs h _, ih _⟩

/-- Every callback answers `ESP_OK` and leaves the core alone. -/
def answerOk (q : CoreCall) : CoreAnswer := ⟨espOk, q.core⟩

theorem quiet_answerOk (q : CoreCall) : StateCore.quiet q (answerOk q) := rfl

theorem interruptible_answerOk (q : CoreCall) : StateCore.interruptible q (answerOk q) := .inl rfl

/-! ## What one operation can do -/

/-- Where an emergency stop may be reset to. -/
def ResetTarget (core : StateCore) : Prop :=
  core.estopResetDestination = .unlocked ∨ core.estopResetDestination = .holding

/-- The fault code, the latch and the reset destination over one operation. -/
structure CorePost (op : CoreOp) (core : StateCore) (a : EspErr × StateCore) : Prop where
  dest : ResetTarget core → ResetTarget a.2
  /-- The code is written together with `FAULTED`, and cleared by `recover` alone. -/
  code : a.2.faultCode = core.faultCode ∨ (a.2.machineState = .faulted ∧ a.2.faultCode ≠ 0) ∨
    (op = .recover ∧ a.1 = espOk ∧ a.2.faultCode = 0)
  faulted : a.2.machineState = .faulted →
    (core.machineState = .faulted ∧ a.2.faultCode = core.faultCode) ∨ a.2.faultCode ≠ 0
  latched : (op = .resetEstop → core.machineState ≠ .emergencyStopped) →
    core.estopLatched = true → a.2.estopLatched = true
  left : core.machineState = .faulted →
    a.2.machineState = .faulted ∨ a.2.estopLatched = true ∨ a.2.faultCode = 0

theorem CorePost.same (op : CoreOp) (core : StateCore) (e : EspErr) (s : String) :
    CorePost op core (e, core.reject s) :=
  ⟨fun h => h, .inl rfl, fun h => .inl ⟨h, rfl⟩, fun _ h => h, fun h => .inl h⟩

/-- `core'` has `core`'s fault code, and its latch and reset destination up to an E-stop. -/
structure CoreKept (core core' : StateCore) : Prop where
  code : core'.faultCode = core.faultCode
  latched : core.estopLatched = true → core'.estopLatched = true
  dest : ResetTarget core → ResetTarget core'

theorem CoreKept.trans {c₁ c₂ c₃ : StateCore} (h : CoreKept c₁ c₂) (h' : CoreKept c₂ c₃) :
    CoreKept c₁ c₃ :=
  ⟨h'.code.trans h.code, h'.latched ∘ h.latched, h'.dest ∘ h.dest⟩

theorem CoreKept.estopped (core : StateCore) : CoreKept core core.estopped := by
  refine ⟨by simp, fun h => StateCore.estopped_latched (.inl h), fun h => ?_⟩
  unfold StateCore.estopped
  split
  · exact h
  · unfold ResetTarget StateCore.latchEstop
    dsimp only
    split <;> simp

theorem CoreKept.answer {q : CoreCall} {r : CoreAnswer} (h : StateCore.interruptible q r) :
    CoreKept q.core r.core := by
  rcases h with h | h <;> rw [h]
  · exact ⟨rfl, id, id⟩
  · exact .estopped _

/-- Leaving `core` neither into nor out of `FAULTED`. -/
theorem CorePost.kept {op : CoreOp} {core core' : StateCore} {e : EspErr}
    (h : CoreKept core core') (hf : core'.machineState ≠ .faulted)
    (hl : core.machineState = .faulted → core'.estopLatched = true) :
    CorePost op core (e, core') :=
  ⟨h.dest, .inl h.code, fun hc => absurd hc hf, fun _ => h.latched, fun hc => .inr (.inl (hl hc))⟩

/-- Leaving `core` into `FAULTED` with a code. -/
theorem CorePost.fault {op : CoreOp} {core core' : StateCore} {e : EspErr} {v : UInt32}
    (h : CoreKept core core') (hv : v ≠ 0) (s : String) :
    CorePost op core
      (e, { core' with machineState := .faulted, faultCode := v }.reject s) :=
  ⟨h.dest, .inr (.inl ⟨rfl, hv⟩), fun _ => .inr hv, fun _ => h.latched, fun _ => .inl rfl⟩

namespace StateCore

variable {core : StateCore}

theorem interruptible_machineState {q : CoreCall} {r : CoreAnswer} (h : interruptible q r) :
    r.core.machineState = q.core.machineState ∨ r.core.machineState = .emergencyStopped := by
  rcases h with h | h <;> simp [h]

theorem setTarget_post (rpmMilli : Int) (forward : Bool) :
    (core.setTarget rpmMilli forward).wp interruptible (fun _ => True)
      (CorePost (.setTarget rpmMilli forward) core) := by
  unfold setTarget
  split; · exact CorePost.same _ _ _ _
  split; · exact CorePost.same _ _ _ _
  next hf =>
  split; · exact CorePost.same _ _ _ _
  split; · exact CorePost.same _ _ _ _
  split; · exact CorePost.same _ _ _ _
  dsimp only
  have hk : CoreKept core
      { core with configuredTargetRpmMilli := rpmMilli, requestedForward := forward } :=
    ⟨rfl, id, id⟩
  split
  · refine callback_wp (.inl rfl) fun err core1 hq => ?_
    have hk := hk.trans (.answer hq)
    split
    next he => exact .fault hk he _
    · refine .kept hk ?_ fun hc => absurd hc hf
      rcases interruptible_machineState hq with h | h <;> simp_all
  · exact .kept hk hf fun hc => absurd hc hf

theorem startFinish_post (entryGen : UInt32) (err : EspErr) {core' : StateCore}
    (hf : core.machineState ≠ .faulted) (hk : CoreKept core core')
    (hf' : core'.machineState ≠ .faulted) :
    (startFinish entryGen err core').wp interruptible (fun _ => True) (CorePost .start core) := by
  unfold startFinish
  split
  · exact CorePost.kept ⟨hk.code, hk.latched, hk.dest⟩ hf' fun hc => absurd hc hf
  · split
    next he => exact CorePost.fault hk he _
    · exact CorePost.kept hk hf' fun hc => absurd hc hf

theorem start_post : core.start.wp interruptible (fun _ => True) (CorePost .start core) := by
  unfold start
  split; · exact CorePost.same _ _ _ _
  split; · exact CorePost.same _ _ _ _
  next hf =>
  split; · exact CorePost.same _ _ _ _
  split; · exact CorePost.same _ _ _ core.lastRejectionReason
  split; · exact CorePost.same _ _ _ _
  have hk : CoreKept core { core with machineState := .starting } := ⟨rfl, id, id⟩
  refine callback_wp (.inl rfl) fun err core1 hq => ?_
  have hk := hk.trans (.answer hq)
  have hf1 : core1.machineState ≠ .faulted := by
    rcases interruptible_machineState hq with h | h <;> simp_all
  split
  · exact CorePost.kept ⟨hk.code, hk.latched, hk.dest⟩ hf1 fun hc => absurd hc hf
  split
  · refine callback_wp (.inl rfl) fun e core2 hq2 => ?_
    refine startFinish_post _ e hf (hk.trans (.answer hq2)) ?_
    rcases interruptible_machineState hq2 with h | h <;> simp_all
  · exact startFinish_post _ err hf hk hf1

theorem stopNormal_post :
    core.stopNormal.wp interruptible (fun _ => True) (CorePost .stopNormal core) := by
  unfold stopNormal
  split; · exact CorePost.same _ _ _ _
  next hf =>
  rw [not_or] at hf
  split; · exact CorePost.same _ _ _ core.lastRejectionReason
  have hk : CoreKept core { core with machineState := .decelerating } := ⟨rfl, id, id⟩
  refine callback_wp (.inl rfl) fun err core1 hq => ?_
  have hk := hk.trans (.answer hq)
  split
  next he => exact CorePost.fault hk he _
  · refine CorePost.kept hk ?_ fun hc => absurd hc hf.2
    rcases interruptible_machineState hq with h | h <;> simp_all

theorem unlock_post :
    core.unlock.wp interruptible (fun _ => True) (CorePost .unlock core) := by
  unfold unlock
  split; · exact CorePost.same _ _ _ _
  split; · exact CorePost.same _ _ _ _
  next hf =>
  rw [not_or] at hf
  split; · exact CorePost.same _ _ _ core.lastRejectionReason
  have hk : CoreKept core { core with machineState := .unlocked } := ⟨rfl, id, id⟩
  refine callback_wp (.inl rfl) fun err core1 hq => ?_
  refine CorePost.kept (hk.trans (.answer hq)) ?_ fun hc => absurd hc hf.2
  rcases interruptible_machineState hq with h | h <;> simp_all

theorem estop_post : core.estop.wp interruptible (fun _ => True) (CorePost .estop core) := by
  refine Prog.wp_mono (fun _ _ h => h) (fun _ h => h) ?_ _ (estop_interruptible core)
  rintro a rfl
  refine CorePost.kept (.estopped core) (by simp) fun hf => ?_
  exact estopped_latched (.inr (by simp [hf]))

theorem resetEstop_post (h : ResetTarget core) :
    core.resetEstop.wp interruptible (fun _ => True) (CorePost .resetEstop core) := by
  unfold resetEstop
  split; · exact CorePost.same _ _ _ _
  next hs =>
  rw [not_not] at hs
  refine ⟨id, .inl rfl, fun hf => ?_, fun hne => absurd hs (hne rfl), fun hf => by simp_all⟩
  rcases h with h | h <;> simp_all

theorem recover_post : core.recover.wp interruptible (fun _ => True) (CorePost .recover core) := by
  unfold recover
  split; · exact CorePost.same _ _ _ _
  have hk : CoreKept core { core with machineState := .recovering } := ⟨rfl, id, id⟩
  refine callback_wp (.inl rfl) fun recErr core1 hq => ?_
  have hk := hk.trans (.answer hq)
  split
  next hp =>
    refine CorePost.kept ⟨hk.code, hk.latched, hk.dest⟩ ?_ fun hc => ?_
    · rcases interruptible_machineState hq with h | h <;> simp_all [reject]
    · -- preempted: the latch was set before, or the E-stop just ran
      rcases hq with hq | hq <;> dsimp only at hq <;> subst hq
      · simpa [preempted, reject] using hp
      · exact estopped_latched (.inr (by simp))
  refine callback_wp (.inl rfl) fun errVal core2 hq2 => ?_
  have hk := hk.trans (.answer hq2)
  unfold recoverFinish
  split
  next he =>
    exact ⟨hk.dest, .inr (.inr ⟨rfl, he.1, rfl⟩), by simp, fun _ => hk.latched, fun _ => by simp⟩
  next he => 
    refine CorePost.fault hk ?_ _
    split
    · assumption
    · simp_all [espOk]

/-- The four outcomes of a periodic evaluation. -/
theorem evaluatePeriodic_cases (core : StateCore) (applied generated : Int) (ramp : Bool)
    (err : UInt32) :
    core.evaluatePeriodic applied generated ramp err = core ∨
    (err ≠ 0 ∧ core.machineState ≠ .faulted ∧ core.machineState ≠ .recovering ∧
      core.evaluatePeriodic applied generated ramp err =
        { core with machineState := .faulted, faultCode := err }) ∨
    (core.machineState = .starting ∧ core.evaluatePeriodic applied generated ramp err =
        { core with machineState := .running }) ∨
    (core.machineState = .decelerating ∧ applied = 0 ∧
      core.evaluatePeriodic applied generated ramp err =
        { core with machineState := .holding }) := by
  unfold evaluatePeriodic evaluateError
  split
  next h => exact .inr (.inl ⟨h.1, h.2.1, h.2.2, rfl⟩)
  unfold evaluateStarting
  split
  next h => exact .inr (.inr (.inl ⟨h.1, rfl⟩))
  unfold evaluateDecelerating
  split
  next h => exact .inr (.inr (.inr ⟨h.1, h.2.1, rfl⟩))
  exact .inl rfl

theorem evaluatePeriodic_post (applied generated : Int) (ramp : Bool) (err : UInt32) :
    CorePost (.evaluatePeriodic applied generated ramp err) core
      (espOk, core.evaluatePeriodic applied generated ramp err) := by
  rcases evaluatePeriodic_cases core applied generated ramp err with
    h | ⟨he, -, -, h⟩ | ⟨hs, h⟩ | ⟨hs, -, h⟩ <;> rw [h]
  · exact CorePost.same _ _ _ core.lastRejectionReason
  · have hk : CoreKept core core := ⟨rfl, id, id⟩
    exact CorePost.fault hk he core.lastRejectionReason
  · exact CorePost.kept ⟨rfl, id, id⟩ (by simp) (by simp [hs])
  · exact CorePost.kept ⟨rfl, id, id⟩ (by simp) (by simp [hs])

end StateCore

theorem CoreOp.post_wp (op : CoreOp) {core : StateCore} (h : ResetTarget core) :
    (op.prog core).wp StateCore.interruptible (fun _ => True) (CorePost op core) := by
  cases op with
  | setTarget rpmMilli forward => exact StateCore.setTarget_post rpmMilli forward
  | start => exact StateCore.start_post
  | stopNormal => exact StateCore.stopNormal_post
  | unlock => exact StateCore.unlock_post
  | estop => exact StateCore.estop_post
  | resetEstop => exact StateCore.resetEstop_post h
  | recover => exact StateCore.recover_post
  | evaluatePeriodic a g ramp err => exact StateCore.evaluatePeriodic_post a g ramp err

/-- **One step.**  What `CorePost` says of every executed operation. -/
theorem coreStep_post {core core' : StateCore} {ev : CoreEvent} (h : ResetTarget core)
    (hs : coreStep StateCore.interruptible core ev core') : CorePost ev.op core (ev.err, core') :=
  (hs.of_wp (ev.op.post_wp h)).1

/-! ## The emergency-stop latch -/

/-- `estop_latched` is true exactly in `EMERGENCY_STOPPED`. -/
def LatchLaw (core : StateCore) : Prop :=
  core.estopLatched = true ↔ core.machineState = .emergencyStopped

instance (core : StateCore) : Decidable (LatchLaw core) := inferInstanceAs (Decidable (_ ↔ _))

/-- The operations that leave an emergency stop alone: not `recover`, and no
`evaluate_periodic` that reports a lower-layer error. -/
def CoreOp.respectsEstop : CoreOp → Bool
  | .recover => false
  | .evaluatePeriodic _ _ _ latchedError => latchedError = 0
  | _ => true

/-- `LatchLaw` holds after `op`, and only `reset_estop` has left `EMERGENCY_STOPPED`. -/
structure LatchPost (op : CoreOp) (core : StateCore) (a : EspErr × StateCore) : Prop where
  law : LatchLaw a.2
  left : core.machineState = .emergencyStopped → a.2.machineState ≠ .emergencyStopped →
    op = .resetEstop

theorem LatchPost.same {op : CoreOp} {core : StateCore} {e : EspErr} (h : LatchLaw core)
    (s : String) : LatchPost op core (e, core.reject s) :=
  ⟨h, fun h h' => absurd h h'⟩

namespace StateCore

variable {core : StateCore}

theorem setTarget_latch (rpmMilli : Int) (forward : Bool) (h : LatchLaw core) :
    (core.setTarget rpmMilli forward).wp quiet (fun _ => True)
      (LatchPost (.setTarget rpmMilli forward) core) := by
  unfold setTarget
  split; · exact LatchPost.same h _
  next hes =>
  split; · exact LatchPost.same h _
  split; · exact LatchPost.same h _
  split; · exact LatchPost.same h _
  split; · exact LatchPost.same h _
  dsimp only
  split
  · refine callback_wp rfl fun err core1 (hq : core1 = _) => ?_
    subst hq
    split <;> constructor <;> simp_all [LatchLaw, reject]
  · constructor <;> simp_all [LatchLaw]

theorem startFinish_latch (entryGen : UInt32) (err : EspErr) (h : core.estopLatched = false)
    (hs : core.machineState = .starting) :
    (startFinish entryGen err core).wp quiet (fun _ => True) fun a =>
      a.2.estopLatched = false ∧ a.2.machineState ≠ .emergencyStopped := by
  unfold startFinish
  split
  · simp_all [reject]
  · split <;> simp_all [reject]

theorem start_latch (h : LatchLaw core) :
    core.start.wp quiet (fun _ => True) (LatchPost .start core) := by
  unfold start
  split; · exact LatchPost.same h _
  next hes =>
  split; · exact LatchPost.same h _
  split; · exact LatchPost.same h _
  split; · exact LatchPost.same h core.lastRejectionReason
  split; · exact LatchPost.same h _
  rw [not_or, Bool.not_eq_true] at hes
  refine callback_wp rfl fun err core1 (hq : core1 = _) => ?_
  subst hq
  split
  · constructor <;> simp_all [LatchLaw, reject]
  have hfin : ∀ e, (startFinish core.commandGeneration e
      { core with machineState := .starting }).wp quiet (fun _ => True)
        (LatchPost .start core) := fun e =>
    Prog.wp_mono (fun _ _ h => h) (fun _ h => h)
      (fun a ha => ⟨by simp [LatchLaw, ha.1, ha.2], fun hc => absurd hc hes.2⟩) _
      (startFinish_latch _ e hes.1 rfl)
  split
  · refine callback_wp rfl fun e core2 (hq : core2 = _) => ?_
    subst hq
    exact hfin e
  · exact hfin err

theorem stopNormal_latch (h : LatchLaw core) :
    core.stopNormal.wp quiet (fun _ => True) (LatchPost .stopNormal core) := by
  unfold stopNormal
  split; · exact LatchPost.same h _
  split; · exact LatchPost.same h core.lastRejectionReason
  refine callback_wp rfl fun err core1 (hq : core1 = _) => ?_
  subst hq
  split <;> constructor <;> simp_all [LatchLaw, reject]

theorem unlock_latch (h : LatchLaw core) :
    core.unlock.wp quiet (fun _ => True) (LatchPost .unlock core) := by
  unfold unlock
  split; · exact LatchPost.same h _
  split; · exact LatchPost.same h _
  split; · exact LatchPost.same h core.lastRejectionReason
  refine callback_wp rfl fun err core1 (hq : core1 = _) => ?_
  subst hq
  constructor <;> simp_all [LatchLaw]

theorem estop_latch (h : LatchLaw core) :
    core.estop.wp quiet (fun _ => True) (LatchPost .estop core) := by
  refine Prog.wp_mono (fun _ _ => .inl) (fun _ h => h) ?_ _ (estop_interruptible core)
  rintro a rfl
  refine ⟨?_, by simp⟩
  simp only [LatchLaw, estopped_machineState, iff_true]
  exact estopped_latched ((em _).imp h.mpr id)

theorem resetEstop_latch (h : LatchLaw core)
    (hd : core.estopResetDestination ≠ .emergencyStopped) :
    core.resetEstop.wp quiet (fun _ => True) (LatchPost .resetEstop core) := by
  unfold resetEstop
  split
  · exact LatchPost.same h _
  · exact ⟨by simp [LatchLaw, hd], fun _ _ => rfl⟩

theorem recover_latch (h : LatchLaw core) (hs : core.machineState ≠ .emergencyStopped) :
    core.recover.wp quiet (fun _ => True) (LatchPost .recover core) := by
  have hl : core.estopLatched = false := by simp_all [LatchLaw]
  unfold recover
  split; · exact LatchPost.same h _
  refine callback_wp rfl fun recErr core1 (hq : core1 = _) => ?_
  subst hq
  split
  · constructor <;> simp_all [LatchLaw, reject]
  refine callback_wp rfl fun errVal core2 (hq : core2 = _) => ?_
  subst hq
  unfold recoverFinish
  split <;> constructor <;> simp_all [LatchLaw, reject]

theorem evaluatePeriodic_latch (applied generated : Int) (ramp : Bool) (err : UInt32)
    (h : LatchLaw core) (hs : core.machineState = .emergencyStopped → err = 0) :
    LatchPost (.evaluatePeriodic applied generated ramp err) core
      (espOk, core.evaluatePeriodic applied generated ramp err) := by
  rcases evaluatePeriodic_cases core applied generated ramp err with
    he | ⟨he, hf, -, hc⟩ | ⟨hm, hc⟩ | ⟨hm, -, hc⟩
  · rw [he]
    exact LatchPost.same h core.lastRejectionReason
  · have hne : core.machineState ≠ .emergencyStopped := fun hes => he (hs hes)
    rw [hc]
    exact ⟨by simp_all [LatchLaw], fun hes => absurd hes hne⟩
  · rw [hc]
    exact ⟨by simp_all [LatchLaw], fun hes => by simp_all⟩
  · rw [hc]
    exact ⟨by simp_all [LatchLaw], fun hes => by simp_all⟩

/-- `recover` takes a latched core out of `EMERGENCY_STOPPED`. -/
theorem recover_of_estopped (h : core.estopLatched = true)
    (hs : core.machineState = .emergencyStopped) :
    core.recover.wp quiet (fun _ => True) fun a => a.2.machineState = .recovering := by
  unfold recover
  simp only [hs, reduceCtorEq, or_self, if_false]
  refine callback_wp rfl fun recErr core1 (hq : core1 = _) => ?_
  subst hq
  have hp : preempted { core with machineState := .recovering } core.commandGeneration :=
    .inr (.inl h)
  rw [if_pos hp]
  rfl

theorem evaluatePeriodic_of_estopped (applied generated : Int) (ramp : Bool) {err : UInt32}
    (he : err ≠ 0) (hs : core.machineState = .emergencyStopped) :
    (core.evaluatePeriodic applied generated ramp err).machineState = .faulted := by
  simp [evaluatePeriodic, evaluateError, evaluateStarting, evaluateDecelerating, he, hs]

end StateCore

theorem CoreOp.latch_wp (op : CoreOp) {core : StateCore} (h : LatchLaw core)
    (hd : ResetTarget core) (hs : core.machineState = .emergencyStopped → op.respectsEstop) :
    (op.prog core).wp StateCore.quiet (fun _ => True) (LatchPost op core) := by
  cases op with
  | setTarget rpmMilli forward => exact StateCore.setTarget_latch rpmMilli forward h
  | start => exact StateCore.start_latch h
  | stopNormal => exact StateCore.stopNormal_latch h
  | unlock => exact StateCore.unlock_latch h
  | estop => exact StateCore.estop_latch h
  | resetEstop => exact StateCore.resetEstop_latch h (by rcases hd with hd | hd <;> simp [hd])
  | recover => exact StateCore.recover_latch h fun hes => absurd (hs hes) (by decide)
  | evaluatePeriodic a g ramp err =>
    exact StateCore.evaluatePeriodic_latch a g ramp err h fun hes => of_decide_eq_true (hs hes)

/-- **The latch law, exactly.**  `estop_latched` is `EMERGENCY_STOPPED` in every state of a run,
and only `reset_estop` leaves it, iff no `recover` and no reported lower-layer error meets an
emergency stop. -/
theorem latch_law_iff (ops : MotionOps) (ms : List CoreMove)
    (h : IsRun (coreStep StateCore.quiet) (StateCore.init ops) ms) :
    (∀ m ∈ ms, LatchLaw m.post ∧ (m.pre.machineState = .emergencyStopped →
        m.post.machineState ≠ .emergencyStopped → m.ev.op = .resetEstop)) ↔
      ∀ m ∈ ms, m.pre.machineState = .emergencyStopped → m.ev.op.respectsEstop := by
  have hstep : ∀ m : CoreMove, LatchLaw m.pre → ResetTarget m.pre →
      coreStep StateCore.quiet m.pre m.ev m.post →
      (m.pre.machineState = .emergencyStopped → m.ev.op.respectsEstop) →
      LatchPost m.ev.op m.pre (m.ev.err, m.post) := fun m hl hd hs hk =>
    (hs.of_wp (m.ev.op.latch_wp hl hd hk)).1
  have hinit : LatchLaw (StateCore.init ops) := by simp [LatchLaw, StateCore.init]
  constructor
  · intro hlaw m hm hes
    have hpre := h.pre_of_post hinit (fun m hm => (hlaw m hm).1) m hm
    have hs := h.step_of_mem m hm
    have hleft := (hlaw m hm).2 hes
    unfold coreStep at hs
    cases hop : m.ev.op with
    | recover =>
      rw [hop] at hs hleft
      have := (hs.of_wp (StateCore.recover_of_estopped (hpre.mpr hes) hes)).1
      simp_all
    | evaluatePeriodic applied generated ramp err =>
      rw [hop] at hs hleft
      refine decide_eq_true (not_not.mp fun he => ?_)
      have := StateCore.evaluatePeriodic_of_estopped applied generated ramp he hes
      simp_all [CoreOp.prog]
    | _ => rfl
  · intro hk
    have hinv := (h.inv_of (I := fun core => LatchLaw core ∧ ResetTarget core)
      ⟨hinit, .inr rfl⟩ hk fun m hi hs hk =>
        ⟨(hstep m hi.1 hi.2 hs hk).law, (coreStep_post hi.2 (hs.mono fun _ _ => .inl)).dest hi.2⟩).1
    intro m hm
    have := hstep m (hinv m hm).1.1 (hinv m hm).1.2 (h.step_of_mem m hm) (hk m hm)
    exact ⟨this.law, this.left⟩

/-- An ordinary run: a start, an emergency stop and its reset. -/
theorem latch_law_start_estop_reset :
    let ms := playOps answerOk (StateCore.init productionOps)
      [.setTarget 1000 true, .start, .estop, .resetEstop]
    ∀ m ∈ ms, LatchLaw m.post ∧ (m.pre.machineState = .emergencyStopped →
      m.post.machineState ≠ .emergencyStopped → m.ev.op = .resetEstop) :=
  (latch_law_iff productionOps _ (playOps_isRun quiet_answerOk _ _)).mpr (by decide)

/-- `recover` in an emergency stop leaves the core latched in `RECOVERING`. -/
theorem latch_law_breaks_in_recover :
    ¬ ∀ (ops : MotionOps) (ms : List CoreMove),
      IsRun (coreStep StateCore.quiet) (StateCore.init ops) ms →
      ∀ m ∈ ms, LatchLaw m.post ∧ (m.pre.machineState = .emergencyStopped →
        m.post.machineState ≠ .emergencyStopped → m.ev.op = .resetEstop) := by
  intro h
  have hrun := h productionOps
    (playOps answerOk (StateCore.init productionOps) [.estop, .recover])
    (playOps_isRun quiet_answerOk _ _)
  exact absurd hrun (by decide)

/-! ## The fault latch -/

/-- `start` is open: `UNLOCKED` or `HOLDING`, with the latch clear. -/
def Startable (core : StateCore) : Prop :=
  (core.machineState = .unlocked ∨ core.machineState = .holding) ∧ core.estopLatched = false

instance (core : StateCore) : Decidable (Startable core) := inferInstanceAs (Decidable (_ ∧ _))

/-- A `recover` that went through: the lower layer's `recover` answered `ESP_OK`
and its `get_error` answered `0`. -/
def CoreEvent.recoverSucceeded (ev : CoreEvent) : Prop :=
  ev.op = .recover ∧ ev.err = espOk ∧
    ∀ x ∈ ev.calls, x.1.callback = .recover ∨ x.1.callback = .getError → x.2.result = 0

/-- From a `FAULTED` state of the run to a later startable one there is a `recover` that went
through. -/
def FaultLatch (core : StateCore) (ms : List CoreMove) : Prop :=
  ∀ l mid r, ms = l ++ mid ++ r → (final core l).machineState = .faulted →
    Startable (final core (l ++ mid)) → ∃ m ∈ mid, m.ev.recoverSucceeded

namespace StateCore

/-- A callback either puts one entry on the transcript or is NULL. -/
theorem runs_callback {ok : CoreCall → CoreAnswer → Prop} {core : StateCore} {c : Callback}
    {k : UInt32 → StateCore → CoreProg} {tr : CoreTranscript} {a : EspErr × StateCore}
    (h : Prog.Runs ok (core.callback c k) tr a) :
    (∃ v core' tr', tr = ⟨⟨c, core⟩, ⟨v, core'⟩⟩ :: tr' ∧ ok ⟨c, core⟩ ⟨v, core'⟩ ∧
      Prog.Runs ok (k v core') tr' a) ∨ Prog.Runs ok (k espOk core) tr a := by
  unfold callback at h
  split at h
  · obtain ⟨r, tr', rfl, hr, hk⟩ := (Prog.runs_ask_iff _ _ _ _).mp h
    exact .inl ⟨r.result, r.core, tr', rfl, hr, hk⟩
  · exact .inr h

theorem recoverFinish_runs {ok : CoreCall → CoreAnswer → Prop} {recErr errVal err : UInt32}
    {core core' : StateCore} {tr : CoreTranscript}
    (h : Prog.Runs ok (recoverFinish recErr errVal core) tr (err, core')) :
    tr = [] ∧ err = recErr ∧ (core'.faultCode = 0 ↔ recErr = espOk ∧ errVal = 0) := by
  unfold recoverFinish at h
  split at h
  next he =>
    obtain ⟨rfl, ⟨rfl, rfl⟩⟩ := (Prog.runs_ret_iff _ _ _).mp h
    simp [he]
  next he =>
    obtain ⟨rfl, ⟨rfl, rfl⟩⟩ := (Prog.runs_ret_iff _ _ _).mp h
    refine ⟨rfl, rfl, iff_of_false ?_ he⟩
    dsimp only [reject]
    split
    · assumption
    · simp_all [espOk]

/-- **`recover` clears the code just when it goes through.** -/
theorem recover_faultCode {core core' : StateCore} {tr : CoreTranscript} {err : EspErr}
    (h : Prog.Runs interruptible core.recover tr (err, core')) (hc : core.faultCode ≠ 0) :
    core'.faultCode = 0 ↔ (CoreEvent.mk .recover tr err).recoverSucceeded := by
  -- what follows the lower layer's `recover`, once it has answered `v` and left `core1`
  have htail : ∀ (v : UInt32) (core1 : StateCore) (tr' : CoreTranscript), core1.faultCode = core.faultCode →
      Prog.Runs interruptible (if core1.preempted core.commandGeneration then
        .ret (espErrInvalidState, core1.reject "Recovery aborted: E-stop latched during recovery")
      else core1.callback .getError (recoverFinish v)) tr' (err, core') →
      (core'.faultCode = 0 ↔ v = 0 ∧ err = espOk ∧
        ∀ x ∈ tr', x.1.callback = .recover ∨ x.1.callback = .getError → x.2.result = 0) := by
    intro v core1 tr' h1 hr
    split at hr
    · obtain ⟨rfl, ⟨rfl, rfl⟩⟩ := (Prog.runs_ret_iff _ _ _).mp hr
      simp_all [reject, espErrInvalidState, espOk]
    · rcases runs_callback hr with ⟨e, core2, tr2, rfl, -, hf⟩ | hf
      · obtain ⟨rfl, rfl, hf⟩ := recoverFinish_runs hf
        simp [hf, espOk]
      · obtain ⟨rfl, rfl, hf⟩ := recoverFinish_runs hf
        simp [hf, espOk]
  unfold recover at h
  split at h
  · simp_all [CoreEvent.recoverSucceeded, espOk, espErrInvalidState, reject]
  rcases runs_callback h with ⟨v, core1, tr', rfl, hq, hr⟩ | hr
  · rw [htail v core1 tr' (CoreKept.answer hq).code hr]
    simp [CoreEvent.recoverSucceeded]
    tauto
  · rw [htail espOk { core with machineState := .recovering } tr rfl hr]
    simp [CoreEvent.recoverSucceeded, espOk]
end StateCore

/-- `recoverSucceeded` from a core with a fault code is the code being cleared. -/
theorem recoverSucceeded_iff {core core' : StateCore} {ev : CoreEvent} (hd : ResetTarget core)
    (h : coreStep StateCore.interruptible core ev core') (hc : core.faultCode ≠ 0) :
    ev.recoverSucceeded ↔ core'.faultCode = 0 := by
  constructor
  · intro hr
    obtain ⟨op, tr, err⟩ := ev
    obtain rfl : op = .recover := hr.1
    exact (StateCore.recover_faultCode h hc).mpr hr
  · intro h0
    have hop : ev.op = .recover := by
      rcases (coreStep_post hd h).code with h1 | ⟨-, h1⟩ | ⟨h1, -⟩
      · exact absurd (h1.symm.trans h0) hc
      · exact absurd h0 h1
      · exact h1
    obtain ⟨op, tr, err⟩ := ev
    obtain rfl : op = .recover := hop
    exact (StateCore.recover_faultCode h hc).mp h0

theorem run_resetTarget {ops : MotionOps} {ms : List CoreMove}
    (h : IsRun (coreStep StateCore.interruptible) (StateCore.init ops) ms) :
    (∀ m ∈ ms, ResetTarget m.pre ∧ ResetTarget m.post) ∧
      ResetTarget (final (StateCore.init ops) ms) :=
  h.inv (.inr rfl) fun _ hd hs => (coreStep_post hd hs).dest hd

/-- Where a code stands, the run was in `FAULTED` and no `recover` has gone through since. -/
theorem faulted_of_faultCode {ops : MotionOps} {ms : List CoreMove}
    (h : IsRun (coreStep StateCore.interruptible) (StateCore.init ops) ms)
    (hc : (final (StateCore.init ops) ms).faultCode ≠ 0) :
    ∃ l r, ms = l ++ r ∧ (final (StateCore.init ops) l).machineState = .faulted ∧
      ∀ m ∈ r, ¬ m.ev.recoverSucceeded := by
  induction ms using List.reverseRecOn with
  | nil => exact absurd rfl hc
  | append_singleton ms m ih =>
    obtain ⟨hr, hpre, hs, -⟩ := (isRun_append _ _ _).mp h
    have hd := (run_resetTarget hr).2
    rw [← hpre] at hd
    rw [final_append, final_cons, final_nil] at hc
    by_cases hc0 : m.pre.faultCode = 0
    · -- the code is new, so the move ends in `FAULTED`
      rcases (coreStep_post hd hs).code with h1 | ⟨h1, -⟩ | ⟨-, -, h1⟩
      · exact absurd (h1.trans hc0) hc
      · exact ⟨ms ++ [m], [], by simp, by simpa [final_append] using h1, by simp⟩
      · exact absurd h1 hc
    · obtain ⟨l, r, rfl, hl, hno⟩ := ih hr (by rwa [← hpre])
      refine ⟨l, r ++ [m], by simp, hl, fun n hn => ?_⟩
      rcases List.mem_append.mp hn with hn | hn
      · exact hno n hn
      · rw [List.mem_singleton.mp hn, recoverSucceeded_iff hd hs hc0]
        exact hc

/-- A fault code stands just as long as the core is `FAULTED` or latched, and `FAULTED` has one. -/
structure FaultInv (core : StateCore) : Prop where
  dest : ResetTarget core
  code : core.machineState = .faulted → core.faultCode ≠ 0
  held : core.faultCode ≠ 0 → core.machineState = .faulted ∨ core.estopLatched = true

theorem faultInv_step {m : CoreMove} (hi : FaultInv m.pre)
    (hs : coreStep StateCore.interruptible m.pre m.ev m.post)
    (hk : m.ev.op = .resetEstop → m.pre.machineState = .emergencyStopped → m.pre.faultCode = 0) :
    FaultInv m.post := by
  have hp := coreStep_post hi.dest hs
  refine ⟨hp.dest hi.dest, fun hf => ?_, fun hc => ?_⟩
  · rcases hp.faulted hf with ⟨h1, h2⟩ | h1
    · exact h2 ▸ hi.code h1
    · exact h1
  · rcases hp.code with h1 | ⟨h1, -⟩ | ⟨-, -, h1⟩
    · rcases hi.held (h1 ▸ hc) with h2 | h2
      · rcases hp.left h2 with h3 | h3 | h3
        · exact .inl h3
        · exact .inr h3
        · exact absurd h3 hc
      · exact .inr (hp.latched (fun hop hes => hc (h1 ▸ hk hop hes)) h2)
    · exact .inl h1
    · exact absurd h1 hc

/-- No `reset_estop` of the run takes a standing fault code out of `EMERGENCY_STOPPED`. -/
def NoFaultReset (ms : List CoreMove) : Prop :=
  ∀ m ∈ ms, m.ev.op = .resetEstop → m.pre.machineState = .emergencyStopped → m.pre.faultCode = 0

instance (ms : List CoreMove) : Decidable (NoFaultReset ms) :=
  inferInstanceAs (Decidable (∀ m ∈ ms, _))

theorem run_faultInv {ops : MotionOps} {ms : List CoreMove}
    (h : IsRun (coreStep StateCore.interruptible) (StateCore.init ops) ms)
    (hk : NoFaultReset ms) : FaultInv (final (StateCore.init ops) ms) :=
  (h.inv_of ⟨.inr rfl, by simp [StateCore.init], by simp [StateCore.init]⟩ hk
    fun _ hi hs hk => faultInv_step hi hs hk).2

theorem FaultInv.startable {core : StateCore} (hi : FaultInv core) (h : Startable core) :
    core.faultCode = 0 := by
  by_contra hc
  rcases hi.held hc with h1 | h1
  · rcases h.1 with h2 | h2 <;> simp [h1] at h2
  · simp [h.2] at h1

theorem resetEstop_startable {core core' : StateCore} {ev : CoreEvent} (hd : ResetTarget core)
    (hs : coreStep StateCore.interruptible core ev core') (hop : ev.op = .resetEstop)
    (hes : core.machineState = .emergencyStopped) : Startable core' := by
  unfold coreStep at hs
  rw [hop] at hs
  have hs : Prog.Runs StateCore.interruptible core.resetEstop ev.calls (ev.err, core') := hs
  rw [StateCore.resetEstop, if_neg (by simp [hes])] at hs
  obtain ⟨-, hs⟩ := (Prog.runs_ret_iff _ _ _).mp hs
  obtain ⟨-, rfl⟩ := Prod.mk.injEq .. ▸ hs
  exact ⟨hd, rfl⟩

/-- **The fault latch, exactly.**  A run goes from `FAULTED` to a startable state only through a
`recover` that went through, iff no `reset_estop` in `EMERGENCY_STOPPED` meets a standing fault
code. -/
theorem fault_latch_iff (ops : MotionOps) (ms : List CoreMove)
    (h : IsRun (coreStep StateCore.interruptible) (StateCore.init ops) ms) :
    FaultLatch (StateCore.init ops) ms ↔ NoFaultReset ms := by
  constructor
  · intro hlatch m hm hop hes
    by_contra hc
    obtain ⟨l, r, rfl, hl, hpre, hr⟩ := h.split_of_mem hm
    have hd := (run_resetTarget h).1 m (by simp)
    have hst := resetEstop_startable hd.1 (h.step_of_mem m (by simp)) hop hes
    obtain ⟨l1, l2, rfl, hf, hno⟩ := faulted_of_faultCode hl (by rwa [hpre])
    obtain ⟨n, hn, hsucc⟩ := hlatch l1 (l2 ++ [m]) r (by simp) hf
      (by simpa [final_append] using hst)
    rcases List.mem_append.mp hn with hn | hn
    · exact hno n hn hsucc
    · rw [List.mem_singleton.mp hn] at hsucc
      exact absurd (hop.symm.trans hsucc.1) (by simp)
  · rintro hk l mid r rfl hf hst
    obtain ⟨hlm, -⟩ := (isRun_append _ _ _).mp h
    obtain ⟨hl, hmid⟩ := (isRun_append _ _ _).mp hlm
    have hc := (run_faultInv hl fun m hm => hk m (by simp [hm])).code hf
    have hc' := (run_faultInv hlm fun m hm => hk m (List.mem_append_left _ hm)).startable hst
    rw [final_append] at hc'
    -- the code goes away in between, and only `recover` can do that
    obtain ⟨m, hm, hpre, hpost⟩ := hmid.exists_enter (P := fun core => core.faultCode = 0) hc hc'
    have hd := (run_resetTarget hlm).1 m (List.mem_append_right _ hm)
    exact ⟨m, hm, (recoverSucceeded_iff hd.1 (hmid.step_of_mem m hm) hpre).mpr hpost⟩

/-- A fault, a `recover` that goes through, and an emergency stop after it. -/
theorem fault_latch_recovered :
    FaultLatch (StateCore.init productionOps) (playOps answerOk (StateCore.init productionOps)
      [.evaluatePeriodic 0 0 false 5, .recover, .estop, .resetEstop]) :=
  (fault_latch_iff productionOps _ (playOps_isRun interruptible_answerOk _ _)).mpr (by decide)

/-- A fault while starting, then an emergency stop and its reset: the core is in `HOLDING`. -/
theorem fault_latch_breaks_by_reset :
    ¬ ∀ (ops : MotionOps) (ms : List CoreMove),
      IsRun (coreStep StateCore.interruptible) (StateCore.init ops) ms →
      FaultLatch (StateCore.init ops) ms := by
  intro h
  let ms := playOps answerOk (StateCore.init productionOps)
    [.setTarget 1000 true, .start, .evaluatePeriodic 0 0 false 5, .estop, .resetEstop]
  obtain ⟨m, hm, hs⟩ := h productionOps ms (playOps_isRun interruptible_answerOk _ _)
    (ms.take 3) (ms.drop 3) [] (by simp) (by decide) (by decide)
  have hno : ∀ m ∈ ms.drop 3, m.ev.op ≠ .recover := by decide
  exact hno m hm hs.1

/-! ## An E-stop inside a callback -/

/-- The callbacks that make the motor move. -/
def Callback.producesMotion : Callback → Bool
  | .enableDriver => true
  | .setTargetRate rpmMilli _ => rpmMilli ≠ 0
  | _ => false

/-- `argus_state_core_estop` ran inside this callback. -/
def EstopDuring (x : (_ : CoreCall) × CoreAnswer) : Prop := x.2.core = x.1.core.estopped

instance (x : (_ : CoreCall) × CoreAnswer) : Decidable (EstopDuring x) :=
  inferInstanceAs (Decidable (_ = _))

/-- No callback after one with an E-stop inside makes the motor move. -/
def NoMotionAfterEstop : CoreTranscript → Prop
  | [] => True
  | x :: calls => (EstopDuring x → ∀ y ∈ calls, y.1.callback.producesMotion = false) ∧
      NoMotionAfterEstop calls

/-- The E-stop is in force when the operation returns, and no motion followed it. -/
def EstopWins (calls : CoreTranscript) (core : StateCore) : Prop :=
  core.machineState = .emergencyStopped ∧ core.estopLatched = true ∧ NoMotionAfterEstop calls

/-- The callbacks that `op` lets an E-stop interrupt: not `recover`'s `get_error`, and the
callback of `set_target` and of `stop_normal` only if it still answers `ESP_OK`. -/
def CoreOp.tolerates (op : CoreOp) (x : (_ : CoreCall) × CoreAnswer) : Prop :=
  match op, x.1.callback with
  | .setTarget .., .setTargetRate .. => x.2.result = espOk
  | .stopNormal, .stopNormal => x.2.result = espOk
  | .recover, .getError => False
  | _, _ => True

namespace StateCore

variable {core core' : StateCore} {calls : CoreTranscript} {err : EspErr}

theorem estopDuring_or {q : CoreCall} {r : CoreAnswer} (h : interruptible q r)
    (hs : q.core.machineState ≠ .emergencyStopped) :
    (r.core = q.core ∧ ¬ EstopDuring ⟨q, r⟩) ∨
      (EstopDuring ⟨q, r⟩ ∧ r.core.machineState = .emergencyStopped ∧
        r.core.estopLatched = true) := by
  rcases h with h | h
  · refine .inl ⟨h, fun he => hs ?_⟩
    rw [← h, show r.core = q.core.estopped from he]
    exact estopped_machineState _
  · exact .inr ⟨h, by simp [h], by simp [h, estopped_latched (.inr hs)]⟩

theorem setTarget_estop (rpmMilli : Int) (forward : Bool)
    (h : Prog.Runs interruptible (core.setTarget rpmMilli forward) calls (err, core'))
    (hi : ∃ x ∈ calls, EstopDuring x) :
    EstopWins calls core' ↔
      ∀ x ∈ calls, EstopDuring x → (CoreOp.setTarget rpmMilli forward).tolerates x := by
  unfold setTarget at h
  split at h; · simp_all
  split at h; · simp_all
  split at h; · simp_all
  split at h; · simp_all
  split at h; · simp_all
  dsimp only at h
  split at h
  · rcases runs_callback h with ⟨v, core1, calls', rfl, hq, h⟩ | h
    · have hq := estopDuring_or hq (by simp_all)
      split at h
      · obtain ⟨rfl, h⟩ := (Prog.runs_ret_iff _ _ _).mp h
        simp_all [EstopWins, reject, CoreOp.tolerates]
      · obtain ⟨rfl, h⟩ := (Prog.runs_ret_iff _ _ _).mp h
        simp_all [EstopWins, NoMotionAfterEstop, CoreOp.tolerates]
    · split at h <;> simp_all
  · simp_all

theorem stopNormal_estop (h : Prog.Runs interruptible core.stopNormal calls (err, core'))
    (hi : ∃ x ∈ calls, EstopDuring x) :
    EstopWins calls core' ↔ ∀ x ∈ calls, EstopDuring x → CoreOp.stopNormal.tolerates x := by
  unfold stopNormal at h
  split at h; · simp_all
  split at h; · simp_all
  rcases runs_callback h with ⟨v, core1, calls', rfl, hq, h⟩ | h
  · have hq := estopDuring_or hq (by simp)
    split at h
    · obtain ⟨rfl, h⟩ := (Prog.runs_ret_iff _ _ _).mp h
      simp_all [EstopWins, reject, CoreOp.tolerates]
    · obtain ⟨rfl, h⟩ := (Prog.runs_ret_iff _ _ _).mp h
      simp_all [EstopWins, NoMotionAfterEstop, CoreOp.tolerates]
  · split at h <;> simp_all

theorem unlock_estop (h : Prog.Runs interruptible core.unlock calls (err, core'))
    (hi : ∃ x ∈ calls, EstopDuring x) :
    EstopWins calls core' ↔ ∀ x ∈ calls, EstopDuring x → CoreOp.unlock.tolerates x := by
  unfold unlock at h
  split at h; · simp_all
  split at h; · simp_all
  split at h; · simp_all
  rcases runs_callback h with ⟨v, core1, calls', rfl, hq, h⟩ | h
  · have hq := estopDuring_or hq (by simp)
    obtain ⟨rfl, h⟩ := (Prog.runs_ret_iff _ _ _).mp h
    simp_all [EstopWins, NoMotionAfterEstop, CoreOp.tolerates]
  · simp_all

/-- The revalidation sees every E-stop. -/
theorem preempted_of_estop {entryGen : UInt32} (h : core.machineState = .emergencyStopped) :
    core.preempted entryGen := .inr (.inr h)

theorem startFinish_estop {entryGen e : UInt32} {core1 : StateCore}
    (hs : core1.machineState = .emergencyStopped) (hl : core1.estopLatched = true)
    (h : Prog.Runs interruptible (startFinish entryGen e core1) calls (err, core')) :
    calls = [] ∧ core'.machineState = .emergencyStopped ∧ core'.estopLatched = true := by
  rw [startFinish, if_pos (preempted_of_estop hs)] at h
  obtain ⟨rfl, h⟩ := (Prog.runs_ret_iff _ _ _).mp h
  simp_all [reject]

theorem startFinish_calls {entryGen e : UInt32} {core1 : StateCore}
    (h : Prog.Runs interruptible (startFinish entryGen e core1) calls (err, core')) :
    calls = [] := by
  unfold startFinish at h
  split at h
  · exact ((Prog.runs_ret_iff _ _ _).mp h).1
  · split at h <;> exact ((Prog.runs_ret_iff _ _ _).mp h).1

/-- A call without an E-stop inside does not matter. -/
theorem estopWins_cons {x : (_ : CoreCall) × CoreAnswer} (h : ¬ EstopDuring x) :
    EstopWins (x :: calls) core ↔ EstopWins calls core := by
  simp [EstopWins, NoMotionAfterEstop, h]

theorem startRate_estop {entryGen : UInt32} {rpmMilli : Int} {forward : Bool}
    (hs : core.machineState ≠ .emergencyStopped)
    (h : Prog.Runs interruptible
      (core.callback (.setTargetRate rpmMilli forward) (startFinish entryGen)) calls (err, core'))
    (hi : ∃ x ∈ calls, EstopDuring x) : EstopWins calls core' := by
  rcases runs_callback h with ⟨v, core1, calls', rfl, hq, h⟩ | h
  · obtain rfl := startFinish_calls h
    rcases estopDuring_or hq hs with ⟨-, hq⟩ | ⟨-, hs1, hl1⟩
    · simp_all
    · obtain ⟨-, hs', hl'⟩ := startFinish_estop hs1 hl1 h
      simp [EstopWins, NoMotionAfterEstop, hs', hl']
  · obtain rfl := startFinish_calls h
    simp_all

theorem start_estop (h : Prog.Runs interruptible core.start calls (err, core'))
    (hi : ∃ x ∈ calls, EstopDuring x) : EstopWins calls core' := by
  unfold start at h
  split at h; · simp_all
  split at h; · simp_all
  split at h; · simp_all
  split at h; · simp_all
  split at h; · simp_all
  -- the rest of `start`, after an `enable_driver` that no E-stop interrupted
  have hrest : ∀ (v : UInt32) (core1 : StateCore) (calls' : CoreTranscript),
      core1.machineState ≠ .emergencyStopped → (∃ x ∈ calls', EstopDuring x) →
      Prog.Runs interruptible (if core1.preempted core.commandGeneration then
          .ret (espErrInvalidState,
            core1.reject "Start aborted: E-stop latched during driver enable")
        else if v = espOk then
          core1.callback (.setTargetRate core.configuredTargetRpmMilli core.requestedForward)
            (startFinish core.commandGeneration)
        else startFinish core.commandGeneration v core1) calls' (err, core') →
      EstopWins calls' core' := by
    intro v core1 calls' hs hi h
    split at h; · simp_all
    split at h
    · exact startRate_estop hs h hi
    · rw [startFinish_calls h] at hi
      simp at hi
  rcases runs_callback h with ⟨v, core1, calls', rfl, hq, h⟩ | h
  · rcases estopDuring_or hq (by simp) with ⟨rfl, hne⟩ | ⟨-, hs1, hl1⟩
    · rw [estopWins_cons hne]
      exact hrest v _ calls' (by simp) (by simpa [hne] using hi) h
    · dsimp only at hs1 hl1 h
      rw [if_pos (preempted_of_estop hs1)] at h
      obtain ⟨rfl, h⟩ := (Prog.runs_ret_iff _ _ _).mp h
      simp_all [EstopWins, NoMotionAfterEstop, reject]
  · exact hrest espOk { core with machineState := .starting } calls (by simp) hi h

theorem recover_estop (h : Prog.Runs interruptible core.recover calls (err, core'))
    (hi : ∃ x ∈ calls, EstopDuring x) :
    EstopWins calls core' ↔ ∀ x ∈ calls, EstopDuring x → CoreOp.recover.tolerates x := by
  unfold recover at h
  split at h; · simp_all
  -- an E-stop in `get_error` is overwritten by what follows
  have hrest : ∀ (v : UInt32) (core1 : StateCore) (calls' : CoreTranscript),
      (∃ x ∈ calls', EstopDuring x) →
      Prog.Runs interruptible (if core1.preempted core.commandGeneration then
          .ret (espErrInvalidState,
            core1.reject "Recovery aborted: E-stop latched during recovery")
        else core1.callback .getError (recoverFinish v)) calls' (err, core') →
      ¬ EstopWins calls' core' ∧
        ¬ ∀ x ∈ calls', EstopDuring x → CoreOp.recover.tolerates x := by
    intro v core1 calls' hi h
    split at h; · simp_all
    rcases runs_callback h with ⟨e, core2, calls2, rfl, hq, h⟩ | h
    · unfold recoverFinish at h
      split at h
      · obtain ⟨rfl, h⟩ := (Prog.runs_ret_iff _ _ _).mp h
        simp_all [EstopWins, CoreOp.tolerates]
      · obtain ⟨rfl, h⟩ := (Prog.runs_ret_iff _ _ _).mp h
        simp_all [EstopWins, CoreOp.tolerates, reject]
    · obtain ⟨rfl, -⟩ := recoverFinish_runs h
      simp_all
  rcases runs_callback h with ⟨v, core1, calls', rfl, hq, h⟩ | h
  · rcases estopDuring_or hq (by simp) with ⟨rfl, hne⟩ | ⟨hes, hs1, hl1⟩
    · rw [estopWins_cons hne]
      have := hrest v _ calls' (by simpa [hne] using hi) h
      simpa [hne] using iff_of_false this.1 this.2
    · dsimp only at hs1 hl1 h
      rw [if_pos (preempted_of_estop hs1)] at h
      obtain ⟨rfl, h⟩ := (Prog.runs_ret_iff _ _ _).mp h
      simp_all [EstopWins, NoMotionAfterEstop, reject, CoreOp.tolerates]
  · have := hrest espOk { core with machineState := .recovering } calls hi h
    exact iff_of_false this.1 this.2

theorem estop_estop (h : Prog.Runs interruptible core.estop calls (err, core'))
    (hi : ∃ x ∈ calls, EstopDuring x) : EstopWins calls core' := by
  unfold estop at h
  split at h; · simp_all
  next hs =>
  rcases runs_callback h with ⟨v, core1, calls', rfl, hq, h⟩ | h
  · have hself : core.latchEstop.estopped = core.latchEstop := estopped_eq_self rfl
    have h1 : core1 = core.latchEstop := by
      rcases hq with hq | hq <;> simpa [hself] using hq
    obtain ⟨rfl, h⟩ := (Prog.runs_ret_iff _ _ _).mp h
    simp_all [EstopWins, NoMotionAfterEstop, latchEstop]
  · simp_all

end StateCore

/-- **E-stop preemption, exactly.**  An E-stop inside a callback of an operation is in force when
the operation returns, with no motion after it, iff it landed in a callback that the operation
tolerates. -/
theorem estop_preempts_iff (op : CoreOp) (core core' : StateCore) (calls : CoreTranscript)
    (err : EspErr) (h : Prog.Runs StateCore.interruptible (op.prog core) calls (err, core'))
    (hi : ∃ x ∈ calls, EstopDuring x) :
    EstopWins calls core' ↔ ∀ x ∈ calls, EstopDuring x → op.tolerates x := by
  cases op with
  | setTarget rpmMilli forward => exact StateCore.setTarget_estop rpmMilli forward h hi
  | start => exact iff_of_true (StateCore.start_estop h hi) fun _ _ _ => trivial
  | stopNormal => exact StateCore.stopNormal_estop h hi
  | unlock => exact StateCore.unlock_estop h hi
  | estop => exact iff_of_true (StateCore.estop_estop h hi) fun _ _ _ => trivial
  | resetEstop =>
    have h : Prog.Runs StateCore.interruptible core.resetEstop calls (err, core') := h
    unfold StateCore.resetEstop at h
    split at h <;> simp_all
  | recover => exact StateCore.recover_estop h hi
  | evaluatePeriodic a g ramp e => simp_all [CoreOp.prog]

/-- An E-stop in `start`'s `enable_driver`, which fails as well. -/
theorem estop_preempts_start :
    let run := (CoreOp.start.prog
      { StateCore.init productionOps with configuredTargetRpmMilli := 1000 }).play
        fun q => ⟨espFail, q.core.estopped⟩
    EstopWins run.1 run.2.2 :=
  (estop_preempts_iff .start _ _ _ _ (Prog.play_runs (fun _ => .inr rfl) _)
    (by decide)).mpr fun _ _ _ => trivial

/-- An E-stop in `recover`'s `get_error`: the core comes back in `UNLOCKED`. -/
theorem estop_lost_in_get_error :
    ¬ ∀ (op : CoreOp) (core core' : StateCore) (calls : CoreTranscript) (err : EspErr),
      Prog.Runs StateCore.interruptible (op.prog core) calls (err, core') →
      (∃ x ∈ calls, EstopDuring x) → EstopWins calls core' := by
  intro h
  let env (q : CoreCall) : CoreAnswer :=
    ⟨espOk, if q.callback = .getError then q.core.estopped else q.core⟩
  let run := (CoreOp.recover.prog (StateCore.init productionOps)).play env
  have henv : ∀ q, StateCore.interruptible q (env q) := by
    intro q
    by_cases hq : q.callback = .getError
    · exact .inr (if_pos hq)
    · exact .inl (if_neg hq)
  have hwins := h .recover _ run.2.2 run.1 run.2.1 (Prog.play_runs henv _)
    (by decide)
  exact absurd hwins.1 (by decide)

end Argus
