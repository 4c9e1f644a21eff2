import ArgusPump.CmdRouter
import ArgusPump.MotionRest

/-!
# The controller

The command router of `main/argus_cmd_router.c` and the state manager of
`main/argus_state_mgr.c` as one system.  Operations of the state manager are called by the
dispatch that acts, with the dispatch mutex held, and by nobody else but for `estop` and the
network manager's own `stop_normal`.  A dispatch returns once its operation has, or without it
where it had to wait too long for `s_command_mutex`.

    no step but that of a `start` sets the machine turning                      (drives_step)
    STARTING or RUNNING → ever since a `start` that a dispatch began under the authority it was
      called under, still in force                                       (driven_by_authority)
-/

namespace Argus

open Interact

/-! ## The system -/

/-- The state manager's function that a dispatch calls. -/
def StateMgrAction.op : StateMgrAction → CoreOp
  | .setTarget rpmMilli forward => .setTarget rpmMilli.toInt forward
  | .start => .start
  | .stopNormal => .stopNormal
  | .unlock => .unlock
  | .resetEstop => .resetEstop
  | .recover => .recover

/-- Where the dispatch that acts is in its call of the state manager. -/
inductive ActStage
  | before | inside | after
deriving DecidableEq

structure Plant where
  router : Router
  machine : World
  stage : ActStage

def Plant.start (cfg : ArgusConfig) (gen : StepGen) : Plant := ⟨.start, .init cfg gen, .after⟩

inductive PlantEvent
  | router (ev : RouterEvent)
  /-- The dispatch of the task has the state manager's mutexes. -/
  | operate (t : Nat)
  /-- The network manager's `stop_normal` has. -/
  | stopNormal
  /-- A piece of the machine's other tasks, or of the operation that is running. -/
  | machine (ev : MotionEvent)

abbrev PlantMove := Move Plant PlantEvent

inductive PlantStep : Plant → PlantEvent → Plant → Prop
  | router {w : Plant} {ev : RouterEvent} {router : Router} (h : routerStep w.router ev router)
      (hfinish : ∀ err, ev.act = .finish err → w.stage ≠ .inside) :
      PlantStep w (.router ev) ⟨router, w.machine, if ev.act = .execute then .before else w.stage⟩
  | operate {w : Plant} {t : Nat} {action : StateMgrAction} {snap : AuthoritySnapshot} {machine : World}
      (hacting : w.router.task t = .acting action snap) (hstage : w.stage = .before)
      (h : MotionStep w.machine ⟨.operation action.op, []⟩ machine) :
      PlantStep w (.operate t)
        ⟨w.router, machine, if machine.mutex = .operation then .inside else .after⟩
  | stopNormal {w : Plant} {machine : World}
      (h : MotionStep w.machine ⟨.operation .stopNormal, []⟩ machine) :
      PlantStep w .stopNormal ⟨w.router, machine, w.stage⟩
  | machine {w : Plant} {ev : MotionEvent} {machine : World}
      (hestop : ∀ op, ev.task = .operation op → op = .estop) (h : MotionStep w.machine ev machine) :
      PlantStep w (.machine ev)
        ⟨w.router, machine, if w.stage = .inside ∧ machine.mutex ≠ .operation then .after else w.stage⟩

/-! ## Simulation -/

def RouterAct.isFinish : RouterAct → Bool
  | .finish _ => true
  | _ => false

/-- What the next step is to be. -/
inductive PlantInput
  | router (ev : RouterEvent)
  | operate (t : Nat)
  | machine (task : Task)

/-- The step, if it can be made, with drivers that answer `ESP_OK`. -/
def Plant.advance (w : Plant) : PlantInput → Option (PlantEvent × Plant)
  | .router ev =>
    if ev.act.isFinish ∧ w.stage = .inside then none
    else (w.router.next ev).map fun r =>
      (.router ev, ⟨r.2, w.machine, if ev.act = .execute then .before else w.stage⟩)
  | .operate t =>
    match w.router.task t with
    | .acting action _ =>
      if w.stage = .before then
        (w.machine.advance driversOk (.operation action.op)).map fun r =>
          (.operate t, ⟨w.router, r.2, if r.2.mutex = .operation then .inside else .after⟩)
      else none
    | _ => none
  | .machine (.operation _) => none
  | .machine task =>
    (w.machine.advance driversOk task).map fun r =>
      (.machine ⟨task, r.1⟩,
        ⟨w.router, r.2, if w.stage = .inside ∧ r.2.mutex ≠ .operation then .after else w.stage⟩)

theorem operation_calls {w w' : World} {op : CoreOp} {calls : StepTranscript}
    (h : MotionStep w ⟨.operation op, calls⟩ w') : calls = [] := by
  cases h with
  | operation => rfl
  | estop => rfl

theorem Plant.advance_step {w w' : Plant} {input : PlantInput} {ev : PlantEvent}
    (h : w.advance input = some (ev, w')) : PlantStep w ev w' := by
  cases input with
  | router ev =>
    simp only [advance] at h
    split at h
    · cases h
    next hfinish =>
    obtain ⟨⟨returned, router⟩, hnext, heq⟩ := Option.map_eq_some_iff.mp h
    cases heq
    refine .router ⟨returned, hnext⟩ fun err hact hinside => hfinish ⟨?_, hinside⟩
    rw [hact]
    rfl
  | operate t =>
    simp only [advance] at h
    split at h
    next action snap hacting =>
      split at h
      next hstage =>
        obtain ⟨⟨calls, machine⟩, hadvance, heq⟩ := Option.map_eq_some_iff.mp h
        cases heq
        have hstep := World.advance_step hadvance
        rw [operation_calls hstep] at hstep
        exact .operate hacting hstage hstep
      · cases h
    · cases h
  | machine task =>
    cases task with
    | operation op => cases h
    | _ =>
      unfold advance at h
      dsimp only at h
      obtain ⟨⟨calls, machine⟩, hadvance, heq⟩ := Option.map_eq_some_iff.mp h
      cases heq
      exact .machine nofun (World.advance_step hadvance)

/-- The run of the given steps, up to the first that is impossible. -/
def plantTrace : Plant → List PlantInput → List PlantMove := traceWhile Plant.advance

theorem isRun_plantTrace (w : Plant) (inputs : List PlantInput) :
    IsRun PlantStep w (plantTrace w inputs) :=
  isRun_traceWhile (f := Plant.advance) (fun _ _ _ _ h => Plant.advance_step h) w inputs

/-! ## What a dispatch has passed -/

/-- Whose commands an authority admits. -/
def AuthoritySnapshot.Admits (snap : AuthoritySnapshot) (source : CmdSource) : Prop :=
  (snap.mode = .supervisory ∧ snap.owner = .mqtt ∧ source = .mqttSupervisory) ∨
    (snap.mode = .localService ∧ snap.owner = .browser ∧ source = .localServicePortal) ∨
    snap.mode = .localService ∧ snap.owner = .diagnosticCli ∧ source = .cliDiagnostic

/-- Where a dispatch is: of a command that was asked for and is no safety action and, past the
checks, one that the gate let by. -/
def RouterPhase.Gated (asked : CommandEnvelope → Prop) : RouterPhase → Prop
  | .idle | .transition => True
  | .waiting env | .locked env => asked env ∧ safetyAction env.source env.commandType = false
  | .checked env snap =>
    asked env ∧ safetyAction env.source env.commandType = false ∧ dispatchGate env snap = espOk
  | .acting action snap => ∃ env, asked env ∧ safetyAction env.source env.commandType = false ∧
      dispatchGate env snap = espOk ∧ dispatchAction env = some action

theorem RouterPhase.Gated.mono {asked asked' : CommandEnvelope → Prop} {phase : RouterPhase}
    (h : phase.Gated asked) (hle : phase ≠ .idle → ∀ env, asked env → asked' env) :
    phase.Gated asked' := by
  cases phase with
  | idle => trivial
  | transition => trivial
  | waiting env => exact ⟨hle nofun env h.1, h.2⟩
  | locked env => exact ⟨hle nofun env h.1, h.2⟩
  | checked env snap => exact ⟨hle nofun env h.1, h.2⟩
  | acting action snap =>
    obtain ⟨env, hasked, hrest⟩ := h
    exact ⟨env, hle nofun env hasked, hrest⟩

theorem gate_admits {env : CommandEnvelope} {snap : AuthoritySnapshot}
    (hsafety : safetyAction env.source env.commandType = false) (hgate : dispatchGate env snap = espOk) :
    env.authorityGeneration = snap.generation ∧ snap.Admits env.source := by
  unfold dispatchGate at hgate
  split at hgate
  · cases hgate
  next hgeneration =>
  split at hgate
  · cases hgate
  next hallowed =>
  refine ⟨not_not.mp hgeneration, ?_⟩
  rw [not_not] at hallowed
  unfold authorityValidatePermission at hallowed
  rw [hsafety, if_neg Bool.false_ne_true] at hallowed
  unfold AuthoritySnapshot.Admits
  cases hmode : snap.mode with
  | none =>
    rw [hmode] at hallowed
    cases hallowed
  | serviceTransition =>
    rw [hmode] at hallowed
    cases hallowed
  | supervisory =>
    rw [hmode] at hallowed
    simp only [Bool.and_eq_true, decide_eq_true_eq] at hallowed
    exact .inl ⟨rfl, hallowed.2, hallowed.1⟩
  | localService =>
    rw [hmode] at hallowed
    simp only [Bool.or_eq_true, Bool.and_eq_true, decide_eq_true_eq] at hallowed
    rcases hallowed with ⟨hsource, howner⟩ | ⟨hsource, howner⟩
    · exact .inr (.inl ⟨rfl, howner, hsource⟩)
    · exact .inr (.inr ⟨rfl, howner, hsource⟩)

/-- Every task's phase is one that the gate let it reach. -/
def Router.Gated (asked : Nat → CommandEnvelope → Prop) (w : Router) : Prop :=
  ∀ t, (w.task t).Gated (asked t)

section Gate

variable {asked : Nat → CommandEnvelope → Prop} {w w' : Router} {ev : RouterEvent} {t : Nat}

theorem goto_gated {phase : RouterPhase} (h : w.Gated asked) (hphase : phase.Gated (asked t)) :
    (w.goto t phase).Gated asked := by
  intro u
  rw [goto_task]
  split
  · next heq => exact heq ▸ hphase
  · exact h u

theorem gated_step (h : w.Gated asked) (hs : routerStep w ev w')
    (hnew : ∀ env, ev.act = .dispatch env → asked ev.task env) : w'.Gated asked := by
  obtain ⟨t, act⟩ := ev
  obtain ⟨returned, hs⟩ := hs
  have ht := h t
  unfold Router.next at hs
  split at hs
  · split at hs
    · cases hs
      exact h
    · cases hs
  · next env hact _ =>
    split at hs
    · cases hs
    next hsafety =>
      cases hs
      exact goto_gated h ⟨hnew env hact, Bool.eq_false_iff.mpr hsafety⟩
  · next hphase =>
    rw [hphase] at ht
    split at hs
    · cases hs
      exact goto_gated (w := { w with dispatchMutex := some t }) h ht
    · cases hs
  · next env _ hphase =>
    rw [hphase] at ht
    split at hs
    · next hgate =>
      cases hs
      exact goto_gated h ⟨ht.1, ht.2, hgate⟩
    · cases hs
      exact goto_gated (w := { w with dispatchMutex := none }) h trivial
  · next env snap _ hphase =>
    rw [hphase] at ht
    split at hs
    · next action haction =>
      cases hs
      exact goto_gated h ⟨env, ht.1, ht.2.1, ht.2.2, haction⟩
    · cases hs
      exact goto_gated (w := { w with dispatchMutex := none }) h trivial
  · cases hs
    exact goto_gated (w := { w with dispatchMutex := none }) h trivial
  · split at hs
    · cases hs
      exact goto_gated (w := { w with dispatchMutex := some t }) h trivial
    · cases hs
  · cases hs
    exact goto_gated (w := { w with dispatchMutex := none }) h trivial
  · cases hs
    exact h
  · cases hs
    exact h
  · cases hs

end Gate

/-! ## What drives the machine -/

/-- The machine is to turn. -/
def MachineState.drives (s : MachineState) : Prop := s = .starting ∨ s = .running

/-- A callback seen from the machine states: the core is left alone. -/
def driveHandler (q : CoreCall) (_ : Prop) (r : CoreAnswer) (drives : Prop) : Prop :=
  r.core = q.core ∧ drives = q.core.machineState.drives

/-- What is left of an operation takes the machine to turning only if it is there. -/
def Calm (p : CoreProg) (drives : Prop) : Prop :=
  p.wpS driveHandler (fun q drives => q.core.machineState.drives → drives)
    (fun a drives => a.2.machineState.drives → drives) drives

theorem calm_callback {core : StateCore} {c : Callback} {k : UInt32 → StateCore → CoreProg} {drives : Prop}
    (hops : core.ops = productionOps) (hcore : core.machineState.drives → drives)
    (hk : ∀ v, Calm (k v core) core.machineState.drives) : Calm (core.callback c k) drives := by
  unfold StateCore.callback
  have hhas : core.ops.has c = true := by
    rw [hops]
    cases c <;> rfl
  rw [if_pos hhas]
  refine ⟨hcore, fun r drives' hr => ?_⟩
  obtain ⟨hsame, rfl⟩ := hr
  have hv := hk r.result
  dsimp only at hsame ⊢
  unfold Calm at hv
  rwa [← hsame] at hv ⊢

theorem calm_ret {core : StateCore} {err : EspErr} {drives : Prop}
    (h : core.machineState.drives → drives) :
    Calm (.ret (err, core)) drives := h

theorem drives_reject {core : StateCore} (reason : String) :
    (core.reject reason).machineState.drives → core.machineState.drives := id

/-- No operation but `start` sets the machine turning. -/
theorem CoreOp.calm (op : CoreOp) {core : StateCore} (hcore : LevelOk core)
    (hev : ∀ a g r e, op ≠ .evaluatePeriodic a g r e) :
    Calm (op.prog core) (core.machineState.drives ∨ op = .start) := by
  have hops := hcore.ops
  have hsame (err : EspErr) (reason : String) : Calm (.ret (err, core.reject reason))
      (core.machineState.drives ∨ op = .start) := calm_ret fun h => .inl (drives_reject reason h)
  have hstay (err : EspErr) : Calm (.ret (err, core)) (core.machineState.drives ∨ op = .start) :=
    calm_ret .inl
  have hfault (err : EspErr) (core' : StateCore) (code : UInt32) (reason : String) (drives : Prop) :
      Calm (.ret (err, { core' with machineState := .faulted, faultCode := code }.reject reason)) drives :=
    calm_ret (by rintro (h | h) <;> cases h)
  cases op with
  | setTarget rpmMilli forward =>
    unfold CoreOp.prog StateCore.setTarget
    dsimp only
    split; · exact hsame _ _
    split; · exact hsame _ _
    split; · exact hsame _ _
    split; · exact hsame _ _
    split; · exact hsame _ _
    split
    · refine calm_callback hops .inl fun v => ?_
      split
      · exact hfault _ _ _ _ _
      · exact calm_ret id
    · exact calm_ret .inl
  | start =>
    unfold CoreOp.prog StateCore.start
    dsimp only
    split; · exact hsame _ _
    split; · exact hsame _ _
    split; · exact hsame _ _
    split; · exact hstay _
    split; · exact hsame _ _
    have hfinish (err : EspErr) : Calm (StateCore.startFinish core.commandGeneration err
        { core with machineState := .starting }) (MachineState.starting.drives) := by
      unfold StateCore.startFinish
      split
      · exact calm_ret id
      · split
        · exact hfault _ _ _ _ _
        · exact calm_ret id
    refine calm_callback hops (fun _ => .inr rfl) fun v => ?_
    split
    · exact calm_ret id
    · split
      · exact calm_callback hops id hfinish
      · exact hfinish v
  | stopNormal =>
    unfold CoreOp.prog StateCore.stopNormal
    dsimp only
    split; · exact hsame _ _
    split; · exact hstay _
    refine calm_callback hops (by rintro (h | h) <;> cases h) fun v => ?_
    split
    · exact hfault _ _ _ _ _
    · exact calm_ret id
  | unlock =>
    unfold CoreOp.prog StateCore.unlock
    dsimp only
    split; · exact hsame _ _
    split; · exact hsame _ _
    split; · exact hstay _
    exact calm_callback hops (by rintro (h | h) <;> cases h) fun v => calm_ret id
  | estop =>
    unfold CoreOp.prog StateCore.estop
    dsimp only
    split; · exact hstay _
    exact calm_callback hops (by rintro (h | h) <;> cases h) fun v => calm_ret id
  | resetEstop =>
    unfold CoreOp.prog StateCore.resetEstop
    dsimp only
    split; · exact hsame _ _
    refine calm_ret fun h => ?_
    rcases hcore.dest with hdest | hdest
    · exact .inl (by simp [hdest, MachineState.drives] at h)
    · exact .inl (by simp [hdest, MachineState.drives] at h)
  | recover =>
    unfold CoreOp.prog StateCore.recover
    dsimp only
    split; · exact hsame _ _
    refine calm_callback hops (by rintro (h | h) <;> cases h) fun v => ?_
    split
    · exact calm_ret id
    refine calm_callback hops id fun e => ?_
    unfold StateCore.recoverFinish
    split
    · exact calm_ret (by rintro (h | h) <;> cases h)
    · exact hfault _ _ _ _ _
  | evaluatePeriodic a g ramp err => exact absurd rfl (hev a g ramp err)

/-- The operation in flight has set the machine turning before its callback, or does not. -/
def DriveInv (w : World) : Prop :=
  match w.pending with
  | none => True
  | some (.call q k) => Calm (.ask q k) q.core.machineState.drives
  | some (.delay q k) => ∀ v, Calm (k ⟨v, q.core⟩) q.core.machineState.drives

theorem settle_drives {w : World} {p : CoreProg} {drives : Prop} (hp : Calm p drives) :
    DriveInv (w.settle p) ∧ ((w.settle p).core.machineState.drives → drives) := by
  cases p with
  | ret a => exact ⟨trivial, hp⟩
  | ask q k =>
    refine ⟨⟨id, fun r drives' hr => hp.2 r drives' hr⟩, hp.1⟩

/-- **What drives the machine**: in no step does it start to turn but that of a `start`. -/
theorem drives_step {w w' : World} {ev : MotionEvent} (hrest : RestInv w) (hi : DriveInv w)
    (hs : MotionStep w ev w') :
    DriveInv w' ∧
      (w'.core.machineState.drives → w.core.machineState.drives ∨ ev.task = .operation .start) := by
  have hpending : PendingInv w := by
    rcases hrest with hrest | hrest
    · exact hrest.pending
    · exact hrest.pending
  have hcore : LevelOk w.core := by
    rcases hrest with hrest | hrest
    · exact hrest.core
    · exact hrest.core
  cases hs with
  | operation op _ _ _ hev =>
    obtain ⟨hdrive, hcalm⟩ := settle_drives (w := { w with mutex := .operation }) (op.calm hcore hev)
    refine ⟨hdrive, fun h => ?_⟩
    rcases hcalm h with h | rfl
    · exact .inl h
    · exact .inr rfl
  | estop _ =>
    obtain ⟨hdrive, hcalm⟩ := settle_drives (w := w) (CoreOp.calm .estop hcore nofun)
    refine ⟨hdrive, fun h => .inl ?_⟩
    exact (hcalm h).resolve_right nofun
  | @callback q k calls v traj gen hpend hd =>
    unfold DriveInv at hi
    unfold PendingInv at hpending
    rw [hpend] at hi hpending
    dsimp only at hi hpending
    have hk (u : UInt32) : Calm (k ⟨u, q.core⟩) q.core.machineState.drives := hi.2 ⟨u, q.core⟩ _ ⟨rfl, rfl⟩
    split
    · refine ⟨hk, fun h => .inl h⟩
    · obtain ⟨hdrive, hcalm⟩ := settle_drives (w := { w with traj := traj, gen := gen }) (hk v)
      refine ⟨hdrive, fun h => .inl ?_⟩
      rw [hpending.1]
      exact hcalm h
  | @recoverDelay q k calls v traj gen hpend hd =>
    unfold DriveInv at hi
    unfold PendingInv at hpending
    rw [hpend] at hi hpending
    dsimp only at hi hpending
    obtain ⟨hdrive, hcalm⟩ := settle_drives (w := { w with traj := traj, gen := gen }) (hi v)
    refine ⟨hdrive, fun h => .inl ?_⟩
    rw [hpending.1]
    exact hcalm h
  | snapshot _ _ => exact ⟨hi, .inl⟩
  | @evaluate s hpend _ =>
    refine ⟨?_, fun h => .inl ?_⟩
    · unfold DriveInv
      rw [hpend]
      trivial
    · rcases StateCore.evaluatePeriodic_cases w.core s.appliedRpmMilli s.generatedRpmMilli s.rampActive
        s.latchedError with heq | ⟨-, -, -, heq⟩ | ⟨hm, -⟩ | ⟨-, -, heq⟩
      · rwa [heq] at h
      · rw [heq] at h
        rcases h with h | h <;> cases h
      · exact .inl hm
      · rw [heq] at h
        rcases h with h | h <;> cases h
  | tick _ => exact ⟨hi, .inl⟩
  | alarm _ => exact ⟨hi, .inl⟩

/-! ## What a step of the controller is -/

/-- The step generator's functions that a step called. -/
def PlantEvent.calls : PlantEvent → StepTranscript
  | .machine ev => ev.calls
  | _ => []

section Step

variable {m : PlantMove}

theorem plantStep_router (hs : PlantStep m.pre m.ev m.post) :
    m.post.router = m.pre.router ∧ (∀ ev, m.ev ≠ .router ev) ∨
      ∃ ev, m.ev = .router ev ∧ routerStep m.pre.router ev m.post.router := by
  obtain ⟨w, ev, w'⟩ := m
  dsimp only at hs ⊢
  cases hs with
  | router h hfinish => exact .inr ⟨_, rfl, h⟩
  | operate hacting hstage h => exact .inl ⟨rfl, nofun⟩
  | stopNormal h => exact .inl ⟨rfl, nofun⟩
  | machine hestop h => exact .inl ⟨rfl, nofun⟩

/-- Whose the operations are. -/
theorem plantStep_machine (hs : PlantStep m.pre m.ev m.post) :
    (m.post.machine = m.pre.machine ∧ m.ev.calls = []) ∨
      ∃ ev, MotionStep m.pre.machine ev m.post.machine ∧ m.ev.calls = ev.calls ∧
        ∀ op, ev.task = .operation op → op = .estop ∨ op = .stopNormal ∨
          ∃ t action snap, m.ev = .operate t ∧ m.pre.router.task t = .acting action snap ∧
            op = action.op := by
  obtain ⟨w, ev, w'⟩ := m
  dsimp only at hs ⊢
  cases hs with
  | router h hfinish => exact .inl ⟨rfl, rfl⟩
  | operate hacting hstage h =>
    refine .inr ⟨_, h, rfl, fun op hop => .inr (.inr ⟨_, _, _, rfl, hacting, ?_⟩)⟩
    cases hop
    rfl
  | stopNormal h =>
    refine .inr ⟨_, h, rfl, fun op hop => .inr (.inl ?_)⟩
    cases hop
    rfl
  | machine hestop h => exact .inr ⟨_, h, rfl, fun op hop => .inl (hestop op hop)⟩

end Step

/-! ## The authority of what drives -/

/-- The dispatch that the task is in was called with `env`. -/
def CalledWith (t : Nat) (env : CommandEnvelope) (ms : List PlantMove) : Prop :=
  Since (fun m => m.ev = .router ⟨t, .dispatch env⟩) (fun m => m.post.router.task t = .idle) ms

/-- A mode change takes effect outside dispatches. -/
def KeepsAuthority (m : PlantMove) : Prop :=
  ∀ ev, m.ev = .router ev → KeepsDispatch ⟨m.pre.router, ev, m.post.router⟩

/-- After `ms`, a start command of a task whom the authority in force admits begins in `m`. -/
def StartsUnderAuthority (ms : List PlantMove) (m : PlantMove) : Prop :=
  ∃ t env, m.ev = .operate t ∧ CalledWith t env ms ∧ env.commandType = .start ∧
    m.pre.router.authority.Admits env.source ∧
    env.authorityGeneration = m.pre.router.authority.generation

/-- The machine is to turn ever since such a start. -/
def Driven (ms : List PlantMove) : Prop :=
  ∃ l m r, ms = l ++ m :: r ∧ StartsUnderAuthority l m ∧
    ∀ n ∈ m :: r, n.post.machine.core.machineState.drives

structure PlantInv (w : Plant) (ms : List PlantMove) : Prop where
  gated : w.router.Gated fun t env => CalledWith t env ms
  authority : AuthorityInv w.router
  rest : RestInv w.machine
  drive : DriveInv w.machine
  driven : w.machine.core.machineState.drives → Driven ms

/-- A mode change by a task that has the dispatch mutex. -/
theorem keepsAuthority_of_transition {m : PlantMove} (hi : MutexInv m.pre.router)
    (ht : ∀ t mode owner, m.ev = .router ⟨t, .setMode mode owner⟩ → m.pre.router.task t = .transition) :
    KeepsAuthority m := by
  rintro ⟨t, act⟩ hev mode owner hact - u
  cases show act = .setMode mode owner from hact
  have htask := ht t mode owner hev
  by_contra hmid
  rw [Bool.not_eq_false] at hmid
  have hmine := hi t (by rw [htask]; rfl)
  have hother := hi u (RouterPhase.inside_of_midDispatch hmid)
  obtain rfl := Option.some.inj (hmine.symm.trans hother)
  rw [show m.pre.router.task t = .transition from htask] at hmid
  cases hmid

section Driven

variable {m : PlantMove} {ms : List PlantMove}

theorem plantInv_start (cfg : ArgusConfig) (gen : StepGen) : PlantInv (Plant.start cfg gen) [] where
  gated _ := trivial
  authority := by
    rintro t snap (⟨_, h⟩ | ⟨_, h⟩)
    · cases h
    · cases h
  rest := .inl (worldInv_init cfg gen)
  drive := trivial
  driven := by
    rintro (h | h)
    · cases h
    · cases h

theorem gated_move (h : m.pre.router.Gated fun t env => CalledWith t env ms)
    (hs : PlantStep m.pre m.ev m.post) :
    m.post.router.Gated fun t env => CalledWith t env (ms ++ [m]) := by
  -- as if asked for already where it is asked for now
  have hpre : m.pre.router.Gated fun t env =>
      CalledWith t env ms ∨ m.ev = .router ⟨t, .dispatch env⟩ :=
    fun t => (h t).mono fun _ _ => .inl
  have hpost : m.post.router.Gated fun t env =>
      CalledWith t env ms ∨ m.ev = .router ⟨t, .dispatch env⟩ := by
    rcases plantStep_router hs with ⟨hsame, -⟩ | ⟨⟨t, act⟩, hev, hstep⟩
    · rwa [hsame]
    · refine gated_step hpre hstep fun env hact => .inr ?_
      rw [hev, ← show act = .dispatch env from hact]
  intro t
  refine (hpost t).mono fun hbusy env hasked => ?_
  rcases hasked with hasked | hev
  · exact hasked.append hbusy
  · exact .now hev

theorem authorityInv_move (h : AuthorityInv m.pre.router) (hs : PlantStep m.pre m.ev m.post)
    (hk : KeepsAuthority m) : AuthorityInv m.post.router := by
  rcases plantStep_router hs with ⟨hsame, -⟩ | ⟨ev, hev, hstep⟩
  · rwa [hsame]
  · exact h.step (v := ⟨m.pre.router, ev, m.post.router⟩) hstep (hk ev hev)

theorem driven_move (hi : PlantInv m.pre ms)
    (hdrives : m.post.machine.core.machineState.drives)
    (hfrom : m.pre.machine.core.machineState.drives ∨
      ∃ t snap, m.ev = .operate t ∧ m.pre.router.task t = .acting .start snap) : Driven (ms ++ [m]) := by
  rcases hfrom with hpre | ⟨t, snap, hev, hacting⟩
  · obtain ⟨l, n, r, rfl, hstart, hall⟩ := hi.driven hpre
    refine ⟨l, n, r ++ [m], by simp, hstart, fun k hk => ?_⟩
    rw [← List.cons_append] at hk
    rcases List.mem_append.mp hk with hk | hk
    · exact hall k hk
    · exact List.mem_singleton.mp hk ▸ hdrives
  · have hgated := hi.gated t
    rw [hacting] at hgated
    obtain ⟨env, hasked, hsafety, hgate, haction⟩ := hgated
    have hforce := hi.authority t snap (.inr ⟨_, hacting⟩)
    obtain ⟨hgeneration, hadmits⟩ := gate_admits hsafety hgate
    have hstart : env.commandType = .start := by
      unfold dispatchAction at haction
      cases hcmd : env.commandType <;> rw [hcmd] at haction <;> first | rfl | cases haction
    refine ⟨ms, m, [], rfl, ⟨t, env, hev, hasked, hstart, ?_, ?_⟩, fun k hk => ?_⟩
    · rwa [hforce]
    · rwa [hforce]
    · exact List.mem_singleton.mp hk ▸ hdrives

theorem plantInv_step (hi : PlantInv m.pre ms) (hs : PlantStep m.pre m.ev m.post)
    (hk : KeepsAuthority m) : PlantInv m.post (ms ++ [m]) := by
  have hgated := gated_move hi.gated hs
  have hauthority := authorityInv_move hi.authority hs hk
  rcases plantStep_machine hs with ⟨hsame, -⟩ | ⟨ev, hstep, -, hop⟩
  · refine ⟨hgated, hauthority, hsame ▸ hi.rest, hsame ▸ hi.drive, fun hdrives => ?_⟩
    exact driven_move hi hdrives (.inl (hsame ▸ hdrives))
  · obtain ⟨hdrive, hfrom⟩ := drives_step hi.rest hi.drive hstep
    have hrest := restInv_step (m := ⟨m.pre.machine, ev, m.post.machine⟩) hi.rest hstep
    refine ⟨hgated, hauthority, hrest, hdrive, fun hdrives => driven_move hi hdrives ?_⟩
    rcases hfrom hdrives with hpre | htask
    · exact .inl hpre
    rcases hop _ htask with h | h | ⟨t, action, snap, hev, hacting, haction⟩
    · cases h
    · cases h
    · cases action <;> cases haction
      exact .inr ⟨t, snap, hev, hacting⟩

/-- **What drives the machine had authority**: while it is to turn, it was started by a command
that came in and began under one authority, which admits its source. -/
theorem driven_by_authority {cfg : ArgusConfig} {gen : StepGen}
    (h : IsRun PlantStep (Plant.start cfg gen) ms) (hk : ∀ m ∈ ms, KeepsAuthority m)
    (hdrives : (final (Plant.start cfg gen) ms).machine.core.machineState.drives) : Driven ms := by
  refine (h.inv_past_of (I := PlantInv) (K := fun _ => KeepsAuthority) (plantInv_start cfg gen)
    (fun l m r heq => hk m (by simp [heq])) fun ns m hi hs hk => plantInv_step hi hs hk).driven hdrives

end Driven

/-- Task 1 gives the authority to MQTT, whose task sets a target and starts the machine. -/
def startedRun : List PlantMove := plantTrace (Plant.start argusConfig (.boot argusConfig))
  [.router ⟨1, .lockDispatch⟩, .router ⟨1, .setMode .supervisory .mqtt⟩, .router ⟨1, .unlockDispatch⟩,
   .router ⟨0, .dispatch ⟨.mqttSupervisory, .setTarget, 2, 1000, true⟩⟩, .router ⟨0, .takeMutex⟩,
   .router ⟨0, .check⟩, .router ⟨0, .execute⟩, .operate 0, .router ⟨0, .finish espOk⟩,
   .router ⟨0, .dispatch mqttStart⟩, .router ⟨0, .takeMutex⟩, .router ⟨0, .check⟩,
   .router ⟨0, .execute⟩, .operate 0, .machine .callback, .machine .callback,
   .router ⟨0, .finish espOk⟩, .machine .tick]

/-- A mode change of a task that has the dispatch mutex. -/
def setsLocked (m : PlantMove) : Bool :=
  match m.ev with
  | .router ⟨t, .setMode _ _⟩ => m.pre.router.task t = .transition
  | _ => true

theorem startedRun_driven : Driven startedRun := by
  have hrun : IsRun PlantStep (Plant.start argusConfig (.boot argusConfig)) startedRun :=
    isRun_plantTrace _ _
  have hlocked : startedRun.all setsLocked = true := by decide +kernel
  have hok := (hrun.inv (I := fun w => MutexInv w.router) nofun fun m hi hs => by
    rcases plantStep_router hs with ⟨hsame, -⟩ | ⟨ev, -, hstep⟩
    · exact hsame ▸ hi
    · exact hi.step hstep).1
  refine driven_by_authority hrun (fun m hm => ?_) (.inl (by decide +kernel))
  refine keepsAuthority_of_transition (hok m hm).1 fun t mode owner hev => ?_
  have hall := List.all_eq_true.mp hlocked m hm
  unfold setsLocked at hall
  rw [hev] at hall
  exact of_decide_eq_true hall

end Argus
