import Mathlib.Algebra.Group.Nat.Defs
import Mathlib.Algebra.Order.Group.Nat
import ArgusPump.StepPins

/-!
# The timing of the pulses

A rate of `rpm_milli` at `steps_per_rev` has the period `6·10^11 / (rpm_milli · steps_per_rev)`
in timer ticks, kept as integer, remainder and denominator; the alarm callback carries the
remainder from step to step.

    the first n intervals of a rate in force take n·integer + ⌊n·remainder / denominator⌋ ticks,
    as long as no alarm is late                                              (pulse_timing)

The edges are those that alarms make, each at its `alarm_value`.
-/

namespace Argus

open Interact

/-! ## Rates -/

/-- The timing of a rate that `set_rate` takes. -/
structure Rate where
  integer : Nat
  remainder : Nat
  denominator : Nat
  period : denominator * integer + remainder = 600000000000
  long : 300 ≤ integer
  remainder_lt : remainder < denominator
  denominator_lt : denominator < 1000000000000000

namespace Rate

variable (r : Rate)

/-- The ticks from the first assertion to the `n`-th after it. -/
def elapsed (n : Nat) : Nat := n * r.integer + n * r.remainder / r.denominator

theorem denominator_pos : 0 < r.denominator := Nat.lt_of_le_of_lt (Nat.zero_le _) r.remainder_lt

theorem integer_le : r.integer ≤ 600000000000 := by
  have hle := Nat.le_mul_of_pos_left r.integer r.denominator_pos
  have hperiod := r.period
  omega

/-- The carry of the accumulator. -/
theorem carry (n : Nat) :
    (n + 1) * r.remainder / r.denominator = n * r.remainder / r.denominator +
      (if r.denominator ≤ n * r.remainder % r.denominator + r.remainder then 1 else 0) ∧
    (n + 1) * r.remainder % r.denominator = n * r.remainder % r.denominator + r.remainder -
      (if r.denominator ≤ n * r.remainder % r.denominator + r.remainder then r.denominator else 0) := by
  have hpos := r.denominator_pos
  have hlt := Nat.mod_lt (n * r.remainder) hpos
  have hrem := r.remainder_lt
  have hsplit : (n + 1) * r.remainder =
      n * r.remainder % r.denominator + r.remainder + r.denominator * (n * r.remainder / r.denominator) := by
    have hdiv := Nat.mod_add_div (n * r.remainder) r.denominator
    rw [Nat.add_mul, Nat.one_mul]
    omega
  rw [hsplit, Nat.add_mul_div_left _ _ hpos, Nat.add_mul_mod_self_left]
  split
  next hcarry =>
    have hle : n * r.remainder % r.denominator + r.remainder - r.denominator < r.denominator := by
      omega
    rw [Nat.div_eq_sub_div hpos hcarry, Nat.mod_eq_sub_mod hcarry, Nat.div_eq_of_lt hle,
      Nat.mod_eq_of_lt hle]
    omega
  next hcarry =>
    have hle : n * r.remainder % r.denominator + r.remainder < r.denominator := by omega
    rw [Nat.div_eq_of_lt hle, Nat.mod_eq_of_lt hle]
    omega

/-- One step more. -/
theorem elapsed_succ (n : Nat) : r.elapsed (n + 1) = r.elapsed n + r.integer +
    if r.denominator ≤ n * r.remainder % r.denominator + r.remainder then 1 else 0 := by
  unfold elapsed
  rw [(r.carry n).1, Nat.add_mul, Nat.one_mul]
  omega

/-- The `k`-th edge from an assertion at `start`: its level and its time. -/
def edge (high low : Nat) (start : UInt64) (k : Nat) : Nat × UInt64 :=
  if k % 2 = 0 then (high, start + UInt64.ofNat (r.elapsed (k / 2)))
  else (low, start + UInt64.ofNat (r.elapsed (k / 2)) + 150)

theorem edge_even (high low : Nat) (start : UInt64) (n : Nat) :
    r.edge high low start (2 * n) = (high, start + UInt64.ofNat (r.elapsed n)) := by
  unfold edge
  rw [if_pos (by omega), Nat.mul_div_cancel_left n (by omega)]

theorem edge_odd (high low : Nat) (start : UInt64) (n : Nat) :
    r.edge high low start (2 * n + 1) = (low, start + UInt64.ofNat (r.elapsed n) + 150) := by
  have hhalf : (2 * n + 1) / 2 = n := by omega
  unfold edge
  rw [if_neg (by omega), hhalf]

/-- The ticks of one step. -/
theorem step_ticks (n : Nat) : r.elapsed (n + 1) - r.elapsed n = r.integer ∨
    r.elapsed (n + 1) - r.elapsed n = r.integer + 1 := by
  rw [r.elapsed_succ]
  split
  · right
    omega
  · left
    omega

theorem ticks_toNat (n : Nat) :
    (UInt64.ofNat (r.elapsed (n + 1) - r.elapsed n)).toNat = r.elapsed (n + 1) - r.elapsed n := by
  have hstep := r.step_ticks n
  have hle := r.integer_le
  rw [UInt64.toNat_ofNat']
  exact Nat.mod_eq_of_lt (by omega)

end Rate

theorem ticks_between (a d : UInt64) : a + d - a = d := by
  rw [UInt64.add_comm, UInt64.add_sub_cancel]

/-- The ticks of a step, rounded down. -/
def ticksOf (rpmMilli : Int) (stepsPerRev : UInt32) : Nat :=
  600000000000 / (rpmMilli.toNat * stepsPerRev.toNat)

theorem den_lt {rpmMilli : Int} (stepsPerRev : UInt32) (hmax : rpmMilli ≤ 200000) :
    rpmMilli.toNat * stepsPerRev.toNat < 1000000000000000 := by
  have hspr := stepsPerRev.toNat_lt
  have hle : rpmMilli.toNat ≤ 200000 := by omega
  calc rpmMilli.toNat * stepsPerRev.toNat
      ≤ 200000 * 4294967296 := Nat.mul_le_mul hle (by omega)
    _ < 1000000000000000 := by decide

theorem den_pos {rpmMilli : Int} {stepsPerRev : UInt32} (hmin : 1 ≤ rpmMilli)
    (hspr : stepsPerRev ≠ 0) : 0 < rpmMilli.toNat * stepsPerRev.toNat := by
  have hne : stepsPerRev.toNat ≠ 0 := fun hz => hspr (UInt32.toNat_inj.mp hz)
  exact Nat.mul_pos (by omega) (by omega)

/-- The timing of an accepted rate. -/
def Rate.of (rpmMilli : Int) (stepsPerRev : UInt32) (hmin : 1 ≤ rpmMilli)
    (hmax : rpmMilli ≤ 200000) (hspr : stepsPerRev ≠ 0) (hlong : 300 ≤ ticksOf rpmMilli stepsPerRev) :
    Rate where
  integer := ticksOf rpmMilli stepsPerRev
  remainder := 600000000000 % (rpmMilli.toNat * stepsPerRev.toNat)
  denominator := rpmMilli.toNat * stepsPerRev.toNat
  period := Nat.div_add_mod _ _
  long := hlong
  remainder_lt := Nat.mod_lt _ (den_pos hmin hspr)
  denominator_lt := den_lt stepsPerRev hmax

structure Timing.Is (t : Timing) (r : Rate) : Prop where
  integer : t.integer.toNat = r.integer
  remainder : t.remainder.toNat = r.remainder
  denominator : t.denominator.toNat = r.denominator

/-! ## The timer -/

/-- The programmed alarm, and the edges of STEP since the count of time began. -/
structure Clock where
  alarm : UInt64
  /-- The `alarm_value` of the alarm that was served last. -/
  now : UInt64
  counting : Bool
  edges : List (Nat × UInt64)
deriving DecidableEq, Repr

/-- What a driver call does to the timer, and to STEP. -/
def Clock.apply (q : HwCall) (clk : Clock) : Clock :=
  match q.call with
  | .gptimerSetAlarmAction alarmCount => { clk with alarm := alarmCount }
  | .gpioSetLevel .step level =>
    if clk.counting then { clk with edges := clk.edges ++ [(level, clk.now)] } else clk
  | _ => clk

theorem Clock.apply_silent (c : Hw) (gen : StepGen) (masked : Bool) (clk : Clock)
    (hc : c.silent = true) : clk.apply ⟨c, gen, masked⟩ = clk := by
  cases c with
  | gpioSetLevel pin level =>
    cases pin with
    | step => exact absurd hc Bool.false_ne_true
    | dir => exact absurd hc Bool.false_ne_true
    | en => rfl
  | gptimerSetAlarmAction alarmCount => exact absurd hc Bool.false_ne_true
  | _ => rfl

/-- The time of the `k`-th edge. -/
def Clock.time (clk : Clock) (k : Nat) : UInt64 := (clk.edges.getD k (0, 0)).2

/-- The ticks from one assertion to the next. -/
def Clock.interval (clk : Clock) (n : Nat) : Nat := (clk.time (2 * n + 2) - clk.time (2 * n)).toNat

/-- The ticks of the first `n` steps together. -/
def Clock.ticks (clk : Clock) : Nat → Nat
  | 0 => 0
  | n + 1 => clk.ticks n + clk.interval n

/-- An alarm; `first` says that the count of time begins with it. -/
structure TimedAlarm where
  rawErr : EspErr
  rawCount : UInt64
  first : Bool
deriving DecidableEq, Repr

/-- An alarm comes when it is programmed to. -/
def Clock.due (clk : Clock) (i : TimedAlarm) : StepGen.Alarm := ⟨clk.alarm, i.rawErr, i.rawCount⟩

/-- The timer when the alarm `i` is raised. -/
def Clock.raise (clk : Clock) (i : TimedAlarm) : Clock :=
  { clk with now := clk.alarm, counting := clk.counting || i.first }

namespace StepGen

/-- The generator and its timer. -/
def clockDevice : Device HwCall (fun _ => HwAnswer) StepGen Clock TimedAlarm :=
  genDevice Clock.apply fun i x y => ServesAlarm Clock.apply (x.2.due i) (x.1, x.2.raise i) y

abbrev ClockState := Machine HwCall (fun _ => HwAnswer) StepGen Clock EspErr

abbrev ClockMove := Move ClockState (MachineEv Call TimedAlarm)

def clockStep : ClockState → MachineEv Call TimedAlarm → ClockState → Prop :=
  clockDevice.Step Call.prog

/-! ## A rate in force -/

instance (t : Timing) (r : Rate) : Decidable (t.Is r) :=
  decidable_of_iff (t.integer.toNat = r.integer ∧ t.remainder.toNat = r.remainder ∧
      t.denominator.toNat = r.denominator)
    ⟨fun ⟨h1, h2, h3⟩ => ⟨h1, h2, h3⟩, fun ⟨h1, h2, h3⟩ => ⟨h1, h2, h3⟩⟩

/-- The generator runs at the rate, and no other is pending. -/
structure InForce (r : Rate) (gen : StepGen) : Prop where
  running : gen.running = true
  driverEnabled : gen.driverEnabled = true
  immediateStop : gen.pendingTiming.immediateStop = false
  pending : Timing.Is gen.pendingTiming r
  active : Timing.Is gen.activeTiming r
  generated : gen.generatedRpmMilli ≠ 0

instance (r : Rate) (gen : StepGen) : Decidable (InForce r gen) :=
  decidable_of_iff (gen.running = true ∧ gen.driverEnabled = true ∧
      gen.pendingTiming.immediateStop = false ∧ gen.pendingTiming.Is r ∧ gen.activeTiming.Is r ∧
      gen.generatedRpmMilli ≠ 0)
    ⟨fun ⟨h1, h2, h3, h4, h5, h6⟩ => ⟨h1, h2, h3, h4, h5, h6⟩,
      fun ⟨h1, h2, h3, h4, h5, h6⟩ => ⟨h1, h2, h3, h4, h5, h6⟩⟩

/-- The next alarm is the first to assert STEP at the rate: it takes it on, or finds it taken on
by a kickstart. -/
structure TakesOn (r : Rate) (gen : StepGen) : Prop where
  pinAsserted : gen.pinAsserted = false
  accepted : InForce r gen.accept
  accumulator : gen.accept.remAccumulator = 0

instance (r : Rate) (gen : StepGen) : Decidable (TakesOn r gen) :=
  decidable_of_iff (gen.pinAsserted = false ∧ InForce r gen.accept ∧ gen.accept.remAccumulator = 0)
    ⟨fun ⟨h1, h2, h3⟩ => ⟨h1, h2, h3⟩, fun ⟨h1, h2, h3⟩ => ⟨h1, h2, h3⟩⟩

/-- When the callback wants the next alarm. -/
def nextAlarm (i : Alarm) (gen : StepGen) : UInt64 :=
  if gen.pinAsserted then i.alarmValue + gen.lowTicks else i.alarmValue + 150

/-- The count of time begins with an assertion that takes the rate on; from then on every alarm
finds the rate in force.  No alarm is late. -/
def AlarmInForce (r : Rate) (i : TimedAlarm) (gen : StepGen) (clk : Clock) : Prop :=
  (i.first = true → clk.counting = false ∧ TakesOn r gen) ∧
    (clk.counting = true → InForce r gen) ∧
    (clk.counting = true ∨ i.first = true → ¬ (clk.due i).Late (gen.nextAlarm (clk.due i)))

instance (r : Rate) (i : TimedAlarm) (gen : StepGen) (clk : Clock) :
    Decidable (AlarmInForce r i gen clk) := inferInstanceAs (Decidable (_ ∧ _ ∧ _))

/-- A driver call made while the rate is in force. -/
def CallInForce (r : Rate) (q : HwCall) (clk : Clock) : Prop := clk.counting = true → InForce r q.gen

instance (r : Rate) (q : HwCall) (clk : Clock) : Decidable (CallInForce r q clk) :=
  inferInstanceAs (Decidable (_ → _))

/-- `set_rate` will not kickstart: the generator is stopped, or runs at a rate and has no stop to
take on. -/
structure Runs (gen : StepGen) : Prop where
  generated : gen.generatedRpmMilli ≠ 0
  immediateStop : gen.pendingTiming.immediateStop = false
  next : gen.requestedRpmMilli ≠ 0 ∨
    gen.activeTiming.integer = gen.pendingTiming.integer ∧
    gen.activeTiming.remainder = gen.pendingTiming.remainder ∧
    gen.activeTiming.denominator = gen.pendingTiming.denominator

instance (gen : StepGen) : Decidable (Runs gen) :=
  decidable_of_iff (gen.generatedRpmMilli ≠ 0 ∧ gen.pendingTiming.immediateStop = false ∧
      (gen.requestedRpmMilli ≠ 0 ∨ gen.activeTiming.integer = gen.pendingTiming.integer ∧
        gen.activeTiming.remainder = gen.pendingTiming.remainder ∧
        gen.activeTiming.denominator = gen.pendingTiming.denominator))
    ⟨fun ⟨h1, h2, h3⟩ => ⟨h1, h2, h3⟩, fun ⟨h1, h2, h3⟩ => ⟨h1, h2, h3⟩⟩

def Settled (gen : StepGen) (_ : Clock) : Prop := gen.running = false ∨ Runs gen

instance (gen : StepGen) (clk : Clock) : Decidable (Settled gen clk) :=
  inferInstanceAs (Decidable (_ ∨ _))

/-- A `set_rate` of the run does not kickstart. -/
def NoKickstart (c : Call) (gen : StepGen) (clk : Clock) : Prop :=
  match c with
  | .setRate rpmMilli _ => rpmMilli = 0 ∨ Settled gen clk
  | _ => True

instance (c : Call) (gen : StepGen) (clk : Clock) : Decidable (NoKickstart c gen clk) :=
  match c with
  | .setRate _ _ => inferInstanceAs (Decidable (_ ∨ _))
  | .arm | .start | .setDirection _ | .stopImmediate | .stopProfiled | .disableDriver
  | .enableDriver => inferInstanceAs (Decidable True)

/-- The moves of a run in which the rate stays in force. -/
def KeepsRate (r : Rate) (m : ClockMove) : Prop :=
  Device.Within (CallInForce r) (AlarmInForce r) NoKickstart m

instance (r : Rate) (m : ClockMove) : Decidable (KeepsRate r m) :=
  inferInstanceAs (Decidable (Device.Within _ _ _ m))

/-! ## What holds of the pulses -/

/-- The pulses of the rate are exact. -/
structure PulsesExact (r : Rate) (gen : StepGen) (clk : Clock) : Prop where
  levels : ∀ k < clk.edges.length, (clk.edges.getD k (0, 0)).1 =
    if k % 2 = 0 then gen.stepActiveLevel else gen.stepInactiveLevel
  sum : ∀ n, 2 * n < clk.edges.length →
    clk.ticks n = n * r.integer + n * r.remainder / r.denominator
  /-- The assertions are less than a tick behind the rate. -/
  error : ∀ n, 2 * n < clk.edges.length →
    r.denominator * clk.ticks n ≤ n * 600000000000 ∧
      n * 600000000000 < r.denominator * (clk.ticks n + 1)
  interval : ∀ n, 2 * n + 2 < clk.edges.length →
    clk.interval n = r.integer ∨ clk.interval n = r.integer + 1
  active : ∀ n, 2 * n + 1 < clk.edges.length → clk.time (2 * n + 1) - clk.time (2 * n) = 150
  inactive : ∀ n, 2 * n + 2 < clk.edges.length →
    150 ≤ (clk.time (2 * n + 2) - clk.time (2 * n + 1)).toNat
  accumulator : gen.remAccumulator.toNat < r.denominator

/-- The edges so far, and what the callback has prepared for the next. -/
structure Timeline (r : Rate) (start : UInt64) (gen : StepGen) (clk : Clock) : Prop where
  begun : clk.edges ≠ []
  edges : clk.edges = (List.range clk.edges.length).map
    (r.edge gen.stepActiveLevel gen.stepInactiveLevel start)
  phase : gen.pinAsserted = decide (clk.edges.length % 2 = 1)
  accumulator : gen.remAccumulator.toNat =
    (clk.edges.length + 1) / 2 * r.remainder % r.denominator
  next : gen.nextStepTicks.toNat =
    r.elapsed ((clk.edges.length + 1) / 2) - r.elapsed ((clk.edges.length + 1) / 2 - 1)
  alarm : clk.alarm =
    (r.edge gen.stepActiveLevel gen.stepInactiveLevel start clk.edges.length).2

/-! ## One alarm -/

/-- One assertion: the accumulator, and the ticks of the step. -/
theorem asserted_timing {r : Rate} {gen : StepGen} {n : Nat} (hrate : gen.activeTiming.Is r)
    (hacc : gen.remAccumulator.toNat = n * r.remainder % r.denominator) :
    gen.asserted.remAccumulator.toNat = (n + 1) * r.remainder % r.denominator ∧
      gen.asserted.nextStepTicks.toNat = r.elapsed (n + 1) - r.elapsed n := by
  have hlt := Nat.mod_lt (n * r.remainder) r.denominator_pos
  have hrem := r.remainder_lt
  have hden := r.denominator_lt
  have hint := r.integer_le
  have hsum : (gen.remAccumulator + gen.activeTiming.remainder).toNat =
      n * r.remainder % r.denominator + r.remainder := by
    rw [UInt64.toNat_add, hacc, hrate.remainder]
    omega
  have hcarry : gen.remAccumulator + gen.activeTiming.remainder ≥ gen.activeTiming.denominator ↔
      r.denominator ≤ n * r.remainder % r.denominator + r.remainder := by
    rw [ge_iff_le, UInt64.le_iff_toNat_le, hsum, hrate.denominator]
  rw [r.elapsed_succ, (r.carry n).2]
  unfold asserted
  dsimp only
  by_cases hc : r.denominator ≤ n * r.remainder % r.denominator + r.remainder
  · rw [decide_eq_true (hcarry.mpr hc), if_pos rfl, if_pos rfl, if_pos hc, if_pos hc]
    constructor
    · rw [UInt64.toNat_sub_of_le _ _ (hcarry.mpr hc), hsum, hrate.denominator]
    · rw [UInt64.toNat_add, hrate.integer]
      have hone : (1 : UInt64).toNat = 1 := rfl
      omega
  · rw [decide_eq_false (mt hcarry.mp hc), if_neg Bool.false_ne_true, if_neg Bool.false_ne_true,
      if_neg hc, if_neg hc]
    constructor
    · rw [hsum]
      omega
    · rw [hrate.integer]
      omega

/-- A step in progress goes on for the rest of its ticks. -/
theorem lowTicks_of_long {gen : StepGen} {d : Nat} (h : gen.nextStepTicks.toNat = d)
    (hd : 300 ≤ d) : gen.lowTicks = UInt64.ofNat d - 150 := by
  have hnext : gen.nextStepTicks = UInt64.ofNat d := by
    rw [← h, UInt64.ofNat_toNat]
  unfold lowTicks
  rw [hnext, if_pos]
  rw [gt_iff_lt, UInt64.lt_iff_toNat_lt, ← hnext, h]
  have hc : (150 : UInt64).toNat = 150 := rfl
  omega

theorem accept_of_inForce {r : Rate} {gen : StepGen} (h : InForce r gen) : gen.accept = gen := by
  have hinteger : gen.activeTiming.integer = gen.pendingTiming.integer := by
    rw [← UInt64.toNat_inj, h.active.integer, h.pending.integer]
  have hremainder : gen.activeTiming.remainder = gen.pendingTiming.remainder := by
    rw [← UInt64.toNat_inj, h.active.remainder, h.pending.remainder]
  have hdenominator : gen.activeTiming.denominator = gen.pendingTiming.denominator := by
    rw [← UInt64.toNat_inj, h.active.denominator, h.pending.denominator]
  unfold accept
  rw [if_neg (by simp [h.immediateStop]), if_neg (by simp [hinteger, hremainder, hdenominator])]

theorem integer_ne_of_is {t : Timing} {r : Rate} (h : t.Is r) : t.integer ≠ 0 := by
  intro hz
  have hint := h.integer
  rw [hz] at hint
  have hlong := r.long
  have hc : (0 : UInt64).toNat = 0 := rfl
  omega

/-- The next edge in its place. -/
theorem edges_snoc {r : Rate} {high low : Nat} {start : UInt64} {edges : List (Nat × UInt64)}
    {e : Nat × UInt64} (h : edges = (List.range edges.length).map (r.edge high low start))
    (he : e = r.edge high low start edges.length) :
    edges ++ [e] = (List.range (edges ++ [e]).length).map (r.edge high low start) := by
  rw [List.length_append, List.length_singleton, List.range_succ, List.map_append, ← h, he]
  rfl

theorem Timeline.deassert {r : Rate} {start : UInt64} {gen gen' : StepGen} {clk clk' : Clock}
    (h : Timeline r start gen clk) (hpin : gen.pinAsserted = true)
    (hacc : gen'.remAccumulator = gen.remAccumulator)
    (hnext : gen'.nextStepTicks = gen.nextStepTicks) (hpin' : gen'.pinAsserted = false)
    (hhigh : gen'.stepActiveLevel = gen.stepActiveLevel)
    (hlow : gen'.stepInactiveLevel = gen.stepInactiveLevel)
    (hedges : clk'.edges = clk.edges ++ [(gen.stepInactiveLevel, clk.alarm)])
    (halarm : clk'.alarm = clk.alarm + gen.lowTicks) : Timeline r start gen' clk' := by
  have hodd : clk.edges.length % 2 = 1 := by
    have hphase := h.phase
    rw [hpin] at hphase
    exact of_decide_eq_true hphase.symm
  obtain ⟨n, hn⟩ : ∃ n, clk.edges.length = 2 * n + 1 := ⟨clk.edges.length / 2, by omega⟩
  have hround : (clk.edges.length + 1) / 2 = n + 1 := by omega
  have hlen : clk'.edges.length = 2 * (n + 1) := by
    rw [hedges, List.length_append, List.length_singleton]
    omega
  have hround' : (clk'.edges.length + 1) / 2 = n + 1 := by omega
  have hnow : clk.alarm = start + UInt64.ofNat (r.elapsed n) + 150 := by
    rw [h.alarm, hn, Rate.edge_odd]
  have hticks := h.next
  rw [hround, Nat.add_sub_cancel] at hticks
  refine ⟨?_, ?_, ?_, ?_, ?_, ?_⟩
  · rw [hedges]
    simp
  · rw [hedges, hhigh, hlow]
    refine edges_snoc h.edges ?_
    rw [hn, Rate.edge_odd, hnow]
  · rw [hpin', hlen]
    simp
  · rw [hacc, h.accumulator, hround, hround']
  · rw [hnext, hticks, hround', Nat.add_sub_cancel]
  · have hlong := r.long
    have hmono : r.elapsed (n + 1) = r.elapsed n + (r.elapsed (n + 1) - r.elapsed n) := by
      rw [r.elapsed_succ]
      omega
    have hge : 300 ≤ r.elapsed (n + 1) - r.elapsed n := by
      rcases r.step_ticks n with hs | hs <;> omega
    rw [halarm, hlen, Rate.edge_even, lowTicks_of_long hticks hge, hnow, hmono, UInt64.ofNat_add]
    grind

theorem Timeline.assert {r : Rate} {start : UInt64} {gen : StepGen} {clk clk' : Clock}
    (h : Timeline r start gen clk) (hpin : gen.pinAsserted = false)
    (hrate : gen.activeTiming.Is r)
    (hedges : clk'.edges = clk.edges ++ [(gen.stepActiveLevel, clk.alarm)])
    (halarm : clk'.alarm = clk.alarm + 150) : Timeline r start gen.asserted clk' := by
  have heven : ¬ clk.edges.length % 2 = 1 := by
    have hphase := h.phase
    rw [hpin] at hphase
    exact of_decide_eq_false hphase.symm
  obtain ⟨n, hn⟩ : ∃ n, clk.edges.length = 2 * n := ⟨clk.edges.length / 2, by omega⟩
  have hround : (clk.edges.length + 1) / 2 = n := by omega
  have hlen : clk'.edges.length = 2 * n + 1 := by
    rw [hedges, List.length_append, List.length_singleton]
    omega
  have hround' : (clk'.edges.length + 1) / 2 = n + 1 := by omega
  have hnow : clk.alarm = start + UInt64.ofNat (r.elapsed n) := by
    rw [h.alarm, hn, Rate.edge_even]
  have hacc := h.accumulator
  rw [hround] at hacc
  obtain ⟨hacc', hnext'⟩ := asserted_timing hrate hacc
  refine ⟨?_, ?_, ?_, ?_, ?_, ?_⟩
  · rw [hedges]
    simp
  · rw [hedges]
    refine edges_snoc h.edges ?_
    rw [hn, Rate.edge_even, hnow]
    rfl
  · rw [hlen]
    exact (decide_eq_true (by omega)).symm
  · rw [hacc', hround']
  · rw [hnext', hround', Nat.add_sub_cancel]
  · rw [halarm, hlen, Rate.edge_odd, hnow]

/-- The first assertion at the rate. -/
theorem Timeline.begin {r : Rate} {start : UInt64} {gen : StepGen} {clk : Clock}
    (h : TakesOn r gen) (hedges : clk.edges = [(gen.accept.stepActiveLevel, start)])
    (halarm : clk.alarm = start + 150) : Timeline r start gen.accept.asserted clk := by
  have hzero : gen.accept.remAccumulator.toNat = 0 * r.remainder % r.denominator := by
    rw [h.accumulator, Nat.zero_mul, Nat.zero_mod]
    rfl
  obtain ⟨hacc, hnext⟩ := asserted_timing h.accepted.active hzero
  have hnow : start + UInt64.ofNat (r.elapsed 0) = start := by
    unfold Rate.elapsed
    rw [Nat.zero_mul, Nat.zero_mul, Nat.zero_div]
    exact UInt64.add_zero start
  have hlen : clk.edges.length = 2 * 0 + 1 := by rw [hedges, List.length_singleton]
  have hround : (clk.edges.length + 1) / 2 = 0 + 1 := by omega
  refine ⟨?_, ?_, ?_, ?_, ?_, ?_⟩
  · rw [hedges]
    simp
  · rw [hedges]
    change _ = [r.edge _ _ start (2 * 0)]
    rw [Rate.edge_even, hnow]
    rfl
  · rw [hlen]
    rfl
  · rw [hround]
    exact hacc
  · rw [hround]
    exact hnext
  · rw [halarm, hlen, Rate.edge_odd, hnow]

/-! ## The edges of a timeline -/

section Edges

variable {r : Rate} {start : UInt64} {gen : StepGen} {clk : Clock} (h : Timeline r start gen clk)

include h

theorem Timeline.edge {k : Nat} (hk : k < clk.edges.length) :
    clk.edges.getD k (0, 0) = r.edge gen.stepActiveLevel gen.stepInactiveLevel start k := by
  rw [h.edges]
  simp [List.getD, hk]

/-- The time of the `n`-th assertion after the first. -/
theorem Timeline.assertion {n : Nat} (hn : 2 * n < clk.edges.length) :
    clk.time (2 * n) = start + UInt64.ofNat (r.elapsed n) := by
  unfold Clock.time
  rw [h.edge hn, Rate.edge_even]

theorem Timeline.deassertion {n : Nat} (hn : 2 * n + 1 < clk.edges.length) :
    clk.time (2 * n + 1) = start + UInt64.ofNat (r.elapsed n) + 150 := by
  unfold Clock.time
  rw [h.edge hn, Rate.edge_odd]

/-- The next assertion, from the one before it. -/
theorem Timeline.assertion_succ {n : Nat} (hn : 2 * n + 2 < clk.edges.length) :
    clk.time (2 * n + 2) =
      start + UInt64.ofNat (r.elapsed n) + UInt64.ofNat (r.elapsed (n + 1) - r.elapsed n) := by
  have hstep := r.step_ticks n
  have hlong := r.long
  have hnext := h.assertion (n := n + 1) (by omega)
  rw [UInt64.add_assoc, ← UInt64.ofNat_add, Nat.add_sub_of_le (by omega)]
  exact hnext

theorem Timeline.interval {n : Nat} (hn : 2 * n + 2 < clk.edges.length) :
    clk.interval n = r.elapsed (n + 1) - r.elapsed n := by
  unfold Clock.interval
  rw [h.assertion_succ hn, h.assertion (by omega), ticks_between]
  exact r.ticks_toNat n

/-- The intervals add up. -/
theorem Timeline.sum {n : Nat} (hn : 2 * n < clk.edges.length) :
    clk.ticks n = r.elapsed n := by
  induction n with
  | zero =>
    unfold Clock.ticks Rate.elapsed
    rw [Nat.zero_mul, Nat.zero_mul, Nat.zero_div]
  | succ n ih =>
    have hstep := r.step_ticks n
    have hlong := r.long
    unfold Clock.ticks
    rw [ih (by omega), h.interval (by omega)]
    omega

theorem Timeline.pulsesExact : PulsesExact r gen clk where
  levels k hk := by
    rw [h.edge hk]
    unfold Rate.edge
    split <;> rfl
  sum n hn := h.sum hn
  error n hn := by
    have hlt := Nat.mod_lt (n * r.remainder) r.denominator_pos
    have hdiv := Nat.mod_add_div (n * r.remainder) r.denominator
    have hticks : n * 600000000000 = r.denominator * r.elapsed n + n * r.remainder % r.denominator := by
      rw [← r.period, Rate.elapsed, Nat.mul_add, Nat.mul_add, Nat.mul_left_comm]
      omega
    rw [h.sum hn, hticks, Nat.mul_add, Nat.mul_one]
    omega
  interval n hn := by
    rw [h.interval hn]
    exact r.step_ticks n
  active n hn := by
    rw [h.deassertion hn, h.assertion (by omega), ticks_between]
  inactive n hn := by
    have hstep := r.step_ticks n
    have hlong := r.long
    have hgap : clk.time (2 * n + 2) - clk.time (2 * n + 1) =
        UInt64.ofNat (r.elapsed (n + 1) - r.elapsed n) - 150 := by
      rw [h.assertion_succ hn, h.deassertion (by omega)]
      grind
    have hle : (150 : UInt64) ≤ UInt64.ofNat (r.elapsed (n + 1) - r.elapsed n) := by
      rw [UInt64.le_iff_toNat_le, r.ticks_toNat]
      change 150 ≤ _
      omega
    rw [hgap, UInt64.toNat_sub_of_le _ _ hle, r.ticks_toNat]
    change 150 ≤ _ - 150
    omega
  accumulator := by
    rw [h.accumulator]
    exact Nat.mod_lt _ r.denominator_pos

end Edges

/-! ## Runs -/

/-- Either time is not counted yet, or the edges and the callback are on the timeline. -/
structure Timed (r : Rate) (gen : StepGen) (clk : Clock) : Prop where
  counting : clk.counting = true → ∃ start, Timeline r start gen clk
  before : clk.counting = false → clk.edges = []

theorem clock_step (clk : Clock) (gen : StepGen) (level : Nat) (masked : Bool) :
    clk.apply ⟨.gpioSetLevel .step level, gen, masked⟩ =
      if clk.counting then { clk with edges := clk.edges ++ [(level, clk.now)] } else clk := rfl

/-- Before time is counted, an alarm that does not begin it leaves no edge. -/
theorem served_before {i : Alarm} {gen gen' : StepGen} {clk clk' : Clock}
    (h : Served Clock.apply i gen clk gen' clk') (hc : clk.counting = false) :
    clk'.counting = false ∧ clk'.edges = clk.edges := by
  have hsame (gen : StepGen) (level : Nat) :
      clk.apply ⟨.gpioSetLevel .step level, gen, true⟩ = clk := by
    rw [clock_step, hc, if_neg Bool.false_ne_true]
  cases h with
  | deassert hpin hdir =>
    unfold lowStep
    rw [hsame]
    exact ⟨hc, rfl⟩
  | turn hpin hdir =>
    unfold lowStep
    rw [hsame]
    exact ⟨hc, rfl⟩
  | idle hpin hguard =>
    unfold lowStep
    rw [hsame]
    exact ⟨hc, rfl⟩
  | still hpin hrun hdrv hzero =>
    unfold lowStep
    rw [hsame]
    exact ⟨hc, rfl⟩
  | assert hpin hrun hdrv hne =>
    unfold highStep
    rw [hsame]
    exact ⟨hc, rfl⟩

/-- While the rate is in force, an alarm makes the next edge. -/
theorem served_counting {r : Rate} {start : UInt64} {i : TimedAlarm} {gen gen' : StepGen}
    {clk clk' : Clock} (h : Served Clock.apply (clk.due i) gen (clk.raise i) gen' clk')
    (hc : clk.counting = true) (ht : Timeline r start gen clk)
    (hforce : InForce r gen) (hlate : ¬ (clk.due i).Late (gen.nextAlarm (clk.due i))) :
    clk'.counting = true ∧ Timeline r start gen' clk' := by
  have hraise : (clk.raise i).counting = true := by
    change (clk.counting || i.first) = true
    rw [hc, Bool.true_or]
  have hstep (gen : StepGen) (level : Nat) :
      (clk.raise i).apply ⟨.gpioSetLevel .step level, gen, true⟩ =
        { clk.raise i with edges := clk.edges ++ [(level, clk.alarm)] } := by
    rw [clock_step, if_pos hraise]
    rfl
  have hdeassert (hpin : gen.pinAsserted = true) : Timeline r start (gen.deasserted clk.alarm)
      { clk.raise i with
        edges := clk.edges ++ [(gen.stepInactiveLevel, clk.alarm)]
        alarm := (clk.due i).clamp (clk.alarm + gen.lowTicks) } := by
    refine ht.deassert hpin rfl rfl rfl rfl rfl rfl ?_
    unfold nextAlarm at hlate
    rw [if_pos hpin] at hlate
    exact if_neg hlate
  cases h with
  | deassert hpin hdir =>
    unfold lowStep
    rw [hstep]
    exact ⟨hraise, hdeassert hpin⟩
  | turn hpin hdir =>
    unfold lowStep
    rw [hstep]
    exact ⟨hraise, hdeassert hpin⟩
  | idle hpin hguard =>
    rw [hforce.running, hforce.driverEnabled] at hguard
    rcases hguard with hf | hf <;> cases hf
  | still hpin hrun hdrv hzero =>
    rw [accept_of_inForce hforce] at hzero
    exact absurd hzero (integer_ne_of_is hforce.active)
  | assert hpin hrun hdrv hne =>
    unfold highStep
    rw [accept_of_inForce hforce, hstep]
    refine ⟨hraise, ht.assert hpin hforce.active rfl ?_⟩
    unfold nextAlarm at hlate
    rw [if_neg (by simp [hpin])] at hlate
    change (clk.due i).clamp _ = _
    unfold Alarm.clamp
    rw [if_neg hlate]
    rfl

/-- The count of time begins. -/
theorem served_first {r : Rate} {i : TimedAlarm} {gen gen' : StepGen} {clk clk' : Clock}
    (h : Served Clock.apply (clk.due i) gen (clk.raise i) gen' clk') (hfirst : i.first = true)
    (hedges : clk.edges = []) (htakes : TakesOn r gen)
    (hlate : ¬ (clk.due i).Late (gen.nextAlarm (clk.due i))) :
    clk'.counting = true ∧ ∃ start, Timeline r start gen' clk' := by
  have hraise : (clk.raise i).counting = true := by
    change (clk.counting || i.first) = true
    rw [hfirst, Bool.or_true]
  have hpin := htakes.pinAsserted
  obtain ⟨-, -, hrunning, hdriver, -⟩ := accept_frame gen
  cases h with
  | deassert hpin' hdir => exact absurd (hpin.symm.trans hpin') Bool.false_ne_true
  | turn hpin' hdir => exact absurd (hpin.symm.trans hpin') Bool.false_ne_true
  | idle hpin' hguard =>
    rw [← hrunning, ← hdriver, htakes.accepted.running, htakes.accepted.driverEnabled] at hguard
    rcases hguard with hf | hf <;> cases hf
  | still hpin' hrun hdrv hzero =>
    exact absurd hzero (integer_ne_of_is htakes.accepted.active)
  | assert hpin' hrun hdrv hne =>
    unfold highStep
    rw [clock_step, if_pos hraise]
    refine ⟨hraise, clk.alarm, Timeline.begin htakes ?_ ?_⟩
    · change clk.edges ++ _ = _
      rw [hedges]
      rfl
    · unfold nextAlarm at hlate
      rw [if_neg (by simp [hpin])] at hlate
      change (clk.due i).clamp _ = _
      unfold Alarm.clamp
      rw [if_neg hlate]
      rfl

theorem timed_stable (r : Rate) : clockDevice.Stable (AlarmInForce r) (Timed r) := by
  rintro i gen clk gen' clk' ⟨hfirst, hforce, hlate⟩ hserves h
  have hserved := served_of_exec Clock.apply hserves
  by_cases hc : clk.counting = true
  · obtain ⟨start, ht⟩ := h.counting hc
    obtain ⟨hc', ht'⟩ := served_counting hserved hc ht (hforce hc) (hlate (.inl hc))
    exact ⟨fun _ => ⟨start, ht'⟩, fun hf => absurd (hc'.symm.trans hf) (by decide)⟩
  have hc : clk.counting = false := Bool.eq_false_iff.mpr hc
  by_cases hbegin : i.first = true
  · obtain ⟨hc', ht'⟩ := served_first hserved hbegin (h.before hc) (hfirst hbegin).2
      (hlate (.inr hbegin))
    exact ⟨fun _ => ht', fun hf => absurd (hc'.symm.trans hf) (by decide)⟩
  · have hraise : (clk.raise i).counting = false := by
      change (clk.counting || i.first) = false
      rw [hc, Bool.eq_false_iff.mpr hbegin]
      rfl
    obtain ⟨hc', hedges⟩ := served_before hserved hraise
    exact ⟨fun ht => absurd (hc'.symm.trans ht) Bool.false_ne_true,
      fun _ => hedges.trans (h.before hc)⟩

theorem Timeline.same {r : Rate} {start : UInt64} {gen gen' : StepGen} {clk : Clock}
    (h : Timeline r start gen clk) (hsame : SamePulse gen gen') : Timeline r start gen' clk := by
  obtain ⟨hacc, hnext, -, hpin, hactive, hinactive, -, -⟩ := hsame
  refine ⟨h.begun, ?_, ?_, ?_, ?_, ?_⟩
  · rw [hactive, hinactive]
    exact h.edges
  · rw [hpin]
    exact h.phase
  · rw [hacc]
    exact h.accumulator
  · rw [hnext]
    exact h.next
  · rw [hactive, hinactive]
    exact h.alarm

theorem timed_pulseOnly (r : Rate) :
    PulseOnly Clock.apply (fun i x y => ServesAlarm Clock.apply (x.2.due i) (x.1, x.2.raise i) y)
      (CallInForce r) (AlarmInForce r) (Timed r) (Timed r) where
  stable := timed_stable r
  seen _ _ h := h
  silent c gen masked clk hc := Clock.apply_silent c gen masked clk hc
  pulse gen gen' clk hsame h :=
    ⟨fun hc => (h.counting hc).imp fun _ ht => ht.same hsame, h.before⟩
  stopped := by
    rintro i gen clk gen' clk' - hserves h
    rw [(served_of_exec Clock.apply hserves).pending.1]
    exact h
  low gen masked clk h hzero hE := by
    have hc : clk.counting = false := by
      apply Bool.eq_false_iff.mpr
      intro hc
      exact integer_ne_of_is (hE hc).pending hzero
    rw [clock_step, hc, if_neg Bool.false_ne_true]
    exact h
  turn _ _ _ h := h

theorem Runs.accept {gen : StepGen} (h : Runs gen) : Runs gen.accept := by
  unfold StepGen.accept
  rw [if_neg (by simp [h.immediateStop])]
  split
  next hnew =>
    rcases h.next with hreq | ⟨hinteger, hremainder, hdenominator⟩
    · exact ⟨hreq, h.immediateStop, .inl hreq⟩
    · simp [hinteger, hremainder, hdenominator] at hnew
  · exact h

theorem settled_stable (K : TimedAlarm → StepGen → Clock → Prop) : clockDevice.Stable K Settled := by
  rintro i gen clk gen' clk' - hserves h
  have haccept : gen.accept.running = false ∨ Runs gen.accept := by
    rcases h with hstop | hruns
    · exact .inl ((accept_frame gen).2.2.1.trans hstop)
    · exact .inr hruns.accept
  cases served_of_exec Clock.apply hserves with
  | deassert hpin hdir => exact h.imp id fun hr => ⟨hr.generated, hr.immediateStop, hr.next⟩
  | turn hpin hdir => exact h.imp id fun hr => ⟨hr.generated, hr.immediateStop, hr.next⟩
  | idle hpin hguard => exact h
  | still hpin hrun hdrv hzero => exact haccept
  | assert hpin hrun hdrv hne =>
    exact haccept.imp id fun hr => ⟨hr.generated, hr.immediateStop, hr.next⟩

/-- A rate is set in a run without kickstarts. -/
theorem setRate_timed (r : Rate) {rpmMilli : Int} {stepsPerRev : UInt32} (hne : rpmMilli ≠ 0) :
    clockDevice.Takes (CallInForce r) (AlarmInForce r) (Timed r)
      (fun gen clk => Timed r gen clk ∧ Settled gen clk) (Timed r)
      (setRate rpmMilli stepsPerRev) := by
  let P (gen : StepGen) (clk : Clock) : Prop := Timed r gen clk ∧ Settled gen clk
  have hstable : clockDevice.Stable (AlarmInForce r) P := (timed_stable r).and (settled_stable _)
  have hP := timed_pulseOnly r
  have hseen (gen : StepGen) (clk : Clock) (h : P gen clk) : Timed r gen clk := h.1
  have hover (e : EspErr) : clockDevice.Takes (CallInForce r) (AlarmInForce r) (Timed r) P (Timed r)
      (pure e : GenM EspErr) := fun _ _ h => h.1
  have hask {c : Hw} {masked : Bool} (hc : c.silent = true) :
      clockDevice.Takes (CallInForce r) (AlarmInForce r) (Timed r) P P (hw c masked) := by
    refine takes_hw hstable hseen hseen fun gen clk h _ => ?_
    rw [Clock.apply_silent c gen masked clk hc]
    exact h
  have hask_ {c : Hw} {masked : Bool} (hc : c.silent = true) :
      clockDevice.Takes (CallInForce r) (AlarmInForce r) (Timed r) P P (hw_ c masked) := by
    refine takes_hw_ hstable hseen hseen fun gen clk h _ => ?_
    rw [Clock.apply_silent c gen masked clk hc]
    exact h
  have henable : clockDevice.Takes (CallInForce r) (AlarmInForce r) (Timed r) P P enableDriver := by
    unfold enableDriver
    refine .bind .get fun _ => .ite (.pure _) (.bind (hask rfl) fun e => .ite (.pure _) ?_)
    refine .bind .get fun _ => .ite (.bind (hask_ rfl) fun _ => .bind (M := P) ?_ fun _ => ?_) (.pure _)
    · refine .modify fun gen clk h => ⟨?_, h.2.imp id fun hr => ⟨hr.1, hr.2, hr.3⟩⟩
      exact hP.pulse gen _ clk ⟨rfl, rfl, rfl, rfl, rfl, rfl, rfl, rfl⟩ h.1
    · exact .bind (hask_ rfl) fun _ => .pure _
  have hreject : clockDevice.Takes (CallInForce r) (AlarmInForce r) (Timed r) P (Timed r)
      rejectRate := hP.rejectRate.strengthen hseen
  have htake : clockDevice.Takes (CallInForce r) (AlarmInForce r) (Timed r) P (Timed r)
      (takeRate rpmMilli stepsPerRev) := by
    unfold takeRate
    refine .ite hreject (.bind (M := P) ?_ fun _ => .bind (hask_ rfl) fun _ => ?_)
    · refine .modify fun gen clk h => ⟨?_, h.2.imp id fun hr => ⟨hr.1, rfl, .inl hne⟩⟩
      exact hP.pulse gen _ clk ⟨rfl, rfl, rfl, rfl, rfl, rfl, rfl, rfl⟩ h.1
    refine .get_bind fun gen => .get_bind fun gen' => ?_
    by_cases hgo : gen.generatedRpmMilli = 0 ∧ gen'.running = true
    · rintro gen'' clk ⟨rfl, rfl, h⟩
      rcases h.2 with hstop | hruns
      · exact absurd (hgo.2.symm.trans hstop) (by decide)
      · exact absurd hgo.1 hruns.generated
    · rw [if_neg hgo]
      refine .bind (M := Timed r) (.modify fun gen'' clk h => ?_) fun _ => .pure _
      exact hP.pulse gen'' _ clk ⟨rfl, rfl, rfl, rfl, rfl, rfl, rfl, rfl⟩ h.2.2.1
  unfold setRate
  refine .bind .get fun _ => .ite (hover _) ?_
  rw [if_neg hne]
  refine .ite hreject (.ite hreject (.bind .get fun _ => .ite ?_ htake))
  exact .bind henable fun e => .ite (hover _) htake

theorem Call.timed (r : Rate) (c : Call) {gen : StepGen} {clk : Clock} (h : Timed r gen clk)
    (hc : NoKickstart c gen clk) :
    Prog.wpTS (clockDevice.Meets (CallInForce r) (AlarmInForce r))
      (clockDevice.AtCall (CallInForce r) (Timed r)) c.prog (fun a clk => Timed r a.2 clk) gen clk := by
  have hP := timed_pulseOnly r
  cases c with
  | arm => exact hP.arm gen clk h
  | start => exact hP.start gen clk h
  | setRate rpmMilli stepsPerRev =>
    by_cases hz : rpmMilli = 0
    · exact hP.setRate_zero hz gen clk h
    · exact setRate_timed r hz gen clk ⟨h, hc.resolve_left hz⟩
  | setDirection forward => exact hP.setDirection forward gen clk h
  | stopImmediate => exact hP.stopImmediate gen clk h
  | stopProfiled => exact hP.stopProfiled gen clk h
  | disableDriver => exact hP.disableDriver gen clk h
  | enableDriver => exact hP.enableDriver gen clk h

/-! ## Acceptance -/

/-- No driver call fails; alarms may be served in it. -/
def Smooth (q : HwCall) (clk : Clock) (r : HwAnswer) (clk' : Clock) : Prop :=
  r.result = espOk ∧
    clockDevice.Leaves (fun _ _ _ => True) q (q.gen, clk.apply q) (r.gen, clk')

/-- The pending timing is `t`. -/
structure Pends (t : Timing) (gen : StepGen) : Prop where
  integer : gen.pendingTiming.integer = t.integer
  remainder : gen.pendingTiming.remainder = t.remainder
  denominator : gen.pendingTiming.denominator = t.denominator

theorem pends_stable (t : Timing) : clockDevice.Stable (fun _ _ _ => True) fun gen _ => Pends t gen := by
  rintro i gen clk gen' clk' - hserves h
  obtain ⟨hint, hrem, hden⟩ := (served_of_exec Clock.apply hserves).pending
  exact ⟨hint.trans h.integer, hrem.trans h.remainder, hden.trans h.denominator⟩

section Accept

variable {t : Timing} {gen : StepGen} {clk : Clock} (h : Pends t gen)

include h

theorem Pends.hw {c : Hw} {masked : Bool} {post : EspErr × StepGen → Clock → Prop}
    (hpost : ∀ gen' clk', Pends t gen' → post (espOk, gen') clk') :
    Prog.wpTS Smooth (fun _ _ => True) (hw c masked) post gen clk := by
  refine ⟨trivial, ?_⟩
  rintro r clk' ⟨hres, hleaves⟩
  change post (r.result, r.gen) clk'
  rw [hres]
  exact hpost r.gen clk' (hleaves.keeps (pends_stable t) h)

theorem Pends.hw_ {c : Hw} {masked : Bool} {post : Unit × StepGen → Clock → Prop}
    (hpost : ∀ gen' clk', Pends t gen' → post ((), gen') clk') :
    Prog.wpTS Smooth (fun _ _ => True) (hw_ c masked) post gen clk :=
  ⟨trivial, fun r clk' hr => hpost r.gen clk' (hr.2.keeps (pends_stable t) h)⟩

theorem Pends.rawCount {masked : Bool} {post : (EspErr × UInt64) × StepGen → Clock → Prop}
    (hpost : ∀ a gen' clk', Pends t gen' → post (a, gen') clk') :
    Prog.wpTS Smooth (fun _ _ => True) (rawCount masked) post gen clk :=
  ⟨trivial, fun r clk' hr => hpost _ r.gen clk' (hr.2.keeps (pends_stable t) h)⟩

theorem Pends.kickstart (rpmMilli : Int) :
    Prog.wpTS Smooth (fun _ _ => True) (kickstart rpmMilli)
      (fun a _ => a.1 = espOk ∧ Pends t a.2) gen clk := by
  unfold StepGen.kickstart
  rw [Prog.wpTS_bind]
  refine h.hw fun gen clk h => ?_
  rw [Prog.wpTS_ite, if_neg fun hne => hne.1 rfl, Prog.wpTS_bind]
  refine h.rawCount fun a gen clk h => ?_
  rw [Prog.wpTS_bind, Prog.wpTS_modify, Prog.wpTS_bind]
  refine Pends.hw_ (t := t) ?_ fun gen clk h => ?_
  · exact ⟨h.integer, h.remainder, h.denominator⟩
  rw [Prog.wpTS_bind]
  refine h.hw_ fun gen clk h => ?_
  rw [Prog.wpTS_bind]
  refine h.hw_ fun gen clk h => ?_
  rw [Prog.wpTS_bind]
  refine h.hw_ fun gen clk h => ?_
  rw [Prog.wpTS_bind, Prog.wpTS_modify, Prog.wpTS_bind]
  refine Pends.hw_ (t := t) ?_ fun gen clk h => ?_
  · exact ⟨h.integer, h.remainder, h.denominator⟩
  exact ⟨rfl, h.integer, h.remainder, h.denominator⟩

theorem Pends.enableDriver (hen : gen.enGpio = true) :
    Prog.wpTS Smooth (fun _ _ => True) enableDriver (fun a _ => a.1 = espOk ∧ Pends t a.2) gen clk := by
  unfold StepGen.enableDriver
  rw [Prog.wpTS_bind, Prog.wpTS_get, Prog.wpTS_ite, if_neg (by simp [hen]), Prog.wpTS_bind]
  refine h.hw fun gen clk h => ?_
  rw [Prog.wpTS_ite, if_neg fun hne => hne rfl, Prog.wpTS_bind, Prog.wpTS_get, Prog.wpTS_ite]
  split
  · rw [Prog.wpTS_bind]
    refine h.hw_ fun gen clk h => ?_
    rw [Prog.wpTS_bind, Prog.wpTS_modify, Prog.wpTS_bind]
    refine Pends.hw_ (t := t) ?_ fun gen clk h => ?_
    · exact ⟨h.integer, h.remainder, h.denominator⟩
    exact ⟨rfl, h⟩
  · exact ⟨rfl, h⟩

end Accept

/-- `set_rate` has taken the rate on, or has refused it and left the pending one. -/
def Decided (rpmMilli : Int) (stepsPerRev : UInt32) (gen : StepGen) (a : EspErr × StepGen) : Prop :=
  (a.1 = espOk ↔ 300 ≤ ticksOf rpmMilli stepsPerRev) ∧
  if 300 ≤ ticksOf rpmMilli stepsPerRev then
    a.2.pendingTiming.integer.toNat = ticksOf rpmMilli stepsPerRev ∧
    a.2.pendingTiming.remainder.toNat = 600000000000 % (rpmMilli.toNat * stepsPerRev.toNat) ∧
    a.2.pendingTiming.denominator.toNat = rpmMilli.toNat * stepsPerRev.toNat
  else Pends gen.pendingTiming a.2

theorem Pends.takeRate {rpmMilli : Int} {stepsPerRev : UInt32} {gen gen₀ : StepGen}
    {clk : Clock} (h : Pends gen₀.pendingTiming gen) (hmax : rpmMilli ≤ 200000) :
    Prog.wpTS Smooth (fun _ _ => True) (takeRate rpmMilli stepsPerRev)
      (fun a _ => Decided rpmMilli stepsPerRev gen₀ a) gen clk := by
  have hlt := den_lt stepsPerRev hmax
  have hspr := stepsPerRev.toNat_lt
  have hrpm : (UInt64.ofNat rpmMilli.toNat).toNat = rpmMilli.toNat := by
    rw [UInt64.toNat_ofNat']
    exact Nat.mod_eq_of_lt (by omega)
  have hden : (UInt64.ofNat rpmMilli.toNat * stepsPerRev.toUInt64).toNat =
      rpmMilli.toNat * stepsPerRev.toNat := by
    rw [UInt64.toNat_mul, hrpm, UInt32.toNat_toUInt64]
    exact Nat.mod_eq_of_lt (by omega)
  have hquot : (600000000000 / (UInt64.ofNat rpmMilli.toNat * stepsPerRev.toUInt64)).toNat =
      ticksOf rpmMilli stepsPerRev := by
    rw [UInt64.toNat_div, hden]
    rfl
  have hrem : (600000000000 % (UInt64.ofNat rpmMilli.toNat * stepsPerRev.toUInt64)).toNat =
      600000000000 % (rpmMilli.toNat * stepsPerRev.toNat) := by
    rw [UInt64.toNat_mod, hden]
    rfl
  unfold StepGen.takeRate
  dsimp only
  rw [Prog.wpTS_ite]
  split
  next hshort =>
    rw [UInt64.lt_iff_toNat_lt, hquot] at hshort
    have hshort : ¬ 300 ≤ ticksOf rpmMilli stepsPerRev := Nat.not_le.mpr hshort
    have hne : espErrInvalidArg ≠ espOk := by decide
    refine ⟨iff_of_false hne hshort, ?_⟩
    rw [if_neg hshort]
    exact ⟨h.integer, h.remainder, h.denominator⟩
  next hlong =>
    rw [UInt64.lt_iff_toNat_lt, hquot] at hlong
    have hlong : 300 ≤ ticksOf rpmMilli stepsPerRev := Nat.not_lt.mp hlong
    have hdone (gen : StepGen) (h : Pends ⟨600000000000 / (UInt64.ofNat rpmMilli.toNat * stepsPerRev.toUInt64),
        600000000000 % (UInt64.ofNat rpmMilli.toNat * stepsPerRev.toUInt64),
        UInt64.ofNat rpmMilli.toNat * stepsPerRev.toUInt64, false, false⟩ gen) :
        Decided rpmMilli stepsPerRev gen₀ (espOk, gen) := by
      refine ⟨iff_of_true rfl hlong, ?_⟩
      rw [if_pos hlong]
      refine ⟨?_, ?_, ?_⟩
      · rw [h.integer, hquot]
      · rw [h.remainder, hrem]
      · rw [h.denominator, hden]
    rw [Prog.wpTS_bind, Prog.wpTS_modify, Prog.wpTS_bind]
    refine Pends.hw_ (t := ⟨_, _, _, false, false⟩) ⟨rfl, rfl, rfl⟩ fun gen clk h => ?_
    rw [Prog.wpTS_bind, Prog.wpTS_get, Prog.wpTS_bind, Prog.wpTS_get, Prog.wpTS_ite]
    split
    · refine Prog.wpTS_mono ?_ (h.kickstart rpmMilli)
      rintro ⟨e, gen⟩ clk ⟨rfl, h⟩
      exact hdone gen h
    · exact hdone _ ⟨h.integer, h.remainder, h.denominator⟩

/-- Which rates are accepted, when no driver call fails. -/
theorem setRate_accepts {rpmMilli : Int} {stepsPerRev : UInt32} (hmin : 1 ≤ rpmMilli)
    (hmax : rpmMilli ≤ 200000) (hspr : stepsPerRev ≠ 0) {gen : StepGen} (htimer : gen.timer = true)
    (hen : gen.enGpio = true) (clk : Clock) :
    Prog.wpTS Smooth (fun _ _ => True) (setRate rpmMilli stepsPerRev)
      (fun a _ => Decided rpmMilli stepsPerRev gen a) gen clk := by
  have hsame : Pends gen.pendingTiming gen := ⟨rfl, rfl, rfl⟩
  unfold setRate
  rw [Prog.wpTS_bind, Prog.wpTS_get, Prog.wpTS_ite, if_neg (by simp [htimer]), Prog.wpTS_ite,
    if_neg (by omega), Prog.wpTS_ite, if_neg hspr, Prog.wpTS_ite, if_neg (by omega),
    Prog.wpTS_bind, Prog.wpTS_get, Prog.wpTS_ite]
  split
  · rw [Prog.wpTS_bind]
    refine Prog.wpTS_mono ?_ (hsame.enableDriver hen)
    rintro ⟨e, gen'⟩ clk' ⟨rfl, h⟩
    rw [Prog.wpTS_ite, if_neg fun hne => hne rfl]
    exact h.takeRate hmax
  · exact hsame.takeRate hmax

/-- **The timing of the pulses.** -/
theorem pulse_timing {rpmMilli : Int} {stepsPerRev : UInt32} (hmin : 1 ≤ rpmMilli)
    (hmax : rpmMilli ≤ 200000) (hspr : stepsPerRev ≠ 0) :
    (∀ (gen : StepGen) (clk clk' : Clock) calls a, gen.timer = true → gen.enGpio = true →
      Prog.Exec Smooth (setRate rpmMilli stepsPerRev gen) clk calls a clk' →
      Decided rpmMilli stepsPerRev gen a) ∧
    ∀ (hlong : 300 ≤ ticksOf rpmMilli stepsPerRev) (s : ClockState) (ms : List ClockMove),
      IsRun clockStep s ms → s.task = .idle → s.world.counting = false → s.world.edges = [] →
      (∀ m ∈ ms, KeepsRate (.of rpmMilli stepsPerRev hmin hmax hspr hlong) m) →
      ∀ m ∈ ms, m.post.world.counting = true →
        PulsesExact (.of rpmMilli stepsPerRev hmin hmax hspr hlong) m.post.mem m.post.world := by
  constructor
  · intro gen clk clk' calls a htimer hen hrun
    exact hrun.of_wpS (setRate_accepts hmin hmax hspr htimer hen clk)
  · intro hlong s ms h hidle hcount hedges hms m hm hc
    let r : Rate := .of rpmMilli stepsPerRev hmin hmax hspr hlong
    have hstart : Timed r s.mem s.world := by
      refine ⟨fun ht => ?_, fun _ => hedges⟩
      rw [hcount] at ht
      exact absurd ht Bool.false_ne_true
    have hinv := Device.invariant (fun _ _ h => h) (timed_stable r) (timed_stable r)
      (fun c gen clk hB hT => Call.timed r c hT hB) h hidle hstart hms
    obtain ⟨start, ht⟩ := (hinv m hm).1.counting hc
    exact ht.pulsesExact

def serveTimed (i : TimedAlarm) (x : StepGen × Clock) : StepGen × Clock :=
  serveAlarm Clock.apply (x.2.due i) (x.1, x.2.raise i)

def playClock : ClockState → List (MachineEv Call TimedAlarm) → List ClockMove :=
  clockDevice.playMachine Call.prog smoothReply serveTimed

theorem isRun_playClock (s : ClockState) (evs : List (MachineEv Call TimedAlarm)) :
    IsRun clockStep s (playClock s evs) :=
  Device.isRun_playMachine (fun _ _ => rfl) (fun _ _ => serveAlarm_serves _ _ _) s evs

def bootedClock : ClockState := ⟨initialized argusConfig, ⟨10000, 0, false, []⟩, .idle⟩

/-- Two whole steps at 70 rpm: 1071 ticks and 1071 ticks. -/
theorem pulse_timing_two_steps :
    let evs := undisturbed .arm 3 ++ undisturbed (.setRate 70000 8000) 4 ++ undisturbed .start 2 ++
      .interrupt ⟨espOk, 0, true⟩ :: List.replicate 4 (.interrupt ⟨espOk, 0, false⟩)
    let r := Rate.of 70000 8000 (by decide) (by decide) (by decide) (by decide)
    let w := (final bootedClock (playClock bootedClock evs)).world
    w.edges.map Prod.snd = [10000, 10150, 11071, 11221, 12142] ∧
      ∀ m ∈ playClock bootedClock evs, m.post.world.counting = true →
        PulsesExact r m.post.mem m.post.world :=
  ⟨by decide, (pulse_timing (by decide) (by decide) (by decide)).2 (by decide) bootedClock _
    (isRun_playClock _ _) rfl rfl rfl (by decide)⟩

end StepGen

end Argus
