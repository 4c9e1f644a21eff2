import ArgusPump.MachineService
import ArgusPump.Lib.Slots
import ArgusPump.Lib.Run

/-!
# The throttle of machine authentication

The admission of `argus_machine_service_authenticate` (`main/argus_machine_service.c`): a
failure lockout for each source, one budget of derivations for all of them with a share that
only proven sources reach, and one derivation at a time.  A call is admitted under the mutex,
derives without it, and takes it again to record its result, so calls interleave.

    an admitted call takes one of the budget, below its allowance      (admit_cases)
    calls one after another → the calls as the source writes them      (machineServiceAuthenticate_run)
-/

namespace Argus

open Interact

def machineAuthFailureLimit : UInt8 := 5
def machineAuthWindowUs : UInt64 := 60000000
def machineAuthCooldownUs : UInt64 := 30000000
def machineAuthKdfAdmissionMax : Nat := 1
def machineAuthKdfGlobalBurst : UInt32 := 8
def machineAuthKdfGlobalWindowUs : UInt64 := 10000000
def machineAuthProvenTtlUs : UInt64 := 600000000
def machineAuthKdfUnprovenBurst : UInt32 := 5

/-! ## State -/

/-- `auth_bucket_t`. -/
structure AuthBucket where
  peerKey : UInt32
  windowStartedUs : UInt64
  blockedUntilUs : UInt64
  failures : UInt8
  inUse : Bool
deriving DecidableEq

def AuthBucket.zero : AuthBucket := ⟨0, 0, 0, 0, false⟩

/-- `proven_source_t`. -/
structure ProvenSource where
  peerKey : UInt32
  lastSuccessUs : UInt64
  inUse : Bool
deriving DecidableEq

def ProvenSource.zero : ProvenSource := ⟨0, 0, false⟩

/-- The statics of the throttle. -/
structure MachineThrottle where
  buckets : Fin 8 → AuthBucket
  proven : Fin 2 → ProvenSource
  kdfGlobalWindowUs : UInt64
  kdfGlobalSpent : UInt32
  kdfGlobalRefusals : UInt32
  kdfWindowRefusals : UInt32
  throttleRefusals : UInt32
  kdfAdmitted : Nat

def MachineThrottle.boot : MachineThrottle where
  buckets _ := .zero
  proven _ := .zero
  kdfGlobalWindowUs := 0
  kdfGlobalSpent := 0
  kdfGlobalRefusals := 0
  kdfWindowRefusals := 0
  throttleRefusals := 0
  kdfAdmitted := 0

/-- Seconds, rounded up. -/
def retryAfter (remainingUs : UInt64) : UInt32 := ((remainingUs + 999999) / 1000000).toUInt32

/-! ## The failure lockout -/

/-- What the scan of `bucket_for` stops at: the first bucket of the key or not in use. -/
def bucketFound (buckets : Fin 8 → AuthBucket) (peerKey : UInt32) : Option (Fin 8) :=
  (List.finRange 8).find? fun i => !(buckets i).inUse || (buckets i).peerKey = peerKey

/-- The bucket with the oldest window, the first of several. -/
def oldestBucket (buckets : Fin 8 → AuthBucket) : Fin 8 :=
  (List.finRange 8).foldl
    (fun oldest i =>
      if (buckets i).windowStartedUs < (buckets oldest).windowStartedUs then i else oldest) 0

/-- `bucket_for`: the index and the buckets after it. -/
def bucketFor (buckets : Fin 8 → AuthBucket) (peerKey : UInt32) (nowUs : UInt64) :
    Fin 8 × (Fin 8 → AuthBucket) :=
  match bucketFound buckets peerKey with
  | some i => (i, buckets)
  | none =>
    (oldestBucket buckets,
      Function.update buckets (oldestBucket buckets) { AuthBucket.zero with windowStartedUs := nowUs })

/-- `throttle_admit`, past `bucket_for`: what is left of the cooldown, and the bucket after it. -/
def AuthBucket.admission (bucket : AuthBucket) (peerKey : UInt32) (nowUs : UInt64) :
    Option UInt64 × AuthBucket :=
  let bucket :=
    if bucket.inUse then bucket
    else { bucket with inUse := true, peerKey := peerKey, windowStartedUs := nowUs }
  if bucket.blockedUntilUs > nowUs then (some (bucket.blockedUntilUs - nowUs), bucket)
  else if nowUs - bucket.windowStartedUs > machineAuthWindowUs then
    (none, { bucket with windowStartedUs := nowUs, failures := 0 })
  else (none, bucket)

/-- `throttle_admit`. -/
def throttleAdmit (buckets : Fin 8 → AuthBucket) (peerKey : UInt32) (nowUs : UInt64) :
    Option UInt64 × (Fin 8 → AuthBucket) :=
  let (index, buckets) := bucketFor buckets peerKey nowUs
  let (remaining, bucket) := (buckets index).admission peerKey nowUs
  (remaining, Function.update buckets index bucket)

/-- `record_auth_result`, past `bucket_for`. -/
def AuthBucket.record (bucket : AuthBucket) (nowUs : UInt64) (success : Bool) : AuthBucket :=
  if success then .zero
  else if bucket.failures + 1 ≥ machineAuthFailureLimit then
    { bucket with blockedUntilUs := nowUs + machineAuthCooldownUs, failures := 0 }
  else { bucket with failures := bucket.failures + 1 }

/-- `record_auth_result`. -/
def recordAuthResult (buckets : Fin 8 → AuthBucket) (peerKey : UInt32) (nowUs : UInt64)
    (success : Bool) : Fin 8 → AuthBucket :=
  let (index, buckets) := bucketFor buckets peerKey nowUs
  Function.update buckets index ((buckets index).record nowUs success)

/-! ## Proven sources -/

/-- `proven_entry_live`. -/
def ProvenSource.live (entry : ProvenSource) (nowUs : UInt64) : Bool :=
  entry.inUse && nowUs - entry.lastSuccessUs < machineAuthProvenTtlUs

/-- `source_is_proven_locked`. -/
def sourceIsProven (proven : Fin 2 → ProvenSource) (peerKey : UInt32) (nowUs : UInt64) : Bool :=
  (List.finRange 2).any fun i => (proven i).peerKey = peerKey && (proven i).live nowUs

/-- The entry `mark_source_proven_locked` writes for a source that has none: the first that
is not live, or the one with the oldest success. -/
def provenVictim (proven : Fin 2 → ProvenSource) (nowUs : UInt64) : Fin 2 :=
  match (List.finRange 2).find? fun i => !(proven i).live nowUs with
  | some i => i
  | none => if (proven 1).lastSuccessUs < (proven 0).lastSuccessUs then 1 else 0

/-- The entry `mark_source_proven_locked` writes. -/
def provenTarget (proven : Fin 2 → ProvenSource) (peerKey : UInt32) (nowUs : UInt64) : Fin 2 :=
  match (List.finRange 2).find? fun i => (proven i).inUse && (proven i).peerKey = peerKey with
  | some i => i
  | none => provenVictim proven nowUs

/-- `mark_source_proven_locked`. -/
def markSourceProven (proven : Fin 2 → ProvenSource) (peerKey : UInt32) (nowUs : UInt64) :
    Fin 2 → ProvenSource :=
  Function.update proven (provenTarget proven peerKey nowUs) ⟨peerKey, nowUs, true⟩

/-! ## Admission -/

/-- What the first locked section of `argus_machine_service_authenticate` answers.  Locked out
and over budget are both `ARGUS_MACHINE_AUTH_THROTTLED`. -/
inductive KdfAdmission
  | lockedOut (retryAfterS : UInt32)
  | overBudget (retryAfterS : UInt32)
  | busy
  | admitted
deriving DecidableEq

namespace MachineThrottle

/-- The window of the budget is over. -/
def windowOver (s : MachineThrottle) (nowUs : UInt64) : Bool :=
  s.kdfGlobalWindowUs = 0 || nowUs - s.kdfGlobalWindowUs ≥ machineAuthKdfGlobalWindowUs

/-- The start of `kdf_global_admit`. -/
def rollWindow (s : MachineThrottle) (nowUs : UInt64) : MachineThrottle :=
  if s.windowOver nowUs then
    { s with kdfGlobalWindowUs := nowUs, kdfGlobalSpent := 0, kdfWindowRefusals := 0 }
  else s

/-- How much of the budget the source may reach. -/
def allowance (s : MachineThrottle) (peerKey : UInt32) (nowUs : UInt64) : UInt32 :=
  if sourceIsProven s.proven peerKey nowUs then machineAuthKdfGlobalBurst
  else machineAuthKdfUnprovenBurst

/-- `kdf_global_admit`: the wait it answers, if it refuses. -/
def kdfGlobalAdmit (s : MachineThrottle) (peerKey : UInt32) (nowUs : UInt64) :
    Option UInt32 × MachineThrottle :=
  let s := s.rollWindow nowUs
  if s.kdfGlobalSpent ≥ s.allowance peerKey nowUs then
    (some (retryAfter (machineAuthKdfGlobalWindowUs - (nowUs - s.kdfGlobalWindowUs))),
      { s with
        kdfGlobalRefusals := s.kdfGlobalRefusals + 1
        kdfWindowRefusals := s.kdfWindowRefusals + 1 })
  else (none, { s with kdfGlobalSpent := s.kdfGlobalSpent + 1 })

/-- The first locked section of `argus_machine_service_authenticate`. -/
def admission (s : MachineThrottle) (peerKey : UInt32) (nowUs : UInt64) : KdfAdmission × MachineThrottle :=
  match throttleAdmit s.buckets peerKey nowUs with
  | (some remaining, buckets) =>
    (.lockedOut (retryAfter remaining),
      { s with buckets := buckets, throttleRefusals := s.throttleRefusals + 1 })
  | (none, buckets) =>
    match { s with buckets := buckets }.kdfGlobalAdmit peerKey nowUs with
    | (some retry, s) => (.overBudget retry, { s with throttleRefusals := s.throttleRefusals + 1 })
    | (none, s) =>
      if s.kdfAdmitted ≥ machineAuthKdfAdmissionMax then (.busy, s)
      else (.admitted, { s with kdfAdmitted := s.kdfAdmitted + 1 })

/-- The second locked section, of a call that started at `nowUs`. -/
def record (s : MachineThrottle) (peerKey : UInt32) (nowUs : UInt64) (success : Bool) :
    MachineThrottle :=
  { s with
    buckets := recordAuthResult s.buckets peerKey nowUs success
    proven := if success then markSourceProven s.proven peerKey nowUs else s.proven
    kdfAdmitted := s.kdfAdmitted - 1 }

end MachineThrottle

namespace MachineThrottle

variable {s t : MachineThrottle} {peerKey : UInt32} {nowUs : UInt64} {answer : KdfAdmission}

/-- The cases of the first locked section. -/
inductive AdmitCase (s : MachineThrottle) (peerKey : UInt32) (nowUs : UInt64) :
    KdfAdmission → MachineThrottle → Prop
  | lockedOut {remaining : UInt64} :
      (throttleAdmit s.buckets peerKey nowUs).1 = some remaining →
      AdmitCase s peerKey nowUs (.lockedOut (retryAfter remaining))
        { s with
          buckets := (throttleAdmit s.buckets peerKey nowUs).2
          throttleRefusals := s.throttleRefusals + 1 }
  | overBudget {retry globalRefusals windowRefusals : UInt32} :
      (throttleAdmit s.buckets peerKey nowUs).1 = none →
      s.allowance peerKey nowUs ≤ (s.rollWindow nowUs).kdfGlobalSpent →
      AdmitCase s peerKey nowUs (.overBudget retry)
        { s.rollWindow nowUs with
          buckets := (throttleAdmit s.buckets peerKey nowUs).2
          proven := s.proven
          kdfAdmitted := s.kdfAdmitted
          kdfGlobalRefusals := globalRefusals
          kdfWindowRefusals := windowRefusals
          throttleRefusals := s.throttleRefusals + 1 }
  | busy : (throttleAdmit s.buckets peerKey nowUs).1 = none →
      (s.rollWindow nowUs).kdfGlobalSpent < s.allowance peerKey nowUs →
      machineAuthKdfAdmissionMax ≤ s.kdfAdmitted →
      AdmitCase s peerKey nowUs .busy
        { s.rollWindow nowUs with
          buckets := (throttleAdmit s.buckets peerKey nowUs).2
          proven := s.proven
          kdfAdmitted := s.kdfAdmitted
          kdfGlobalSpent := (s.rollWindow nowUs).kdfGlobalSpent + 1 }
  | admitted : (throttleAdmit s.buckets peerKey nowUs).1 = none →
      (s.rollWindow nowUs).kdfGlobalSpent < s.allowance peerKey nowUs →
      s.kdfAdmitted < machineAuthKdfAdmissionMax →
      AdmitCase s peerKey nowUs .admitted
        { s.rollWindow nowUs with
          buckets := (throttleAdmit s.buckets peerKey nowUs).2
          proven := s.proven
          kdfGlobalSpent := (s.rollWindow nowUs).kdfGlobalSpent + 1
          kdfAdmitted := s.kdfAdmitted + 1 }

theorem rollWindow_buckets (s : MachineThrottle) (nowUs : UInt64) (buckets : Fin 8 → AuthBucket) :
    MachineThrottle.rollWindow { s with buckets := buckets } nowUs =
      { s.rollWindow nowUs with buckets := buckets } := by
  unfold rollWindow windowOver
  dsimp only
  split
  · rfl
  · rfl

@[simp] theorem rollWindow_kdfAdmitted : (s.rollWindow nowUs).kdfAdmitted = s.kdfAdmitted := by
  unfold rollWindow
  split
  · rfl
  · rfl

@[simp] theorem rollWindow_proven : (s.rollWindow nowUs).proven = s.proven := by
  unfold rollWindow
  split
  · rfl
  · rfl

@[simp] theorem rollWindow_throttleRefusals :
    (s.rollWindow nowUs).throttleRefusals = s.throttleRefusals := by
  unfold rollWindow
  split
  · rfl
  · rfl

theorem admit_cases (h : s.admission peerKey nowUs = (answer, t)) : AdmitCase s peerKey nowUs answer t := by
  unfold admission at h
  cases hthrottle : throttleAdmit s.buckets peerKey nowUs with
  | mk remaining buckets =>
    rw [hthrottle] at h
    have hbuckets : buckets = (throttleAdmit s.buckets peerKey nowUs).2 := (congrArg Prod.snd hthrottle).symm
    cases remaining with
    | some remaining =>
      cases h
      rw [hbuckets]
      exact .lockedOut (congrArg Prod.fst hthrottle)
    | none =>
      have hnone := congrArg Prod.fst hthrottle
      dsimp only at h
      unfold kdfGlobalAdmit allowance at h
      rw [rollWindow_buckets] at h
      dsimp only at h
      rw [rollWindow_proven] at h
      by_cases hover : s.allowance peerKey nowUs ≤ (s.rollWindow nowUs).kdfGlobalSpent
      · have hspent := hover
        unfold allowance at hspent
        rw [if_pos hspent] at h
        cases h
        dsimp only
        rw [hbuckets, rollWindow_throttleRefusals, rollWindow_kdfAdmitted]
        exact .overBudget hnone hover
      · have hspent := hover
        unfold allowance at hspent
        rw [if_neg hspent] at h
        dsimp only at h
        rw [rollWindow_kdfAdmitted] at h
        have hlt := UInt32.not_le.mp hover
        split at h
        · next hfull =>
          cases h
          rw [hbuckets]
          exact .busy hnone hlt hfull
        · next hfull =>
          cases h
          rw [hbuckets]
          exact .admitted hnone hlt (Nat.lt_of_not_le hfull)

namespace AdmitCase

variable (h : AdmitCase s peerKey nowUs answer t)

include h

theorem buckets_eq : t.buckets = (throttleAdmit s.buckets peerKey nowUs).2 := by
  cases h <;> rfl

theorem proven_eq : t.proven = s.proven := by
  cases h <;> rfl

theorem lockedOut_iff :
    (∃ retry, answer = .lockedOut retry) ↔ (throttleAdmit s.buckets peerKey nowUs).1.isSome = true := by
  cases h with
  | @lockedOut remaining hsome =>
    rw [hsome]
    exact ⟨fun _ => rfl, fun _ => ⟨_, rfl⟩⟩
  | overBudget hnone _ =>
    rw [hnone]
    simp
  | busy hnone _ _ =>
    rw [hnone]
    simp
  | admitted hnone _ _ =>
    rw [hnone]
    simp

theorem kdfAdmitted_eq :
    t.kdfAdmitted = (if answer = .admitted then s.kdfAdmitted + 1 else s.kdfAdmitted) ∧
      (answer = .admitted → s.kdfAdmitted = 0) := by
  cases h with
  | lockedOut _ => exact ⟨rfl, fun hno => by cases hno⟩
  | overBudget _ _ => exact ⟨rfl, fun hno => by cases hno⟩
  | busy _ _ _ => exact ⟨rfl, fun hno => by cases hno⟩
  | admitted _ _ hlt => exact ⟨rfl, fun _ => Nat.lt_one_iff.mp hlt⟩

end AdmitCase

end MachineThrottle

/-! ## Whole calls -/

/-- What a call of a machine presents. -/
structure MachineAuthRequest where
  clientId : List UInt8
  username : List UInt8
  password : List UInt8
  receivingInterface : UInt8

/-- The checks before the throttle. -/
def MachineAuthRequest.reachesThrottle (request : MachineAuthRequest) : Bool :=
  !(request.username.length = 0 || request.username.length > 36 || request.password.length ≠ 43 ||
    (request.receivingInterface ≠ machineInterfaceSoftap &&
      request.receivingInterface ≠ machineInterfaceSta)) &&
  !(request.username.contains 0 || request.password.contains 0 || request.clientId ≠ request.username)

/-- `argus_machine_auth_outcome_t`. -/
structure MachineAuthOutcome where
  result : Except MachineAuthResult MachineServicePrincipal
  retryAfterS : UInt32
  kdfInvoked : Bool

/-- `argus_machine_service_authenticate`, with no other call between its two locked sections. -/
def machineServiceAuthenticate (s : MachineThrottle) (directory : MachineSnapshot) (peerKey : UInt32)
    (request : MachineAuthRequest) (nowUs : UInt64) (verify : Except EspErr Bool) :
    MachineAuthOutcome × MachineThrottle :=
  let authenticate (refusal : Option MachineAuthResult) := machineAuthenticate directory
    request.clientId request.username request.password request.receivingInterface refusal verify
  if ¬ request.reachesThrottle then (⟨authenticate none, 0, false⟩, s)
  else
    match s.admission peerKey nowUs with
    | (.lockedOut retry, s) | (.overBudget retry, s) => (⟨authenticate (some .throttled), retry, false⟩, s)
    | (.busy, s) => (⟨authenticate (some .busy), 0, false⟩, s)
    | (.admitted, s) =>
      (⟨authenticate none, 0, true⟩, s.record peerKey nowUs (authenticate none).toOption.isSome)

/-! ## Runs -/

/-- The throttle, the latest start of a call, and the calls that derive. -/
structure MachineAuth where
  throttle : MachineThrottle
  clockUs : UInt64
  inflight : List (UInt32 × UInt64)

def MachineAuth.boot : MachineAuth := ⟨.boot, 0, []⟩

inductive MachineAuthAct
  | admission (peerKey : UInt32) (nowUs : UInt64) (answer : KdfAdmission)
  | record (peerKey : UInt32) (nowUs : UInt64) (success : Bool)
deriving DecidableEq

/-- A call enters, or one that derived records its result.  `esp_timer_get_time` is an `int64_t`. -/
inductive MachineAuthStep : MachineAuth → MachineAuthAct → MachineAuth → Prop
  | admission {s : MachineAuth} {peerKey : UInt32} {nowUs : UInt64} {answer : KdfAdmission}
      {throttle : MachineThrottle} : s.clockUs ≤ nowUs → nowUs.toNat < 2 ^ 63 →
      s.throttle.admission peerKey nowUs = (answer, throttle) →
      MachineAuthStep s (.admission peerKey nowUs answer)
        ⟨throttle, nowUs,
          if answer = .admitted then (peerKey, nowUs) :: s.inflight else s.inflight⟩
  | record {s : MachineAuth} {peerKey : UInt32} {nowUs : UInt64} {success : Bool} :
      (peerKey, nowUs) ∈ s.inflight →
      MachineAuthStep s (.record peerKey nowUs success)
        { s with
          throttle := s.throttle.record peerKey nowUs success
          inflight := s.inflight.erase (peerKey, nowUs) }

abbrev MachineAuthMove := Move MachineAuth MachineAuthAct

theorem MachineAuthStep.admit_clock {s t : MachineAuth} {peerKey : UInt32} {nowUs : UInt64}
    {answer : KdfAdmission} (h : MachineAuthStep s (.admission peerKey nowUs answer) t) :
    s.clockUs ≤ nowUs ∧ t.clockUs = nowUs := by
  cases h with
  | admission hle _ _ => exact ⟨hle, rfl⟩

/-- A call after the other is a run: it enters, and records if it was admitted. -/
theorem machineServiceAuthenticate_run {s : MachineAuth} {directory : MachineSnapshot}
    {peerKey : UInt32} {request : MachineAuthRequest} {nowUs : UInt64} {verify : Except EspErr Bool}
    (hclock : s.clockUs ≤ nowUs) (hlt : nowUs.toNat < 2 ^ 63) (hidle : s.inflight = []) :
    ∃ ms, IsRun MachineAuthStep s ms ∧ (final s ms).inflight = [] ∧
      (final s ms).throttle =
        (machineServiceAuthenticate s.throttle directory peerKey request nowUs verify).2 := by
  unfold machineServiceAuthenticate
  dsimp only
  split
  · exact ⟨[], trivial, hidle, rfl⟩
  · have henter (answer : KdfAdmission) (throttle : MachineThrottle) (hne : answer ≠ .admitted)
        (hanswer : s.throttle.admission peerKey nowUs = (answer, throttle)) :
        ∃ ms, IsRun MachineAuthStep s ms ∧ (final s ms).inflight = [] ∧
          (final s ms).throttle = throttle := by
      refine ⟨[⟨s, .admission peerKey nowUs answer, _⟩], ⟨rfl, .admission hclock hlt hanswer, trivial⟩, ?_, rfl⟩
      rw [final_cons, final_nil]
      exact (if_neg hne).trans hidle
    split
    · next retry throttle hanswer => exact henter _ throttle (by simp) hanswer
    · next retry throttle hanswer => exact henter _ throttle (by simp) hanswer
    · next throttle hanswer => exact henter _ throttle (by simp) hanswer
    · next throttle hanswer =>
      dsimp only
      generalize (Except.toOption _).isSome = success
      let s₁ : MachineAuth := ⟨throttle, nowUs, [(peerKey, nowUs)]⟩
      have hstep : MachineAuthStep s (.admission peerKey nowUs .admitted) s₁ := by
        have hstep := MachineAuthStep.admission hclock hlt hanswer
        rw [if_pos rfl, hidle] at hstep
        exact hstep
      let s₂ : MachineAuth := { s₁ with throttle := throttle.record peerKey nowUs success, inflight := [] }
      have hrecord : MachineAuthStep s₁ (.record peerKey nowUs success) s₂ := by
        have hrecord := @MachineAuthStep.record s₁ peerKey nowUs success List.mem_cons_self
        rw [show s₁.inflight.erase (peerKey, nowUs) = [] from List.erase_cons_head ..] at hrecord
        exact hrecord
      exact ⟨[⟨s, .admission peerKey nowUs .admitted, s₁⟩, ⟨s₁, .record peerKey nowUs success, s₂⟩],
        ⟨rfl, hstep, rfl, hrecord, trivial⟩, rfl, rfl⟩

/-- An input of a run: a call enters, or records its result. -/
inductive MachineAuthCall
  | enter (peerKey : UInt32) (nowUs : UInt64)
  | finish (peerKey : UInt32) (nowUs : UInt64) (success : Bool)

/-- The step of an input. -/
def MachineAuth.next (s : MachineAuth) : MachineAuthCall → Option (MachineAuthAct × MachineAuth)
  | .enter peerKey nowUs =>
    if s.clockUs ≤ nowUs ∧ nowUs.toNat < 2 ^ 63 then
      let (answer, throttle) := s.throttle.admission peerKey nowUs
      some (.admission peerKey nowUs answer, ⟨throttle, nowUs,
        if answer = .admitted then (peerKey, nowUs) :: s.inflight else s.inflight⟩)
    else none
  | .finish peerKey nowUs success =>
    if (peerKey, nowUs) ∈ s.inflight then
      some (.record peerKey nowUs success,
        { s with
          throttle := s.throttle.record peerKey nowUs success
          inflight := s.inflight.erase (peerKey, nowUs) })
    else none

def machineAuthTrace (calls : List MachineAuthCall) : List MachineAuthMove :=
  traceWhile MachineAuth.next .boot calls

theorem isRun_machineAuthTrace (calls : List MachineAuthCall) :
    IsRun MachineAuthStep .boot (machineAuthTrace calls) := by
  refine isRun_traceWhile (fun s call ev t h => ?_) _ calls
  cases call with
  | enter peerKey nowUs =>
    unfold MachineAuth.next at h
    dsimp only at h
    split at h
    · next hnow =>
      cases h
      exact .admission hnow.1 hnow.2 rfl
    · cases h
  | finish peerKey nowUs success =>
    unfold MachineAuth.next at h
    dsimp only at h
    split at h
    · next hmem =>
      cases h
      exact .record hmem
    · cases h

/-- A call that is admitted and records its result at once. -/
def wholeCall (peerKey : UInt32) (nowUs : UInt64) (success : Bool) : List MachineAuthCall :=
  [.enter peerKey nowUs, .finish peerKey nowUs success]

end Argus
