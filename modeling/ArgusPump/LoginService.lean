import ArgusPump.HumanSessions
import ArgusPump.Lib.Slots
import ArgusPump.Lib.Run

/-!
# The login service

`argus_auth_service_authenticate` and `argus_auth_service_create_verifier` of
`main/argus_auth_service.c`: throttle buckets for the peer, the principal and all of them, and
the calls that derive.  A login is admitted under the mutex, works without it, and takes it
again to record its result.  It reads the time before it takes the mutex, so calls enter and
finish in any order of their start times.

    the directory and the store at hand → the verdict is the login's answer   (loginVerdict_success)
    what a locked section can do                          (admit_cases, release_throttle)
-/

namespace Argus

open Interact

def loginFailureLimit : UInt32 := 5
def loginWindowUs : UInt64 := 60000000
def loginCooldownInitialUs : UInt64 := 30000000
def loginCooldownMaxUs : UInt64 := 300000000
def loginKdfAdmissionMax : UInt8 := 2

/-! ## Throttle buckets -/

/-- `throttle_bucket_t`. -/
structure ThrottleBucket where
  occupied : Bool
  key : UInt32
  failures : UInt32
  cooldownLevel : UInt8
  windowStartedUs : UInt64
  cooldownUntilUs : UInt64
  lastSeenUs : UInt64
deriving DecidableEq

def ThrottleBucket.zero : ThrottleBucket := ⟨false, 0, 0, 0, 0, 0, 0⟩

abbrev ThrottleBuckets := Fin 8 → ThrottleBucket

/-- The bucket of a key seen for the first time. -/
def ThrottleBucket.fresh (key : UInt32) (nowUs : UInt64) : ThrottleBucket :=
  { zero with occupied := true, key := key, lastSeenUs := nowUs }

def ThrottleBucket.keyOf (bucket : ThrottleBucket) : Option UInt32 :=
  if bucket.occupied then some bucket.key else none

theorem throttleBucket_pos : 0 < 8 := by decide

/-- The bucket seen longest ago, the first of several. -/
def ThrottleBuckets.oldest (buckets : ThrottleBuckets) : Fin 8 :=
  (List.finRange 8).foldl
    (fun oldest i => if (buckets i).lastSeenUs < (buckets oldest).lastSeenUs then i else oldest)
    ⟨0, throttleBucket_pos⟩

/-- `bucket_for`: the index and the buckets after it. -/
def ThrottleBuckets.bucketFor (buckets : ThrottleBuckets) (key : UInt32) (nowUs : UInt64) :
    Fin 8 × ThrottleBuckets :=
  match (List.finRange 8).find? fun i => (buckets i).occupied && (buckets i).key = key with
  | some i => (i, Function.update buckets i { buckets i with lastSeenUs := nowUs })
  | none =>
    let index := (Slots.firstFree ThrottleBucket.occupied buckets).getD buckets.oldest
    (index, Function.update buckets index (.fresh key nowUs))

/-- `cooldown_remaining`. -/
def ThrottleBucket.cooldownRemaining (bucket : ThrottleBucket) (nowUs : UInt64) : UInt64 :=
  if bucket.cooldownUntilUs ≤ nowUs then 0 else bucket.cooldownUntilUs - nowUs

/-- The doubling loop of `record_failure_bucket`. -/
def doubledCooldown : Nat → UInt64 → UInt64
  | 0, durationUs => durationUs
  | level + 1, durationUs =>
    if durationUs ≥ loginCooldownMaxUs / 2 then loginCooldownMaxUs
    else doubledCooldown level (durationUs * 2)

/-- How long a cooldown lasts that a bucket of the level enters. -/
def cooldownDuration (level : UInt8) : UInt64 :=
  let durationUs := doubledCooldown level.toNat loginCooldownInitialUs
  if durationUs > loginCooldownMaxUs then loginCooldownMaxUs else durationUs

/-- The test of `record_failure_bucket` for a window to start. -/
def ThrottleBucket.windowOver (bucket : ThrottleBucket) (nowUs : UInt64) : Bool :=
  bucket.windowStartedUs = 0 || nowUs - bucket.windowStartedUs > loginWindowUs

/-- `record_failure_bucket`. -/
def ThrottleBucket.recordFailure (bucket : ThrottleBucket) (nowUs : UInt64) : ThrottleBucket :=
  if bucket.windowOver nowUs then { bucket with windowStartedUs := nowUs, failures := 1 }
  else if bucket.failures + 1 < loginFailureLimit then { bucket with failures := bucket.failures + 1 }
  else
    { bucket with
      cooldownUntilUs := nowUs + cooldownDuration bucket.cooldownLevel
      cooldownLevel := if bucket.cooldownLevel < 4 then bucket.cooldownLevel + 1 else bucket.cooldownLevel
      failures := 0
      windowStartedUs := nowUs }

/-- What `record_result_locked` makes of a bucket when the login succeeds. -/
def ThrottleBucket.recordSuccess (bucket : ThrottleBucket) : ThrottleBucket :=
  { bucket with failures := 0, windowStartedUs := 0 }

/-! ## Admission -/

/-- The statics of the service. -/
structure LoginService where
  peers : ThrottleBuckets
  principals : ThrottleBuckets
  global : ThrottleBucket
  kdfAdmitted : UInt8
  kdfInvocations : UInt32
  inflightPeers : Fin 2 → UInt32
  inflightPrincipals : Fin 2 → UInt32

def LoginService.boot : LoginService where
  peers _ := .zero
  principals _ := .zero
  global := { ThrottleBucket.zero with occupied := true, key := 1 }
  kdfAdmitted := 0
  kdfInvocations := 0
  inflightPeers _ := 0
  inflightPrincipals _ := 0

/-- `hash_login`. -/
def hashLogin (login : List UInt8) : UInt32 :=
  let hash := login.foldl (fun hash c => (hash ^^^ c.toUInt32) * 16777619) (2166136261 : UInt32)
  if hash = 0 then 1 else hash

/-- What the first locked section of a login answers. -/
inductive LoginAdmission
  | throttled (retryAfterS : UInt32)
  | busy
  | admitted
deriving DecidableEq

namespace LoginService

/-- `preflight_locked`. -/
def preflight (s : LoginService) (peerKey principalKey : UInt32) (nowUs : UInt64) :
    UInt32 × LoginService :=
  let (peer, peers) := s.peers.bucketFor peerKey nowUs
  let (principal, principals) := s.principals.bucketFor principalKey nowUs
  let remaining := (peers peer).cooldownRemaining nowUs
  let principalRemaining := (principals principal).cooldownRemaining nowUs
  let remaining := if principalRemaining > remaining then principalRemaining else remaining
  let globalRemaining := s.global.cooldownRemaining nowUs
  let remaining := if globalRemaining > remaining then globalRemaining else remaining
  (if remaining = 0 then 0 else ((remaining + 999999) / 1000000).toUInt32,
    { s with peers := peers, principals := principals })

/-- `duplicate_inflight_locked`. -/
def duplicateInflight (s : LoginService) (peerKey principalKey : UInt32) : Bool :=
  (List.finRange 2).any fun i => s.inflightPeers i = peerKey || s.inflightPrincipals i = principalKey

/-- `reserve_inflight_locked`. -/
def reserveInflight (s : LoginService) (peerKey principalKey : UInt32) : Option LoginService :=
  ((List.finRange 2).find? fun i => s.inflightPeers i = 0 && s.inflightPrincipals i = 0).map fun i =>
    { s with
      inflightPeers := Function.update s.inflightPeers i peerKey
      inflightPrincipals := Function.update s.inflightPrincipals i principalKey }

/-- `release_inflight_locked`. -/
def releaseInflight (s : LoginService) (peerKey principalKey : UInt32) : LoginService :=
  match (List.finRange 2).find? fun i =>
      s.inflightPeers i = peerKey && s.inflightPrincipals i = principalKey with
  | some i =>
    { s with
      inflightPeers := Function.update s.inflightPeers i 0
      inflightPrincipals := Function.update s.inflightPrincipals i 0 }
  | none => s

/-- The first locked section of `argus_auth_service_authenticate`. -/
def admission (s : LoginService) (peerKey principalKey : UInt32) (nowUs : UInt64) :
    LoginAdmission × LoginService :=
  let (retry, s) := s.preflight peerKey principalKey nowUs
  if retry ≠ 0 then (.throttled retry, s)
  else if s.kdfAdmitted ≥ loginKdfAdmissionMax || s.duplicateInflight peerKey principalKey then (.busy, s)
  else
    match s.reserveInflight peerKey principalKey with
    | none => (.busy, s)
    | some s => (.admitted, { s with kdfAdmitted := s.kdfAdmitted + 1 })

/-- `record_result_locked`. -/
def recordResult (s : LoginService) (peerKey principalKey : UInt32) (nowUs : UInt64) (success : Bool) :
    LoginService :=
  let (peer, peers) := s.peers.bucketFor peerKey nowUs
  let (principal, principals) := s.principals.bucketFor principalKey nowUs
  if success then
    { s with
      peers := Function.update peers peer (peers peer).recordSuccess
      principals := Function.update principals principal (principals principal).recordSuccess }
  else
    { s with
      peers := Function.update peers peer ((peers peer).recordFailure nowUs)
      principals := Function.update principals principal ((principals principal).recordFailure nowUs)
      global := s.global.recordFailure nowUs }

end LoginService

/-! ## What the locked sections do -/

namespace ThrottleBucket

variable {b : ThrottleBucket} {k : UInt32}

def seen (b : ThrottleBucket) (nowUs : UInt64) : ThrottleBucket := { b with lastSeenUs := nowUs }

theorem keyOf_eq_some : b.keyOf = some k ↔ b.occupied = true ∧ b.key = k := by
  unfold keyOf
  split
  · next h => simp [h]
  · next h => simp [h]

@[simp] theorem keyOf_seen (b : ThrottleBucket) (nowUs : UInt64) : (b.seen nowUs).keyOf = b.keyOf := rfl

@[simp] theorem keyOf_fresh (key : UInt32) (nowUs : UInt64) : (fresh key nowUs).keyOf = some key := rfl

@[simp] theorem keyOf_recordSuccess (b : ThrottleBucket) : b.recordSuccess.keyOf = b.keyOf := rfl

@[simp] theorem keyOf_recordFailure (b : ThrottleBucket) (nowUs : UInt64) :
    (b.recordFailure nowUs).keyOf = b.keyOf := by
  unfold recordFailure
  split
  · rfl
  · split
    · rfl
    · rfl

theorem recordFailure_seen (b : ThrottleBucket) (nowUs seenUs : UInt64) :
    (b.seen seenUs).recordFailure nowUs = (b.recordFailure nowUs).seen seenUs := by
  show (if b.windowOver nowUs = true then _ else _) = _
  unfold recordFailure
  split
  · rfl
  · show (if b.failures + 1 < loginFailureLimit then _ else _) = _
    split
    · rfl
    · rfl

end ThrottleBucket

namespace ThrottleBuckets

variable {buckets : ThrottleBuckets} {key : UInt32} {i : Fin 8}

/-- What the bucket of the key says, apart from when it was last seen; a key without a bucket
gets a fresh one. -/
def view (buckets : ThrottleBuckets) (key : UInt32) : ThrottleBucket :=
  ((Slots.get ThrottleBucket.keyOf buckets key).getD (.fresh key 0)).seen 0

/-- `bucket_for` answers the key's own bucket, or gives it one. -/
theorem bucketFor_spec (h : Slots.Keyed ThrottleBucket.keyOf buckets) (key : UInt32) (nowUs : UInt64) :
    ∃ i, buckets.bucketFor key nowUs = (i, Function.update buckets i ((buckets.view key).seen nowUs)) ∧
      ∀ j, (buckets j).keyOf = some key → j = i := by
  unfold bucketFor view
  cases hfound : (List.finRange 8).find? fun i => (buckets i).occupied && (buckets i).key = key with
  | some i =>
    have hi := List.find?_some hfound
    rw [Bool.and_eq_true, decide_eq_true_eq] at hi
    have hkey := ThrottleBucket.keyOf_eq_some.mpr hi
    refine ⟨i, ?_, fun j hj => h j i key hj hkey⟩
    rw [(Slots.get_eq_some h).mpr ⟨i, rfl, hkey⟩]
    rfl
  | none =>
    have hnone (j : Fin 8) : (buckets j).keyOf ≠ some key := fun hj => by
      have hno := List.find?_eq_none.mp hfound j (List.mem_finRange j)
      rw [Bool.and_eq_true, decide_eq_true_eq] at hno
      exact hno (ThrottleBucket.keyOf_eq_some.mp hj)
    refine ⟨(Slots.firstFree ThrottleBucket.occupied buckets).getD buckets.oldest, ?_,
      fun j hj => absurd hj (hnone j)⟩
    rw [Slots.get_eq_none.mpr hnone]
    rfl

theorem keyOf_view (buckets : ThrottleBuckets) (key : UInt32) : (buckets.view key).keyOf = some key := by
  unfold view
  cases hget : Slots.get ThrottleBucket.keyOf buckets key with
  | none => rfl
  | some b =>
    obtain ⟨-, -, hkey⟩ := Slots.exists_of_get hget
    exact hkey

/-- The slot of the key, or one it is given, is written. -/
theorem write (h : Slots.Keyed ThrottleBucket.keyOf buckets)
    (hi : ∀ j, (buckets j).keyOf = some key → j = i) {b : ThrottleBucket} (hb : b.keyOf = some key) :
    Slots.Keyed ThrottleBucket.keyOf (Function.update buckets i b) ∧
      view (Function.update buckets i b) key = b.seen 0 ∧
      ∀ k ≠ key, ((Slots.get ThrottleBucket.keyOf buckets k).isSome = true →
        (Slots.get ThrottleBucket.keyOf (Function.update buckets i b) k).isSome = true) →
          view (Function.update buckets i b) k = buckets.view k := by
  refine ⟨h.update fun j k hk hj => ?_, ?_, fun k hk hkept => ?_⟩
  · cases hb.symm.trans hk
    exact hi j hj
  · unfold view
    rw [Slots.get_update_self h hi hb]
    rfl
  · unfold view
    rw [Slots.get_update_kept h hb hk hkept]

end ThrottleBuckets

namespace LoginService

variable {s t : LoginService} {peerKey principalKey : UInt32} {nowUs : UInt64} {answer : LoginAdmission}

/-- The cases of the first locked section of a login. -/
inductive AdmitCase (s : LoginService) (peerKey principalKey : UInt32) (nowUs : UInt64) :
    LoginAdmission → LoginService → Prop
  | throttled : (s.preflight peerKey principalKey nowUs).1 ≠ 0 →
      AdmitCase s peerKey principalKey nowUs (.throttled (s.preflight peerKey principalKey nowUs).1)
        (s.preflight peerKey principalKey nowUs).2
  | busy : (s.preflight peerKey principalKey nowUs).1 = 0 →
      (loginKdfAdmissionMax ≤ s.kdfAdmitted ∨ s.duplicateInflight peerKey principalKey = true ∨
        ∀ i, ¬ (s.inflightPeers i = 0 ∧ s.inflightPrincipals i = 0)) →
      AdmitCase s peerKey principalKey nowUs .busy (s.preflight peerKey principalKey nowUs).2
  | admitted {i : Fin 2} : (s.preflight peerKey principalKey nowUs).1 = 0 →
      s.kdfAdmitted < loginKdfAdmissionMax → s.duplicateInflight peerKey principalKey = false →
      s.inflightPeers i = 0 ∧ s.inflightPrincipals i = 0 →
      AdmitCase s peerKey principalKey nowUs .admitted
        { (s.preflight peerKey principalKey nowUs).2 with
          inflightPeers := Function.update s.inflightPeers i peerKey
          inflightPrincipals := Function.update s.inflightPrincipals i principalKey
          kdfAdmitted := s.kdfAdmitted + 1 }

theorem admit_cases (h : s.admission peerKey principalKey nowUs = (answer, t)) :
    AdmitCase s peerKey principalKey nowUs answer t := by
  unfold admission at h
  dsimp only at h
  by_cases hretry : (s.preflight peerKey principalKey nowUs).1 = 0
  · rw [if_neg (not_not.mpr hretry)] at h
    have hkdf : (s.preflight peerKey principalKey nowUs).2.kdfAdmitted = s.kdfAdmitted := rfl
    have hdup : (s.preflight peerKey principalKey nowUs).2.duplicateInflight peerKey principalKey =
      s.duplicateInflight peerKey principalKey := rfl
    rw [hkdf, hdup] at h
    split at h
    · next hbusy =>
      cases h
      rw [Bool.or_eq_true, decide_eq_true_eq] at hbusy
      exact .busy hretry (hbusy.imp id .inl)
    · next hfree =>
      rw [Bool.or_eq_true, decide_eq_true_eq, not_or, Bool.not_eq_true] at hfree
      unfold reserveInflight at h
      split at h
      · next hnone =>
        cases h
        rw [Option.map_eq_none_iff, List.find?_eq_none] at hnone
        refine .busy hretry (.inr (.inr fun i hi => hnone i (List.mem_finRange i) ?_))
        rw [Bool.and_eq_true, decide_eq_true_eq, decide_eq_true_eq]
        exact hi
      · next u hsome =>
        cases h
        obtain ⟨i, hi, rfl⟩ := Option.map_eq_some_iff.mp hsome
        have hzero := List.find?_some hi
        rw [Bool.and_eq_true, decide_eq_true_eq, decide_eq_true_eq] at hzero
        exact .admitted hretry (UInt8.not_le.mp hfree.1) hfree.2 hzero
  · rw [if_pos hretry] at h
    cases h
    exact .throttled hretry

/-- What a login that enters makes of the buckets. -/
theorem AdmitCase.tables (h : AdmitCase s peerKey principalKey nowUs answer t) :
    t.peers = (s.peers.bucketFor peerKey nowUs).2 ∧
      t.principals = (s.principals.bucketFor principalKey nowUs).2 ∧ t.global = s.global := by
  cases h <;> exact ⟨rfl, rfl, rfl⟩

end LoginService

/-! ## What a login finds -/

/-- What the stores answer a login: the console's verifier, the directory unless it cannot be
allocated or read, and the epoch of the store's status. -/
structure LoginStores where
  console : Except EspErr UInt32
  directory : Option SecurityDirectoryPayload
  status : Option UInt32

/-- The principal a login name stands for, if it is usable; `none` if the stores are not available. -/
def LoginStores.principal (stores : LoginStores) (canonical : List UInt8) :
    Option (Option AuthorizationPrincipal) :=
  if canonical = asciiBytes "argus" then
    match stores.console, stores.status with
    | .ok version, some securityEpoch => some (some (consolePrincipal version securityEpoch))
    | _, _ => none
  else
    match stores.directory, stores.status with
    | some directory, some securityEpoch =>
      some ((loginCandidate directory canonical).bind fun human =>
        if human.enabled ≠ 0 ∧ human.revoked = 0 then buildHumanPrincipal human directory securityEpoch
        else none)
    | _, _ => none

/-- What the second locked section works on: whether the derivation ran, and the result to
record, if there is one. -/
structure LoginVerdict where
  kdfInvoked : Bool
  recorded : Option Bool
deriving DecidableEq

/-- A derivation ran unless it timed out or the verifier was not ready. -/
def kdfRan (err : EspErr) : Bool := err ≠ espErrTimeout && err ≠ espErrInvalidState

/-- The part of `argus_auth_service_authenticate` between its locked sections. -/
def loginVerdict (stores : LoginStores) (canonical : List UInt8) (verify : Except EspErr Bool) :
    LoginVerdict :=
  match verify with
  | .error err => ⟨kdfRan err, none⟩
  | .ok isMatch =>
    ⟨true, (stores.principal canonical).map fun principal => isMatch && principal.isSome⟩

namespace LoginService

/-- The second locked section of `argus_auth_service_authenticate`, of a call that started at
`nowUs`. -/
def release (s : LoginService) (peerKey principalKey : UInt32) (nowUs : UInt64) (verdict : LoginVerdict) :
    LoginService :=
  let s := { s with kdfAdmitted := s.kdfAdmitted - 1 }.releaseInflight peerKey principalKey
  let s := { s with kdfInvocations := if verdict.kdfInvoked then s.kdfInvocations + 1 else s.kdfInvocations }
  match verdict.recorded with
  | some success => s.recordResult peerKey principalKey nowUs success
  | none => s

/-- The first locked section of `argus_auth_service_create_verifier`. -/
def createAdmit (s : LoginService) : Bool × LoginService :=
  if s.kdfAdmitted ≥ loginKdfAdmissionMax then (false, s)
  else (true, { s with kdfAdmitted := s.kdfAdmitted + 1 })

/-- The second locked section of `argus_auth_service_create_verifier`, of a derivation that
answered `err`. -/
def createRelease (s : LoginService) (err : EspErr) : LoginService :=
  { s with
    kdfAdmitted := s.kdfAdmitted - 1
    kdfInvocations := if kdfRan err then s.kdfInvocations + 1 else s.kdfInvocations }

end LoginService

/-- **The verdict is the login's answer**, when the stores are available. -/
theorem loginVerdict_success {directory : SecurityDirectoryPayload} {version securityEpoch : UInt32}
    {username password canonical : List UInt8} {verify : Except EspErr Bool}
    (hcanonical : canonicalizeLogin username = some canonical)
    (hlen : ¬ (password.length = 0 ∨ password.length > 128)) :
    (loginVerdict ⟨.ok version, some directory, some securityEpoch⟩ canonical verify).recorded = some true ↔
      ∃ principal, authServiceAuthenticate directory (.ok version) securityEpoch username password none
        verify = .ok principal := by
  unfold loginVerdict authServiceAuthenticate LoginStores.principal
  rw [hcanonical]
  dsimp only
  rw [if_neg hlen]
  cases verify with
  | error err => simp
  | ok isMatch =>
    dsimp only
    by_cases hargus : canonical = asciiBytes "argus"
    · rw [if_pos hargus, if_pos hargus]
      cases isMatch
      · simp
      · simp
    · rw [if_neg hargus, if_neg hargus]
      cases loginCandidate directory canonical with
      | none => simp
      | some human =>
        dsimp only [Option.bind_some, Option.map_some]
        by_cases husable : human.enabled ≠ 0 ∧ human.revoked = 0
        · rw [if_pos husable]
          cases isMatch with
          | false => simp
          | true =>
            rw [if_neg (by simp [husable.1, husable.2])]
            cases buildHumanPrincipal human directory securityEpoch with
            | none => simp
            | some principal => simp
        · rw [if_neg husable]
          have hrefused : ¬ isMatch = true ∨ human.enabled = 0 ∨ human.revoked ≠ 0 := by
            by_cases henabled : human.enabled = 0
            · exact .inr (.inl henabled)
            · exact .inr (.inr fun hrevoked => husable ⟨henabled, hrevoked⟩)
          rw [if_pos hrefused]
          simp

/-! ## Runs -/

/-- A login between its locked sections. -/
structure LoginCall where
  peerKey : UInt32
  canonical : List UInt8
  startUs : UInt64
deriving DecidableEq

/-- The key of its principal. -/
def LoginCall.principalKey (call : LoginCall) : UInt32 := hashLogin call.canonical

/-- The service, the latest start of a login, and the calls between their locked sections. -/
structure Logins where
  service : LoginService
  clockUs : UInt64
  inflight : List LoginCall
  verifiers : Nat

def Logins.boot : Logins := ⟨.boot, 0, [], 0⟩

inductive LoginAct
  | enter (call : LoginCall) (answer : LoginAdmission)
  | finish (call : LoginCall) (verdict : LoginVerdict)
  | createEnter (admitted : Bool)
  | createFinish
deriving DecidableEq

/-- A locked section of any task.  `esp_timer_get_time` is an `int64_t`. -/
inductive LoginStep : Logins → LoginAct → Logins → Prop
  | enter {s : Logins} {peerKey : UInt32} {username canonical : List UInt8} {nowUs : UInt64}
      {answer : LoginAdmission} {service : LoginService} : peerKey ≠ 0 →
      canonicalizeLogin username = some canonical → nowUs.toNat < 2 ^ 63 →
      s.service.admission peerKey (hashLogin canonical) nowUs = (answer, service) →
      LoginStep s (.enter ⟨peerKey, canonical, nowUs⟩ answer)
        { s with
          service := service
          clockUs := if s.clockUs < nowUs then nowUs else s.clockUs
          inflight :=
            if answer = .admitted then ⟨peerKey, canonical, nowUs⟩ :: s.inflight else s.inflight }
  | finish {s : Logins} {call : LoginCall} {stores : LoginStores} {verify : Except EspErr Bool} :
      call ∈ s.inflight →
      LoginStep s (.finish call (loginVerdict stores call.canonical verify))
        { s with
          service := s.service.release call.peerKey call.principalKey call.startUs
            (loginVerdict stores call.canonical verify)
          inflight := s.inflight.erase call }
  | createEnter {s : Logins} {admitted : Bool} {service : LoginService} :
      s.service.createAdmit = (admitted, service) →
      LoginStep s (.createEnter admitted)
        { s with
          service := service
          verifiers := if admitted then s.verifiers + 1 else s.verifiers }
  | createFinish {s : Logins} {err : EspErr} : 0 < s.verifiers →
      LoginStep s .createFinish
        { s with
          service := s.service.createRelease err
          verifiers := s.verifiers - 1 }

abbrev LoginMove := Move Logins LoginAct

/-- An input of a run: a section of a task. -/
inductive LoginTask
  | enter (peerKey : UInt32) (username : List UInt8) (nowUs : UInt64)
  | finish (call : LoginCall) (stores : LoginStores) (verify : Except EspErr Bool)
  | createEnter
  | createFinish (err : EspErr)

/-- The step of an input. -/
def Logins.next (s : Logins) : LoginTask → Option (LoginAct × Logins)
  | .enter peerKey username nowUs =>
    match canonicalizeLogin username with
    | some canonical =>
      if peerKey ≠ 0 ∧ nowUs.toNat < 2 ^ 63 then
        let (answer, service) := s.service.admission peerKey (hashLogin canonical) nowUs
        some (.enter ⟨peerKey, canonical, nowUs⟩ answer,
          { s with
            service := service
            clockUs := if s.clockUs < nowUs then nowUs else s.clockUs
            inflight :=
              if answer = .admitted then ⟨peerKey, canonical, nowUs⟩ :: s.inflight else s.inflight })
      else none
    | none => none
  | .finish call stores verify =>
    if call ∈ s.inflight then
      let verdict := loginVerdict stores call.canonical verify
      some (.finish call verdict,
        { s with
          service := s.service.release call.peerKey call.principalKey call.startUs verdict
          inflight := s.inflight.erase call })
    else none
  | .createEnter =>
    let (admitted, service) := s.service.createAdmit
    some (.createEnter admitted,
      { s with
        service := service
        verifiers := if admitted then s.verifiers + 1 else s.verifiers })
  | .createFinish err =>
    if 0 < s.verifiers then
      some (.createFinish,
        { s with
          service := s.service.createRelease err
          verifiers := s.verifiers - 1 })
    else none

def loginTrace (tasks : List LoginTask) : List LoginMove := traceWhile Logins.next .boot tasks

theorem isRun_loginTrace (tasks : List LoginTask) : IsRun LoginStep .boot (loginTrace tasks) := by
  refine isRun_traceWhile (fun s task ev t h => ?_) _ tasks
  unfold Logins.next at h
  cases task with
  | enter peerKey username nowUs =>
    dsimp only at h
    split at h
    · next canonical hcanonical =>
      split at h
      · next hinput =>
        cases h
        exact .enter hinput.1 hcanonical hinput.2 rfl
      · cases h
    · cases h
  | finish call stores verify =>
    dsimp only at h
    split at h
    · next hmem =>
      cases h
      exact .finish hmem
    · cases h
  | createEnter =>
    cases h
    exact .createEnter rfl
  | createFinish err =>
    dsimp only at h
    split at h
    · next hpos =>
      cases h
      exact .createFinish hpos
    · cases h

/-- A login name of the directory at hand, with a wrong password: a failure to record. -/
def unknownStores : LoginStores := ⟨.error espErrNotFound, some securityDirectory.empty, some 0⟩

end Argus
