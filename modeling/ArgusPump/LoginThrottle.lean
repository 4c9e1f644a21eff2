import ArgusPump.LoginService

/-!
# The throttle of human logins

A bucket counts the failures of one window with the start times of their calls.  A failure
whose call started before the window did makes the unsigned difference wrap around, and the
window starts over with that failure alone.

    the failures of a bucket that is kept → the fold of `record_failure_bucket`  (view_run)
    five in a window that none of them started before → a cooldown              (recordFailures_locks)
    every five failures counted in one window → the throttle's promises         (login_throttle)
    the call that started first records after the second → no cooldown          (failures_lost)
-/

namespace Argus

open Interact

/-! ## The buckets of a login -/

inductive LoginBucket
  | peer (key : UInt32)
  | principal (key : UInt32)
  | global
deriving DecidableEq

/-- The buckets a call is counted in. -/
def LoginCall.buckets (call : LoginCall) : List LoginBucket :=
  [.peer call.peerKey, .principal call.principalKey, .global]

namespace LoginBucket

/-- The key has a bucket in its table. -/
def stored (s : LoginService) : LoginBucket → Bool
  | peer key => (Slots.get ThrottleBucket.keyOf s.peers key).isSome
  | principal key => (Slots.get ThrottleBucket.keyOf s.principals key).isSome
  | global => true

/-- The bucket, apart from when it was last seen. -/
def view (s : LoginService) : LoginBucket → ThrottleBucket
  | peer key => s.peers.view key
  | principal key => s.principals.view key
  | global => s.global.seen 0

/-- The move does not evict the bucket. -/
def Keeps (id : LoginBucket) (m : LoginMove) : Prop :=
  id.stored m.pre.service = true → id.stored m.post.service = true

instance (id : LoginBucket) (m : LoginMove) : Decidable (id.Keeps m) := by
  unfold Keeps
  infer_instance

/-- The start of the call whose failure the move records for the bucket. -/
def failureAt (id : LoginBucket) (m : LoginMove) : Option UInt64 :=
  match m.ev with
  | .finish call verdict =>
    if id ∈ call.buckets ∧ verdict.recorded = some false then some call.startUs else none
  | _ => none

/-- The move records a success for the bucket; the global bucket is not told of any. -/
def succeeds (id : LoginBucket) (m : LoginMove) : Bool :=
  match m.ev with
  | .finish call verdict => id ≠ global && id ∈ call.buckets && verdict.recorded = some true
  | _ => false

end LoginBucket

/-- No key has two buckets. -/
def LoginService.TablesKeyed (s : LoginService) : Prop :=
  Slots.Keyed ThrottleBucket.keyOf s.peers ∧ Slots.Keyed ThrottleBucket.keyOf s.principals

/-! ## One step -/

/-- What an act makes of a bucket it does not evict. -/
def LoginBucket.effect (id : LoginBucket) (ev : LoginAct) (b : ThrottleBucket) : ThrottleBucket :=
  match ev with
  | .finish call verdict =>
    if id ∈ call.buckets then
      match verdict.recorded with
      | some false => b.recordFailure call.startUs
      | some true => if id = .global then b else b.recordSuccess
      | none => b
    else b
  | _ => b

section Tables

variable {buckets : ThrottleBuckets} {key k : UInt32} {nowUs : UInt64}

/-- What `bucket_for` leaves of every bucket it does not evict. -/
theorem ThrottleBuckets.bucketFor_view (h : Slots.Keyed ThrottleBucket.keyOf buckets) (key : UInt32)
    (nowUs : UInt64) :
    Slots.Keyed ThrottleBucket.keyOf (buckets.bucketFor key nowUs).2 ∧
      ∀ k, ((Slots.get ThrottleBucket.keyOf buckets k).isSome = true →
        (Slots.get ThrottleBucket.keyOf (buckets.bucketFor key nowUs).2 k).isSome = true) →
          (buckets.bucketFor key nowUs).2.view k = buckets.view k := by
  obtain ⟨i, heq, hown⟩ := bucketFor_spec h key nowUs
  have hkey : ((buckets.view key).seen nowUs).keyOf = some key := keyOf_view buckets key
  obtain ⟨hkeyed, hself, hother⟩ := write h hown hkey
  rw [heq]
  refine ⟨hkeyed, fun k hkept => ?_⟩
  by_cases hk : k = key
  · rw [hk]
    exact hself
  · exact hother k hk hkept

/-- What `record_result_locked` makes of the buckets: `f` is what the result makes of one. -/
theorem ThrottleBuckets.record_view (h : Slots.Keyed ThrottleBucket.keyOf buckets) (key : UInt32)
    (nowUs : UInt64) {f : ThrottleBucket → ThrottleBucket} (hf : ∀ b, (f b).keyOf = b.keyOf)
    (hseen : ∀ b seenUs, f (b.seen seenUs) = (f b).seen seenUs) {next : ThrottleBuckets}
    (hnext : next = Function.update (buckets.bucketFor key nowUs).2 (buckets.bucketFor key nowUs).1
      (f ((buckets.bucketFor key nowUs).2 (buckets.bucketFor key nowUs).1))) :
    Slots.Keyed ThrottleBucket.keyOf next ∧
      ∀ k, ((Slots.get ThrottleBucket.keyOf buckets k).isSome = true →
        (Slots.get ThrottleBucket.keyOf next k).isSome = true) →
          next.view k = if k = key then f (buckets.view k) else buckets.view k := by
  obtain ⟨i, heq, hown⟩ := bucketFor_spec h key nowUs
  have hkey : (f ((buckets.view key).seen nowUs)).keyOf = some key := by
    rw [hf]
    exact keyOf_view buckets key
  obtain ⟨hkeyed, hself, hother⟩ := write h hown hkey
  rw [heq] at hnext
  dsimp only at hnext
  rw [Function.update_self, Function.update_idem] at hnext
  rw [hnext]
  refine ⟨hkeyed, fun k hkept => ?_⟩
  by_cases hk : k = key
  · rw [if_pos hk, hk, hself, hseen]
    have hview : (buckets.view key).seen 0 = buckets.view key := rfl
    have hfview := hseen (buckets.view key) 0
    rw [hview] at hfview
    rw [hfview]
    rfl
  · rw [if_neg hk]
    exact hother k hk hkept

/-- The key whose result is recorded has a bucket. -/
theorem ThrottleBuckets.record_stored (h : Slots.Keyed ThrottleBucket.keyOf buckets) (key : UInt32)
    (nowUs : UInt64) {f : ThrottleBucket → ThrottleBucket} (hf : ∀ b, (f b).keyOf = b.keyOf)
    {next : ThrottleBuckets}
    (hnext : next = Function.update (buckets.bucketFor key nowUs).2 (buckets.bucketFor key nowUs).1
      (f ((buckets.bucketFor key nowUs).2 (buckets.bucketFor key nowUs).1))) :
    (Slots.get ThrottleBucket.keyOf next key).isSome = true := by
  obtain ⟨i, heq, hown⟩ := bucketFor_spec h key nowUs
  have hkey : (f ((buckets.view key).seen nowUs)).keyOf = some key := by
    rw [hf]
    exact keyOf_view buckets key
  rw [heq] at hnext
  dsimp only at hnext
  rw [Function.update_self, Function.update_idem] at hnext
  rw [hnext, Slots.get_update_self h hown hkey]
  rfl

end Tables

/-- The result of a login, as `record_result_locked` records it in a bucket. -/
def ThrottleBucket.record (b : ThrottleBucket) (nowUs : UInt64) (success : Bool) : ThrottleBucket :=
  if success then b.recordSuccess else b.recordFailure nowUs

theorem ThrottleBucket.keyOf_record (b : ThrottleBucket) (nowUs : UInt64) (success : Bool) :
    (b.record nowUs success).keyOf = b.keyOf := by
  cases success with
  | true => rfl
  | false => exact keyOf_recordFailure b nowUs

theorem ThrottleBucket.record_seen (b : ThrottleBucket) (nowUs seenUs : UInt64) (success : Bool) :
    (b.seen seenUs).record nowUs success = (b.record nowUs success).seen seenUs := by
  cases success with
  | true => rfl
  | false => exact recordFailure_seen b nowUs seenUs

namespace LoginService

variable {s : LoginService} {peerKey principalKey : UInt32} {nowUs : UInt64}

/-- What `record_result_locked` makes of the tables. -/
theorem recordResult_tables (s : LoginService) (peerKey principalKey : UInt32) (nowUs : UInt64)
    (success : Bool) :
    (s.recordResult peerKey principalKey nowUs success).peers =
        Function.update (s.peers.bucketFor peerKey nowUs).2 (s.peers.bucketFor peerKey nowUs).1
          (((s.peers.bucketFor peerKey nowUs).2 (s.peers.bucketFor peerKey nowUs).1).record nowUs success) ∧
      (s.recordResult peerKey principalKey nowUs success).principals =
        Function.update (s.principals.bucketFor principalKey nowUs).2
          (s.principals.bucketFor principalKey nowUs).1
          (((s.principals.bucketFor principalKey nowUs).2
            (s.principals.bucketFor principalKey nowUs).1).record nowUs success) ∧
      (s.recordResult peerKey principalKey nowUs success).global =
        if success then s.global else s.global.recordFailure nowUs := by
  cases success <;> exact ⟨rfl, rfl, rfl⟩

theorem releaseInflight_tables (s : LoginService) (peerKey principalKey : UInt32) :
    (s.releaseInflight peerKey principalKey).peers = s.peers ∧
      (s.releaseInflight peerKey principalKey).principals = s.principals ∧
      (s.releaseInflight peerKey principalKey).global = s.global := by
  unfold releaseInflight
  split <;> exact ⟨rfl, rfl, rfl⟩

/-- What the second locked section of a login makes of the tables. -/
theorem release_tables (s : LoginService) (peerKey principalKey : UInt32) (nowUs : UInt64)
    (verdict : LoginVerdict) :
    ∃ u : LoginService, (u.peers = s.peers ∧ u.principals = s.principals ∧ u.global = s.global) ∧
      s.release peerKey principalKey nowUs verdict =
        match verdict.recorded with
        | some success => u.recordResult peerKey principalKey nowUs success
        | none => u := by
  let u := { s with kdfAdmitted := s.kdfAdmitted - 1 }.releaseInflight peerKey principalKey
  exact ⟨{ u with kdfInvocations := if verdict.kdfInvoked then u.kdfInvocations + 1 else u.kdfInvocations },
    releaseInflight_tables _ peerKey principalKey, rfl⟩

end LoginService

/-- **What a step makes of a bucket it does not evict.** -/
theorem LoginStep.view {s t : Logins} {ev : LoginAct} (h : LoginStep s ev t)
    (hkeyed : s.service.TablesKeyed) :
    t.service.TablesKeyed ∧
      ∀ id : LoginBucket, id.Keeps ⟨s, ev, t⟩ → id.view t.service = id.effect ev (id.view s.service) := by
  obtain ⟨hpeers, hprincipals⟩ := hkeyed
  cases h with
  | @enter peerKey username canonical nowUs answer service _ _ _ hanswer =>
    obtain ⟨hp, hq, hglobal⟩ := (LoginService.admit_cases hanswer).tables
    obtain ⟨hpeers', hpview⟩ := ThrottleBuckets.bucketFor_view hpeers peerKey nowUs
    obtain ⟨hprincipals', hqview⟩ := ThrottleBuckets.bucketFor_view hprincipals (hashLogin canonical) nowUs
    rw [← hp] at hpeers' hpview
    rw [← hq] at hprincipals' hqview
    refine ⟨⟨hpeers', hprincipals'⟩, fun id hkeeps => ?_⟩
    cases id with
    | peer k => exact hpview k hkeeps
    | principal k => exact hqview k hkeeps
    | global => exact congrArg (ThrottleBucket.seen · 0) hglobal
  | @finish call stores verify hmem =>
    obtain ⟨u, ⟨hp, hq, hglobal⟩, heq⟩ := s.service.release_tables call.peerKey call.principalKey
      call.startUs (loginVerdict stores call.canonical verify)
    generalize loginVerdict stores call.canonical verify = verdict at heq ⊢
    unfold LoginBucket.Keeps LoginBucket.effect
    dsimp only
    rw [heq]
    cases hrecorded : verdict.recorded with
    | none =>
      dsimp only
      refine ⟨⟨by rw [hp]; exact hpeers, by rw [hq]; exact hprincipals⟩, fun id _ => ?_⟩
      rw [ite_self]
      cases id with
      | peer k => exact congrArg (ThrottleBuckets.view · k) hp
      | principal k => exact congrArg (ThrottleBuckets.view · k) hq
      | global => exact congrArg (ThrottleBucket.seen · 0) hglobal
    | some success =>
      dsimp only
      obtain ⟨hpnext, hqnext, hglobalnext⟩ := u.recordResult_tables call.peerKey call.principalKey
        call.startUs success
      rw [hp] at hpnext
      rw [hq] at hqnext
      obtain ⟨hpeers', hpview⟩ := ThrottleBuckets.record_view hpeers call.peerKey call.startUs
        (ThrottleBucket.keyOf_record · call.startUs success)
        (ThrottleBucket.record_seen · call.startUs · success) hpnext
      obtain ⟨hprincipals', hqview⟩ := ThrottleBuckets.record_view hprincipals call.principalKey call.startUs
        (ThrottleBucket.keyOf_record · call.startUs success)
        (ThrottleBucket.record_seen · call.startUs · success) hqnext
      refine ⟨⟨hpeers', hprincipals'⟩, fun id hkeeps => ?_⟩
      cases id with
      | peer k =>
        refine (hpview k hkeeps).trans ?_
        cases success <;> simp [LoginCall.buckets, ThrottleBucket.record, LoginBucket.view]
      | principal k =>
        refine (hqview k hkeeps).trans ?_
        cases success <;> simp [LoginCall.buckets, ThrottleBucket.record, LoginBucket.view]
      | global =>
        have hmem : LoginBucket.global ∈ call.buckets := by simp [LoginCall.buckets]
        rw [if_pos hmem]
        show ThrottleBucket.seen _ 0 = _
        rw [hglobalnext, hglobal]
        cases success with
        | true => rfl
        | false => exact (ThrottleBucket.recordFailure_seen ..).symm
  | @createEnter admitted service hanswer =>
    unfold LoginService.createAdmit at hanswer
    split at hanswer
    · cases hanswer
      exact ⟨⟨hpeers, hprincipals⟩, fun _ _ => rfl⟩
    · cases hanswer
      exact ⟨⟨hpeers, hprincipals⟩, fun id _ => by cases id <;> rfl⟩
  | createFinish _ => exact ⟨⟨hpeers, hprincipals⟩, fun id _ => by cases id <;> rfl⟩

/-! ## Failures of one window -/

namespace ThrottleBucket

variable {b : ThrottleBucket} {nowUs : UInt64}

/-- The start of the window a failure is counted in. -/
def windowAt (b : ThrottleBucket) (nowUs : UInt64) : UInt64 :=
  if b.windowOver nowUs then nowUs else b.windowStartedUs

/-- The failure makes the bucket enter a cooldown. -/
def locks (b : ThrottleBucket) (nowUs : UInt64) : Bool :=
  !b.windowOver nowUs && !(b.failures + 1 < loginFailureLimit)

/-- A call that started in the window of that start. -/
def InWindow (windowUs startUs : UInt64) : Prop :=
  windowUs ≤ startUs ∧ startUs.toNat ≤ windowUs.toNat + loginWindowUs.toNat

instance (windowUs startUs : UInt64) : Decidable (InWindow windowUs startUs) := by
  unfold InWindow
  infer_instance

theorem windowOver_of_inWindow (hne : b.windowStartedUs ≠ 0) (h : InWindow b.windowStartedUs nowUs) :
    b.windowOver nowUs = false := by
  obtain ⟨hle, hlate⟩ := h
  unfold windowOver
  rw [Bool.or_eq_false_iff, decide_eq_false_iff_not, decide_eq_false_iff_not]
  refine ⟨hne, fun hover => ?_⟩
  have hlt := UInt64.lt_iff_toNat_lt.mp hover
  rw [UInt64.toNat_sub_of_le _ _ hle] at hlt
  omega

/-- The first failure of an empty window. -/
theorem recordFailure_first (hempty : b.failures = 0) (nowUs : UInt64) :
    b.recordFailure nowUs = { b with failures := 1, windowStartedUs := b.windowAt nowUs } := by
  unfold recordFailure windowAt
  rw [hempty]
  split
  · rfl
  · rw [if_pos (by decide)]
    rfl

/-- Failures of the window, below the limit. -/
theorem recordFailures_count {starts : List UInt64} (hne : b.windowStartedUs ≠ 0)
    (hin : ∀ u ∈ starts, InWindow b.windowStartedUs u)
    (hlt : b.failures.toNat + starts.length < loginFailureLimit.toNat) :
    ∃ failures : UInt32, failures.toNat = b.failures.toNat + starts.length ∧
      starts.foldl recordFailure b = { b with failures := failures } := by
  induction starts generalizing b with
  | nil => exact ⟨b.failures, rfl, rfl⟩
  | cons u starts ih =>
    have hlimit : loginFailureLimit.toNat = 5 := rfl
    rw [List.length_cons] at hlt
    have hsucc : (b.failures + 1).toNat = b.failures.toNat + 1 := by
      rw [UInt32.toNat_add]
      exact Nat.mod_eq_of_lt (by show b.failures.toNat + 1 < 2 ^ 32; omega)
    have hbelow : b.failures + 1 < loginFailureLimit := UInt32.lt_iff_toNat_lt.mpr (by omega)
    have hrecord : b.recordFailure u = { b with failures := b.failures + 1 } := by
      unfold recordFailure
      rw [windowOver_of_inWindow hne (hin u List.mem_cons_self), if_neg Bool.false_ne_true, if_pos hbelow]
    obtain ⟨failures, hcount, hfold⟩ := ih (b := { b with failures := b.failures + 1 }) hne
      (fun v hv => hin v (List.mem_cons_of_mem _ hv)) (by dsimp only; omega)
    refine ⟨failures, ?_, ?_⟩
    · rw [hcount, List.length_cons]
      dsimp only
      omega
    · rw [List.foldl_cons, hrecord]
      exact hfold

theorem recordFailure_locks (h : b.locks nowUs = true) :
    (b.recordFailure nowUs).cooldownUntilUs = nowUs + cooldownDuration b.cooldownLevel := by
  unfold locks at h
  rw [Bool.and_eq_true, Bool.not_eq_true', Bool.not_eq_true', decide_eq_false_iff_not] at h
  unfold recordFailure
  rw [h.1, if_neg Bool.false_ne_true, if_neg h.2]

/-- **Failures up to the limit, in the window of the first of them, lock.** -/
theorem recordFailures_locks {first last : UInt64} {mid : List UInt64} (hempty : b.failures = 0)
    (hlen : mid.length + 2 = loginFailureLimit.toNat) (hne : b.windowAt first ≠ 0)
    (hin : ∀ u ∈ mid ++ [last], InWindow (b.windowAt first) u) :
    ((first :: (mid ++ [last])).foldl recordFailure b).cooldownUntilUs =
      last + cooldownDuration b.cooldownLevel := by
  have hlimit : loginFailureLimit.toNat = 5 := rfl
  rw [List.foldl_cons, List.foldl_append, recordFailure_first hempty]
  obtain ⟨failures, hcount, hfold⟩ := recordFailures_count
    (b := { b with failures := 1, windowStartedUs := b.windowAt first }) hne
    (fun u hu => hin u (List.mem_append_left _ hu)) (by show 1 + mid.length < _; omega)
  rw [hfold]
  have hfailures : failures.toNat = 1 + mid.length := hcount
  have hlast := hin last (List.mem_append_right _ List.mem_cons_self)
  refine recordFailure_locks ?_
  unfold locks
  rw [windowOver_of_inWindow hne hlast]
  have hsucc : (failures + 1).toNat = failures.toNat + 1 := by
    rw [UInt32.toNat_add]
    exact Nat.mod_eq_of_lt (by show failures.toNat + 1 < 2 ^ 32; omega)
  have hfull : ¬ failures + 1 < loginFailureLimit := fun hlt => by
    have := UInt32.lt_iff_toNat_lt.mp hlt
    omega
  simpa using hfull

theorem level_recordFailure (b : ThrottleBucket) (nowUs : UInt64) :
    b.cooldownLevel ≤ (b.recordFailure nowUs).cooldownLevel := by
  unfold recordFailure
  split
  · exact UInt8.le_refl _
  · split
    · exact UInt8.le_refl _
    · dsimp only
      split
      · next hlt =>
        have hlt := UInt8.lt_iff_toNat_lt.mp hlt
        rw [UInt8.le_iff_toNat_le, UInt8.toNat_add]
        have hfour : (4 : UInt8).toNat = 4 := rfl
        have hone : (1 : UInt8).toNat = 1 := rfl
        omega
      · exact UInt8.le_refl _

end ThrottleBucket

/-! ## How long a cooldown lasts -/

theorem cooldownDuration_eq (level : UInt8) :
    (cooldownDuration level).toNat = if level.toNat < 4 then 30000000 * 2 ^ level.toNat else 300000000 := by
  unfold cooldownDuration
  dsimp only
  match level.toNat with
  | 0 => rfl
  | 1 => rfl
  | 2 => rfl
  | 3 => rfl
  | n + 4 =>
    rw [if_neg (by omega : ¬ n + 4 < 4)]
    rfl

theorem cooldownDuration_mono {level level' : UInt8} (h : level ≤ level') :
    (cooldownDuration level).toNat ≤ (cooldownDuration level').toNat := by
  have hle := UInt8.le_iff_toNat_le.mp h
  rw [cooldownDuration_eq, cooldownDuration_eq]
  split
  · split
    · exact Nat.mul_le_mul_left _ (Nat.pow_le_pow_right (by decide) hle)
    · have hpow : 2 ^ level.toNat ≤ 2 ^ 3 := Nat.pow_le_pow_right (by decide) (by omega)
      omega
  · rw [if_neg (by omega)]

theorem cooldownDuration_bounds (level : UInt8) :
    loginCooldownInitialUs.toNat ≤ (cooldownDuration level).toNat ∧
      (cooldownDuration level).toNat ≤ loginCooldownMaxUs.toNat := by
  have hinitial : loginCooldownInitialUs.toNat = 30000000 := rfl
  have hmax : loginCooldownMaxUs.toNat = 300000000 := rfl
  rw [cooldownDuration_eq, hinitial, hmax]
  split
  · have hpow : 2 ^ level.toNat ≤ 2 ^ 3 := Nat.pow_le_pow_right (by decide) (by omega)
    have hpos : 0 < 2 ^ level.toNat := Nat.two_pow_pos _
    omega
  · decide

/-! ## What the throttle promises -/

/-- The start times of the failures recorded for the bucket, in the order they are recorded. -/
def LoginBucket.failures (id : LoginBucket) (k : List LoginMove) : List UInt64 := k.filterMap id.failureAt

/-- From `s` on, `k` records as many failures for the bucket as the limit, the last of them by
its last move: the window is empty before, the bucket is not evicted and records no success,
and the calls started within a window of each other. -/
def FailsInARow (id : LoginBucket) (s : Logins) (k : List LoginMove) : Prop :=
  (id.view s.service).failures = 0 ∧ (∀ m ∈ k, id.Keeps m ∧ id.succeeds m = false) ∧
    (id.failures k).length = loginFailureLimit.toNat ∧
    (k.getLast?.bind id.failureAt).isSome = true ∧
    ∀ t ∈ id.failures k, ∀ u ∈ id.failures k, t.toNat ≤ u.toNat + loginWindowUs.toNat

/-- No login so far started after the end of the bucket's cooldown. -/
def InCooldown (id : LoginBucket) (s : Logins) : Prop :=
  s.clockUs < (id.view s.service).cooldownUntilUs

/-- How long the cooldown lasts that the move makes the bucket enter. -/
def LoginBucket.cooldownAt (id : LoginBucket) (m : LoginMove) : Option Nat :=
  match id.failureAt m with
  | some startUs =>
    if (id.view m.pre.service).locks startUs then
      some ((id.view m.post.service).cooldownUntilUs.toNat - startUs.toNat)
    else none
  | none => none

structure LoginThrottled (ms : List LoginMove) : Prop where
  cooled : ∀ l k r, ms = l ++ k ++ r → ∀ id, FailsInARow id (final .boot l) k →
    InCooldown id (final .boot (l ++ k))
  growing : ∀ l m k n r, ms = l ++ m :: k ++ n :: r → ∀ id : LoginBucket, (∀ x ∈ k, id.Keeps x) →
    ∀ d ∈ id.cooldownAt m, ∀ e ∈ id.cooldownAt n, d ≤ e
  bounded : ∀ m ∈ ms, ∀ id : LoginBucket, ∀ d ∈ id.cooldownAt m,
    loginCooldownInitialUs.toNat ≤ d ∧ d ≤ loginCooldownMaxUs.toNat
  refused : ∀ m ∈ ms, ∀ call, m.ev = .enter call .admitted → ∀ id ∈ call.buckets,
    (id.view m.pre.service).cooldownUntilUs ≤ call.startUs

/-- The failures of `k` are counted in one window, that none of them started before, and the
cooldown of the last of them is not over. -/
def CountedTogether (id : LoginBucket) (s : Logins) (k : List LoginMove) : Prop :=
  (∀ first ∈ (id.failures k).head?, (id.view s.service).windowAt first ≠ 0 ∧
    ∀ u ∈ (id.failures k).tail, ThrottleBucket.InWindow ((id.view s.service).windowAt first) u) ∧
  ∀ last ∈ (id.failures k).getLast?, (final s k).clockUs.toNat <
    last.toNat + (cooldownDuration (id.view s.service).cooldownLevel).toNat

/-- A login that enters started less than 2^32 seconds before a cooldown of its buckets ends. -/
def CooldownNear (m : LoginMove) : Prop :=
  match m.ev with
  | .enter call _ => ∀ id ∈ call.buckets, (id.view m.pre.service).cooldownUntilUs.toNat ≤
      call.startUs.toNat + (2 ^ 32 - 1) * 1000000
  | _ => True

instance (m : LoginMove) : Decidable (CooldownNear m) := by
  unfold CooldownNear
  split
  · infer_instance
  · infer_instance

-- by the members of the lists: times are finitely many, but not to be gone through
instance (id : LoginBucket) (s : Logins) (k : List LoginMove) : Decidable (FailsInARow id s k) :=
  haveI (t : UInt64) : Decidable (∀ u ∈ id.failures k, t.toNat ≤ u.toNat + loginWindowUs.toNat) :=
    List.decidableBAll _ _
  haveI : Decidable (∀ t ∈ id.failures k, ∀ u ∈ id.failures k, t.toNat ≤ u.toNat + loginWindowUs.toNat) :=
    List.decidableBAll _ _
  inferInstanceAs (Decidable (_ ∧ _ ∧ _ ∧ _ ∧ _))

instance (id : LoginBucket) (s : Logins) : Decidable (InCooldown id s) := by
  unfold InCooldown
  infer_instance

instance (id : LoginBucket) (s : Logins) (k : List LoginMove) : Decidable (CountedTogether id s k) :=
  haveI (windowUs : UInt64) :
      Decidable (∀ u ∈ (id.failures k).tail, ThrottleBucket.InWindow windowUs u) := List.decidableBAll _ _
  haveI : Decidable (∀ first ∈ (id.failures k).head?, (id.view s.service).windowAt first ≠ 0 ∧
      ∀ u ∈ (id.failures k).tail, ThrottleBucket.InWindow ((id.view s.service).windowAt first) u) :=
    Option.decidableForallMem _
  haveI : Decidable (∀ last ∈ (id.failures k).getLast?, (final s k).clockUs.toNat <
      last.toNat + (cooldownDuration (id.view s.service).cooldownLevel).toNat) :=
    Option.decidableForallMem _
  inferInstanceAs (Decidable (_ ∧ _))

/-! ## Runs -/

/-- What holds of the service after any run. -/
structure ThrottleInv (s : Logins) : Prop where
  keyed : s.service.TablesKeyed
  started : ∀ call ∈ s.inflight, call.startUs.toNat < 2 ^ 63

namespace ThrottleInv

variable {s t : Logins} {ev : LoginAct}

theorem start : ThrottleInv .boot where
  keyed := ⟨Slots.keyed_of_free fun _ => rfl, Slots.keyed_of_free fun _ => rfl⟩
  started _ h := absurd h List.not_mem_nil

theorem step (h : ThrottleInv s) (hstep : LoginStep s ev t) : ThrottleInv t := by
  refine ⟨(hstep.view h.keyed).1, fun call hcall => ?_⟩
  cases hstep with
  | @enter peerKey username canonical nowUs answer service _ _ hnow _ =>
    dsimp only at hcall
    split at hcall
    · rcases List.mem_cons.mp hcall with rfl | hcall
      · exact hnow
      · exact h.started call hcall
    · exact h.started call hcall
  | finish _ => exact h.started call (List.mem_of_mem_erase hcall)
  | createEnter _ => exact h.started call hcall
  | createFinish _ => exact h.started call hcall

theorem run {ms : List LoginMove} (h : ThrottleInv s) (hrun : IsRun LoginStep s ms) :
    ThrottleInv (final s ms) :=
  (hrun.inv h fun _ hm hstep => hm.step hstep).2

end ThrottleInv

namespace LoginBucket

variable {id : LoginBucket} {s t : Logins} {ev : LoginAct} {startUs : UInt64}

theorem failureAt_eq_some {m : LoginMove} :
    id.failureAt m = some startUs ↔ ∃ call verdict, m.ev = .finish call verdict ∧ id ∈ call.buckets ∧
      verdict.recorded = some false ∧ call.startUs = startUs := by
  unfold failureAt
  constructor
  · intro h
    split at h
    · next call verdict hev =>
      split at h
      · next hfail =>
        cases h
        exact ⟨call, verdict, hev, hfail.1, hfail.2, rfl⟩
      · cases h
    · cases h
  · rintro ⟨call, verdict, hev, hmem, hrecorded, rfl⟩
    rw [hev]
    exact if_pos ⟨hmem, hrecorded⟩

/-- A move that records a failure does not evict the bucket. -/
theorem keeps_of_failureAt (h : ThrottleInv s) (hstep : LoginStep s ev t)
    (hfail : id.failureAt ⟨s, ev, t⟩ = some startUs) : id.Keeps ⟨s, ev, t⟩ := by
  intro _
  obtain ⟨call, verdict, hev, hmem, hrecorded, -⟩ := failureAt_eq_some.mp hfail
  dsimp only at hev ⊢
  obtain ⟨hpeers, hprincipals⟩ := h.keyed
  cases hstep with
  | @finish call' stores verify hinflight =>
    cases hev
    obtain ⟨u, ⟨hp, hq, -⟩, heq⟩ := s.service.release_tables call.peerKey call.principalKey
      call.startUs (loginVerdict stores call.canonical verify)
    rw [hrecorded] at heq
    dsimp only at heq ⊢
    obtain ⟨hpnext, hqnext, -⟩ := u.recordResult_tables call.peerKey call.principalKey call.startUs false
    rw [heq]
    rw [hp] at hpnext
    rw [hq] at hqnext
    simp only [LoginCall.buckets, List.mem_cons, List.not_mem_nil, or_false] at hmem
    rcases hmem with rfl | rfl | rfl
    · exact ThrottleBuckets.record_stored hpeers call.peerKey call.startUs
        (ThrottleBucket.keyOf_record · call.startUs false) hpnext
    · exact ThrottleBuckets.record_stored hprincipals call.principalKey call.startUs
        (ThrottleBucket.keyOf_record · call.startUs false) hqnext
    · rfl
  | enter _ _ _ _ => cases hev
  | createEnter _ => cases hev
  | createFinish _ => cases hev

theorem startUs_lt (h : ThrottleInv s) (hstep : LoginStep s ev t)
    (hfail : id.failureAt ⟨s, ev, t⟩ = some startUs) : startUs.toNat < 2 ^ 63 := by
  obtain ⟨call, verdict, hev, -, -, rfl⟩ := failureAt_eq_some.mp hfail
  dsimp only at hev
  cases hstep with
  | @finish call' stores verify hinflight =>
    cases hev
    exact h.started _ hinflight
  | enter _ _ _ _ => cases hev
  | createEnter _ => cases hev
  | createFinish _ => cases hev

/-- What a move that records a failure makes of the bucket. -/
theorem effect_failure {m : LoginMove} (hfail : id.failureAt m = some startUs) (b : ThrottleBucket) :
    id.effect m.ev b = b.recordFailure startUs := by
  obtain ⟨call, verdict, hev, hmem, hrecorded, rfl⟩ := failureAt_eq_some.mp hfail
  unfold effect
  rw [hev]
  dsimp only
  rw [if_pos hmem, hrecorded]

/-- What a move makes of the bucket that records neither a failure nor a success for it. -/
theorem effect_quiet {m : LoginMove} (hfail : id.failureAt m = none) (h : id.succeeds m = false)
    (b : ThrottleBucket) : id.effect m.ev b = b := by
  unfold failureAt at hfail
  unfold succeeds at h
  unfold effect
  cases hev : m.ev with
  | finish call verdict =>
    rw [hev] at hfail h
    dsimp only at hfail h ⊢
    by_cases hmem : id ∈ call.buckets
    · rw [if_pos hmem]
      cases hrecorded : verdict.recorded with
      | none => rfl
      | some success =>
        cases success with
        | false =>
          rw [if_pos ⟨hmem, hrecorded⟩] at hfail
          cases hfail
        | true =>
          have hglobal : id = .global := by
            simpa [hmem, hrecorded] using h
          exact if_pos hglobal
    · exact if_neg hmem
  | _ => rfl

theorem level_effect (id : LoginBucket) (ev : LoginAct) (b : ThrottleBucket) :
    b.cooldownLevel ≤ (id.effect ev b).cooldownLevel := by
  unfold effect
  split
  · split
    · split
      · exact b.level_recordFailure _
      · split
        · exact UInt8.le_refl _
        · exact UInt8.le_refl _
      · exact UInt8.le_refl _
    · exact UInt8.le_refl _
  · exact UInt8.le_refl _

/-- The level of a bucket that is kept does not fall. -/
theorem level_run {k : List LoginMove} (h : ThrottleInv s) (hrun : IsRun LoginStep s k)
    (hk : ∀ m ∈ k, id.Keeps m) :
    (id.view s.service).cooldownLevel ≤ (id.view (final s k).service).cooldownLevel := by
  induction k generalizing s with
  | nil => exact UInt8.le_refl _
  | cons m k ih =>
    obtain ⟨rfl, hstep, hrun⟩ := hrun
    have hview := (hstep.view h.keyed).2 id (hk m List.mem_cons_self)
    have hlevel := id.level_effect m.ev (id.view m.pre.service)
    rw [← hview] at hlevel
    exact UInt8.le_trans hlevel (ih (h.step hstep) hrun fun n hn => hk n (List.mem_cons_of_mem _ hn))

/-- **A bucket that is kept is the fold of its failures**, in a run without a success for it. -/
theorem view_run {k : List LoginMove} (h : ThrottleInv s) (hrun : IsRun LoginStep s k)
    (hk : ∀ m ∈ k, id.Keeps m ∧ id.succeeds m = false) :
    id.view (final s k).service = (id.failures k).foldl ThrottleBucket.recordFailure (id.view s.service) := by
  induction k generalizing s with
  | nil => rfl
  | cons m k ih =>
    obtain ⟨rfl, hstep, hrun⟩ := hrun
    obtain ⟨hkeeps, hsucceeds⟩ := hk m List.mem_cons_self
    have hview := (hstep.view h.keyed).2 id hkeeps
    have htail := ih (h.step hstep) hrun fun n hn => hk n (List.mem_cons_of_mem _ hn)
    rw [final_cons, htail, hview]
    unfold failures
    cases hfail : id.failureAt m with
    | some startUs => rw [List.filterMap_cons_some hfail, List.foldl_cons, effect_failure hfail]
    | none => rw [List.filterMap_cons_none hfail, effect_quiet hfail hsucceeds]

theorem keeps_of_cooldownAt (h : ThrottleInv s) (hstep : LoginStep s ev t) {d : Nat}
    (hd : id.cooldownAt ⟨s, ev, t⟩ = some d) : id.Keeps ⟨s, ev, t⟩ := by
  unfold cooldownAt at hd
  split at hd
  · next startUs hfail => exact keeps_of_failureAt h hstep hfail
  · cases hd

/-- The cooldown a move makes the bucket enter. -/
theorem cooldownAt_eq (h : ThrottleInv s) (hstep : LoginStep s ev t) {d : Nat}
    (hd : id.cooldownAt ⟨s, ev, t⟩ = some d) :
    d = (cooldownDuration (id.view s.service).cooldownLevel).toNat := by
  unfold cooldownAt at hd
  split at hd
  · next startUs hfail =>
    split at hd
    · next hlocks =>
      have hview := (hstep.view h.keyed).2 id (keeps_of_failureAt h hstep hfail)
      have heffect := effect_failure hfail (id.view s.service)
      dsimp only at hd heffect hlocks
      rw [hview, heffect, ThrottleBucket.recordFailure_locks hlocks, UInt64.toNat_add] at hd
      have hstart := startUs_lt h hstep hfail
      have hmax := (cooldownDuration_bounds (id.view s.service).cooldownLevel).2
      have hbound : loginCooldownMaxUs.toNat = 300000000 := rfl
      rw [Nat.mod_eq_of_lt (by omega)] at hd
      have hd := Option.some.inj hd
      omega
    · cases hd
  · cases hd

end LoginBucket

/-! ## Admission -/

namespace LoginService

variable {s : LoginService} {peerKey principalKey : UInt32} {nowUs : UInt64}

theorem cooldownRemaining_eq_zero {b : ThrottleBucket} (h : b.cooldownRemaining nowUs = 0) :
    b.cooldownUntilUs ≤ nowUs := by
  unfold ThrottleBucket.cooldownRemaining at h
  split at h
  · next hle => exact hle
  · next hnot =>
    have hlt := UInt64.not_le.mp hnot
    have hsub := UInt64.toNat_sub_of_le _ _ (UInt64.le_of_lt hlt)
    rw [h] at hsub
    have hlt := UInt64.lt_iff_toNat_lt.mp hlt
    have hzero : (0 : UInt64).toNat = 0 := rfl
    omega

theorem cooldownRemaining_le {b : ThrottleBucket} {boundUs : Nat}
    (h : b.cooldownUntilUs.toNat ≤ nowUs.toNat + boundUs) :
    (b.cooldownRemaining nowUs).toNat ≤ boundUs := by
  unfold ThrottleBucket.cooldownRemaining
  split
  · exact Nat.zero_le _
  · next hnot =>
    rw [UInt64.toNat_sub_of_le _ _ (UInt64.le_of_lt (UInt64.not_le.mp hnot))]
    omega

/-- Seconds, rounded up, of less than 2^32: none are left only when nothing is. -/
theorem retry_eq_zero {remaining : UInt64} (hle : remaining.toNat ≤ (2 ^ 32 - 1) * 1000000)
    (h : (if remaining = 0 then 0 else ((remaining + 999999) / 1000000).toUInt32) = (0 : UInt32)) :
    remaining = 0 := by
  by_contra hne
  rw [if_neg hne] at h
  have hpos : remaining.toNat ≠ 0 := fun hzero => hne (UInt64.toNat_inj.mp hzero)
  have hzero := congrArg UInt32.toNat h
  rw [UInt64.toNat_toUInt32, UInt64.toNat_div, UInt64.toNat_add] at hzero
  have hround : (999999 : UInt64).toNat = 999999 := rfl
  have hsecond : (1000000 : UInt64).toNat = 1000000 := rfl
  have hnone : (0 : UInt32).toNat = 0 := rfl
  rw [hround, hsecond, hnone, Nat.mod_eq_of_lt (by omega : remaining.toNat + 999999 < 2 ^ 64)] at hzero
  omega

theorem max_eq_zero {a b : UInt64} (h : (if b > a then b else a) = 0) : a = 0 ∧ b = 0 := by
  split at h
  · next hlt =>
    rw [h] at hlt
    exact absurd hlt (UInt64.not_lt.mpr UInt64.zero_le)
  · next hle =>
    rw [h] at hle
    exact ⟨h, UInt64.le_antisymm (UInt64.not_lt.mp hle) UInt64.zero_le⟩

theorem max_le {a b : UInt64} {n : Nat} (ha : a.toNat ≤ n) (hb : b.toNat ≤ n) :
    (if b > a then b else a).toNat ≤ n := by
  split
  · exact hb
  · exact ha

/-- What `preflight_locked` lets pass is in no cooldown. -/
theorem preflight_passes (hkeyed : s.TablesKeyed) {call : LoginCall}
    (hnear : ∀ id ∈ call.buckets, (id.view s).cooldownUntilUs.toNat ≤
      call.startUs.toNat + (2 ^ 32 - 1) * 1000000)
    (h : (s.preflight call.peerKey call.principalKey call.startUs).1 = 0) :
    ∀ id ∈ call.buckets, (id.view s).cooldownUntilUs ≤ call.startUs := by
  obtain ⟨i, hpeer, -⟩ := ThrottleBuckets.bucketFor_spec hkeyed.1 call.peerKey call.startUs
  obtain ⟨j, hprincipal, -⟩ :=
    ThrottleBuckets.bucketFor_spec hkeyed.2 call.principalKey call.startUs
  have hnearPeer := hnear (.peer call.peerKey) (by simp [LoginCall.buckets])
  have hnearPrincipal := hnear (.principal call.principalKey) (by simp [LoginCall.buckets])
  have hnearGlobal := hnear .global (by simp [LoginCall.buckets])
  unfold preflight at h
  rw [hpeer, hprincipal] at h
  dsimp only at h
  rw [Function.update_self, Function.update_self] at h
  have hzero := retry_eq_zero (max_le (max_le (cooldownRemaining_le hnearPeer)
    (cooldownRemaining_le hnearPrincipal)) (cooldownRemaining_le hnearGlobal)) h
  obtain ⟨hzero, hglobal⟩ := max_eq_zero hzero
  obtain ⟨hpeer, hprincipal⟩ := max_eq_zero hzero
  intro id hid
  simp only [LoginCall.buckets, List.mem_cons, List.not_mem_nil, or_false] at hid
  rcases hid with rfl | rfl | rfl
  · exact cooldownRemaining_eq_zero hpeer
  · exact cooldownRemaining_eq_zero hprincipal
  · exact cooldownRemaining_eq_zero hglobal

end LoginService

/-! ## The promises -/

theorem inCooldown_of_counted {id : LoginBucket} {s : Logins} {k : List LoginMove} (h : ThrottleInv s)
    (hrun : IsRun LoginStep s k) (hfails : FailsInARow id s k) (hcounted : CountedTogether id s k) :
    InCooldown id (final s k) := by
  obtain ⟨hempty, hkept, hlength, -, -⟩ := hfails
  obtain ⟨hwindow, hlate⟩ := hcounted
  have hstarts : ∀ u ∈ id.failures k, u.toNat < 2 ^ 63 := fun u hu => by
    obtain ⟨m, hm, hfail⟩ := List.mem_filterMap.mp hu
    obtain ⟨l, r, -, hl, hpre, -⟩ := hrun.split_of_mem hm
    have hinv := h.run hl
    rw [hpre] at hinv
    exact LoginBucket.startUs_lt hinv (hrun.step_of_mem m hm) hfail
  unfold InCooldown
  rw [LoginBucket.view_run h hrun hkept]
  have hlimit : loginFailureLimit.toNat = 5 := rfl
  cases hfailures : id.failures k with
  | nil =>
    rw [hfailures] at hlength
    cases hlength
  | cons first rest =>
    rw [hfailures] at hwindow hlate hlength hstarts
    rcases List.eq_nil_or_concat rest with rfl | ⟨mid, last, rfl⟩
    · cases hlength
    · rw [List.concat_eq_append] at *
      rw [List.length_cons, List.length_append, List.length_singleton] at hlength
      obtain ⟨hne, hin⟩ := hwindow first rfl
      rw [ThrottleBucket.recordFailures_locks hempty hlength hne hin]
      have hlast : (first :: (mid ++ [last])).getLast? = some last := by
        rw [← List.cons_append, List.getLast?_concat]
      have hlate := hlate last hlast
      have hstart := hstarts last (List.mem_cons_of_mem _ (List.mem_append_right _ List.mem_cons_self))
      have hmax := (cooldownDuration_bounds (id.view s.service).cooldownLevel).2
      have hbound : loginCooldownMaxUs.toNat = 300000000 := rfl
      rw [UInt64.lt_iff_toNat_lt, UInt64.toNat_add, Nat.mod_eq_of_lt (by omega)]
      exact hlate

/-- A login that is admitted is in no cooldown. -/
theorem admitted_cooled {s t : Logins} (h : ThrottleInv s) {call : LoginCall}
    (hstep : LoginStep s (.enter call .admitted) t)
    (hnear : ∀ id ∈ call.buckets, (id.view s.service).cooldownUntilUs.toNat ≤
      call.startUs.toNat + (2 ^ 32 - 1) * 1000000) :
    ∀ id ∈ call.buckets, (id.view s.service).cooldownUntilUs ≤ call.startUs := by
  cases hstep with
  | enter _ _ _ hanswer =>
    cases LoginService.admit_cases hanswer with
    | admitted hretry _ _ _ => exact LoginService.preflight_passes h.keyed hnear hretry

/-- **The throttle of human logins**, in a run that counts the failures in a row together. -/
theorem login_throttle {ms : List LoginMove} (h : IsRun LoginStep .boot ms)
    (hcounted : ∀ l k r, ms = l ++ k ++ r → ∀ id, FailsInARow id (final .boot l) k →
      CountedTogether id (final .boot l) k)
    (hnear : ∀ m ∈ ms, CooldownNear m) : LoginThrottled ms where
  cooled l k r hms id hfails := by
    have hcounted := hcounted l k r hms id hfails
    rw [hms, isRun_append, isRun_append] at h
    rw [final_append]
    exact inCooldown_of_counted (ThrottleInv.start.run h.1.1) h.1.2 hfails hcounted
  growing l m k n r hms id hkept d hd e he := by
    rw [hms, isRun_append, isRun_append, isRun_cons, isRun_cons] at h
    obtain ⟨⟨hl, hmpre, hmstep, hk⟩, hnpre, hnstep, -⟩ := h
    rw [final_append, final_cons] at hnpre
    have hm := ThrottleInv.start.run hl
    rw [← hmpre] at hm
    have hpost := hm.step hmstep
    have hn := hpost.run hk
    rw [← hnpre] at hn
    have hfirst := LoginBucket.level_effect id m.ev (id.view m.pre.service)
    have hview := (hmstep.view hm.keyed).2 id (LoginBucket.keeps_of_cooldownAt hm hmstep hd)
    rw [← hview] at hfirst
    have hbetween := LoginBucket.level_run hpost hk hkept
    rw [← hnpre] at hbetween
    rw [LoginBucket.cooldownAt_eq hm hmstep hd, LoginBucket.cooldownAt_eq hn hnstep he]
    exact cooldownDuration_mono (UInt8.le_trans hfirst hbetween)
  bounded m hm id d hd := by
    obtain ⟨l, r, -, hl, hpre, -⟩ := h.split_of_mem hm
    have hinv := ThrottleInv.start.run hl
    rw [hpre] at hinv
    rw [LoginBucket.cooldownAt_eq hinv (h.step_of_mem m hm) hd]
    exact cooldownDuration_bounds _
  refused m hm call hev id hid := by
    obtain ⟨l, r, -, hl, hpre, -⟩ := h.split_of_mem hm
    have hinv := ThrottleInv.start.run hl
    rw [hpre] at hinv
    have hstep := h.step_of_mem m hm
    have hnear := hnear m hm
    unfold CooldownNear at hnear
    rw [hev] at hstep hnear
    exact admitted_cooled hinv hstep hnear id hid

/-- A login of a name the directory does not hold, that fails. -/
def failedLogin (peerKey : UInt32) (username : String) (nowUs : UInt64) : List LoginTask :=
  [.enter peerKey (asciiBytes username) nowUs,
    .finish ⟨peerKey, asciiBytes username, nowUs⟩ unknownStores (.ok false)]

/-- The buckets a run records results for. -/
def bucketsOf (ms : List LoginMove) : List LoginBucket :=
  ms.flatMap fun m =>
    match m.ev with
    | .finish call _ => call.buckets
    | _ => []

theorem FailsInARow.mem_bucketsOf {id : LoginBucket} {s : Logins} {k ms : List LoginMove}
    (h : FailsInARow id s k) (hk : ∀ m ∈ k, m ∈ ms) : id ∈ bucketsOf ms := by
  obtain ⟨startUs, hlast⟩ := Option.isSome_iff_exists.mp h.2.2.2.1
  obtain ⟨m, hm, hfail⟩ := Option.bind_eq_some_iff.mp hlast
  obtain ⟨call, verdict, hev, hmem, -⟩ := LoginBucket.failureAt_eq_some.mp hfail
  refine List.mem_flatMap.mpr ⟨m, hk m (List.mem_of_getLast? hm), ?_⟩
  rw [hev]
  exact hmem

/-- Five failures of one peer, a call that is throttled and one after the cooldown. -/
def fiveFailuresTasks : List LoginTask :=
  failedLogin 7 "alice" 1 ++ failedLogin 7 "alice" 2 ++ failedLogin 7 "alice" 3 ++ failedLogin 7 "alice" 4 ++
    failedLogin 7 "alice" 5 ++ [.enter 7 (asciiBytes "alice") 6, .enter 7 (asciiBytes "alice") 30000005]

theorem login_throttle_five :
    LoginThrottled (loginTrace fiveFailuresTasks) ∧ ∃ m ∈ loginTrace fiveFailuresTasks,
      m.ev = .enter ⟨7, asciiBytes "alice", 6⟩ (.throttled 30) := by
  refine ⟨login_throttle (isRun_loginTrace _) ?_ ?_, ?_⟩
  · have hids : bucketsOf (loginTrace fiveFailuresTasks) ⊆
        [.peer 7, .principal (hashLogin (asciiBytes "alice")), .global] := by
      decide +kernel
    have hall : ∀ l k r, loginTrace fiveFailuresTasks = l ++ k ++ r →
        ∀ id ∈ [.peer 7, .principal (hashLogin (asciiBytes "alice")), .global],
          FailsInARow id (final .boot l) k → CountedTogether id (final .boot l) k := by
      rw [forall_stretch_iff]
      decide +kernel
    intro l k r hms id hfails
    refine hall l k r hms id (hids (hfails.mem_bucketsOf fun m hm => ?_)) hfails
    rw [hms]
    exact List.mem_append_left _ (List.mem_append_right _ hm)
  · decide +kernel
  · decide +kernel

/-- The call that started first records its failure after the second has. -/
def failuresLostTasks : List LoginTask :=
  [.enter 1 (asciiBytes "alice") 1, .enter 2 (asciiBytes "bob") 2,
    .finish ⟨2, asciiBytes "bob", 2⟩ unknownStores (.ok false),
    .finish ⟨1, asciiBytes "alice", 1⟩ unknownStores (.ok false)] ++
  failedLogin 3 "carol" 3 ++ failedLogin 4 "dave" 4 ++ failedLogin 5 "erin" 5

/-- **A failure is lost** when a call that started before the window records one. -/
theorem failures_lost : ¬ ∀ ms, IsRun LoginStep .boot ms → LoginThrottled ms := by
  intro h
  have hcooled := (h _ (isRun_loginTrace failuresLostTasks)).cooled [] (loginTrace failuresLostTasks) []
    (by simp) .global (by decide +kernel)
  exact absurd hcooled (by decide +kernel)

end Argus
