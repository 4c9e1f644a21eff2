import ArgusPump.CredentialMigration
import ArgusPump.Lib.Serve

/-!
# The password worker

`main/argus_password_verifier.c`: the one task that derives keys, and `submit`, through which
every login, enrolment and migration hands it a request on its own stack.

    a call that returns was derived for once, for its own request, after one other derivation
      at most since it got its place; one that times out was not derived for     (kdf_calls)
    a record that a call created matches a password that another call verifies
      → the two derive the same key, and conversely                              (kdf_round_trip)

`salt` is what `esp_fill_random` gives, `mdOk` whether every `mbedtls_md_*` succeeded.  Left out:
calls before the worker was created, the measurements of a benchmark, log output.
-/

namespace Argus

open Interact Serve CredentialMigration

namespace Kdf

/-- `argus_kdf_operation_t`. -/
inductive KdfOperation
  | create | verify | benchmark
deriving DecidableEq

/-- `argus_kdf_request_t` as a caller fills it in, with what its output buffers hold. -/
structure KdfRequest where
  operation : KdfOperation
  password : List UInt8
  iterations : UInt32
  record : PasswordVerifier
  isMatch : Bool

/-- The result and the output buffers. -/
structure KdfFrame where
  result : EspErr
  record : PasswordVerifier
  isMatch : Bool

/-- `ARGUS_KDF_QUEUE_LENGTH`. -/
def kdfQueueLength : Nat := 1

/-- What a derivation has from elsewhere. -/
structure KdfChoice where
  salt : Vector UInt8 16
  mdOk : Bool

/-- `submit` starts from a failure. -/
def KdfRequest.init (r : KdfRequest) : KdfFrame := ⟨espFail, r.record, r.isMatch⟩

/-- `derive_record` in the caller's frame. -/
def workCreate (r : KdfRequest) (c : KdfChoice) (frame : KdfFrame) : KdfFrame :=
  match deriveRecord r.password r.iterations c.salt with
  | .error err => { frame with result := err }
  | .ok record =>
    if c.mdOk then { frame with result := espOk, record := record }
    else { frame with result := espFail, record := .zero }

/-- `verify_record` in the caller's frame. -/
def workVerify (r : KdfRequest) (c : KdfChoice) (frame : KdfFrame) : KdfFrame :=
  match verifyRecord r.password frame.record with
  | .error err => { frame with result := err }
  | .ok isMatch =>
    if c.mdOk then { frame with result := espOk, isMatch := isMatch }
    else { frame with result := espFail, isMatch := false }

/-- `run_benchmark`. -/
def workBenchmark (r : KdfRequest) (c : KdfChoice) (frame : KdfFrame) : KdfFrame :=
  if r.iterations < 10000 ∨ r.iterations > 500000 then { frame with result := espErrInvalidArg }
  else { frame with result := if c.mdOk then espOk else espFail }

/-- What `kdf_worker` does with a request. -/
def kdfWork (r : KdfRequest) (c : KdfChoice) (frame : KdfFrame) : KdfFrame :=
  match r.operation with
  | .create => workCreate r c frame
  | .verify => workVerify r c frame
  | .benchmark => workBenchmark r c frame

/-- `argus_password_verifier_create`, for a buffer that holds `record`. -/
def passwordVerifierCreate (password : List UInt8) (iterations : UInt32) (record : PasswordVerifier) :
    KdfRequest := ⟨.create, password, iterations, record, false⟩

/-- `argus_password_verifier_verify`, for a flag that holds `isMatch`. -/
def passwordVerifierVerify (password : List UInt8) (record : PasswordVerifier) (isMatch : Bool) :
    KdfRequest := ⟨.verify, password, 0, record, isMatch⟩

/-- `argus_password_verifier_benchmark`. -/
def passwordVerifierBenchmark (iterations : UInt32) : KdfRequest :=
  ⟨.benchmark, [], iterations, .zero, false⟩

abbrev KdfServer := Server KdfRequest KdfFrame

abbrev KdfMove := ServeMove KdfRequest KdfFrame KdfChoice

/-- A step of a caller in `submit` or of `kdf_worker`. -/
abbrev kdfStep : KdfServer → Act KdfRequest KdfFrame KdfChoice → KdfServer → Prop :=
  Step kdfQueueLength KdfRequest.init kdfWork

/-! ## What a derivation leaves -/

section Work

variable {password : List UInt8} {iterations : UInt32} {record : PasswordVerifier} {isMatch : Bool}
  {c : KdfChoice} {frame : KdfFrame}

/-- A create that says yes leaves the record of its password, its iterations and the salt. -/
theorem workCreate_ok {r : KdfRequest} (h : (workCreate r c frame).result = espOk) :
    inputValid r.password = true ∧ (workCreate r c frame).record.recordValid = true ∧
      (workCreate r c frame).record.iterations = r.iterations ∧
      (workCreate r c frame).record.verifier =
        pbkdf2 r.password (workCreate r c frame).record.salt.toList r.iterations := by
  unfold workCreate deriveRecord at *
  by_cases hbad : inputValid r.password = false ∨ r.iterations < 10000 ∨ r.iterations > 500000
  · rw [if_pos hbad] at h
    cases h
  · rw [if_neg hbad] at h ⊢
    rw [not_or, not_or, Bool.not_eq_false] at hbad
    cases hmd : c.mdOk with
    | false =>
      rw [hmd] at h
      cases h
    | true =>
      refine ⟨hbad.1, ?_, rfl, rfl⟩
      change PasswordVerifier.recordValid ⟨1, 1, 16, 32, r.iterations, c.salt, _⟩ = true
      unfold PasswordVerifier.recordValid
      have hmin := UInt32.not_lt.mp hbad.2.1
      have hmax := UInt32.not_lt.mp hbad.2.2
      simp [hmin, hmax]

/-- A verification of a valid record. -/
theorem workVerify_cases {r : KdfRequest} (hvalid : frame.record.recordValid = true) :
    ((workVerify r c frame).result = espErrInvalidArg ↔ inputValid r.password = false) ∧
      ((workVerify r c frame).result = espOk → ((workVerify r c frame).isMatch = true ↔
        pbkdf2 r.password frame.record.salt.toList frame.record.iterations = frame.record.verifier)) ∧
      ((workVerify r c frame).result ≠ espOk → (workVerify r c frame).isMatch = true →
        frame.isMatch = true) := by
  unfold workVerify verifyRecord
  by_cases hbad : inputValid r.password = false
  · rw [if_pos (.inl hbad)]
    exact ⟨⟨fun _ => hbad, fun _ => rfl⟩, nofun, fun _ h => h⟩
  · rw [if_neg (not_or.mpr ⟨hbad, by rw [hvalid]; nofun⟩)]
    cases c.mdOk with
    | false => exact ⟨⟨nofun, fun h => absurd h hbad⟩, nofun, fun _ h => absurd h Bool.false_ne_true⟩
    | true => exact ⟨⟨nofun, fun h => absurd h hbad⟩, fun _ => decide_eq_true_iff, fun h => absurd rfl h⟩

end Work

/-! ## Every call -/

section Calls

variable {ms : List KdfMove}

/-- **Every call**, over every interleaving of callers and worker: what returns was derived for
once and for its own request, with at most one other derivation after it got its place; what
times out was not derived for; and no call is stuck, so that its frame is there for the worker. -/
theorem kdf_calls (h : IsRun kdfStep Server.start ms) :
    (∀ l m k, ms = l ++ m :: k → ∀ t r,
      (∀ frame, m.ev = .take t r frame → Serve.Served kdfQueueLength KdfRequest.init kdfWork t r frame l) ∧
        (m.ev = .timeout t r → Serve.Asked t r l)) ∧
    ∀ t, (final Server.start ms).task t ≠ .idle →
      (final Server.start ms).TaskGoes kdfQueueLength KdfRequest.init kdfWork t ∨
        (final Server.start ms).Goes kdfQueueLength KdfRequest.init kdfWork :=
  ⟨fun _ _ _ hsplit _ _ => served h hsplit, fun _ ht => goes_on Nat.one_pos h ht⟩

/-- What a call returns is the work on its request. -/
theorem frame_of_take (h : IsRun kdfStep Server.start ms) {m : KdfMove} (hm : m ∈ ms) {t : Nat}
    {r : KdfRequest} {frame : KdfFrame} (hev : m.ev = .take t r frame) : ∃ c, frame = kdfWork r c r.init := by
  obtain ⟨l, k, hsplit⟩ := List.append_of_mem hm
  obtain ⟨_, _, _, _, c, _, _, _, _, _, hframe, _⟩ := (served h hsplit).1 frame hev
  exact ⟨c, hframe⟩

/-- **A password and its record**, made by one call and compared by another, whatever tasks they
are of and whatever runs between them. -/
theorem kdf_round_trip (h : IsRun kdfStep Server.start ms) {m : KdfMove} (hm : m ∈ ms) {t : Nat}
    {password : List UInt8} {iterations : UInt32} {buffer : PasswordVerifier} {created : KdfFrame}
    (hev : m.ev = .take t (passwordVerifierCreate password iterations buffer) created)
    (hok : created.result = espOk) :
    created.record.recordValid = true ∧ created.record.iterations = iterations ∧
      ∀ m' ∈ ms, ∀ t' password' flag verified,
        m'.ev = .take t' (passwordVerifierVerify password' created.record flag) verified →
          verified.record = created.record ∧
          (verified.result = espErrInvalidArg ↔ inputValid password' = false) ∧
          (password' = password → verified.result ≠ espErrInvalidArg) ∧
          (verified.result = espOk → (verified.isMatch = true ↔
            pbkdf2 password' created.record.salt.toList iterations =
              pbkdf2 password created.record.salt.toList iterations)) ∧
          (verified.result ≠ espOk → verified.isMatch = true → flag = true) := by
  obtain ⟨c, hcreated⟩ := frame_of_take h hm hev
  have hwork : created = workCreate (passwordVerifierCreate password iterations buffer) c _ := hcreated
  rw [hwork] at hok
  obtain ⟨hinput, hvalid, hiterations, hverifier⟩ := workCreate_ok hok
  rw [← hwork] at hvalid hiterations hverifier
  refine ⟨hvalid, hiterations, fun m' hm' t' password' flag verified hev' => ?_⟩
  obtain ⟨c', hverified⟩ := frame_of_take h hm' hev'
  have hwork' : verified = workVerify (passwordVerifierVerify password' created.record flag) c' _ := hverified
  obtain ⟨hinvalid, hmatch, hfailed⟩ :=
    @workVerify_cases c' (passwordVerifierVerify password' created.record flag).init
      (passwordVerifierVerify password' created.record flag) hvalid
  rw [← hwork'] at hinvalid hmatch hfailed
  refine ⟨?_, hinvalid, ?_, fun hok' => ?_, hfailed⟩
  · rw [hwork']
    unfold workVerify
    split
    · rfl
    · split <;> rfl
  · rintro rfl hbad
    exact Bool.false_ne_true ((hinvalid.mp hbad).symm.trans hinput)
  · rw [hmatch hok']
    change pbkdf2 password' created.record.salt.toList created.record.iterations = created.record.verifier ↔ _
    rw [hverifier, hiterations]
    exact Iff.rfl

end Calls

namespace KdfDemo

variable (s : KdfServer) (t : Nat) (r : KdfRequest) (c : KdfChoice)

/-- A call with nobody else about. -/
def callMoves : List KdfMove :=
  let asked := s.goto t (.sending r)
  let sent := { asked with queue := asked.queue ++ [t] }.goto t (.waiting r r.init false)
  let received := { sent with queue := [], worker := .busy t }
  let worked := { received with worker := .done t }.goto t (.waiting r (kdfWork r c r.init) false)
  let signalled := { worked with worker := .idle }.goto t (.waiting r (kdfWork r c r.init) true)
  [⟨s, .call t r, asked⟩, ⟨asked, .send t, sent⟩, ⟨sent, .receive, received⟩, ⟨received, .work c, worked⟩,
    ⟨worked, .signal, signalled⟩, ⟨signalled, .take t r (kdfWork r c r.init), signalled.goto t .idle⟩]

variable {s t r c}

theorem isRun_callMoves (hqueue : s.queue = []) (hworker : s.worker = .idle) (ht : s.task t = .idle) :
    IsRun kdfStep s (callMoves s t r c) := by
  have hroom : s.queue.length < kdfQueueLength := by
    rw [hqueue]
    exact Nat.one_pos
  have hwaiting (frame : KdfFrame) (signalled : Bool) {task : Nat → Phase KdfRequest KdfFrame} :
      Function.update task t (.waiting r frame signalled) t = .waiting r frame signalled :=
    Function.update_self ..
  refine ⟨rfl, .call ht, rfl, .send (.inl ?_) hroom, rfl, .receive hworker ?_, rfl,
    .work c rfl (hwaiting r.init false), rfl, .signal rfl (hwaiting (kdfWork r c r.init) false), rfl,
    .take (hwaiting (kdfWork r c r.init) true), trivial⟩
  · rw [Serve.goto_task, if_pos rfl]
  · change s.queue ++ [t] = [t]
    rw [hqueue]
    rfl

theorem callMoves_final (u : Nat) (hu : s.task u = .idle) :
    (final s (callMoves s t r c)).queue = [] ∧ (final s (callMoves s t r c)).worker = .idle ∧
      (final s (callMoves s t r c)).task u = .idle := by
  refine ⟨rfl, rfl, ?_⟩
  change ((_ : KdfServer).goto t .idle).task u = .idle
  rw [Serve.goto_task]
  split
  · rfl
  next hne =>
    simp only [Server.goto, Function.update_of_ne hne]
    exact hu

def password : List UInt8 := [0x61, 0x72, 0x67, 0x75, 0x73]

def salted : KdfChoice := ⟨.replicate 16 0, true⟩

/-- Task 1 creates a record. -/
def creation : KdfRequest := passwordVerifierCreate password 25000 .zero

def created : KdfFrame := kdfWork creation salted creation.init

theorem created_ok : created.result = espOk := by
  unfold created
  change (workCreate creation salted creation.init).result = espOk
  unfold workCreate deriveRecord
  rw [if_neg (by decide)]
  rfl

/-- Task 2 logs in with the password. -/
def verification : KdfRequest := passwordVerifierVerify password created.record false

def moves : List KdfMove :=
  let first := callMoves .start 1 creation salted
  first ++ callMoves (final .start first) 2 verification salted

theorem moves_run : IsRun kdfStep Server.start moves := by
  obtain ⟨hqueue, hworker, hidle⟩ := @callMoves_final .start 1 creation salted 2 rfl
  exact (isRun_append _ _ _).mpr ⟨isRun_callMoves rfl rfl rfl, isRun_callMoves hqueue hworker hidle⟩

theorem creation_taken : ∃ m ∈ moves, m.ev = .take 1 creation created :=
  ⟨_, List.mem_append_left _ (List.mem_of_getElem (i := 5) (h := by decide) rfl), rfl⟩

theorem verification_taken : ∃ m ∈ moves, m.ev = .take 2 verification (kdfWork verification salted verification.init) :=
  ⟨_, List.mem_append_right _ (List.mem_of_getElem (i := 5) (h := by decide) rfl), rfl⟩

end KdfDemo

open KdfDemo in
/-- The second call's own derivation. -/
theorem kdf_calls_login :
    ∃ l, Serve.Served kdfQueueLength KdfRequest.init kdfWork 2 verification
      (kdfWork verification salted verification.init) l := by
  obtain ⟨m, hm, hev⟩ := verification_taken
  obtain ⟨l, k, hsplit⟩ := List.append_of_mem hm
  exact ⟨l, ((kdf_calls moves_run).1 l m k hsplit 2 verification).1 _ hev⟩

open KdfDemo in
/-- The login succeeds. -/
theorem kdf_round_trip_login : (kdfWork verification salted verification.init).isMatch = true := by
  obtain ⟨m, hm, hev⟩ := creation_taken
  obtain ⟨m', hm', hev'⟩ := verification_taken
  obtain ⟨hvalid, -, hall⟩ := kdf_round_trip moves_run hm hev created_ok
  obtain ⟨-, -, -, hmatch, -⟩ := hall m' hm' 2 password false _ hev'
  have hok : (kdfWork verification salted verification.init).result = espOk := by
    change (workVerify verification salted verification.init).result = espOk
    unfold workVerify verifyRecord
    rw [if_neg (not_or.mpr ⟨by decide, by rw [show verification.init.record = created.record from rfl, hvalid]; nofun⟩)]
    rfl
  exact (hmatch hok).mpr rfl

end Kdf

end Argus
