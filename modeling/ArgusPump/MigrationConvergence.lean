import ArgusPump.CredentialMigration

/-!
# What the migration keeps, and when it converges

Each boot runs the migration; an operation of a run may fail, and a run may be cut off anywhere.

    the plaintext is gone → the stored verifier verifies it         (Kept)
    a stored verifier stays                                         (Kept)
    no operation fails → COMPLETE or deferred ↔ migratable before   (execute_clean)
    migratable → migratable after, or the marker is left alone      (Mid.migratable)

`pw` is erased before `pw_set`, and the marker without the password is what no run gets out of
(`half_erased_stuck`).
-/

namespace Argus

open Interact

namespace CredentialMigration

/-- The payload has a verifier, and it verifies the password. -/
def Secures (p : SecurityPayload) (password : List UInt8) : Prop :=
  p.consoleVerifierProvisioned ≠ 0 ∧ verifyRecord password p.consoleVerifier = .ok true

/-- With the same verifier, or also without one. -/
def SameVerifier (p q : SecurityPayload) : Prop :=
  q.consoleVerifierProvisioned = p.consoleVerifierProvisioned ∧ q.consoleVerifier = p.consoleVerifier

/-- The marker without the password. -/
def Device.HalfErased (d : Device) : Prop := d.marker = some 1 ∧ d.password = none

/-- No password is marked, or one that can be migrated and that a stored verifier verifies. -/
def Device.Migratable (d : Device) : Prop :=
  d.marker = none ∨ d.marker = some 1 ∧ ∃ password, d.password = some password ∧ inputValid password = true ∧
    (d.flash.consoleVerifierProvisioned ≠ 0 → verifyRecord password d.flash.consoleVerifier = .ok true)

/-- What no boot takes away. -/
structure Kept (d e : Device) : Prop where
  password : e.password = d.password ∨
    e.password = none ∧ ∃ password, d.password = some password ∧ Secures e.flash password
  marker : e.marker = d.marker ∨ e.marker = none ∧ e.flash.consoleVerifierProvisioned ≠ 0
  verifier : d.flash.consoleVerifierProvisioned ≠ 0 → SameVerifier d.flash e.flash

/-- `COMPLETE` with a verifier, or deferred where there never was a password. -/
def EndsWell (d₀ e : Device) (err : EspErr) : Prop :=
  err = espOk ∧ (e.flash.migrationState = migrationComplete ∧ e.flash.consoleVerifierProvisioned ≠ 0 ∨
    e.flash.migrationState = migrationBuildDefaultDeferred ∧ d₀.marker = none)

/-! ## Verifiers -/

theorem inputValid_iff {password : List UInt8} :
    inputValid password = true ↔ 0 < password.length ∧ password.length ≤ 128 := by
  unfold inputValid passwordInputMax
  rw [Bool.and_eq_true, decide_eq_true_eq, decide_eq_true_eq]

theorem deriveRecord_ok {password : List UInt8} (salt : Vector UInt8 16) (h : inputValid password = true) :
    ∃ record, deriveRecord password passwordIterationsDefault salt = .ok record ∧
      record.recordValid = true ∧ verifyRecord password record = .ok true := by
  have hok : deriveRecord password passwordIterationsDefault salt =
      .ok ⟨1, 1, 16, 32, 25000, salt, pbkdf2 password salt.toList 25000⟩ := by
    unfold deriveRecord
    rw [h]
    exact if_neg (by decide)
  refine ⟨_, hok, rfl, ?_⟩
  unfold verifyRecord
  rw [h, if_neg]
  · simp
  · rintro (hinput | hrecord)
    · cases hinput
    · cases hrecord

theorem verify_of_derive {password : List UInt8} {salt : Vector UInt8 16} {record : PasswordVerifier}
    (h : deriveRecord password passwordIterationsDefault salt = .ok record) :
    verifyRecord password record = .ok true := by
  by_cases hinput : inputValid password = true
  · obtain ⟨x, hx, -, hverify⟩ := deriveRecord_ok salt hinput
    rw [h] at hx
    rw [Except.ok.inj hx]
    exact hverify
  · unfold deriveRecord at h
    rw [if_pos (.inl (by simpa using hinput))] at h
    cases h

theorem Secures.same {p q : SecurityPayload} {password : List UInt8} (h : Secures p password)
    (hsame : SameVerifier p q) : Secures q password := by
  obtain ⟨hprovisioned, hverifier⟩ := hsame
  unfold Secures
  rw [hprovisioned, hverifier]
  exact h

/-! ## The legacy keys -/

namespace Device

variable {s : Device} {text : List UInt8}

theorem readMarker_ok {value : UInt8} (h : s.readMarker = .ok value) : s.marker = some value := by
  unfold readMarker at h
  cases hm : s.marker with
  | none =>
    rw [hm] at h
    cases h
  | some m =>
    rw [hm] at h
    rw [Except.ok.inj h]

theorem readPassword_ok (h : s.readPassword = .ok text) : s.password = some text ∧ text.length ≤ 128 := by
  unfold readPassword passwordInputMax at h
  split at h
  · cases h
  · next x hx =>
    split at h
    · cases h
    · obtain rfl := Except.ok.inj h
      exact ⟨hx, by omega⟩

theorem readPassword_error {err : EspErr} (h : s.readPassword = .error err) :
    err ≠ espOk ∧ ∀ text, s.password = some text → 128 < text.length := by
  unfold readPassword passwordInputMax at h
  split at h
  · next hnone =>
    cases h
    exact ⟨by decide, fun x hx => by cases hnone.symm.trans hx⟩
  · next y hy =>
    split at h
    · cases h
      refine ⟨by decide, fun x hx => ?_⟩
      obtain rfl := Option.some.inj (hy.symm.trans hx)
      omega
    · cases h

theorem Migratable.input (h : s.Migratable) (hmarker : s.marker = some 1) :
    ∃ text, s.password = some text ∧ 0 < text.length ∧ text.length ≤ 128 := by
  rcases h with hgone | ⟨-, text, htext, hvalid, -⟩
  · cases hmarker.symm.trans hgone
  · exact ⟨text, htext, inputValid_iff.mp hvalid⟩

end Device

/-! ## The store's operations -/

namespace Device

variable {d : Device} {p : SecurityPayload}

theorem commits_setState {state : UInt8} (h : d.commits (.setMigrationState state) = some p) :
    SameVerifier d.snapshot p ∧ p.migrationState = state := by
  unfold commits StoreOp.edit storeSetMigrationState storeUpdateState at h
  dsimp only at h
  split at h
  · cases h
  · split at h
    · cases h
      exact ⟨⟨rfl, rfl⟩, rfl⟩
    · cases h

theorem commits_setVerifier {record : PasswordVerifier}
    (h : d.commits (.setConsoleVerifier record false) = some p) :
    d.snapshot.consoleVerifierProvisioned = 0 ∧ p.consoleVerifierProvisioned = 1 ∧ p.consoleVerifier = record := by
  unfold commits StoreOp.edit storeSetConsoleVerifier at h
  dsimp only at h
  split at h
  · cases h
  · split at h
    · cases h
    · next hnew =>
      cases h
      refine ⟨?_, rfl, rfl⟩
      by_contra hne
      exact hnew ⟨hne, by simp⟩

/-- A state that is set without a failure. -/
theorem committed_setState (state : UInt8) (hstate : ¬ state > securityMigrationMax)
    (hsame : d.flash = d.snapshot) :
    d.answers (.setMigrationState state) = espOk ∧
      SameVerifier d.flash (d.committed (.setMigrationState state)).flash ∧
      (d.committed (.setMigrationState state)).flash.migrationState = state := by
  have hedit : StoreOp.edit (.setMigrationState state) d.snapshot =
      .ok (storeUpdateState (d.snapshot.migrationState ≠ state) (fun p => { p with migrationState := state })
        d.snapshot) :=
    if_neg hstate
  refine ⟨?_, ?_⟩
  · unfold answers
    rw [hedit]
  · unfold committed
    split
    · next hnone =>
      refine ⟨⟨rfl, rfl⟩, ?_⟩
      unfold commits at hnone
      rw [hedit] at hnone
      unfold storeUpdateState at hnone
      by_cases hchanged : d.snapshot.migrationState = state
      · rw [hsame]
        exact hchanged
      · simp [hchanged, Except.toOption] at hnone
    · next payload hsome =>
      rw [hsame]
      exact commits_setState hsome

end Device

theorem Device.answers_setVerifier {d : Device} {record : PasswordVerifier}
    (h : d.answers (.setConsoleVerifier record false) = espOk) :
    ∃ p, d.commits (.setConsoleVerifier record false) = some p := by
  unfold answers StoreOp.edit at h
  unfold commits StoreOp.edit
  dsimp only at h ⊢
  unfold storeSetConsoleVerifier at h ⊢
  split at h
  · next err hedit =>
    subst h
    split at hedit
    · cases hedit
    · split at hedit
      · cases hedit
      · cases hedit
  · next out hedit =>
    rw [hedit]
    split at hedit
    · cases hedit
    · split at hedit
      · cases hedit
      · cases hedit
        exact ⟨_, rfl⟩

/-! ## Along a run -/

/-- The verifier of the boot, or a new one of the marked password. -/
def Grown (b : Device) (p : SecurityPayload) : Prop :=
  SameVerifier b.flash p ∨ b.flash.consoleVerifierProvisioned = 0 ∧
    ∃ password, b.password = some password ∧ Secures p password

/-- The keys of the boot, or what is left of them once a password that is secured is erased. -/
def Left (b s : Device) : Prop :=
  s.legacy = b.legacy ∨ b.marker = some 1 ∧ s.password = none ∧ (s.marker = some 1 ∨ s.marker = none) ∧
    ∃ password, b.password = some password ∧ Secures s.flash password ∧ Secures s.snapshot password

/-- What holds all along the run of a boot. -/
structure Mid (b s : Device) : Prop where
  flash : Grown b s.flash
  snapshot : Grown b s.snapshot
  legacy : Left b s

theorem Grown.same {b : Device} {p q : SecurityPayload} (h : Grown b p) (hsame : SameVerifier p q) : Grown b q := by
  rcases h with ⟨hprovisioned, hverifier⟩ | ⟨hnone, password, hpassword, hsecures⟩
  · exact .inl ⟨hsame.1.trans hprovisioned, hsame.2.trans hverifier⟩
  · exact .inr ⟨hnone, password, hpassword, hsecures.same hsame⟩

namespace Mid

variable {b s t d : Device} {p : SecurityPayload} {password : List UInt8} {record : PasswordVerifier}

theorem boot (d : Device) : Mid d.boot d.boot := ⟨.inl ⟨rfl, rfl⟩, .inl ⟨rfl, rfl⟩, .inl rfl⟩

/-- A payload with the verifier of the snapshot is stored, or committed. -/
theorem store (h : Mid b s) (hsame : SameVerifier s.snapshot p) :
    Mid b { s with flash := p } ∧ Mid b { s with flash := p, snapshot := p } := by
  have hgrown := h.snapshot.same hsame
  rcases h.legacy with hlegacy | ⟨hmarker, herased, hleft, password, hpassword, -, hsecures⟩
  · exact ⟨⟨hgrown, h.snapshot, .inl hlegacy⟩, ⟨hgrown, hgrown, .inl hlegacy⟩⟩
  · have hsecured := hsecures.same hsame
    exact ⟨⟨hgrown, h.snapshot, .inr ⟨hmarker, herased, hleft, password, hpassword, hsecured, hsecures⟩⟩,
      ⟨hgrown, hgrown, .inr ⟨hmarker, herased, hleft, password, hpassword, hsecured, hsecured⟩⟩⟩

theorem setState (h : Mid b s) {state : UInt8} {r : EspErr} (hcall : Call (.setState state) s r t) : Mid b t := by
  rcases hcall with ⟨-, rfl⟩ | ⟨-, rfl | ⟨p, hp, rfl⟩⟩
  · unfold Device.committed
    split
    · exact h
    · next p hp => exact (h.store (Device.commits_setState hp).1).2
  · exact h
  · exact (h.store (Device.commits_setState hp).1).1

/-- A new verifier of the marked password. -/
theorem grown (hb : b.snapshot = b.flash) (hpassword : b.password = some password)
    (hverify : verifyRecord password record = .ok true)
    (hp : b.commits (.setConsoleVerifier record false) = some p) : Grown b p := by
  obtain ⟨hnone, hprovisioned, rfl⟩ := Device.commits_setVerifier hp
  rw [hb] at hnone
  refine .inr ⟨hnone, password, hpassword, ?_, hverify⟩
  rw [hprovisioned]
  decide

theorem kept (h : Mid d.boot s) : Kept d s := by
  refine ⟨?_, ?_, fun hprovisioned => ?_⟩
  · rcases h.legacy with hlegacy | ⟨-, herased, -, password, hpassword, hsecures, -⟩
    · exact .inl (congrArg (Option.bind · LegacyKeys.password) hlegacy)
    · exact .inr ⟨herased, password, hpassword, hsecures⟩
  · rcases h.legacy with hlegacy | ⟨hmarker, -, hleft | hgone, password, -, hsecures, -⟩
    · exact .inl (congrArg (Option.bind · LegacyKeys.marker) hlegacy)
    · exact .inl (hleft.trans hmarker.symm)
    · exact .inr ⟨hgone, hsecures.1⟩
  · rcases h.flash with hsame | ⟨hnone, -⟩
    · exact hsame
    · exact absurd hnone hprovisioned

/-- The marker left alone is the only way out of what can be migrated. -/
theorem migratable (h : Mid d.boot s) (hd : d.Migratable) : s.Migratable ∨ s.HalfErased := by
  rcases h.legacy with hlegacy | ⟨-, herased, hleft | hgone, -⟩
  · have hmarker : s.marker = d.marker := congrArg (Option.bind · LegacyKeys.marker) hlegacy
    have hpassword : s.password = d.password := congrArg (Option.bind · LegacyKeys.password) hlegacy
    unfold Device.Migratable at hd ⊢
    rw [hmarker, hpassword]
    refine .inl (hd.imp_right ?_)
    rintro ⟨hone, password, hsome, hinput, hverify⟩
    refine ⟨hone, password, hsome, hinput, fun hprovisioned => ?_⟩
    rcases h.flash with ⟨hsame, hverifier⟩ | ⟨-, x, hx, -, hsecures⟩
    · rw [hverifier]
      exact hverify (hsame ▸ hprovisioned)
    · obtain rfl := Option.some.inj (hsome.symm.trans hx)
      exact hsecures
  · exact .inr ⟨hleft, herased⟩
  · exact .inl (.inl hgone)

end Mid

/-! ## The calls of a run -/

section Runs

variable {b s : Device} {C : Device → Prop} {password : List UInt8} {record : PasswordVerifier}

/-- The calls that write nothing. -/
def Request.reads : Request → Bool
  | .openLegacyWrite | .erasePassword | .eraseMarker | .setVerifier _ | .setState _ => false
  | _ => true

theorem call_reads {q : Request} (hq : q.reads = true) {r : q.Answer} {t : Device} (h : Call q s r t) : t = s := by
  cases q with
  | openLegacyWrite => cases hq
  | erasePassword => cases hq
  | eraseMarker => cases hq
  | setVerifier record => cases hq
  | setState state => cases hq
  | _ => exact h.elim And.right And.right

/-- The rule of a call that writes nothing. -/
theorem wpS_reads {α : Type} {post : α → Device → Prop} {q : Request} {k : q.Answer → MigrationProg α}
    (hq : q.reads = true) (hs : C s)
    (hk : ∀ r, Call q s r s → (k r).wpS Call (Prog.Guard Cut C) post s) :
    (Prog.ask q k).wpS Call (Prog.Guard Cut C) post s := by
  refine Prog.wpS_guard (fun t ht => ht) hs fun r t ht => ?_
  obtain rfl := call_reads hq ht
  exact ⟨hs, hk r ht⟩

theorem inspectLegacy_wp (hs : C s) : inspectLegacy.wpS Call (Prog.Guard Cut C)
    (fun out t => t = s ∧ (out.1 = espOk → ∀ password, out.2.plaintext = some password →
      s.marker = some 1 ∧ s.password = some password)) s := by
  refine wpS_reads rfl hs fun err _ => ?_
  split
  · exact ⟨rfl, fun _ _ hnone => by cases hnone⟩
  split
  · exact ⟨rfl, fun _ _ hnone => by cases hnone⟩
  refine wpS_reads rfl hs fun marker hmarker => ?_
  split
  · exact ⟨rfl, fun _ _ hnone => by cases hnone⟩
  · next value =>
    split
    · exact ⟨rfl, fun _ _ hnone => by cases hnone⟩
    · next hone =>
      refine wpS_reads rfl hs fun found hfound => ?_
      split
      · exact ⟨rfl, fun _ _ hnone => by cases hnone⟩
      · next text =>
        split
        · exact ⟨rfl, fun _ _ hnone => by cases hnone⟩
        · refine ⟨rfl, fun _ x hx => ?_⟩
          obtain rfl := Option.some.inj hx
          rw [not_not] at hone
          subst hone
          refine ⟨?_, ?_⟩
          · rcases hmarker with ⟨hread, -⟩ | ⟨⟨err, herr, -⟩, -⟩
            · exact Device.readMarker_ok hread.symm
            · cases herr
          · rcases hfound with ⟨hread, -⟩ | ⟨⟨err, herr, -⟩, -⟩
            · exact (Device.readPassword_ok hread.symm).1
            · cases herr

theorem fail_wp (h : Mid b s) (status : MigrationStatus) (err : EspErr) :
    (fail status err).wpS Call (Prog.Guard Cut (Mid b)) (fun _ t => Mid b t) s := by
  refine Prog.wpS_guard (fun t ht => ht) h fun r t ht => ?_
  exact ⟨h.setState ht, h.setState ht⟩

theorem withoutPlaintext_wp (h : Mid b s) (status : MigrationStatus) (stored : Except EspErr PasswordVerifier) :
    (withoutPlaintext status stored).wpS Call (Prog.Guard Cut (Mid b)) (fun _ t => Mid b t) s := by
  unfold withoutPlaintext
  split
  · refine Prog.wpS_guard (fun t ht => ht) h fun r t ht => ?_
    exact ⟨h.setState ht, h.setState ht⟩
  · split
    · exact h
    · refine Prog.wpS_guard (fun t ht => ht) h fun r t ht => ?_
      exact ⟨h.setState ht, h.setState ht⟩

/-- The payload holds the record. -/
def Holds (p : SecurityPayload) (record : PasswordVerifier) : Prop :=
  p.consoleVerifierProvisioned ≠ 0 ∧ p.consoleVerifier = record

theorem holds_of_consoleVerifier (h : s.consoleVerifier = .ok record) : Holds s.snapshot record := by
  unfold Device.consoleVerifier at h
  split at h
  · cases h
  · next hprovisioned => exact ⟨hprovisioned, Except.ok.inj h⟩

theorem stored_of_call {r : Except EspErr PasswordVerifier} (h : Call .getVerifier s r s) (hr : r = .ok record) :
    s.consoleVerifier = .ok record := by
  subst hr
  rcases h with ⟨hread, -⟩ | ⟨⟨err, herr, -⟩, -⟩
  · exact hread.symm
  · cases herr

theorem obtainVerifier_wp (hb : b.snapshot = b.flash) (hmid : Mid b b) (hpassword : b.password = some password)
    {stored : Except EspErr PasswordVerifier}
    (hstored : ∀ record, stored = .ok record → b.consoleVerifier = .ok record) :
    (obtainVerifier password stored).wpS Call (Prog.Guard Cut (Mid b))
      (fun out t => Mid b t ∧ ∀ record, out = .ok record →
        t.legacy = b.legacy ∧ Holds t.flash record ∧ Holds t.snapshot record) b := by
  unfold obtainVerifier
  split
  · next record =>
    refine ⟨hmid, fun x hx => ?_⟩
    obtain rfl := Except.ok.inj hx
    have hholds := holds_of_consoleVerifier (hstored record rfl)
    exact ⟨rfl, hb ▸ hholds, hholds⟩
  · split
    · exact ⟨hmid, fun _ hx => by cases hx⟩
    refine wpS_reads rfl hmid fun created hcreated => ?_
    split
    · exact ⟨hmid, fun _ hx => by cases hx⟩
    next record =>
    have hverify : verifyRecord password record = .ok true := by
      rcases hcreated with ⟨⟨salt, hsalt⟩, -⟩ | ⟨⟨err, herr, -⟩, -⟩
      · exact verify_of_derive hsalt.symm
      · cases herr
    refine Prog.wpS_guard (fun t ht => ht) hmid fun err t ht => ?_
    rcases ht with ⟨herr, rfl⟩ | ⟨hne, ht⟩
    · unfold Device.committed
      split
      · next hnone =>
        refine ⟨hmid, ?_⟩
        rw [if_pos]
        · exact ⟨hmid, fun _ hx => by cases hx⟩
        · rintro rfl
          obtain ⟨p, hp⟩ := Device.answers_setVerifier herr.symm
          cases hnone.symm.trans hp
      · next p hp =>
        have hgrown := Mid.grown hb hpassword hverify hp
        have hnext : Mid b { b with flash := p, snapshot := p } := ⟨hgrown, hgrown, .inl rfl⟩
        refine ⟨hnext, ?_⟩
        split
        · exact ⟨hnext, fun _ hx => by cases hx⟩
        · refine wpS_reads rfl hnext fun read hread => ⟨hnext, fun x hx => ?_⟩
          have hholds := holds_of_consoleVerifier (stored_of_call hread hx)
          exact ⟨rfl, hholds, hholds⟩
    · rw [if_pos hne]
      rcases ht with rfl | ⟨p, hp, rfl⟩
      · exact ⟨hmid, hmid, fun _ hx => by cases hx⟩
      · have hnext : Mid b { b with flash := p } := ⟨Mid.grown hb hpassword hverify hp, hmid.snapshot, .inl rfl⟩
        exact ⟨hnext, hnext, fun _ hx => by cases hx⟩

theorem deleteLegacyPlaintext_wp (h : Mid b s) (hlegacy : s.legacy = b.legacy) (hmarker : b.marker = some 1)
    (hpassword : b.password = some password) (hflash : Secures s.flash password)
    (hsnapshot : Secures s.snapshot password) :
    deleteLegacyPlaintext.wpS Call (Prog.Guard Cut (Mid b)) (fun _ t => Mid b t) s := by
  obtain ⟨k, hk⟩ : ∃ k, s.legacy = some k := by
    rw [hlegacy]
    cases hnone : b.legacy with
    | none =>
      unfold Device.marker at hmarker
      rw [hnone] at hmarker
      cases hmarker
    | some k => exact ⟨k, rfl⟩
  have hopened (r : EspErr) (t : Device) (ht : Call .openLegacyWrite s r t) : t = s := by
    rcases ht with ⟨-, rfl⟩ | ⟨-, rfl⟩
    · rw [hk]
      exact congrArg (fun keys => (⟨keys, s.flash, s.snapshot⟩ : Device)) hk.symm
    · rfl
  -- What is left of the keys.
  have hgone : Mid b s.withoutPassword := by
    refine ⟨h.flash, h.snapshot, .inr ⟨hmarker, ?_, .inl ?_, password, hpassword, hflash, hsnapshot⟩⟩
    · unfold Device.password Device.withoutPassword
      rw [hk]
      rfl
    · rw [← hmarker]
      unfold Device.marker Device.withoutPassword
      rw [← hlegacy, hk]
      rfl
  have hempty : Mid b s.withoutPassword.withoutMarker := by
    refine ⟨h.flash, h.snapshot, .inr ⟨hmarker, ?_, .inr ?_, password, hpassword, hflash, hsnapshot⟩⟩
    · unfold Device.password Device.withoutMarker Device.withoutPassword
      rw [hk]
      rfl
    · unfold Device.marker Device.withoutMarker Device.withoutPassword
      rw [hk]
      rfl
  refine Prog.wpS_guard (fun t ht => ht) h fun err t ht => ?_
  obtain rfl := hopened err t ht
  refine ⟨h, ?_⟩
  split
  · exact h
  refine Prog.wpS_guard (fun t ht => ht) h fun err t ht => ?_
  rcases ht with ⟨-, rfl⟩ | ⟨hne, ht⟩
  · refine ⟨hgone, ?_⟩
    split
    · exact hgone
    · refine Prog.wpS_guard (fun t ht => ht) hgone fun err t ht => ?_
      have ht' : Mid b t := by
        rcases ht with ⟨-, rfl⟩ | ⟨-, rfl | rfl⟩
        · exact hempty
        · exact hgone
        · exact hempty
      refine ⟨ht', ?_⟩
      split
      · exact ht'
      · exact wpS_reads rfl ht' fun _ _ => ht'
  · rw [if_pos hne]
    rcases ht with rfl | rfl
    · exact ⟨h, h⟩
    · exact ⟨hgone, hgone⟩

theorem proveAndDelete_wp (h : Mid b s) (hlegacy : s.legacy = b.legacy) (hmarker : b.marker = some 1)
    (hpassword : b.password = some password) (hflash : Holds s.flash record) (hsnapshot : Holds s.snapshot record) :
    (proveAndDelete password record).wpS Call (Prog.Guard Cut (Mid b)) (fun _ t => Mid b t) s := by
  refine wpS_reads rfl h fun verified hverified => ?_
  split
  · exact h
  split
  · exact h
  next value hvalue =>
  have hverify : verifyRecord password record = .ok true := by
    rw [Bool.not_eq_false] at hvalue
    subst hvalue
    rcases hverified with ⟨hread, -⟩ | ⟨⟨err, herr, -⟩, -⟩
    · exact hread.symm
    · cases herr
  exact deleteLegacyPlaintext_wp h hlegacy hmarker hpassword ⟨hflash.1, hflash.2 ▸ hverify⟩
    ⟨hsnapshot.1, hsnapshot.2 ▸ hverify⟩

theorem withPlaintext_wp (hb : b.snapshot = b.flash) (hmid : Mid b b) (hmarker : b.marker = some 1)
    (hpassword : b.password = some password) (status : MigrationStatus) {stored : Except EspErr PasswordVerifier}
    (hstored : ∀ record, stored = .ok record → b.consoleVerifier = .ok record) :
    (withPlaintext status password stored).wpS Call (Prog.Guard Cut (Mid b)) (fun _ t => Mid b t) b := by
  unfold withPlaintext
  rw [Prog.wpS_bind]
  refine Prog.wpS_mono (fun _ _ h => h) (fun out t ht => ?_) _ _ (obtainVerifier_wp hb hmid hpassword hstored)
  split
  · exact fail_wp ht.1 _ _
  · next record =>
    obtain ⟨hlegacy, hflash, hsnapshot⟩ := ht.2 record rfl
    rw [Prog.wpS_bind]
    refine Prog.wpS_mono (fun _ _ h => h) (fun err u hu => ?_) _ _
      (proveAndDelete_wp ht.1 hlegacy hmarker hpassword hflash hsnapshot)
    split
    · exact fail_wp hu _ _
    · refine Prog.wpS_guard (fun t ht => ht) hu fun r v hv => ?_
      exact ⟨hu.setState hv, hu.setState hv⟩

/-- **A run, whatever fails and wherever it stops.** -/
theorem execute_wp (hb : b.snapshot = b.flash) (hmid : Mid b b) :
    execute.wpS Call (Prog.Guard Cut (Mid b)) (fun _ t => Mid b t) b := by
  unfold execute
  rw [Prog.wpS_bind]
  refine Prog.wpS_mono (fun _ _ h => h) (fun out t ht => ?_) _ _ (inspectLegacy_wp hmid)
  obtain ⟨rfl, hfound⟩ := ht
  dsimp only
  split
  · exact fail_wp hmid _ _
  next hok =>
  rw [not_not] at hok
  refine wpS_reads rfl hmid fun stored hstored => ?_
  split
  · exact withoutPlaintext_wp hmid _ _
  · next password hplaintext =>
    obtain ⟨hmarker, hpassword⟩ := hfound hok password hplaintext
    exact withPlaintext_wp hb hmid hmarker hpassword _ fun record hr => stored_of_call hstored hr

end Runs

/-! ## A run in which nothing fails -/

section Clean

variable {s : Device} {password : List UInt8} {record : PasswordVerifier}

theorem inspectLegacy_clean (s : Device) : inspectLegacy.wpS Ideal (fun _ _ => True)
    (fun out t => t = s ∧ (out.1 = espOk ∧ out.2.plaintext = none ∧ s.marker = none ∨
      out.1 = espOk ∧ (∃ password, out.2.plaintext = some password ∧ s.marker = some 1 ∧
        s.password = some password ∧ inputValid password = true) ∨
      out.1 ≠ espOk ∧ ¬ s.Migratable)) s := by
  refine ⟨trivial, fun err t ht => ?_⟩
  obtain ⟨rfl, rfl⟩ := ht
  by_cases hnone : t.legacy.isNone = true
  · have hmarker : t.marker = none := by
      unfold Device.marker
      rw [Option.isNone_iff_eq_none.mp hnone]
      rfl
    rw [if_pos hnone]
    dsimp only
    rw [if_pos rfl]
    exact ⟨rfl, .inl ⟨rfl, rfl, hmarker⟩⟩
  rw [if_neg hnone]
  dsimp only
  rw [if_neg (by decide), if_neg (not_not.mpr rfl)]
  refine ⟨trivial, fun marker u hu => ?_⟩
  obtain ⟨rfl, rfl⟩ := hu
  unfold Device.readMarker
  cases hm : u.marker with
  | none =>
    refine ⟨rfl, .inl ⟨?_, rfl, rfl⟩⟩
    dsimp only
    rw [if_pos rfl]
  | some m =>
    dsimp only [Option.elim]
    by_cases hone : m = 1
    · subst hone
      rw [if_neg (not_not.mpr rfl)]
      refine ⟨trivial, fun found v hv => ?_⟩
      obtain ⟨rfl, rfl⟩ := hv
      cases hread : v.readPassword with
      | error err =>
        obtain ⟨herr, hlong⟩ := Device.readPassword_error hread
        refine ⟨rfl, .inr (.inr ⟨herr, fun h => ?_⟩)⟩
        obtain ⟨text, htext, -, hle⟩ := h.input hm
        exact Nat.not_le.mpr (hlong text htext) hle
      | ok text =>
        obtain ⟨htext, hle⟩ := Device.readPassword_ok hread
        dsimp only
        split
        · next hshort =>
          refine ⟨rfl, .inr (.inr ⟨by decide, fun h => ?_⟩)⟩
          obtain ⟨x, hx, hpos, -⟩ := h.input hm
          obtain rfl := Option.some.inj (htext.symm.trans hx)
          unfold passwordInputMax at hshort
          omega
        · next hfits =>
          exact ⟨rfl, .inr (.inl ⟨rfl, text, rfl, rfl, htext, inputValid_iff.mpr (by omega)⟩)⟩
    · rw [if_pos hone]
      refine ⟨rfl, .inr (.inr ⟨by decide, ?_⟩)⟩
      rintro (hgone | ⟨hmark, -⟩)
      · cases hm.symm.trans hgone
      · exact hone (Option.some.inj (hm.symm.trans hmark))

theorem fail_clean (hsame : s.flash = s.snapshot) (status : MigrationStatus) (err : EspErr) :
    (fail status err).wpS Ideal (fun _ _ => True)
      (fun out t => out.1 = err ∧ t.flash.migrationState = migrationFailed) s := by
  refine ⟨trivial, fun r t ht => ?_⟩
  obtain ⟨-, rfl⟩ := ht
  exact ⟨rfl, (Device.committed_setState migrationFailed (by decide) hsame).2.2⟩

theorem deleteLegacyPlaintext_clean : deleteLegacyPlaintext.wpS Ideal (fun _ _ => True)
    (fun err t => err = espOk ∧ t.flash = s.flash ∧ t.snapshot = s.snapshot) s := by
  have hfound {α : Type} (o : Option α) : ¬ ((if o.isNone then espErrNvsNotFound else espOk) ≠ espOk ∧
      (if o.isNone then espErrNvsNotFound else espOk) ≠ espErrNvsNotFound) := by
    split <;> simp
  refine ⟨trivial, fun err t ht => ?_⟩
  obtain ⟨rfl, rfl⟩ := ht
  dsimp only
  rw [if_neg (not_not.mpr rfl)]
  refine ⟨trivial, fun err t ht => ?_⟩
  obtain ⟨rfl, rfl⟩ := ht
  dsimp only
  rw [if_neg (hfound _)]
  refine ⟨trivial, fun err t ht => ?_⟩
  obtain ⟨rfl, rfl⟩ := ht
  dsimp only
  rw [if_neg (hfound _)]
  refine ⟨trivial, fun err t ht => ?_⟩
  obtain ⟨rfl, rfl⟩ := ht
  exact ⟨rfl, rfl, rfl⟩

theorem obtainVerifier_clean (hsame : s.flash = s.snapshot) (hinput : inputValid password = true) :
    (obtainVerifier password s.consoleVerifier).wpS Ideal (fun _ _ => True)
      (fun out t => ∃ record, out = .ok record ∧ t.flash = t.snapshot ∧ Holds t.flash record ∧
        if s.flash.consoleVerifierProvisioned = 0 then verifyRecord password record = .ok true
        else record = s.flash.consoleVerifier) s := by
  unfold Device.consoleVerifier
  rw [hsame]
  by_cases hprovisioned : s.snapshot.consoleVerifierProvisioned = 0
  · rw [if_pos hprovisioned]
    unfold obtainVerifier
    dsimp only
    rw [if_neg (not_not.mpr rfl)]
    refine ⟨trivial, fun created t ht => ?_⟩
    obtain ⟨⟨salt, rfl⟩, rfl⟩ := ht
    obtain ⟨record, hrecord, hvalid, hverify⟩ := deriveRecord_ok salt hinput
    rw [hrecord]
    have hedit : ∃ p, StoreOp.edit (.setConsoleVerifier record false) t.snapshot = .ok (some p) := by
      unfold StoreOp.edit storeSetConsoleVerifier
      dsimp only
      rw [if_neg (not_not.mpr hvalid), if_neg (fun h => h.1 hprovisioned)]
      exact ⟨_, rfl⟩
    obtain ⟨p, hp⟩ := hedit
    have hcommits : t.commits (.setConsoleVerifier record false) = some p := by
      unfold Device.commits
      rw [hp]
      rfl
    obtain ⟨-, hnew, hholds⟩ := Device.commits_setVerifier hcommits
    refine ⟨trivial, fun err u hu => ?_⟩
    obtain ⟨rfl, rfl⟩ := hu
    unfold Device.answers Device.committed
    rw [hp, hcommits]
    dsimp only
    rw [if_neg (not_not.mpr rfl)]
    refine ⟨trivial, fun stored v hv => ?_⟩
    obtain ⟨rfl, rfl⟩ := hv
    have hne : p.consoleVerifierProvisioned ≠ 0 := by
      rw [hnew]
      decide
    refine ⟨record, ?_, rfl, ⟨hne, hholds⟩, ?_⟩
    · unfold Device.consoleVerifier
      rw [if_neg hne, hholds]
    · rw [if_pos hprovisioned]
      exact hverify
  · rw [if_neg hprovisioned]
    refine ⟨s.snapshot.consoleVerifier, rfl, hsame, ⟨hsame ▸ hprovisioned, hsame ▸ rfl⟩, ?_⟩
    rw [if_neg hprovisioned]

/-- What the plaintext is verified against. -/
def Verified (s : Device) (password : List UInt8) : Prop :=
  s.flash.consoleVerifierProvisioned ≠ 0 → verifyRecord password s.flash.consoleVerifier = .ok true

theorem proveAndDelete_clean : (proveAndDelete password record).wpS Ideal (fun _ _ => True)
    (fun err t => (err = espOk ↔ verifyRecord password record = .ok true) ∧ t.flash = s.flash ∧
      t.snapshot = s.snapshot) s := by
  refine ⟨trivial, fun verified t ht => ?_⟩
  obtain ⟨rfl, rfl⟩ := ht
  cases hread : verifyRecord password record with
  | error err =>
    have herr : err ≠ espOk := by
      unfold verifyRecord at hread
      split at hread
      · rw [← Except.error.inj hread]
        decide
      · cases hread
    exact ⟨⟨fun heq => absurd heq herr, fun hno => by cases hno⟩, rfl, rfl⟩
  | ok isMatch =>
    dsimp only
    cases isMatch with
    | false =>
      rw [if_pos rfl]
      exact ⟨⟨fun heq => absurd heq (by decide), fun hno => by cases hno⟩, rfl, rfl⟩
    | true =>
      rw [if_neg (by decide)]
      refine Prog.wpS_mono (fun _ _ h => h) (fun err u hu => ?_) _ _ (deleteLegacyPlaintext_clean (s := t))
      exact ⟨⟨fun _ => rfl, fun _ => hu.1⟩, hu.2⟩

theorem withPlaintext_clean (hsame : s.flash = s.snapshot) (hinput : inputValid password = true)
    (status : MigrationStatus) :
    (withPlaintext status password s.consoleVerifier).wpS Ideal (fun _ _ => True)
      (fun out t => (Verified s password → out.1 = espOk ∧ t.flash.migrationState = migrationComplete ∧
          t.flash.consoleVerifierProvisioned ≠ 0) ∧
        (¬ Verified s password → out.1 ≠ espOk ∧ t.flash.migrationState = migrationFailed)) s := by
  unfold withPlaintext
  rw [Prog.wpS_bind]
  refine Prog.wpS_mono (fun _ _ h => h) (fun out t ht => ?_) _ _ (obtainVerifier_clean hsame hinput)
  obtain ⟨record, rfl, hsnapshot, hholds, hrecord⟩ := ht
  dsimp only
  have hverified : verifyRecord password record = .ok true ↔ Verified s password := by
    unfold Verified
    split at hrecord
    · next hnone => exact ⟨fun _ hne => absurd hnone hne, fun _ => hrecord⟩
    · next hsome =>
      rw [hrecord]
      exact ⟨fun h _ => h, fun h => h hsome⟩
  rw [Prog.wpS_bind]
  refine Prog.wpS_mono (fun _ _ h => h) (fun err u hu => ?_) _ _ proveAndDelete_clean
  obtain ⟨hok, hflash, hsnap⟩ := hu
  rw [hverified] at hok
  have hsame' : u.flash = u.snapshot := hflash.trans (hsnapshot.trans hsnap.symm)
  by_cases herr : err = espOk
  · rw [if_neg (not_not.mpr herr)]
    refine ⟨trivial, fun r v hv => ?_⟩
    obtain ⟨rfl, rfl⟩ := hv
    obtain ⟨hr, hverifier, hstate⟩ := Device.committed_setState (d := u) migrationComplete (by decide) hsame'
    refine ⟨fun _ => ⟨hr, hstate, ?_⟩, fun hno => absurd (hok.mp herr) hno⟩
    rw [hverifier.1, hflash]
    exact hholds.1
  · rw [if_pos herr]
    refine Prog.wpS_mono (fun _ _ h => h) (fun out v hv => ?_) _ _ (fail_clean hsame' _ err)
    refine ⟨fun hyes => absurd (hok.mpr hyes) herr, fun _ => ⟨?_, hv.2⟩⟩
    rw [hv.1]
    exact herr

/-- **A run in which nothing fails.** -/
theorem execute_clean {b : Device} (hb : b.flash = b.snapshot) :
    execute.wpS Ideal (fun _ _ => True) (fun out t =>
      (b.Migratable → out.1 = espOk ∧
        (t.flash.migrationState = migrationComplete ∧ t.flash.consoleVerifierProvisioned ≠ 0 ∨
          t.flash.migrationState = migrationBuildDefaultDeferred ∧ b.marker = none ∧
            b.flash.consoleVerifierProvisioned = 0)) ∧
      (¬ b.Migratable → out.1 ≠ espOk ∧ t.flash.migrationState = migrationFailed)) b := by
  unfold execute
  rw [Prog.wpS_bind]
  refine Prog.wpS_mono (fun _ _ h => h) (fun out t ht => ?_) _ _ (inspectLegacy_clean b)
  obtain ⟨rfl, ⟨hok, hplaintext, hmarker⟩ | ⟨hok, ⟨password, hplaintext, hmarker, hpassword, hinput⟩⟩ |
    ⟨herr, hnot⟩⟩ := ht
  · dsimp only
    rw [if_neg (not_not.mpr hok)]
    refine ⟨trivial, fun stored u hu => ?_⟩
    obtain ⟨rfl, rfl⟩ := hu
    rw [hplaintext]
    dsimp only
    unfold withoutPlaintext Device.consoleVerifier
    have hmigratable : u.Migratable := .inl hmarker
    by_cases hnone : u.snapshot.consoleVerifierProvisioned = 0
    · rw [if_pos hnone]
      dsimp only
      rw [if_neg (not_not.mpr rfl)]
      refine ⟨trivial, fun r v hv => ?_⟩
      obtain ⟨rfl, rfl⟩ := hv
      obtain ⟨hr, -, hstate⟩ :=
        Device.committed_setState (d := u) migrationBuildDefaultDeferred (by decide) hb
      exact ⟨fun _ => ⟨hr, .inr ⟨hstate, hmarker, hb ▸ hnone⟩⟩, fun hno => absurd hmigratable hno⟩
    · rw [if_neg hnone]
      refine ⟨trivial, fun r v hv => ?_⟩
      obtain ⟨rfl, rfl⟩ := hv
      obtain ⟨hr, hverifier, hstate⟩ :=
        Device.committed_setState (d := u) migrationComplete (by decide) hb
      refine ⟨fun _ => ⟨hr, .inl ⟨hstate, ?_⟩⟩, fun hno => absurd hmigratable hno⟩
      rw [hverifier.1, hb]
      exact hnone
  · dsimp only
    rw [if_neg (not_not.mpr hok)]
    refine ⟨trivial, fun stored u hu => ?_⟩
    obtain ⟨rfl, rfl⟩ := hu
    rw [hplaintext]
    dsimp only
    have hmigratable : u.Migratable ↔ Verified u password := by
      constructor
      · rintro (hgone | ⟨-, x, hx, -, hverify⟩)
        · cases hmarker.symm.trans hgone
        · obtain rfl := Option.some.inj (hpassword.symm.trans hx)
          exact hverify
      · exact fun hverified => .inr ⟨hmarker, password, hpassword, hinput, hverified⟩
    refine Prog.wpS_mono (fun _ _ h => h) (fun out v hv => ?_) _ _ (withPlaintext_clean hb hinput _)
    refine ⟨fun hyes => ?_, fun hno => hv.2 (mt hmigratable.mpr hno)⟩
    obtain ⟨hr, hstate⟩ := hv.1 (hmigratable.mp hyes)
    exact ⟨hr, .inl hstate⟩
  · dsimp only
    rw [if_pos herr]
    refine Prog.wpS_mono (fun _ _ h => h) (fun out u hu => ?_) _ _ (fail_clean hb _ _)
    refine ⟨fun hyes => absurd hyes hnot, fun _ => ⟨?_, hu.2⟩⟩
    rw [hu.1]
    exact herr

end Clean

/-! ## Boots one after another -/

theorem Kept.refl (d : Device) : Kept d d := ⟨.inl rfl, .inl rfl, fun _ => ⟨rfl, rfl⟩⟩

theorem Kept.trans {d e f : Device} (h : Kept d e) (h' : Kept e f) : Kept d f := by
  refine ⟨?_, ?_, fun hprovisioned => ?_⟩
  · rcases h'.password with heq | ⟨hgone, password, hpassword, hsecures⟩
    · rw [heq]
      rcases h.password with heq' | ⟨hgone, password, hpassword, hsecures⟩
      · exact .inl heq'
      · exact .inr ⟨hgone, password, hpassword, hsecures.same (h'.verifier hsecures.1)⟩
    · rcases h.password with heq' | ⟨hgone', -⟩
      · exact .inr ⟨hgone, password, heq'.symm.trans hpassword, hsecures⟩
      · cases hgone'.symm.trans hpassword
  · rcases h'.marker with heq | hgone
    · rw [heq]
      rcases h.marker with heq' | ⟨hgone, hprovisioned⟩
      · exact .inl heq'
      · refine .inr ⟨hgone, ?_⟩
        rw [(h'.verifier hprovisioned).1]
        exact hprovisioned
    · exact .inr hgone
  · obtain ⟨hfirst, hfirst'⟩ := h.verifier hprovisioned
    obtain ⟨hnext, hnext'⟩ := h'.verifier (hfirst ▸ hprovisioned)
    exact ⟨hnext.trans hfirst, hnext'.trans hfirst'⟩

namespace MigrationStep

variable {d e : Device} {act : MigrationAct}

theorem mid (h : MigrationStep d act e) : Mid d.boot e := by
  have hwp := execute_wp (b := d.boot) rfl (.boot d)
  cases h with
  | clean hrun => exact hrun.of_wpS (Prog.wpS_answers (fun _ _ _ _ h => .inl h) _ _ hwp)
  | ran hrun => exact hrun.of_wpS hwp
  | cut hcut => exact hcut.of_wpS hwp

/-- No boot gets out of it. -/
theorem halfErased (h : MigrationStep d act e) (hd : d.HalfErased) : e.HalfErased := by
  rcases h.mid.legacy with hlegacy | ⟨-, -, -, password, hpassword, -⟩
  · unfold Device.HalfErased Device.marker Device.password
    rw [hlegacy]
    exact hd
  · cases hd.2.symm.trans hpassword

theorem ends {err : EspErr} {status : MigrationStatus} (h : MigrationStep d (.clean err status) e) :
    (d.Migratable → err = espOk ∧
      (e.flash.migrationState = migrationComplete ∧ e.flash.consoleVerifierProvisioned ≠ 0 ∨
        e.flash.migrationState = migrationBuildDefaultDeferred ∧ d.marker = none ∧
          d.flash.consoleVerifierProvisioned = 0)) ∧
    (¬ d.Migratable → err ≠ espOk ∧ e.flash.migrationState = migrationFailed) := by
  cases h with
  | clean hrun => exact hrun.of_wpS (execute_clean (b := d.boot) rfl)

end MigrationStep

/-- **The migration of the legacy credential.**  Whatever fails and wherever it stops, the plaintext
goes only when the stored verifier verifies it, and a verifier stays.  A run in which nothing fails
ends well exactly from what can be migrated, else in `FAILED`; and that can be migrated is lost
only by a run that leaves the marker without the password. -/
theorem credential_migration {d₀ : Device} {ms : List MigrationMove} (h : IsRun MigrationStep d₀ ms) :
    (∀ m ∈ ms, Kept d₀ m.post) ∧
    (∀ m ∈ ms, ∀ err status, m.ev = .clean err status → (EndsWell d₀ m.post err ↔ m.pre.Migratable) ∧
      (¬ m.pre.Migratable → m.post.flash.migrationState = migrationFailed)) ∧
    (d₀.Migratable → (∀ m ∈ ms, ¬ m.post.HalfErased) → ∀ m ∈ ms, m.pre.Migratable) := by
  have hkept := h.inv (I := Kept d₀) (.refl d₀) fun m hpre hstep => hpre.trans hstep.mid.kept
  refine ⟨fun m hm => (hkept.1 m hm).2, fun m hm err status hev => ?_, fun hd hwhole m hm => ?_⟩
  · have hstep := h.step_of_mem m hm
    rw [hev] at hstep
    obtain ⟨hyes, hno⟩ := hstep.ends
    refine ⟨⟨fun hends => ?_, fun hmigratable => ?_⟩, fun hnot => (hno hnot).2⟩
    · by_contra hnot
      exact (hno hnot).1 hends.1
    · obtain ⟨hok, hcomplete | ⟨hdeferred, hmarker, hnone⟩⟩ := hyes hmigratable
      · exact ⟨hok, .inl hcomplete⟩
      · refine ⟨hok, .inr ⟨hdeferred, ?_⟩⟩
        rcases (hkept.1 m hm).1.marker with heq | ⟨-, hprovisioned⟩
        · exact heq.symm.trans hmarker
        · exact absurd hnone hprovisioned
  · have hinv := h.inv_of (I := Device.Migratable) (K := fun m => ¬ m.post.HalfErased) hd hwhole
      fun m hpre hstep hwhole => (hstep.mid.migratable hpre).resolve_right hwhole
    exact (hinv.1 m hm).1

/-! ## An erasure cut in two -/

/-- Operations none of which fails, with the salt `esp_fill_random` gives. -/
def ideal (salt : Vector UInt8 16) : (q : Request) → Device → q.Answer × Device
  | .openLegacy, s => (if s.legacy.isNone then espErrNvsNotFound else espOk, s)
  | .getMarker, s => (s.readMarker, s)
  | .getPassword, s => (s.readPassword, s)
  | .openLegacyWrite, s => (espOk, { s with legacy := some (s.legacy.getD ⟨none, none⟩) })
  | .erasePassword, s => (if s.password.isNone then espErrNvsNotFound else espOk, s.withoutPassword)
  | .eraseMarker, s => (if s.marker.isNone then espErrNvsNotFound else espOk, s.withoutMarker)
  | .commitLegacy, s => (espOk, s)
  | .getVerifier, s => (s.consoleVerifier, s)
  | .createVerifier password, s => (deriveRecord password passwordIterationsDefault salt, s)
  | .verify password record, s => (verifyRecord password record, s)
  | .setVerifier record, s =>
    (s.answers (.setConsoleVerifier record false), s.committed (.setConsoleVerifier record false))
  | .setState state, s => (s.answers (.setMigrationState state), s.committed (.setMigrationState state))

theorem ideal_call (salt : Vector UInt8 16) (q : Request) (s : Device) :
    Ideal q s (ideal salt q s).1 (ideal salt q s).2 := by
  cases q with
  | createVerifier password => exact ⟨⟨salt, rfl⟩, rfl⟩
  | _ => exact ⟨rfl, rfl⟩

/-- From every device there is a run in which nothing fails. -/
theorem exists_clean (d : Device) : ∃ err status e, MigrationStep d (.clean err status) e := by
  have hrun := Prog.playS_exec (ideal_call (.replicate 16 0)) execute d.boot
  exact ⟨_, _, _, .clean hrun⟩

namespace HalfErasure

def secret : List UInt8 := asciiBytes "secret"
def salt : Vector UInt8 16 := .replicate 16 0
def record : PasswordVerifier := ⟨1, 1, 16, 32, 25000, salt, pbkdf2 secret salt.toList 25000⟩
def legacy : Device := ⟨some ⟨some 1, some secret⟩, .default, .default⟩
def secured : SecurityPayload :=
  { SecurityPayload.default with
    consoleVerifier := record
    consoleVerifierProvisioned := 1
    consoleCredentialVersion := 1
    securityEpoch := SecurityPayload.default.securityEpoch + 1 }
def cutOff : Device := ⟨some ⟨some 1, none⟩, secured, secured⟩

/-- The first boot loses power between the two erasures. -/
theorem cutOff_step : MigrationStep legacy .cut cutOff := by
  obtain ⟨x, hderive, -, hverify⟩ := @deriveRecord_ok secret salt (by decide)
  have hrecord : x = record := by
    have hok : deriveRecord secret passwordIterationsDefault salt = .ok record := if_neg (by decide)
    exact Except.ok.inj (hderive.symm.trans hok)
  subst hrecord
  refine .cut ?_
  refine .later (r := espOk) (.inl ⟨rfl, rfl⟩) ?_
  refine .later (r := .ok 1) (.inl ⟨rfl, rfl⟩) ?_
  refine .later (r := .ok secret) (.inl ⟨rfl, rfl⟩) ?_
  refine .later (r := .error espErrNotFound) (.inl ⟨rfl, rfl⟩) ?_
  refine .later (r := .ok record) (.inl ⟨⟨salt, hderive.symm⟩, rfl⟩) ?_
  refine .later (r := espOk) (.inl ⟨rfl, rfl⟩) ?_
  refine .later (r := .ok record) (.inl ⟨rfl, rfl⟩) ?_
  refine .later (r := .ok true) (.inl ⟨hverify.symm, rfl⟩) ?_
  refine .later (r := espOk) (.inl ⟨rfl, rfl⟩) ?_
  exact .later (r := espOk) (.inl ⟨rfl, rfl⟩) (.here _ _)

theorem legacy_migratable : legacy.Migratable := .inr ⟨rfl, secret, rfl, by decide, fun h => absurd rfl h⟩

theorem cutOff_not_migratable : ¬ cutOff.Migratable := by
  rintro (hgone | ⟨-, x, hx, -⟩)
  · cases hgone
  · cases hx

/-- Some later boot, in which nothing fails. -/
theorem exists_run : ∃ err status e,
    IsRun MigrationStep legacy [⟨legacy, .cut, cutOff⟩, ⟨cutOff, .clean err status, e⟩] := by
  obtain ⟨err, status, e, hclean⟩ := exists_clean cutOff
  exact ⟨err, status, e, rfl, cutOff_step, rfl, hclean, trivial⟩

end HalfErasure

open HalfErasure in
theorem half_erased_stuck :
    ¬ ∀ (d₀ : Device) (ms : List MigrationMove), d₀.Migratable → IsRun MigrationStep d₀ ms →
      ∀ m ∈ ms, ∀ err status, m.ev = .clean err status → EndsWell d₀ m.post err := by
  intro hall
  obtain ⟨err, status, e, hrun⟩ := exists_run
  have hends := hall legacy _ legacy_migratable hrun ⟨cutOff, .clean err status, e⟩ (.tail _ (.head _)) err
    status rfl
  have hclean : MigrationStep cutOff (.clean err status) e := hrun.2.2.2.1
  exact (hclean.ends.2 cutOff_not_migratable).1 hends.1

open HalfErasure in
theorem credential_migration_halfErasure :
    (∃ err status e, MigrationStep cutOff (.clean err status) e ∧ Kept legacy e ∧ ¬ EndsWell legacy e err ∧
      e.flash.migrationState = migrationFailed) ∧
    ∀ m ∈ [(⟨legacy, .cut, legacy⟩ : MigrationMove)], m.pre.Migratable := by
  constructor
  · obtain ⟨err, status, e, hrun⟩ := exists_run
    obtain ⟨hkept, hends, -⟩ := credential_migration hrun
    have hmem : (⟨cutOff, .clean err status, e⟩ : MigrationMove) ∈
        [⟨legacy, .cut, cutOff⟩, ⟨cutOff, .clean err status, e⟩] := .tail _ (.head _)
    obtain ⟨hiff, hfailed⟩ := hends _ hmem err status rfl
    exact ⟨err, status, e, hrun.2.2.2.1, hkept _ hmem, mt hiff.mp cutOff_not_migratable,
      hfailed cutOff_not_migratable⟩
  · have hstop : IsRun MigrationStep legacy [⟨legacy, .cut, legacy⟩] := ⟨rfl, .cut (.here _ _), trivial⟩
    refine (credential_migration hstop).2.2 legacy_migratable ?_
    intro m hm
    rw [List.mem_singleton.mp hm]
    rintro ⟨-, hgone⟩
    cases hgone

end CredentialMigration

end Argus
