import ArgusPump.LoginService

/-!
# The admission of logins

One counter is shared with `create_verifier`; two arrays, with zero as the free marker, hold
the peer and the principal of every login between its locked sections.  Neither key is ever
zero: the peer is checked, and `hash_login` does not answer it.

    every step → the counter is the calls that derive, the arrays are their logins
                                                                     (InflightInv.step)
    fewer calls than slots, no duplicate → the login is admitted     (login_admission)
-/

namespace Argus

open Interact

/-- What the slot of the two arrays holds. -/
def LoginService.slot (s : LoginService) (i : Fin 2) : Option (UInt32 × UInt32) :=
  if s.inflightPeers i = 0 ∧ s.inflightPrincipals i = 0 then none
  else some (s.inflightPeers i, s.inflightPrincipals i)

/-- The keys of a login. -/
def LoginCall.keys (call : LoginCall) : UInt32 × UInt32 := (call.peerKey, call.principalKey)

/-- A login of the same peer or the same principal. -/
def LoginCall.Shares (call other : LoginCall) : Prop :=
  call.peerKey = other.peerKey ∨ call.principalKey = other.principalKey

/-- The accounting of the calls between admission and release. -/
structure AdmissionKept (s : Logins) : Prop where
  count : s.service.kdfAdmitted.toNat = s.inflight.length + s.verifiers
  bound : s.service.kdfAdmitted ≤ loginKdfAdmissionMax
  table : (Slots.occupants s.service.slot).Perm (s.inflight.map LoginCall.keys)
  apart : s.inflight.Pairwise fun call other => ¬ call.Shares other

theorem hashLogin_ne_zero (login : List UInt8) : hashLogin login ≠ 0 := by
  unfold hashLogin
  dsimp only
  split
  · decide
  · next hne => exact hne

namespace LoginService

variable {s : LoginService} {p q : UInt32} {i : Fin 2}

theorem slot_eq_none : s.slot i = none ↔ s.inflightPeers i = 0 ∧ s.inflightPrincipals i = 0 := by
  unfold slot
  split
  · next h => simp [h]
  · next h => simp [h]

theorem slot_eq_some (hp : p ≠ 0) : s.slot i = some (p, q) ↔
    s.inflightPeers i = p ∧ s.inflightPrincipals i = q := by
  unfold slot
  split
  · next h =>
    refine ⟨fun hno => (by cases hno), fun heq => ?_⟩
    rw [h.1] at heq
    exact absurd heq.1.symm hp
  · rw [Option.some.injEq, Prod.mk.injEq]

/-- The arrays with the slot written. -/
theorem slot_update {t : LoginService} (hpeers : t.inflightPeers = Function.update s.inflightPeers i p)
    (hprincipals : t.inflightPrincipals = Function.update s.inflightPrincipals i q) :
    t.slot = Function.update s.slot i (if p = 0 ∧ q = 0 then none else some (p, q)) := by
  funext j
  unfold slot
  rw [hpeers, hprincipals]
  by_cases hj : j = i
  · rw [hj, Function.update_self, Function.update_self, Function.update_self]
  · rw [Function.update_of_ne hj, Function.update_of_ne hj, Function.update_of_ne hj]

theorem duplicateInflight_iff :
    s.duplicateInflight p q = true ↔ ∃ i, s.inflightPeers i = p ∨ s.inflightPrincipals i = q := by
  unfold duplicateInflight
  rw [List.any_eq_true]
  simp

/-- A release of keys that hold a slot frees one of theirs. -/
theorem releaseInflight_slot (hp : p ≠ 0) (h : (p, q) ∈ Slots.occupants s.slot) :
    ∃ i, s.slot i = some (p, q) ∧ (s.releaseInflight p q).slot = Function.update s.slot i none := by
  obtain ⟨j, hj⟩ := Slots.mem_occupants.mp h
  unfold releaseInflight
  split
  · next i hi =>
    have hkeys := List.find?_some hi
    rw [Bool.and_eq_true, decide_eq_true_eq, decide_eq_true_eq] at hkeys
    refine ⟨i, (slot_eq_some hp).mpr hkeys, ?_⟩
    rw [slot_update (s := s) (p := 0) (q := 0) (i := i) rfl rfl, if_pos ⟨rfl, rfl⟩]
  · next hnone =>
    have hno := List.find?_eq_none.mp hnone j (List.mem_finRange j)
    rw [Bool.and_eq_true, decide_eq_true_eq, decide_eq_true_eq] at hno
    exact absurd ((slot_eq_some hp).mp hj) hno

theorem releaseInflight_kdfAdmitted : (s.releaseInflight p q).kdfAdmitted = s.kdfAdmitted := by
  unfold releaseInflight
  split <;> rfl

/-- What a release does to the admission: it counts down and frees the slot. -/
theorem release_inflight (s : LoginService) (p q : UInt32) (nowUs : UInt64) (verdict : LoginVerdict) :
    (s.release p q nowUs verdict).kdfAdmitted = s.kdfAdmitted - 1 ∧
      (s.release p q nowUs verdict).slot = (s.releaseInflight p q).slot := by
  have hslot : ({ s with kdfAdmitted := s.kdfAdmitted - 1 }.releaseInflight p q).slot =
      (s.releaseInflight p q).slot := by
    unfold releaseInflight
    dsimp only
    cases (List.finRange 2).find? fun i => s.inflightPeers i = p && s.inflightPrincipals i = q <;> rfl
  unfold release
  dsimp only
  split
  · next success _ =>
    unfold recordResult
    dsimp only
    split <;> exact ⟨releaseInflight_kdfAdmitted, hslot⟩
  · exact ⟨releaseInflight_kdfAdmitted, hslot⟩

end LoginService

/-! ## Every step -/

/-- The accounting, and that no login of the table has a key that marks a free slot. -/
structure InflightInv (s : Logins) : Prop extends AdmissionKept s where
  nonzero : ∀ call ∈ s.inflight, call.peerKey ≠ 0 ∧ call.principalKey ≠ 0

namespace InflightInv

variable {s t : Logins} {ev : LoginAct}

theorem start : InflightInv .boot where
  count := rfl
  bound := by decide
  table := by
    rw [show Slots.occupants Logins.boot.service.slot = [] by decide]
    exact .nil
  apart := .nil
  nonzero _ h := absurd h List.not_mem_nil

/-- A duplicate is a login in flight that shares a key. -/
theorem duplicate_iff (h : InflightInv s) {call : LoginCall} (hpeer : call.peerKey ≠ 0)
    (hprincipal : call.principalKey ≠ 0) :
    s.service.duplicateInflight call.peerKey call.principalKey = true ↔
      ∃ other ∈ s.inflight, call.Shares other := by
  rw [LoginService.duplicateInflight_iff]
  constructor
  · rintro ⟨i, hi⟩
    have hsome : s.service.slot i = some (s.service.inflightPeers i, s.service.inflightPrincipals i) := by
      unfold LoginService.slot
      rw [if_neg]
      rintro ⟨hp, hq⟩
      rcases hi with hi | hi
      · exact hpeer (hi.symm.trans hp)
      · exact hprincipal (hi.symm.trans hq)
    have hmem := h.table.mem_iff.mp (Slots.mem_occupants.mpr ⟨i, hsome⟩)
    obtain ⟨other, hother, hkeys⟩ := List.mem_map.mp hmem
    obtain ⟨hp, hq⟩ := Prod.mk.injEq .. ▸ hkeys
    refine ⟨other, hother, hi.imp (fun hi => ?_) fun hi => ?_⟩
    · exact hi.symm.trans hp.symm
    · exact hi.symm.trans hq.symm
  · rintro ⟨other, hother, hshares⟩
    have hmem := h.table.mem_iff.mpr (List.mem_map.mpr ⟨other, hother, rfl⟩)
    obtain ⟨i, hi⟩ := Slots.mem_occupants.mp hmem
    obtain ⟨hp, hq⟩ := (LoginService.slot_eq_some (h.nonzero other hother).1).mp hi
    exact ⟨i, hshares.imp (fun heq => hp.trans heq.symm) fun heq => hq.trans heq.symm⟩

/-- A login that is admitted. -/
theorem admission (h : InflightInv s) (call : LoginCall) {t : Logins} {i : Fin 2} (hpeer : call.peerKey ≠ 0)
    (hprincipal : call.principalKey ≠ 0) (hlt : s.service.kdfAdmitted < loginKdfAdmissionMax)
    (hdup : s.service.duplicateInflight call.peerKey call.principalKey = false)
    (hfree : s.service.inflightPeers i = 0 ∧ s.service.inflightPrincipals i = 0)
    (hcount : t.service.kdfAdmitted = s.service.kdfAdmitted + 1)
    (hpeers : t.service.inflightPeers = Function.update s.service.inflightPeers i call.peerKey)
    (hprincipals : t.service.inflightPrincipals =
      Function.update s.service.inflightPrincipals i call.principalKey)
    (hinflight : t.inflight = call :: s.inflight) (hverifiers : t.verifiers = s.verifiers) :
    InflightInv t := by
  have hlt' := UInt8.lt_iff_toNat_lt.mp hlt
  have hmax : loginKdfAdmissionMax.toNat = 2 := rfl
  have hsucc : (s.service.kdfAdmitted + 1).toNat = s.service.kdfAdmitted.toNat + 1 := by
    rw [UInt8.toNat_add]
    exact Nat.mod_eq_of_lt (by show s.service.kdfAdmitted.toNat + 1 < 2 ^ 8; omega)
  have hslot := LoginService.slot_update hpeers hprincipals
  rw [if_neg fun hzero => hpeer hzero.1] at hslot
  refine ⟨⟨?_, ?_, ?_, ?_⟩, fun other hother => ?_⟩
  · rw [hcount, hsucc, h.count, hinflight, hverifiers, List.length_cons]
    omega
  · rw [hcount, UInt8.le_iff_toNat_le, hsucc]
    omega
  · rw [hslot, hinflight, List.map_cons]
    exact (Slots.occupants_take (LoginService.slot_eq_none.mpr hfree) _).trans (h.table.cons _)
  · rw [hinflight]
    refine .cons (fun other hother hshares => ?_) h.apart
    have hdup' := (h.duplicate_iff hpeer hprincipal).mpr ⟨other, hother, hshares⟩
    rw [hdup] at hdup'
    cases hdup'
  · rw [hinflight] at hother
    rcases List.mem_cons.mp hother with rfl | hother
    · exact ⟨hpeer, hprincipal⟩
    · exact h.nonzero other hother

/-- A step that leaves the arrays and the logins as they are. -/
theorem recount (h : InflightInv s) {t : Logins} (hslot : t.service.slot = s.service.slot)
    (hinflight : t.inflight = s.inflight)
    (hcount : t.service.kdfAdmitted.toNat = t.inflight.length + t.verifiers)
    (hbound : t.service.kdfAdmitted ≤ loginKdfAdmissionMax) : InflightInv t := by
  refine ⟨⟨hcount, hbound, ?_, ?_⟩, ?_⟩
  · rw [hslot, hinflight]
    exact h.table
  · rw [hinflight]
    exact h.apart
  · rw [hinflight]
    exact h.nonzero

theorem countdown {count : UInt8} {n : Nat} (h : count.toNat = n + 1) : (count - 1).toNat = n := by
  have hone : (1 : UInt8).toNat = 1 := rfl
  rw [UInt8.toNat_sub_of_le _ _ (UInt8.le_iff_toNat_le.mpr (by omega))]
  omega

/-- A login that is released. -/
theorem finish (h : InflightInv s) {call : LoginCall} (hmem : call ∈ s.inflight) {verdict : LoginVerdict}
    {t : Logins}
    (hservice : t.service = s.service.release call.peerKey call.principalKey call.startUs verdict)
    (hinflight : t.inflight = s.inflight.erase call) (hverifiers : t.verifiers = s.verifiers) :
    InflightInv t := by
  obtain ⟨hkdf, hslot⟩ := s.service.release_inflight call.peerKey call.principalKey call.startUs verdict
  have hperm := List.perm_cons_erase hmem
  have hkeys : call.keys ∈ Slots.occupants s.service.slot :=
    h.table.mem_iff.mpr (List.mem_map.mpr ⟨call, hmem, rfl⟩)
  obtain ⟨i, hi, hfreed⟩ := LoginService.releaseInflight_slot (h.nonzero call hmem).1 hkeys
  have hlength : s.service.kdfAdmitted.toNat = ((s.inflight.erase call).length + s.verifiers) + 1 := by
    have hpos := List.length_pos_of_mem hmem
    rw [h.count, List.length_erase_of_mem hmem]
    omega
  have hcount := countdown hlength
  have hbound := UInt8.le_iff_toNat_le.mp h.bound
  refine ⟨⟨?_, ?_, ?_, ?_⟩, fun other hother => ?_⟩
  · rw [hservice, hkdf, hinflight, hverifiers]
    exact hcount
  · rw [hservice, hkdf, UInt8.le_iff_toNat_le, hcount]
    omega
  · rw [hservice, hslot, hfreed, hinflight]
    have hbefore := (Slots.occupants_free hi).symm.trans (h.table.trans (hperm.map LoginCall.keys))
    exact hbefore.cons_inv
  · rw [hinflight]
    exact h.apart.sublist List.erase_sublist
  · rw [hinflight] at hother
    exact h.nonzero other (List.mem_of_mem_erase hother)

/-- **Every step keeps the accounting.** -/
theorem step (h : InflightInv s) (hstep : LoginStep s ev t) : InflightInv t := by
  cases hstep with
  | @enter peerKey username canonical nowUs answer service hpeer _ _ hanswer =>
    have hprincipal := hashLogin_ne_zero canonical
    cases LoginService.admit_cases hanswer with
    | throttled _ => exact h.recount rfl rfl h.count h.bound
    | busy _ _ => exact h.recount rfl rfl h.count h.bound
    | admitted _ hlt hdup hfree =>
      exact h.admission ⟨peerKey, canonical, nowUs⟩ hpeer hprincipal hlt hdup hfree rfl rfl rfl rfl rfl
  | finish hmem => exact h.finish hmem rfl rfl rfl
  | @createEnter admitted service hanswer =>
    unfold LoginService.createAdmit at hanswer
    split at hanswer
    · cases hanswer
      exact h.recount rfl rfl h.count h.bound
    · next hlt =>
      cases hanswer
      have hlt := UInt8.lt_iff_toNat_lt.mp (UInt8.not_le.mp hlt)
      have hmax : loginKdfAdmissionMax.toNat = 2 := rfl
      have hsucc : (s.service.kdfAdmitted + 1).toNat = s.service.kdfAdmitted.toNat + 1 := by
        rw [UInt8.toNat_add]
        exact Nat.mod_eq_of_lt (by show s.service.kdfAdmitted.toNat + 1 < 2 ^ 8; omega)
      refine h.recount rfl rfl ?_ ?_
      · rw [if_pos rfl]
        show (s.service.kdfAdmitted + 1).toNat = s.inflight.length + (s.verifiers + 1)
        rw [hsucc, h.count, Nat.add_assoc]
      · rw [UInt8.le_iff_toNat_le]
        show (s.service.kdfAdmitted + 1).toNat ≤ _
        rw [hsucc]
        omega
  | @createFinish err hpos =>
    have hcount := h.count
    have hbound := UInt8.le_iff_toNat_le.mp h.bound
    have hdown : (s.service.kdfAdmitted - 1).toNat = s.inflight.length + (s.verifiers - 1) :=
      countdown (by omega)
    refine h.recount rfl rfl hdown ?_
    rw [UInt8.le_iff_toNat_le]
    show (s.service.kdfAdmitted - 1).toNat ≤ _
    omega

/-- A login that is refused an admission below the limit is a duplicate. -/
theorem busy (h : InflightInv s) {call : LoginCall} (hstep : LoginStep s (.enter call .busy) t) :
    loginKdfAdmissionMax ≤ s.service.kdfAdmitted ∨ ∃ other ∈ s.inflight, call.Shares other := by
  cases hstep with
  | enter hpeer _ _ hanswer =>
    cases LoginService.admit_cases hanswer with
    | busy _ hbusy =>
      rcases hbusy with hfull | hdup | hnone
      · exact .inl hfull
      · exact .inr ((h.duplicate_iff hpeer (hashLogin_ne_zero _)).mp hdup)
      · -- the arrays hold fewer logins than they have slots
        refine .inl (by_contra fun hlt => ?_)
        have hlt := UInt8.lt_iff_toNat_lt.mp (UInt8.not_le.mp hlt)
        have hmax : loginKdfAdmissionMax.toNat = 2 := rfl
        have hcount := h.count
        have hlength := h.table.length_eq
        rw [List.length_map] at hlength
        obtain ⟨i, hi⟩ := Slots.exists_free (f := s.service.slot) (by omega)
        exact hnone i (LoginService.slot_eq_none.mp hi)

end InflightInv

/-- **Admission accounting**, in every run: the calls between admission and release are what the
counter and the arrays say, and a login below the limit that is busy shares a key with one. -/
theorem login_admission {ms : List LoginMove} (h : IsRun LoginStep .boot ms) :
    AdmissionKept (final .boot ms) ∧
    (∀ m ∈ ms, AdmissionKept m.pre ∧ AdmissionKept m.post) ∧
    ∀ m ∈ ms, ∀ call, m.ev = .enter call .busy →
      loginKdfAdmissionMax ≤ m.pre.service.kdfAdmitted ∨ ∃ other ∈ m.pre.inflight, call.Shares other := by
  obtain ⟨hall, hlast⟩ := h.inv InflightInv.start fun _ hm hstep => hm.step hstep
  refine ⟨hlast.toAdmissionKept, fun m hm => ?_, fun m hm call hev => ?_⟩
  · exact ⟨(hall m hm).1.toAdmissionKept, (hall m hm).2.toAdmissionKept⟩
  · have hstep := h.step_of_mem m hm
    rw [hev] at hstep
    exact (hall m hm).1.busy hstep

/-- A login and a derivation of a verifier: a second login is busy. -/
def admissionTasks : List LoginTask :=
  [.enter 1 (asciiBytes "alice") 1, .createEnter, .enter 2 (asciiBytes "bob") 2]

theorem login_admission_busy :
    AdmissionKept (final .boot (loginTrace admissionTasks)) ∧
      (final Logins.boot (loginTrace admissionTasks)).service.kdfAdmitted = 2 ∧
      ∃ m ∈ loginTrace admissionTasks, m.ev = .enter ⟨2, asciiBytes "bob", 2⟩ .busy :=
  ⟨(login_admission (isRun_loginTrace admissionTasks)).1, by decide +kernel, by decide +kernel⟩

end Argus
