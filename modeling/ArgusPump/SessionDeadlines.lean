import ArgusPump.HumanRoles
import ArgusPump.SessionTable
import ArgusPump.Lib.Run
import ArgusPump.Lib.Sha256

/-!
# Live sessions

What a run of the session table knows of a token: the principal it was last issued to, when,
and when it was last used.  The table, with its lazy sweep and its reuse of slots, holds
exactly these grants as far as they are live.

    a token is issued, not revoked since, and inside both deadlines ↔
      it authenticates, as the principal it was issued to              (session_table)
-/

namespace Argus

open Interact

/-! ## Runs -/

/-- The table and the latest time it was called at. -/
structure SessionManager where
  table : SessionTable
  nowUs : UInt64

inductive ManagerAct
  | create (principal : AuthorizationPrincipal) (nowUs : UInt64)
      (random : Nat → EspErr × Vector UInt8 32) (result : Except EspErr SessionCredentials)
  | authenticate (token : Option (List UInt8)) (nowUs : UInt64)
      (result : Except EspErr (AuthorizationPrincipal × Fin 8))
  | revokePrincipal (principalId : Option (List UInt8)) (count : Nat)
  | revokeToken (token : Option (List UInt8)) (found : Bool)
  | revokeEpoch (currentSecurityEpoch : UInt32) (count : Nat)
  | revokeAll (count : Nat)

section Step

variable (sha256 : List UInt8 → Option (Vector UInt8 32))

/-- One call; times are not 0 and never go back. -/
inductive ManagerStep : SessionManager → ManagerAct → SessionManager → Prop
  | create {s : SessionManager} {principal : AuthorizationPrincipal} {nowUs : UInt64}
      {random : Nat → EspErr × Vector UInt8 32} {result : Except EspErr SessionCredentials}
      {table : SessionTable} : s.nowUs ≤ nowUs → nowUs ≠ 0 →
      sessionCreate sha256 s.table principal nowUs random = (result, table) →
      ManagerStep s (.create principal nowUs random result) ⟨table, nowUs⟩
  | authenticate {s : SessionManager} {token : Option (List UInt8)} {nowUs : UInt64}
      {result : Except EspErr (AuthorizationPrincipal × Fin 8)} {table : SessionTable} :
      s.nowUs ≤ nowUs → nowUs ≠ 0 →
      sessionAuthenticate sha256 s.table token nowUs = (result, table) →
      ManagerStep s (.authenticate token nowUs result) ⟨table, nowUs⟩
  | revokePrincipal {s : SessionManager} {principalId : Option (List UInt8)} {count : Nat}
      {table : SessionTable} : sessionRevokePrincipal s.table principalId = (count, table) →
      ManagerStep s (.revokePrincipal principalId count) { s with table := table }
  | revokeToken {s : SessionManager} {token : Option (List UInt8)} {found : Bool}
      {table : SessionTable} : sessionRevokeToken sha256 s.table token = (found, table) →
      ManagerStep s (.revokeToken token found) { s with table := table }
  | revokeEpoch {s : SessionManager} {currentSecurityEpoch : UInt32} {count : Nat}
      {table : SessionTable} : sessionRevokeEpoch s.table currentSecurityEpoch = (count, table) →
      ManagerStep s (.revokeEpoch currentSecurityEpoch count) { s with table := table }
  | revokeAll {s : SessionManager} {count : Nat} {table : SessionTable} :
      sessionRevokeAll s.table = (count, table) →
      ManagerStep s (.revokeAll count) { s with table := table }

end Step

abbrev ManagerMove := Move SessionManager ManagerAct

/-- An empty table before any call. -/
def freshManager : SessionManager := ⟨.init, 0⟩

/-! ## What a run knows of a token -/

/-- The principal a token was issued to, when, and when it was last used. -/
structure SessionGrant where
  principal : AuthorizationPrincipal
  createdUs : UInt64
  lastUs : UInt64

/-- Both deadlines are still ahead. -/
def SessionGrant.Live (g : SessionGrant) (nowUs : UInt64) : Prop :=
  nowUs.toNat < g.createdUs.toNat + sessionAbsoluteUs.toNat ∧
    nowUs.toNat < g.lastUs.toNat + sessionIdleUs.toNat

namespace ManagerAct

/-- Whom a call issues the token to, and when. -/
def issues (token : List UInt8) : ManagerAct → Option (AuthorizationPrincipal × UInt64)
  | .create principal nowUs _ (.ok credentials) =>
    if credentials.token = token then some (principal, nowUs) else none
  | _ => none

/-- The call revokes the token, issued to the principal. -/
def Revokes (token : List UInt8) (principal : AuthorizationPrincipal) : ManagerAct → Prop
  | .revokeToken revoked _ => revoked = some token
  | .revokePrincipal id _ => id = some (cString principal.identifier)
  | .revokeEpoch epoch _ => epoch ≠ 0 ∧ principal.securityEpoch ≠ epoch
  | .revokeAll _ => True
  | .create .. | .authenticate .. => False

/-- When a call authenticates the token. -/
def usesAt (token : List UInt8) : ManagerAct → Option UInt64
  | .authenticate (some used) nowUs (.ok _) => if used = token then some nowUs else none
  | _ => none

/-- The token a call issues or is given. -/
def token? : ManagerAct → Option (List UInt8)
  | .create _ _ _ (.ok credentials) => some credentials.token
  | .authenticate token _ _ | .revokeToken token _ => token
  | _ => none

end ManagerAct

/-- The last use of a token that was issued at `createdUs`. -/
def lastUse (token : List UInt8) (createdUs : UInt64) (ms : List ManagerMove) : UInt64 :=
  (ms.filterMap fun m => m.ev.usesAt token).getLast?.getD createdUs

/-- The run issued the token last as `g` says, and has not revoked it since. -/
def TokenIssued (token : List UInt8) (ms : List ManagerMove) (g : SessionGrant) : Prop :=
  ∃ l m r, ms = l ++ m :: r ∧ m.ev.issues token = some (g.principal, g.createdUs) ∧
    (∀ n ∈ r, n.ev.issues token = none ∧ ¬ n.ev.Revokes token g.principal) ∧
    g.lastUs = lastUse token g.createdUs r

/-- The digest tells the secrets apart that the calls issue or are given. -/
def CollisionFree (sha256 : List UInt8 → Option (Vector UInt8 32)) (ms : List ManagerMove) : Prop :=
  ∀ m ∈ ms, ∀ n ∈ ms, ∀ token token' secret secret' digest,
    m.ev.token? = some token → n.ev.token? = some token' →
    tokenSecret token = some secret → tokenSecret token' = some secret' →
    sha256 secret = some digest → sha256 secret' = some digest → secret = secret'

theorem usesAt_error (given : Option (List UInt8)) (nowUs : UInt64) (err : EspErr) (token : List UInt8) :
    ManagerAct.usesAt token (.authenticate given nowUs (.error err)) = none := by
  cases given <;> rfl

theorem lastUse_snoc (token : List UInt8) (createdUs : UInt64) (ms : List ManagerMove)
    (m : ManagerMove) :
    lastUse token createdUs (ms ++ [m]) = (m.ev.usesAt token).getD (lastUse token createdUs ms) := by
  unfold lastUse
  rw [List.filterMap_append]
  cases huse : m.ev.usesAt token with
  | none => simp [huse]
  | some nowUs => simp [huse]

/-- What one more call does to the grant of a token. -/
theorem tokenIssued_snoc {token : List UInt8} {ms : List ManagerMove} {m : ManagerMove} {g : SessionGrant} :
    TokenIssued token (ms ++ [m]) g ↔
      m.ev.issues token = some (g.principal, g.createdUs) ∧ g.lastUs = g.createdUs ∨
      m.ev.issues token = none ∧ ¬ m.ev.Revokes token g.principal ∧
        ∃ lastUs, TokenIssued token ms { g with lastUs := lastUs } ∧
          g.lastUs = (m.ev.usesAt token).getD lastUs := by
  constructor
  · rintro ⟨l, n, r, hms, hissue, hrest, hlast⟩
    rcases List.eq_nil_or_concat r with rfl | ⟨r, k, rfl⟩
    · obtain ⟨rfl, hn⟩ := List.append_inj' hms rfl
      cases hn
      exact .inl ⟨hissue, hlast⟩
    · rw [List.concat_eq_append, ← List.cons_append, ← List.append_assoc] at hms
      obtain ⟨rfl, hk⟩ := List.append_inj' hms rfl
      cases hk
      rw [List.concat_eq_append] at hrest hlast
      have hm := hrest m (List.mem_append_right _ List.mem_cons_self)
      rw [lastUse_snoc] at hlast
      exact .inr ⟨hm.1, hm.2, lastUse token g.createdUs r, ⟨l, n, r, rfl, hissue,
        fun v hv => hrest v (List.mem_append_left _ hv), rfl⟩, hlast⟩
  · rintro (⟨hissue, hlast⟩ | ⟨hnone, hrevokes, lastUs, ⟨l, n, r, rfl, hissue, hrest, hlast'⟩, hlast⟩)
    · exact ⟨ms, m, [], rfl, hissue, fun v hv => absurd hv List.not_mem_nil, hlast⟩
    · refine ⟨l, n, r ++ [m], by rw [List.append_assoc, List.cons_append], hissue, fun v hv => ?_, ?_⟩
      · rcases List.mem_append.mp hv with hv | hv
        · exact hrest v hv
        · cases List.mem_singleton.mp hv
          exact ⟨hnone, hrevokes⟩
      · rw [lastUse_snoc, hlast]
        exact congrArg _ hlast'

/-- A call that neither issues nor uses the token. -/
theorem tokenIssued_quiet {token : List UInt8} {ms : List ManagerMove} {m : ManagerMove} {g : SessionGrant}
    (hissue : m.ev.issues token = none) (huse : m.ev.usesAt token = none) :
    TokenIssued token (ms ++ [m]) g ↔ TokenIssued token ms g ∧ ¬ m.ev.Revokes token g.principal := by
  rw [tokenIssued_snoc, hissue, huse]
  constructor
  · rintro (⟨hsome, -⟩ | ⟨-, hkept, lastUs, hissued, hlast⟩)
    · cases hsome
    · rw [Option.getD_none] at hlast
      rw [← hlast] at hissued
      exact ⟨hissued, hkept⟩
  · exact fun hissued => .inr ⟨rfl, hissued.2, g.lastUs, hissued.1, rfl⟩

/-- A token has one grant. -/
theorem TokenIssued.unique {token : List UInt8} {ms : List ManagerMove} {g g' : SessionGrant}
    (h : TokenIssued token ms g) (h' : TokenIssued token ms g') : g = g' := by
  induction ms using List.reverseRecOn generalizing g g' with
  | nil =>
    obtain ⟨l, m, r, hms, -⟩ := h
    exact absurd hms (by simp)
  | append_singleton ms m ih =>
    obtain ⟨principal, createdUs, lastUs⟩ := g
    obtain ⟨principal', createdUs', lastUs'⟩ := g'
    rcases tokenIssued_snoc.mp h with ⟨hsome, hlast⟩ | ⟨hnone, -, last, hissued, hlast⟩
    · rcases tokenIssued_snoc.mp h' with ⟨hsome', hlast'⟩ | ⟨hnone', -⟩
      · cases hsome.symm.trans hsome'
        cases hlast
        cases hlast'
        rfl
      · cases hsome.symm.trans hnone'
    · rcases tokenIssued_snoc.mp h' with ⟨hsome', -⟩ | ⟨-, -, last', hissued', hlast'⟩
      · cases hsome'.symm.trans hnone
      · cases ih hissued hissued'
        cases hlast.trans hlast'.symm
        rfl

/-- A token that was issued is one the run used. -/
theorem TokenIssued.token_mem {token : List UInt8} {ms : List ManagerMove} {g : SessionGrant}
    (h : TokenIssued token ms g) : ∃ m ∈ ms, m.ev.token? = some token := by
  obtain ⟨l, m, r, rfl, hissue, -⟩ := h
  refine ⟨m, List.mem_append_right _ List.mem_cons_self, ?_⟩
  cases hev : m.ev with
  | create principal nowUs random result =>
    rw [hev] at hissue
    cases result with
    | error err => cases hissue
    | ok credentials =>
      unfold ManagerAct.issues at hissue
      dsimp only at hissue
      split at hissue
      · next htoken => exact congrArg some htoken
      · cases hissue
  | _ =>
    rw [hev] at hissue
    cases hissue

/-- A digest tells the tokens of a run apart. -/
theorem CollisionFree.token_inj {sha256 : List UInt8 → Option (Vector UInt8 32)} {ms : List ManagerMove}
    (h : CollisionFree sha256 ms) {token token' : List UInt8} {digest : Vector UInt8 32}
    (hm : ∃ m ∈ ms, m.ev.token? = some token) (hn : ∃ n ∈ ms, n.ev.token? = some token')
    (hd : digestSecret sha256 token = some digest) (hd' : digestSecret sha256 token' = some digest) :
    token = token' := by
  obtain ⟨m, hm, htoken⟩ := hm
  obtain ⟨n, hn, htoken'⟩ := hn
  obtain ⟨secret, hs, hsha⟩ := Option.bind_eq_some_iff.mp hd
  obtain ⟨secret', hs', hsha'⟩ := Option.bind_eq_some_iff.mp hd'
  cases h m hm n hn token token' secret secret' digest htoken htoken' hs hs' hsha hsha'
  exact tokenSecret_inj hs hs'

/-! ## The table holds the grants -/

namespace SessionRecord

def grant (record : SessionRecord) : SessionGrant :=
  ⟨record.principal, record.createdUs, record.lastActivityUs⟩

/-- A record in use of the token, granted as `g` says. -/
def Holds (sha256 : List UInt8 → Option (Vector UInt8 32)) (token : List UInt8) (g : SessionGrant)
    (record : SessionRecord) : Prop :=
  (∃ digest, record.key = some digest ∧ digestSecret sha256 token = some digest) ∧ record.grant = g

/-- Expired is not live, at a time not before the record's. -/
theorem expired_iff {record : SessionRecord} {nowUs : UInt64} (hcreated : record.createdUs ≤ nowUs)
    (hlast : record.lastActivityUs ≤ nowUs) :
    record.expired nowUs = true ↔ ¬ record.grant.Live nowUs := by
  have habs := UInt64.toNat_sub_of_le _ _ hcreated
  have hidle := UInt64.toNat_sub_of_le _ _ hlast
  have hc := UInt64.le_iff_toNat_le.mp hcreated
  have hl := UInt64.le_iff_toNat_le.mp hlast
  unfold expired SessionGrant.Live grant
  simp only [Bool.or_eq_true, decide_eq_true_eq, ge_iff_le, UInt64.lt_iff_toNat_lt,
    UInt64.le_iff_toNat_le, habs, hidle]
  omega

end SessionRecord

section Invariant

variable {sha256 : List UInt8 → Option (Vector UInt8 32)}

/-- What holds of the table after the calls of `ms`. -/
structure TableInv (sha256 : List UInt8 → Option (Vector UInt8 32)) (ms : List ManagerMove)
    (s : SessionManager) : Prop where
  keyed : Slots.Keyed SessionRecord.key s.table
  issued : ∀ i digest, (s.table i).key = some digest →
    ∃ token, TokenIssued token ms (s.table i).grant ∧ digestSecret sha256 token = some digest
  held : ∀ token g, TokenIssued token ms g → g.Live s.nowUs → ∃ i, (s.table i).Holds sha256 token g
  times : ∀ token g, TokenIssued token ms g → g.createdUs ≤ s.nowUs ∧ g.lastUs ≤ s.nowUs
  few : ∀ id, Slots.count (SessionRecord.ownedBy id) s.table ≤ sessionPerPrincipal

theorem TableInv.start : TableInv sha256 [] freshManager where
  keyed := Slots.keyed_of_free fun _ => rfl
  issued i digest h := by cases h
  held token g h := by
    obtain ⟨l, m, r, hms, -⟩ := h
    exact absurd hms (by simp)
  times token g h := by
    obtain ⟨l, m, r, hms, -⟩ := h
    exact absurd hms (by simp)
  few id := by
    rw [Slots.count_eq_zero.mpr fun _ => rfl]
    exact Nat.zero_le _

theorem SessionGrant.Live.mono {g : SessionGrant} {nowUs laterUs : UInt64} (h : g.Live laterUs)
    (hle : nowUs ≤ laterUs) : g.Live nowUs := by
  have hle' := UInt64.le_iff_toNat_le.mp hle
  unfold SessionGrant.Live at h ⊢
  omega

namespace TableInv

variable {ms : List ManagerMove} {s : SessionManager} {m : ManagerMove}

/-- Time passes. -/
theorem later (h : TableInv sha256 ms s) {nowUs : UInt64} (hle : s.nowUs ≤ nowUs) :
    TableInv sha256 ms { s with nowUs := nowUs } where
  keyed := h.keyed
  issued := h.issued
  held token g hg hlive := h.held token g hg (hlive.mono hle)
  times token g hg :=
    ⟨UInt64.le_trans (h.times token g hg).1 hle, UInt64.le_trans (h.times token g hg).2 hle⟩
  few := h.few

/-- Of the records of a table, those are expired that are not live. -/
theorem expired_iff (h : TableInv sha256 ms s) {i : Fin 8} {digest : Vector UInt8 32}
    (hkey : (s.table i).key = some digest) :
    (s.table i).expired s.nowUs = true ↔ ¬ (s.table i).grant.Live s.nowUs := by
  obtain ⟨token, hissued, -⟩ := h.issued i digest hkey
  have htimes := h.times token _ hissued
  exact SessionRecord.expired_iff htimes.1 htimes.2

/-- The sweep leaves what is live. -/
theorem sweep (h : TableInv sha256 ms s) :
    TableInv sha256 ms { s with table := s.table.sweep s.nowUs } where
  keyed := SessionTable.keyed_zeroWhere h.keyed
  issued i digest hkey := by
    obtain ⟨hsame, hkey, -⟩ := SessionTable.zeroWhere_of_key hkey
    obtain ⟨token, hissued, hdigest⟩ := h.issued i digest hkey
    rw [← hsame] at hissued
    exact ⟨token, hissued, hdigest⟩
  held token g hg hlive := by
    obtain ⟨i, ⟨digest, hkey, hdigest⟩, hgrant⟩ := h.held token g hg hlive
    have hfresh : (s.table i).expired s.nowUs = false := by
      rw [← Bool.not_eq_true, h.expired_iff hkey, not_not, hgrant]
      exact hlive
    have hsame : s.table.sweep s.nowUs i = s.table i :=
      SessionTable.zeroWhere_of_not (p := fun record => record.expired s.nowUs) hfresh
    refine ⟨i, ?_⟩
    dsimp only
    rw [hsame]
    exact ⟨⟨digest, hkey, hdigest⟩, hgrant⟩
  times := h.times
  few id := (SessionTable.count_zeroWhere_le id).trans (h.few id)

/-- What is left after a sweep is live. -/
theorem live_of_swept (h : TableInv sha256 ms s) {i : Fin 8} {digest : Vector UInt8 32}
    (hkey : (s.table.sweep s.nowUs i).key = some digest) :
    (s.table.sweep s.nowUs i).grant.Live s.nowUs := by
  obtain ⟨hsame, hkey, hfresh⟩ := SessionTable.zeroWhere_of_key hkey
  have hlive := h.expired_iff hkey
  rw [show s.table.sweep s.nowUs i = s.table i from hsame]
  by_contra hno
  exact absurd (hlive.mpr hno) (Bool.eq_false_iff.mp hfresh)

/-- A call that zeroes the records of the tokens it revokes. -/
theorem revoke (h : TableInv sha256 ms s) {p : SessionRecord → Bool}
    (hissue : ∀ token, m.ev.issues token = none) (huse : ∀ token, m.ev.usesAt token = none)
    (hp : ∀ token i, TokenIssued token ms (s.table i).grant → (s.table i).Holds sha256 token (s.table i).grant →
      (p (s.table i) = true ↔ m.ev.Revokes token (s.table i).principal)) :
    TableInv sha256 (ms ++ [m]) { s with table := s.table.zeroWhere p } := by
  refine ⟨SessionTable.keyed_zeroWhere h.keyed, fun i digest hkey => ?_, fun token g hg hlive => ?_,
    fun token g hg => h.times token g ((tokenIssued_quiet (hissue token) (huse token)).mp hg).1,
    fun id => (SessionTable.count_zeroWhere_le id).trans (h.few id)⟩
  · obtain ⟨hsame, hkey, hspared⟩ := SessionTable.zeroWhere_of_key hkey
    obtain ⟨token, hissued, hdigest⟩ := h.issued i digest hkey
    have hrevokes := hp token i hissued ⟨⟨digest, hkey, hdigest⟩, rfl⟩
    dsimp only
    rw [hsame]
    refine ⟨token, (tokenIssued_quiet (hissue token) (huse token)).mpr ⟨hissued, fun hr => ?_⟩, hdigest⟩
    exact Bool.eq_false_iff.mp hspared (hrevokes.mpr hr)
  · obtain ⟨hissued, hkept⟩ := (tokenIssued_quiet (hissue token) (huse token)).mp hg
    obtain ⟨i, hholds, rfl⟩ := h.held token g hissued hlive
    have hspared : p (s.table i) = false :=
      Bool.eq_false_iff.mpr fun hpi => hkept ((hp token i hissued ⟨hholds, rfl⟩).mp hpi)
    refine ⟨i, ?_⟩
    dsimp only
    rw [SessionTable.zeroWhere_of_not hspared]
    exact ⟨hholds, rfl⟩

/-- A call that issues, uses and revokes nothing. -/
theorem silent (h : TableInv sha256 ms s) (hissue : ∀ token, m.ev.issues token = none)
    (huse : ∀ token, m.ev.usesAt token = none)
    (hrevoke : ∀ token principal, ¬ m.ev.Revokes token principal) : TableInv sha256 (ms ++ [m]) s := by
  have hsame : s.table.zeroWhere (fun _ => false) = s.table :=
    funext fun i => SessionTable.zeroWhere_of_not (p := fun _ => false) rfl
  have hnone := h.revoke (p := fun _ => false) hissue huse fun token i _ _ =>
    ⟨fun hf => absurd hf Bool.false_ne_true, fun hr => absurd hr (hrevoke token _)⟩
  rw [hsame] at hnone
  exact hnone

/-- A call that leaves the token of one slot with the grant its new record has. -/
theorem update (h : TableInv sha256 ms s) {token : List UInt8} {digest : Vector UInt8 32} {index : Fin 8}
    {record : SessionRecord}
    (hself : ∀ g, TokenIssued token (ms ++ [m]) g ↔ g = record.grant)
    (hother : ∀ token', token' ≠ token → ∀ g, TokenIssued token' (ms ++ [m]) g ↔ TokenIssued token' ms g)
    (hdigest : digestSecret sha256 token = some digest) (hkey : record.key = some digest)
    (hslot : ∀ i, (s.table i).key = some digest → i = index)
    (hheld : ∀ token' g, TokenIssued token' ms g → (s.table index).Holds sha256 token' g → token' = token)
    (htimes : record.createdUs ≤ s.nowUs ∧ record.lastActivityUs ≤ s.nowUs)
    (hfew : ∀ id, Slots.count (SessionRecord.ownedBy id) (Function.update s.table index record) ≤
      sessionPerPrincipal) :
    TableInv sha256 (ms ++ [m]) { s with table := Function.update s.table index record } := by
  refine ⟨h.keyed.update fun j k hk hj => ?_, fun i d hi => ?_, fun token' g hg hlive => ?_,
    fun token' g hg => ?_, hfew⟩
  · cases hkey.symm.trans hk
    exact hslot j hj
  · dsimp only at hi ⊢
    by_cases hindex : i = index
    · rw [hindex, Function.update_self] at hi ⊢
      cases hkey.symm.trans hi
      exact ⟨token, (hself _).mpr rfl, hdigest⟩
    · rw [Function.update_of_ne hindex] at hi ⊢
      obtain ⟨token', hissued, hd⟩ := h.issued i d hi
      have hne : token' ≠ token := by
        rintro rfl
        cases hdigest.symm.trans hd
        exact hindex (hslot i hi)
      exact ⟨token', (hother token' hne _).mpr hissued, hd⟩
  · dsimp only
    by_cases htoken : token' = token
    · rw [htoken] at hg ⊢
      refine ⟨index, ?_⟩
      rw [Function.update_self]
      exact ⟨⟨digest, hkey, hdigest⟩, ((hself g).mp hg).symm⟩
    · have hissued := (hother token' htoken g).mp hg
      obtain ⟨i, hholds⟩ := h.held token' g hissued hlive
      have hindex : i ≠ index := by
        rintro rfl
        exact htoken (hheld token' g hissued hholds)
      refine ⟨i, ?_⟩
      rw [Function.update_of_ne hindex]
      exact hholds
  · by_cases htoken : token' = token
    · rw [htoken] at hg
      rw [(hself g).mp hg]
      exact htimes
    · exact h.times token' g ((hother token' htoken g).mp hg)

/-- A create puts the record of a new token in a free slot. -/
theorem issue (h : TableInv sha256 ms s) {principal : AuthorizationPrincipal}
    {random : Nat → EspErr × Vector UInt8 32} {credentials : SessionCredentials} {index : Fin 8}
    {digest : Vector UInt8 32} {record : SessionRecord}
    (hev : m.ev = .create principal s.nowUs random (.ok credentials))
    (hdigest : digestSecret sha256 credentials.token = some digest)
    (hfree : (s.table index).key = none) (hnew : s.table.hasDigest digest = false)
    (hcount : Slots.count (SessionRecord.ownedBy (cString principal.identifier)) s.table <
      sessionPerPrincipal)
    (hkey : record.key = some digest) (hgrant : record.grant = ⟨principal, s.nowUs, s.nowUs⟩) :
    TableInv sha256 (ms ++ [m]) { s with table := Function.update s.table index record } := by
  refine h.update (fun g => ?_) (fun token hne g => ?_) hdigest hkey
    (fun i hi => absurd hi (hasDigest_eq_false hnew i)) (fun token g _ hholds => ?_) ?_ fun id => ?_
  · have hissues : m.ev.issues credentials.token = some (principal, s.nowUs) := by
      rw [hev]
      exact if_pos rfl
    rw [tokenIssued_snoc, hissues, hgrant]
    constructor
    · rintro (⟨hsome, hlast⟩ | ⟨hnone, -⟩)
      · obtain ⟨grantee, createdUs, lastUs⟩ := g
        cases hsome
        cases hlast
        rfl
      · cases hnone
    · rintro rfl
      exact .inl ⟨rfl, rfl⟩
  · have hissues : m.ev.issues token = none := by
      rw [hev]
      exact if_neg fun heq => hne heq.symm
    have huses : m.ev.usesAt token = none := by rw [hev]; rfl
    rw [tokenIssued_quiet hissues huses, hev]
    exact ⟨And.left, fun hissued => ⟨hissued, id⟩⟩
  · obtain ⟨⟨d, hd, -⟩, -⟩ := hholds
    rw [hfree] at hd
    cases hd
  · have hcreated : record.createdUs = s.nowUs := congrArg SessionGrant.createdUs hgrant
    have hlast : record.lastActivityUs = s.nowUs := congrArg SessionGrant.lastUs hgrant
    exact ⟨UInt64.le_of_eq hcreated, UInt64.le_of_eq hlast⟩
  · by_cases hid : id = cString principal.identifier
    · rw [hid]
      exact (Slots.count_update_le_succ _ _ _ _).trans hcount
    · refine (Slots.count_update_le fun howned => ?_).trans (h.few id)
      have hprincipal : record.principal = principal := congrArg SessionGrant.principal hgrant
      unfold SessionRecord.ownedBy at howned
      rw [hprincipal, Bool.and_eq_true] at howned
      exact absurd (of_decide_eq_true howned.2).symm hid

/-- An authenticate renews the record of its token. -/
theorem renew (h : TableInv sha256 ms s) {token : List UInt8} {digest : Vector UInt8 32} {index : Fin 8}
    {answer : AuthorizationPrincipal × Fin 8}
    (hev : m.ev = .authenticate (some token) s.nowUs (.ok answer))
    (hdigest : digestSecret sha256 token = some digest) (hkey : (s.table index).key = some digest)
    (hinj : ∀ token' g, TokenIssued token' ms g → digestSecret sha256 token' = some digest → token' = token) :
    TableInv sha256 (ms ++ [m])
      { s with
        table := Function.update s.table index { s.table index with lastActivityUs := s.nowUs } } := by
  have hindexed : TokenIssued token ms (s.table index).grant := by
    obtain ⟨token', hissued, hd⟩ := h.issued index digest hkey
    cases hinj token' _ hissued hd
    exact hissued
  refine h.update (fun g => ?_) (fun token' hne g => ?_) hdigest hkey
    (fun i hi => h.keyed i index digest hi hkey) (fun token' g hissued hholds => ?_) ?_ fun id => ?_
  · have huses : m.ev.usesAt token = some s.nowUs := by
      rw [hev]
      exact if_pos rfl
    rw [tokenIssued_snoc, huses, hev]
    constructor
    · rintro (⟨hnone, -⟩ | ⟨-, -, lastUs, hissued, hlast⟩)
      · cases hnone
      · have hsame := hissued.unique hindexed
        obtain ⟨grantee, createdUs, last⟩ := g
        cases hlast
        cases hsame
        rfl
    · rintro rfl
      exact .inr ⟨rfl, id, _, hindexed, rfl⟩
  · have hissues : m.ev.issues token' = none := by rw [hev]; rfl
    have huses : m.ev.usesAt token' = none := by
      rw [hev]
      exact if_neg fun heq => hne heq.symm
    rw [tokenIssued_quiet hissues huses, hev]
    exact ⟨And.left, fun hissued => ⟨hissued, id⟩⟩
  · obtain ⟨⟨d, hd, hd'⟩, -⟩ := hholds
    cases hkey.symm.trans hd
    exact hinj token' g hissued hd'
  · exact ⟨(h.times token _ hindexed).1, UInt64.le_refl _⟩
  · have howned : SessionRecord.ownedBy id { s.table index with lastActivityUs := s.nowUs } = true →
        SessionRecord.ownedBy id (s.table index) = true := fun h => h
    exact (Slots.count_update_le howned).trans (h.few id)

/-- **Every call keeps the invariant.** -/
theorem step (h : TableInv sha256 ms s) {ev : ManagerAct} {t : SessionManager}
    (hstep : ManagerStep sha256 s ev t) (hfree : CollisionFree sha256 (ms ++ [⟨s, ev, t⟩])) :
    TableInv sha256 (ms ++ [⟨s, ev, t⟩]) t := by
  have hused {token : List UInt8} {g : SessionGrant} (hg : TokenIssued token ms g) :
      ∃ m ∈ ms ++ [⟨s, ev, t⟩], m.ev.token? = some token := by
    obtain ⟨m, hm, htoken⟩ := hg.token_mem
    exact ⟨m, List.mem_append_left _ hm, htoken⟩
  have hlast {token : List UInt8} (htoken : ev.token? = some token) :
      ∃ m ∈ ms ++ [⟨s, ev, t⟩], m.ev.token? = some token :=
    ⟨⟨s, ev, t⟩, List.mem_append_right _ List.mem_cons_self, htoken⟩
  cases hstep with
  | @create principal nowUs random result table hle _ hcreate =>
    have hswept := (h.later hle).sweep
    rcases sessionCreate_cases hcreate with ⟨err, rfl, rfl | rfl⟩ |
      ⟨index, digest, record, credentials, rfl, hdigest, hslot, hnew, hcount, hkey, hprincipal, hcreated,
        hactive, rfl⟩
    · exact (h.later hle).silent (fun _ => rfl) (fun _ => rfl) fun _ _ => id
    · exact hswept.silent (fun _ => rfl) (fun _ => rfl) fun _ _ => id
    · refine hswept.issue rfl hdigest hslot hnew hcount hkey ?_
      unfold SessionRecord.grant
      rw [hprincipal, hcreated, hactive]
  | @authenticate token nowUs result table hle _ hauth =>
    have hswept := (h.later hle).sweep
    rcases sessionAuthenticate_cases hauth with ⟨err, rfl, rfl | rfl⟩ |
      ⟨used, digest, index, rfl, hdigest, hkey, rfl, rfl⟩
    · exact (h.later hle).silent (fun _ => rfl) (usesAt_error token nowUs err) fun _ _ => id
    · exact hswept.silent (fun _ => rfl) (usesAt_error token nowUs err) fun _ _ => id
    · exact hswept.renew rfl hdigest hkey fun token' g hg hd =>
        hfree.token_inj (hused hg) (hlast rfl) hd hdigest
  | @revokePrincipal principalId count table hrevoke =>
    cases principalId with
    | none =>
      cases hrevoke
      exact h.silent (fun _ => rfl) (fun _ => rfl) fun _ _ hnone => by cases hnone
    | some id =>
      cases hrevoke
      refine h.revoke ?_ ?_ fun token i _ _ => ?_
      · exact fun _ => rfl
      · exact fun _ => rfl
      rw [decide_eq_true_iff]
      exact ⟨fun heq => congrArg some heq.symm, fun heq => (Option.some.inj heq).symm⟩
  | @revokeToken token found table hrevoke =>
    have htable : (sessionRevokeToken sha256 _ token).2 = _ := sessionRevokeToken_eq h.keyed token
    rw [hrevoke] at htable
    dsimp only at htable
    subst htable
    refine h.revoke ?_ ?_ fun token' i hissued hholds => ?_
    · exact fun _ => rfl
    · exact fun _ => rfl
    obtain ⟨⟨digest, hkey, hdigest⟩, -⟩ := hholds
    rw [Option.any_eq_true]
    constructor
    · rintro ⟨digest', hbind, hkey'⟩
      cases hkey.symm.trans (of_decide_eq_true hkey')
      obtain ⟨revoked, rfl, hd⟩ := Option.bind_eq_some_iff.mp hbind
      exact congrArg some (hfree.token_inj (hlast rfl) (hused hissued) hd hdigest)
    · rintro rfl
      exact ⟨digest, hdigest, decide_eq_true hkey⟩
  | @revokeEpoch epoch count table hrevoke =>
    unfold sessionRevokeEpoch at hrevoke
    split at hrevoke
    · next hzero =>
      cases hrevoke
      exact h.silent (fun _ => rfl) (fun _ => rfl) fun _ _ hr => hr.1 hzero
    · next hzero =>
      cases hrevoke
      refine h.revoke ?_ ?_ fun token i _ _ => ?_
      · exact fun _ => rfl
      · exact fun _ => rfl
      rw [decide_eq_true_iff]
      exact ⟨fun hne => ⟨hzero, hne⟩, And.right⟩
  | @revokeAll count table hrevoke =>
    cases hrevoke
    have hgone {token : List UInt8} {g : SessionGrant} :
        ¬ TokenIssued token (ms ++ [⟨s, .revokeAll (sessionRevokeAll s.table).1, ⟨fun _ => .zero, s.nowUs⟩⟩]) g :=
      fun hg => ((tokenIssued_quiet rfl rfl).mp hg).2 trivial
    refine ⟨Slots.keyed_of_free fun _ => rfl, fun i digest hkey => ?_, fun token g hg => absurd hg hgone,
      fun token g hg => absurd hg hgone, fun id => ?_⟩
    · cases hkey
    · rw [Slots.count_eq_zero.mpr fun _ => rfl]
      exact Nat.zero_le _

end TableInv

/-- The calls of a run tell apart the tokens of any part of it. -/
theorem CollisionFree.of_append {l r : List ManagerMove} (h : CollisionFree sha256 (l ++ r)) :
    CollisionFree sha256 l := fun m hm n hn =>
  h m (List.mem_append_left _ hm) n (List.mem_append_left _ hn)

theorem tableInv_run {ms : List ManagerMove} (h : IsRun (ManagerStep sha256) freshManager ms)
    (hfree : CollisionFree sha256 ms) : TableInv sha256 ms (final freshManager ms) := by
  refine h.inv_past_of (I := fun s ms => TableInv sha256 ms s)
    (K := fun l m => CollisionFree sha256 (l ++ [m])) .start (fun l m r heq => ?_)
    fun ns m hinv hstep hmet => hinv.step hstep hmet
  rw [heq, List.append_cons] at hfree
  exact hfree.of_append

/-- **An authenticate** succeeds as the principal of a live grant, and only so. -/
theorem TableInv.authenticate {ms : List ManagerMove} {s t : SessionManager} {token : List UInt8}
    {nowUs : UInt64} {result : Except EspErr (AuthorizationPrincipal × Fin 8)}
    (h : TableInv sha256 ms s)
    (hstep : ManagerStep sha256 s (.authenticate (some token) nowUs result) t)
    (hfree : CollisionFree sha256 (ms ++ [⟨s, .authenticate (some token) nowUs result, t⟩]))
    (principal : AuthorizationPrincipal) :
    (∃ index, result = .ok (principal, index)) ↔
      ∃ g, TokenIssued token ms g ∧ g.Live nowUs ∧ g.principal = principal := by
  cases hstep with
  | @authenticate _ _ _ table hle hnow hauth =>
    have hlater := h.later hle
    have hswept := hlater.sweep
    constructor
    · rintro ⟨index, rfl⟩
      rcases sessionAuthenticate_cases hauth with ⟨err, herr, -⟩ |
        ⟨used, digest, index, hused, hdigest, hkey, hok, rfl⟩
      · cases herr
      · cases hused
        cases hok
        obtain ⟨token', hissued, hdigest'⟩ := hswept.issued index digest hkey
        obtain ⟨m, hm, htoken⟩ := hissued.token_mem
        have hsame : token' = token := hfree.token_inj
          ⟨m, List.mem_append_left _ hm, htoken⟩ ⟨_, List.mem_append_right _ List.mem_cons_self, rfl⟩
          hdigest' hdigest
        rw [hsame] at hissued
        exact ⟨_, hissued, hlater.live_of_swept hkey, rfl⟩
    · rintro ⟨g, hissued, hlive, rfl⟩
      obtain ⟨i, ⟨digest, hkey, hdigest⟩, hgrant⟩ := hswept.held token g hissued hlive
      obtain ⟨principal, index, hok⟩ := sessionAuthenticate_succeeds hnow hdigest hkey
      rw [hauth] at hok
      rcases sessionAuthenticate_cases hauth with ⟨err, herr, -⟩ |
        ⟨used, digest', index', hused, hdigest', hkey', hok', -⟩
      · exact absurd (herr.symm.trans hok) (by simp)
      · cases hused
        cases hdigest.symm.trans hdigest'
        cases hswept.keyed i index' digest hkey hkey'
        rw [← hgrant]
        exact ⟨i, hok'⟩

end Invariant

/-- At most two unexpired records of an identifier, and all digests in use distinct. -/
def SessionTable.Bounded (table : SessionTable) : Prop :=
  (∀ id nowUs, Slots.count (fun record => record.ownedBy id && !record.expired nowUs) table ≤
    sessionPerPrincipal) ∧
  ∀ i j, (table i).occupied = true → (table j).occupied = true →
    (table i).tokenDigest = (table j).tokenDigest → i = j

theorem TableInv.bounded {sha256 : List UInt8 → Option (Vector UInt8 32)} {ms : List ManagerMove}
    {s : SessionManager} (h : TableInv sha256 ms s) : s.table.Bounded := by
  refine ⟨fun id nowUs => ?_, fun i j hi hj heq => ?_⟩
  · refine (Slots.count_le_count (fun record howned => ?_) s.table).trans (h.few id)
    exact (Bool.and_eq_true_iff.mp howned).1
  · refine h.keyed i j (s.table i).tokenDigest (if_pos hi) ?_
    rw [heq]
    exact if_pos hj

/-- **The session table**, over every run. -/
theorem session_table (sha256 : List UInt8 → Option (Vector UInt8 32)) {ms : List ManagerMove}
    (h : IsRun (ManagerStep sha256) freshManager ms) (hfree : CollisionFree sha256 ms) :
    (∀ l m r token nowUs result, ms = l ++ m :: r → m.ev = .authenticate (some token) nowUs result →
      ∀ principal, (∃ index, result = .ok (principal, index)) ↔
        ∃ g, TokenIssued token l g ∧ g.Live nowUs ∧ g.principal = principal) ∧
    ∀ l r, ms = l ++ r → (final freshManager l).table.Bounded := by
  constructor
  · rintro l m r token nowUs result rfl hev principal
    rw [isRun_append, isRun_cons] at h
    obtain ⟨hrun, hpre, hstep, -⟩ := h
    have hinv := tableInv_run hrun hfree.of_append
    rw [← hpre] at hinv
    obtain ⟨pre, ev, post⟩ := m
    cases hev
    have hcut : CollisionFree sha256 (l ++ [⟨pre, .authenticate (some token) nowUs result, post⟩]) := by
      refine CollisionFree.of_append (r := r) ?_
      rw [List.append_assoc]
      exact hfree
    exact hinv.authenticate hstep hcut principal
  · rintro l r rfl
    rw [isRun_append] at h
    exact (tableInv_run h.1 hfree.of_append).bounded

/-- A console login, and its token a moment later. -/
theorem session_table_console :
    let sha256 := fun bytes => some (Sha256.digest bytes)
    let login := sessionCreate sha256 .init (consolePrincipal 1 1) 1 fun _ => (espOk, .replicate 32 1)
    ∃ credentials, login.1 = .ok credentials ∧
      ∃ index, (sessionAuthenticate sha256 login.2 (some credentials.token) 2).1 =
        .ok (consolePrincipal 1 1, index) := by
  intro sha256 login
  have hok : login.1.toOption.isSome = true := by decide +kernel
  obtain ⟨credentials, hcreated⟩ : ∃ credentials, login.1 = .ok credentials := by
    cases hresult : login.1 with
    | error err =>
      rw [hresult] at hok
      cases hok
    | ok credentials => exact ⟨credentials, rfl⟩
  let s₁ : SessionManager := ⟨login.2, 1⟩
  let used := sessionAuthenticate sha256 login.2 (some credentials.token) 2
  let m₁ : ManagerMove := ⟨freshManager, .create (consolePrincipal 1 1) 1
    (fun _ => (espOk, .replicate 32 1)) (.ok credentials), s₁⟩
  let m₂ : ManagerMove := ⟨s₁, .authenticate (some credentials.token) 2 used.1, ⟨used.2, 2⟩⟩
  have hrun : IsRun (ManagerStep sha256) freshManager [m₁, m₂] :=
    ⟨rfl, .create (show (0 : UInt64) ≤ 1 by decide) (by decide) (Prod.ext hcreated rfl),
      rfl, .authenticate (show (1 : UInt64) ≤ 2 by decide) (by decide) rfl, trivial⟩
  have hfree : CollisionFree sha256 [m₁, m₂] := by
    have htoken (m : ManagerMove) (hm : m ∈ [m₁, m₂]) : m.ev.token? = some credentials.token := by
      rcases List.mem_cons.mp hm with rfl | hm
      · rfl
      · cases List.mem_singleton.mp hm
        rfl
    intro m hm n hn token token' secret secret' digest ht ht' hs hs' _ _
    cases ht.symm.trans (htoken m hm)
    cases ht'.symm.trans (htoken n hn)
    exact Option.some.inj (hs.symm.trans hs')
  refine ⟨credentials, hcreated, ?_⟩
  refine ((session_table sha256 hrun hfree).1 [m₁] m₂ [] credentials.token 2 used.1 rfl rfl
    (consolePrincipal 1 1)).mpr ⟨⟨consolePrincipal 1 1, 1, 1⟩, ?_, ⟨by decide, by decide⟩, rfl⟩
  exact ⟨[], m₁, [], rfl, if_pos rfl, fun n hn => absurd hn List.not_mem_nil, rfl⟩

end Argus
