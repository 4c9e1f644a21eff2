import ArgusPump.Authorization
import ArgusPump.MqttDecode
import ArgusPump.Lib.Slots

/-!
# The session table

`main/argus_session_manager.c`: a fixed table of records, each the digest of a token and the
principal it was issued to.  Nothing expires a record but the next create or authenticate
that passes over it.

    a string decodes → it is the encoding of what it decodes to        (hexEncode_of_decode)
    a token is drawn → no record in use has its digest                 (drawToken_spec)
-/

namespace Argus

open Interact

def sessionIdleUs : UInt64 := 900000000
def sessionAbsoluteUs : UInt64 := 28800000000
def sessionPerPrincipal : Nat := 2

/-! ## Tokens -/

/-- One character of `hex_decode`. -/
def hexValue (c : UInt8) : Option UInt8 :=
  if 0x30 ≤ c ∧ c ≤ 0x39 then some (c - 0x30)
  else if 0x61 ≤ c ∧ c ≤ 0x66 then some (c - 0x61 + 10)
  else none

/-- `hex_decode`, past its length check. -/
def hexDecode : List UInt8 → Option (List UInt8)
  | [] => some []
  | [_] => none
  | hi :: lo :: rest =>
    match hexValue hi, hexValue lo, hexDecode rest with
    | some a, some b, some out => some ((a <<< 4 ||| b) :: out)
    | _, _, _ => none

/-- `hex_encode`. -/
def hexEncode (input : List UInt8) : List UInt8 :=
  input.flatMap fun (b : UInt8) => [hexDigit (b >>> 4).toNat, hexDigit (b &&& 0x0F).toNat]

/-- The secret a token stands for. -/
def tokenSecret (token : List UInt8) : Option (List UInt8) :=
  if token.length = 64 then hexDecode token else none

theorem hexValue_spec {c a : UInt8} (h : hexValue c = some a) : a < 16 ∧ hexDigit a.toNat = c := by
  have hall : ∀ c : Fin 256, (hexValue (UInt8.ofNat c)).all fun a =>
      a < 16 && hexDigit a.toNat = UInt8.ofNat c := by
    decide +kernel
  have hc := hall ⟨c.toNat, c.toNat_lt⟩
  rw [UInt8.ofNat_toNat, h, Option.all_some, Bool.and_eq_true] at hc
  exact ⟨of_decide_eq_true hc.1, of_decide_eq_true hc.2⟩

theorem hexValue_hexDigit {n : Nat} (h : n < 16) : hexValue (hexDigit n) = some (UInt8.ofNat n) := by
  have hall : ∀ i : Fin 16, hexValue (hexDigit i) = some (UInt8.ofNat i) := by decide
  exact hall ⟨n, h⟩

/-- The two halves of a byte. -/
theorem nibbles {a b : UInt8} (ha : a < 16) (hb : b < 16) :
    (a <<< 4 ||| b) >>> 4 = a ∧ (a <<< 4 ||| b) &&& 0x0F = b := by
  have hall : ∀ i j : Fin 16, (UInt8.ofNat i <<< 4 ||| UInt8.ofNat j) >>> 4 = UInt8.ofNat i ∧
      (UInt8.ofNat i <<< 4 ||| UInt8.ofNat j) &&& 0x0F = UInt8.ofNat j := by
    decide +kernel
  have h := hall ⟨a.toNat, ha⟩ ⟨b.toNat, hb⟩
  rw [UInt8.ofNat_toNat, UInt8.ofNat_toNat] at h
  exact h

theorem join_nibbles (b : UInt8) :
    (b >>> 4).toNat < 16 ∧ (b &&& 0x0F).toNat < 16 ∧ (b >>> 4) <<< 4 ||| (b &&& 0x0F) = b := by
  have hall : ∀ i : Fin 256, (UInt8.ofNat i >>> 4).toNat < 16 ∧ (UInt8.ofNat i &&& 0x0F).toNat < 16 ∧
      (UInt8.ofNat i >>> 4) <<< 4 ||| (UInt8.ofNat i &&& 0x0F) = UInt8.ofNat i := by
    decide +kernel
  have h := hall ⟨b.toNat, b.toNat_lt⟩
  rw [UInt8.ofNat_toNat] at h
  exact h

theorem hexEncode_cons (b : UInt8) (bs : List UInt8) :
    hexEncode (b :: bs) = hexDigit (b >>> 4).toNat :: hexDigit (b &&& 0x0F).toNat :: hexEncode bs := rfl

/-- A string that decodes is the encoding of what it decodes to. -/
theorem hexEncode_of_decode {hex out : List UInt8} (h : hexDecode hex = some out) :
    hexEncode out = hex := by
  induction hex using hexDecode.induct generalizing out with
  | case1 =>
    cases h
    rfl
  | case2 c => cases h
  | case3 hi lo rest a b tail htail hb ha ih =>
    unfold hexDecode at h
    rw [ha, hb, htail] at h
    cases h
    have hhi := hexValue_spec ha
    have hlo := hexValue_spec hb
    have hparts := nibbles hhi.1 hlo.1
    rw [hexEncode_cons, hparts.1, hparts.2, hhi.2, hlo.2, ih htail]
  | case4 hi lo rest hnot _ =>
    unfold hexDecode at h
    split at h
    · next a b tail ha hb htail => exact absurd htail (hnot a b tail ha hb)
    · cases h

theorem hexDecode_encode (bs : List UInt8) : hexDecode (hexEncode bs) = some bs := by
  induction bs with
  | nil => rfl
  | cons b bs ih =>
    obtain ⟨hhi, hlo, hjoin⟩ := join_nibbles b
    rw [hexEncode_cons, hexDecode, hexValue_hexDigit hhi, hexValue_hexDigit hlo, ih]
    dsimp only
    rw [UInt8.ofNat_toNat, UInt8.ofNat_toNat, hjoin]

theorem length_hexEncode (bs : List UInt8) : (hexEncode bs).length = 2 * bs.length := by
  induction bs with
  | nil => rfl
  | cons b bs ih =>
    rw [hexEncode_cons, List.length_cons, List.length_cons, List.length_cons, ih]
    omega

/-- One token stands for a secret. -/
theorem tokenSecret_inj {token token' secret : List UInt8} (h : tokenSecret token = some secret)
    (h' : tokenSecret token' = some secret) : token = token' := by
  unfold tokenSecret at h h'
  split at h
  · split at h'
    · exact (hexEncode_of_decode h).symm.trans (hexEncode_of_decode h')
    · cases h'
  · cases h

theorem tokenSecret_hexEncode (secret : Vector UInt8 32) :
    tokenSecret (hexEncode secret.toList) = some secret.toList := by
  unfold tokenSecret
  rw [if_pos, hexDecode_encode]
  rw [length_hexEncode, Vector.length_toList]

/-! ## Records -/

/-- `argus_session_record_t`. -/
structure SessionRecord where
  occupied : Bool
  tokenDigest : Vector UInt8 32
  csrfDigest : Vector UInt8 32
  csrfSecret : List UInt8
  principal : AuthorizationPrincipal
  createdUs : UInt64
  lastActivityUs : UInt64
  reauthenticatedUs : UInt64
deriving DecidableEq

/-- A zeroed `argus_principal_t`. -/
def AuthorizationPrincipal.zero : AuthorizationPrincipal where
  type := .none
  identifier := .replicate 37 0
  scope := .replicate 37 0
  level := .argusPersonnel
  permissions := 0
  delegablePermissions := 0
  credentialVersion := 0
  securityEpoch := 0
  principalRevision := 0
  protectedIdentity := false

/-- `argus_session_table_t`. -/
abbrev SessionTable := Fin 8 → SessionRecord

/-- `argus_session_credentials_t`. -/
structure SessionCredentials where
  token : List UInt8
  csrf : List UInt8
  principal : AuthorizationPrincipal
  expiresUs : UInt64
deriving DecidableEq

namespace SessionRecord

/-- `zero_record`. -/
def zero : SessionRecord where
  occupied := false
  tokenDigest := .replicate 32 0
  csrfDigest := .replicate 32 0
  csrfSecret := []
  principal := .zero
  createdUs := 0
  lastActivityUs := 0
  reauthenticatedUs := 0

/-- `expired`. -/
def expired (record : SessionRecord) (nowUs : UInt64) : Bool :=
  nowUs < record.createdUs || nowUs < record.lastActivityUs ||
    nowUs - record.createdUs ≥ sessionAbsoluteUs || nowUs - record.lastActivityUs ≥ sessionIdleUs

/-- The digest of a record in use. -/
def key (record : SessionRecord) : Option (Vector UInt8 32) :=
  if record.occupied then some record.tokenDigest else none

/-- A record in use of a principal. -/
def ownedBy (identifier : List UInt8) (record : SessionRecord) : Bool :=
  record.occupied && cString record.principal.identifier = identifier

end SessionRecord

namespace SessionTable

/-- `argus_session_table_init`. -/
def init : SessionTable := fun _ => .zero

/-- `zero_record` for every record in use that `p` holds of. -/
def zeroWhere (p : SessionRecord → Bool) (table : SessionTable) : SessionTable := fun i =>
  if (table i).occupied && p (table i) then .zero else table i

/-- The records in use that `p` holds of. -/
def countWhere (p : SessionRecord → Bool) (table : SessionTable) : Nat :=
  Slots.count (fun record => record.occupied && p record) table

/-- The sweep in the loops of `argus_session_create` and `argus_session_authenticate`. -/
def sweep (table : SessionTable) (nowUs : UInt64) : SessionTable :=
  table.zeroWhere fun record => record.expired nowUs

/-- A record in use has the digest. -/
def hasDigest (table : SessionTable) (digest : Vector UInt8 32) : Bool :=
  (List.finRange 8).any fun i => (table i).key = some digest

end SessionTable

theorem SessionRecord.occupied_of_key {record : SessionRecord} {digest : Vector UInt8 32}
    (h : record.key = some digest) : record.occupied = true := by
  unfold key at h
  split at h
  · next hoccupied => exact hoccupied
  · cases h

namespace SessionTable

variable {p : SessionRecord → Bool} {table : SessionTable} {i : Fin 8}

/-- A record that is in use after `zeroWhere` was spared by it. -/
theorem zeroWhere_of_key {digest : Vector UInt8 32} (h : (table.zeroWhere p i).key = some digest) :
    table.zeroWhere p i = table i ∧ (table i).key = some digest ∧ p (table i) = false := by
  unfold zeroWhere at h ⊢
  split at h
  · cases h
  · next hnot =>
    rw [if_neg hnot]
    refine ⟨rfl, h, ?_⟩
    rw [SessionRecord.occupied_of_key h, Bool.true_and] at hnot
    exact Bool.eq_false_iff.mpr hnot

theorem zeroWhere_of (hoccupied : (table i).occupied = true) (h : p (table i) = true) :
    table.zeroWhere p i = .zero := by
  unfold zeroWhere
  rw [hoccupied, h, Bool.true_and, if_pos rfl]

theorem zeroWhere_of_not (h : p (table i) = false) : table.zeroWhere p i = table i := by
  unfold zeroWhere
  rw [h, Bool.and_false, if_neg Bool.false_ne_true]

theorem keyed_zeroWhere (h : Slots.Keyed SessionRecord.key table) :
    Slots.Keyed SessionRecord.key (table.zeroWhere p) :=
  fun i j _ hi hj => h i j _ (zeroWhere_of_key hi).2.1 (zeroWhere_of_key hj).2.1

theorem count_zeroWhere_le (id : List UInt8) :
    Slots.count (SessionRecord.ownedBy id) (table.zeroWhere p) ≤
      Slots.count (SessionRecord.ownedBy id) table := by
  refine Slots.count_map_le (g := fun a => if a.occupied && p a then SessionRecord.zero else a)
    (fun a ha => ?_) table
  split at ha
  · cases ha
  · exact ha

end SessionTable

/-! ## Operations -/

section Operations

variable (sha256 : List UInt8 → Option (Vector UInt8 32))

/-- `digest_secret`. -/
def digestSecret (token : List UInt8) : Option (Vector UInt8 32) := (tokenSecret token).bind sha256

/-- The attempts of `argus_session_create` at a token, from the `k`th call of the random source
on: the token, its digest and the calls made. -/
def drawToken (table : SessionTable) (random : Nat → EspErr × Vector UInt8 32) :
    Nat → Nat → Except EspErr (Vector UInt8 32 × Vector UInt8 32 × Nat)
  | 0, _ => .error espErrInvalidState
  | attempts + 1, k =>
    if (random k).1 ≠ espOk then .error (random k).1
    else if (random k).2 = .replicate 32 0 then drawToken table random attempts (k + 1)
    else
      match sha256 (random k).2.toList with
      | none => drawToken table random attempts (k + 1)
      | some digest =>
        if table.hasDigest digest then drawToken table random attempts (k + 1)
        else .ok ((random k).2, digest, k + 1)

/-- `argus_session_create`. -/
def sessionCreate (table : SessionTable) (principal : AuthorizationPrincipal) (nowUs : UInt64)
    (random : Nat → EspErr × Vector UInt8 32) : Except EspErr SessionCredentials × SessionTable :=
  if ¬ principalValid principal ∨ nowUs = 0 then (.error espErrInvalidArg, table)
  else
    let swept := table.sweep nowUs
    match Slots.firstFree (·.occupied) swept with
    | none => (.error espErrNoMem, swept)
    | some index =>
      if swept.countWhere (fun record => cString record.principal.identifier =
          cString principal.identifier) ≥ sessionPerPrincipal then (.error espErrNoMem, swept)
      else
        match drawToken sha256 swept random 4 0 with
        | .error err => (.error err, swept)
        | .ok (token, digest, k) =>
          let csrf := (random k).2
          if (random k).1 ≠ espOk then (.error (random k).1, swept)
          else if csrf = .replicate 32 0 then (.error espErrInvalidState, swept)
          else
            let next : SessionRecord :=
              { occupied := true
                tokenDigest := digest
                csrfDigest := (sha256 csrf.toList).getD (.replicate 32 0)
                csrfSecret := hexEncode csrf.toList
                principal := principal
                createdUs := nowUs
                lastActivityUs := nowUs
                reauthenticatedUs := nowUs }
            (.ok ⟨hexEncode token.toList, hexEncode csrf.toList, principal, nowUs + sessionIdleUs⟩,
              Function.update swept index next)

/-- `argus_session_authenticate`: the principal and the index of the record, the last that
has the digest. -/
def sessionAuthenticate (table : SessionTable) (token : Option (List UInt8)) (nowUs : UInt64) :
    Except EspErr (AuthorizationPrincipal × Fin 8) × SessionTable :=
  match token with
  | none => (.error espErrInvalidArg, table)
  | some token =>
    if nowUs = 0 then (.error espErrInvalidArg, table)
    else
      match digestSecret sha256 token with
      | none => (.error espErrNotFound, table)
      | some digest =>
        let swept := table.sweep nowUs
        match ((List.finRange 8).filter fun i => (swept i).key = some digest).getLast? with
        | none => (.error espErrNotFound, swept)
        | some index =>
          (.ok ((swept index).principal, index),
            Function.update swept index { swept index with lastActivityUs := nowUs })

/-- `argus_session_revoke_principal`. -/
def sessionRevokePrincipal (table : SessionTable) (principalId : Option (List UInt8)) :
    Nat × SessionTable :=
  match principalId with
  | none => (0, table)
  | some id =>
    (table.countWhere fun record => cString record.principal.identifier = id,
      table.zeroWhere fun record => cString record.principal.identifier = id)

/-- `argus_session_revoke_token`: the first record that has the digest. -/
def sessionRevokeToken (table : SessionTable) (token : Option (List UInt8)) : Bool × SessionTable :=
  match token.bind (digestSecret sha256) with
  | none => (false, table)
  | some digest =>
    match (List.finRange 8).find? fun i => (table i).key = some digest with
    | none => (false, table)
    | some index => (true, Function.update table index .zero)

/-- `argus_session_revoke_epoch`. -/
def sessionRevokeEpoch (table : SessionTable) (currentSecurityEpoch : UInt32) : Nat × SessionTable :=
  if currentSecurityEpoch = 0 then (0, table)
  else
    (table.countWhere fun record => record.principal.securityEpoch ≠ currentSecurityEpoch,
      table.zeroWhere fun record => record.principal.securityEpoch ≠ currentSecurityEpoch)

/-- `argus_session_revoke_all`. -/
def sessionRevokeAll (table : SessionTable) : Nat × SessionTable :=
  (Slots.count (·.occupied) table, fun _ => .zero)

end Operations

/-! ## What the operations do -/

section Cases

variable {sha256 : List UInt8 → Option (Vector UInt8 32)} {table table' : SessionTable}

theorem hasDigest_eq_false {digest : Vector UInt8 32} (h : table.hasDigest digest = false) (i : Fin 8) :
    (table i).key ≠ some digest := by
  unfold SessionTable.hasDigest at h
  rw [List.any_eq_false] at h
  exact fun hkey => h i (List.mem_finRange i) (decide_eq_true hkey)

/-- **A token that was drawn** has a digest that no record in use has. -/
theorem drawToken_spec {random : Nat → EspErr × Vector UInt8 32} {attempts k k' : Nat}
    {token digest : Vector UInt8 32}
    (h : drawToken sha256 table random attempts k = .ok (token, digest, k')) :
    sha256 token.toList = some digest ∧ table.hasDigest digest = false := by
  induction attempts generalizing k with
  | zero => cases h
  | succ attempts ih =>
    unfold drawToken at h
    split at h
    · cases h
    · split at h
      · exact ih h
      · split at h
        · exact ih h
        · next digest' hsha =>
          split at h
          · exact ih h
          · next hnew =>
            cases h
            exact ⟨hsha, Bool.eq_false_iff.mpr hnew⟩

/-- A create is refused, at the most with a sweep, or puts a record in a free slot. -/
theorem sessionCreate_cases {principal : AuthorizationPrincipal} {nowUs : UInt64}
    {random : Nat → EspErr × Vector UInt8 32} {result : Except EspErr SessionCredentials}
    (h : sessionCreate sha256 table principal nowUs random = (result, table')) :
    (∃ err, result = .error err ∧ (table' = table ∨ table' = table.sweep nowUs)) ∨
    ∃ index digest record credentials,
      result = .ok credentials ∧ digestSecret sha256 credentials.token = some digest ∧
      (table.sweep nowUs index).key = none ∧ (table.sweep nowUs).hasDigest digest = false ∧
      Slots.count (SessionRecord.ownedBy (cString principal.identifier)) (table.sweep nowUs) <
        sessionPerPrincipal ∧
      record.key = some digest ∧ record.principal = principal ∧ record.createdUs = nowUs ∧
      record.lastActivityUs = nowUs ∧ table' = Function.update (table.sweep nowUs) index record := by
  unfold sessionCreate at h
  split at h
  · cases h
    exact .inl ⟨_, rfl, .inl rfl⟩
  dsimp only at h
  split at h
  · cases h
    exact .inl ⟨_, rfl, .inr rfl⟩
  next index hindex =>
  split at h
  · cases h
    exact .inl ⟨_, rfl, .inr rfl⟩
  next hcount =>
  split at h
  · cases h
    exact .inl ⟨_, rfl, .inr rfl⟩
  next token digest k hdraw =>
  split at h
  · cases h
    exact .inl ⟨_, rfl, .inr rfl⟩
  split at h
  · cases h
    exact .inl ⟨_, rfl, .inr rfl⟩
  cases h
  have hdrawn := drawToken_spec hdraw
  have hfree : (table.sweep nowUs index).occupied = false := Slots.firstFree_spec hindex
  refine .inr ⟨index, digest, _, _, rfl, ?_, ?_, hdrawn.2, Nat.lt_of_not_le hcount, rfl, rfl, rfl, rfl, rfl⟩
  · unfold digestSecret
    rw [tokenSecret_hexEncode]
    exact hdrawn.1
  · unfold SessionRecord.key
    rw [hfree, if_neg Bool.false_ne_true]

/-- An authenticate is refused, at the most with a sweep, or renews the record of its token. -/
theorem sessionAuthenticate_cases {token : Option (List UInt8)} {nowUs : UInt64}
    {result : Except EspErr (AuthorizationPrincipal × Fin 8)}
    (h : sessionAuthenticate sha256 table token nowUs = (result, table')) :
    (∃ err, result = .error err ∧ (table' = table ∨ table' = table.sweep nowUs)) ∨
    ∃ used digest index, token = some used ∧ digestSecret sha256 used = some digest ∧
      (table.sweep nowUs index).key = some digest ∧
      result = .ok ((table.sweep nowUs index).principal, index) ∧
      table' = Function.update (table.sweep nowUs) index
        { table.sweep nowUs index with lastActivityUs := nowUs } := by
  unfold sessionAuthenticate at h
  split at h
  · cases h
    exact .inl ⟨_, rfl, .inl rfl⟩
  next used =>
  split at h
  · cases h
    exact .inl ⟨_, rfl, .inl rfl⟩
  split at h
  · cases h
    exact .inl ⟨_, rfl, .inl rfl⟩
  next digest hdigest =>
  dsimp only at h
  split at h
  · cases h
    exact .inl ⟨_, rfl, .inr rfl⟩
  next index hlast =>
  cases h
  have hmem := List.mem_of_getLast? hlast
  have hkey := of_decide_eq_true (List.mem_filter.mp hmem).2
  exact .inr ⟨used, digest, index, rfl, hdigest, hkey, rfl, rfl⟩

/-- A record of the token that the sweep leaves makes an authenticate succeed. -/
theorem sessionAuthenticate_succeeds {token : List UInt8} {nowUs : UInt64} {digest : Vector UInt8 32}
    {i : Fin 8} (hnow : nowUs ≠ 0) (hdigest : digestSecret sha256 token = some digest)
    (hkey : (table.sweep nowUs i).key = some digest) :
    ∃ principal index, (sessionAuthenticate sha256 table (some token) nowUs).1 = .ok (principal, index) := by
  unfold sessionAuthenticate
  dsimp only
  rw [if_neg hnow, hdigest]
  dsimp only
  split
  · next hnone =>
    have hempty := List.getLast?_eq_none_iff.mp hnone
    have hmem : i ∈ (List.finRange 8).filter fun i => (table.sweep nowUs i).key = some digest :=
      List.mem_filter.mpr ⟨List.mem_finRange i, decide_eq_true hkey⟩
    rw [hempty] at hmem
    exact absurd hmem List.not_mem_nil
  · next index _ => exact ⟨_, index, rfl⟩

/-- With distinct digests, the record a revoked token has is the only one zeroed. -/
theorem sessionRevokeToken_eq (hkeyed : Slots.Keyed SessionRecord.key table) (token : Option (List UInt8)) :
    (sessionRevokeToken sha256 table token).2 =
      table.zeroWhere fun record =>
        (token.bind (digestSecret sha256)).any fun digest => record.key = some digest := by
  funext i
  unfold sessionRevokeToken
  cases token.bind (digestSecret sha256) with
  | none => exact (SessionTable.zeroWhere_of_not (p := fun _ => false) rfl).symm
  | some digest =>
    have hother (hne : (table i).key ≠ some digest) :
        table.zeroWhere (fun record => (some digest).any fun digest => record.key = some digest) i =
          table i :=
      SessionTable.zeroWhere_of_not (decide_eq_false hne)
    dsimp only
    split
    · next hnone =>
      have hne := List.find?_eq_none.mp hnone i (List.mem_finRange i)
      exact (hother fun hkey => hne (decide_eq_true hkey)).symm
    · next index hfound =>
      have hindex := List.find?_some hfound
      have hkey := of_decide_eq_true hindex
      dsimp only
      by_cases hi : i = index
      · rw [hi, Function.update_self]
        exact (SessionTable.zeroWhere_of (SessionRecord.occupied_of_key hkey) (decide_eq_true hkey)).symm
      · rw [Function.update_of_ne hi]
        exact (hother fun h => hi (hkeyed i index digest h hkey)).symm

end Cases

end Argus
