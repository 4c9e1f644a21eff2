import ArgusPump.HttpCookie
import ArgusPump.HumanSessions
import ArgusPump.SessionDeadlines

/-!
# Access to the browser's routes

`argus_http_security_require` of `main/argus_http_security.c`, which stands before every route
of a logged in human, as a program over what it asks of the network interfaces, the session
manager and the stores.  The other tasks run on while it does.

    a session in use was created with its token, principal and CSRF secret  (sessionsIssued_run)

Left out: the audit of a refused interface, at most one a minute, and the wiping of buffers.
-/

namespace Argus

open Interact

/-! ## Interfaces and addresses -/

/-- The address families of `struct sockaddr_storage`. -/
inductive SockAddr
  | inet (addr : UInt32)
  | inet6 (addr : Vector UInt8 16)
  | other
deriving DecidableEq

/-- Four bytes of an address in the order they lie in memory. -/
def addressOfBytes (a b c d : UInt8) : UInt32 :=
  a.toUInt32 ||| b.toUInt32 <<< 8 ||| c.toUInt32 <<< 16 ||| d.toUInt32 <<< 24

/-- `socket_address_ipv4`. -/
def socketAddressIpv4 : SockAddr → Option UInt32
  | .inet addr => some addr
  | .inet6 addr =>
    -- `IN6_IS_ADDR_V4MAPPED`
    if addr.toList.take 12 = List.replicate 10 0 ++ [0xFF, 0xFF] then
      some (addressOfBytes addr[12] addr[13] addr[14] addr[15])
    else none
  | .other => none

/-- `argus_net_iface_t`. -/
inductive NetIface
  | unknown
  | softap
  | sta
  | ambiguous
deriving DecidableEq

/-- What `esp_netif_get_ip_info` answers of the two interfaces: the access point's address and
netmask, and the station's address. -/
structure NetifView where
  ap : Option (UInt32 × UInt32)
  sta : Option UInt32
deriving DecidableEq

/-- What `argus_net_mgr_classify_interface` returns. -/
def classifyInterface (localAddr : UInt32) (net : NetifView) : NetIface :=
  if localAddr = 0 then .unknown
  else
    match net.ap.map Prod.fst, net.sta with
    | some ap, some sta =>
      if ap = sta ∧ ap ≠ 0 then .ambiguous
      else if ap ≠ 0 ∧ localAddr = ap ∧ sta ≠ 0 ∧ localAddr = sta then .ambiguous
      else if ap ≠ 0 ∧ localAddr = ap then .softap
      else if sta ≠ 0 ∧ localAddr = sta then .sta
      else .unknown
    | some ap, none => if ap ≠ 0 ∧ localAddr = ap then .softap else .unknown
    | none, some sta => if sta ≠ 0 ∧ localAddr = sta then .sta else .unknown
    | none, none => .unknown

/-- A match with the access point that the station does not share. -/
theorem classifyInterface_softap {localAddr : UInt32} {net : NetifView} :
    classifyInterface localAddr net = .softap ↔
      localAddr ≠ 0 ∧ (∃ netmask, net.ap = some (localAddr, netmask)) ∧ net.sta ≠ some localAddr := by
  obtain ⟨ap, sta⟩ := net
  unfold classifyInterface
  by_cases hlocal : localAddr = 0
  · simp [hlocal]
  rw [if_neg hlocal]
  cases ap with
  | none =>
    cases sta with
    | none => simp
    | some sta =>
      dsimp only [Option.map_none]
      split <;> simp
  | some ap =>
    obtain ⟨ap, netmask⟩ := ap
    cases sta with
    | none =>
      dsimp only [Option.map_some]
      by_cases hap : localAddr = ap
      · subst hap
        simp [hlocal]
      · simp [hap, Ne.symm hap]
    | some sta =>
      dsimp only [Option.map_some]
      by_cases hap : localAddr = ap
      · subst hap
        by_cases hsta : localAddr = sta
        · simp [hsta.symm, hlocal]
        · simp [hsta, Ne.symm hsta, hlocal]
      · have hap' : ¬ ap = localAddr := fun h => hap h.symm
        simp only [hap, and_false, false_and, if_false]
        split <;> [simp; split <;> simp] <;> simp [hap']

/-- `inet_ntop` of an IPv4 address. -/
def inetNtop (addr : UInt32) : Bytes :=
  let text (b : UInt32) := asciiBytes (toString b.toUInt8.toNat)
  text addr ++ 0x2E :: text (addr >>> 8) ++ 0x2E :: text (addr >>> 16) ++ 0x2E :: text (addr >>> 24)

/-- The socket of a request: its descriptor, and what `getsockname` and `getpeername` answer. -/
structure RequestSocket where
  open_ : Bool
  sockname : Option SockAddr
  peername : Option SockAddr

/-- The request, as its handler can read it. -/
structure HttpRequest where
  socket : RequestSocket
  cookie : HeaderRead
  contentType : HeaderRead
  origin : HeaderRead
  host : HeaderRead
  csrf : HeaderRead

/-- The end of `socket_is_softap`, from the addresses and the interfaces on: the peer and the
local address as text. -/
def softapPeer (localAddr peerAddr : UInt32) (net : NetifView) : Option (UInt32 × Bytes) :=
  if classifyInterface localAddr net ≠ .softap then none
  else
    match net.ap with
    | none => none
    | some (ip, netmask) =>
      if peerAddr &&& netmask ≠ ip &&& netmask ∨ peerAddr = ip ∨ peerAddr = 0 then none
      else some (peerAddr, inetNtop localAddr)

/-! ## The check -/

/-- `argus_http_access_result_t`. -/
inductive HttpAccess
  | ok
  | notAp
  | unauthenticated
  | forbidden
  | csrf
  | origin
  | contentType
deriving DecidableEq

/-- `argus_http_security_context_t`. -/
structure HttpContext where
  principal : AuthorizationPrincipal
  sessionIndex : Fin 8
  peerKey : UInt32
  sessionToken : Bytes

/-- What the check asks. -/
inductive AccessCall
  | netif
  | authenticate (token : Bytes)
  | principalCurrent (principal : AuthorizationPrincipal)
  | revokeToken (token : Bytes)
  | csrfValid (index : Fin 8) (csrf : Bytes)

abbrev AccessCall.Answer : AccessCall → Type
  | .netif => NetifView
  | .authenticate _ => Except EspErr (AuthorizationPrincipal × Fin 8)
  | .principalCurrent _ | .revokeToken _ | .csrfValid .. => Bool

abbrev AccessProg := Prog AccessCall AccessCall.Answer

namespace AccessCall

def call (q : AccessCall) : AccessProg q.Answer := .ask q .ret

end AccessCall

open AccessCall (call)

/-- `socket_is_softap`. -/
def socketIsSoftap (socket : RequestSocket) : AccessProg (Option (UInt32 × Bytes)) := do
  if ¬ socket.open_ then return none
  match socket.sockname.bind socketAddressIpv4, socket.peername.bind socketAddressIpv4 with
  | some localAddr, some peerAddr => return softapPeer localAddr peerAddr (← call .netif)
  | _, _ => return none

/-- `argus_http_security_json_content_type`. -/
def jsonContentType (contentType : HeaderRead) : Bool :=
  headerExact contentType 48 = some (asciiBytes "application/json")

/-- The end of `argus_http_security_origin`, from the local address on. -/
def originMatches (localIp : Bytes) (origin host : HeaderRead) : Bool :=
  headerExact origin 80 = some (asciiBytes "http://" ++ localIp) &&
    (headerExact host 64 = some localIp || headerExact host 64 = some (localIp ++ asciiBytes ":80"))

/-- `argus_http_security_origin`. -/
def httpSecurityOrigin (req : HttpRequest) : AccessProg Bool := do
  match ← socketIsSoftap req.socket with
  | none => return false
  | some (_, localIp) => return originMatches localIp req.origin req.host

/-- `argus_http_security_require`. -/
def httpSecurityRequire (req : HttpRequest) (required : PermissionSet) (mutation : Bool) :
    AccessProg (Except HttpAccess HttpContext) := do
  match ← socketIsSoftap req.socket with
  | none => return .error .notAp
  | some (peerKey, _) =>
    match httpSecurityCookie req.cookie with
    | none => return .error .unauthenticated
    | some token =>
      match ← call (.authenticate token) with
      | .error _ =>
        let _ ← call (.revokeToken token)
        return .error .unauthenticated
      | .ok (principal, index) =>
        if ¬ (← call (.principalCurrent principal)) then
          let _ ← call (.revokeToken token)
          return .error .unauthenticated
        if required ≠ 0 ∧ authorizationRequire principal required ≠ .allow then
          return .error .forbidden
        if ¬ mutation then return .ok ⟨principal, index, peerKey, token⟩
        if ¬ jsonContentType req.contentType then return .error .contentType
        if ¬ (← httpSecurityOrigin req) then return .error .origin
        match headerExact req.csrf 65 with
        | none => return .error .csrf
        | some csrf =>
          if ¬ (← call (.csrfValid index csrf)) then return .error .csrf
          return .ok ⟨principal, index, peerKey, token⟩

/-! ## The CSRF secret of a session -/

section Csrf

variable (sha256 : List UInt8 → Option (Vector UInt8 32))

/-- `argus_session_csrf_valid`. -/
def sessionCsrfValid (table : SessionTable) (index : Fin 8) (csrf : Bytes) : Bool :=
  (table index).occupied && digestSecret sha256 csrf = some (table index).csrfDigest

/-- The record keeps what a create answered with `c`. -/
structure SessionRecord.Keeps (record : SessionRecord) (c : SessionCredentials) : Prop where
  principal : c.principal = record.principal
  token : digestSecret sha256 c.token = some record.tokenDigest
  csrf : record.csrfSecret = c.csrf
  secret : ∃ secret : Vector UInt8 32, c.csrf = hexEncode secret.toList ∧
    record.csrfDigest = (sha256 secret.toList).getD (.replicate 32 0)

/-- The credentials that a run has handed out, and to whom. -/
def IssuedIn (ms : List ManagerMove) (c : SessionCredentials) : Prop :=
  ∃ m ∈ ms, ∃ principal nowUs random, m.ev = .create principal nowUs random (.ok c) ∧
    c.principal = principal

/-- Every record in use is of credentials that the run has handed out. -/
def SessionsIssued (ms : List ManagerMove) (s : SessionManager) : Prop :=
  ∀ i, (s.table i).occupied = true → ∃ c, IssuedIn ms c ∧ (s.table i).Keeps sha256 c

end Csrf

/-- The same session, used at another time. -/
structure SessionRecord.Same (a b : SessionRecord) : Prop where
  occupied : a.occupied = b.occupied
  tokenDigest : a.tokenDigest = b.tokenDigest
  csrfDigest : a.csrfDigest = b.csrfDigest
  csrfSecret : a.csrfSecret = b.csrfSecret
  principal : a.principal = b.principal

theorem SessionRecord.Same.refl (a : SessionRecord) : a.Same a := ⟨rfl, rfl, rfl, rfl, rfl⟩

theorem SessionRecord.Same.trans {a b c : SessionRecord} (h : a.Same b) (h' : b.Same c) : a.Same c :=
  ⟨h.occupied.trans h'.occupied, h.tokenDigest.trans h'.tokenDigest, h.csrfDigest.trans h'.csrfDigest,
    h.csrfSecret.trans h'.csrfSecret, h.principal.trans h'.principal⟩

/-- Every record in use of one table is of the session that the other has there. -/
def SessionTable.Sub (a b : SessionTable) : Prop :=
  ∀ i, (a i).occupied = true → (a i).Same (b i)

namespace SessionTable

variable {table : SessionTable}

theorem Sub.refl (table : SessionTable) : table.Sub table := fun i _ => .refl (table i)

theorem Sub.trans {a b c : SessionTable} (h : a.Sub b) (h' : b.Sub c) : a.Sub c := fun i hi =>
  (h i hi).trans (h' i ((h i hi).occupied ▸ hi))

theorem zeroWhere_sub (p : SessionRecord → Bool) : (table.zeroWhere p).Sub table := by
  intro i hi
  unfold zeroWhere at hi ⊢
  split at hi
  · cases hi
  · next hnot =>
    rw [if_neg hnot]
    exact .refl (table i)

theorem update_zero_sub (index : Fin 8) : Sub (Function.update table index .zero) table := by
  intro i hi
  rw [Function.update_apply] at hi ⊢
  split at hi
  · cases hi
  · next hne =>
    rw [if_neg hne]
    exact .refl (table i)

end SessionTable

section Manager

variable {sha256 : List UInt8 → Option (Vector UInt8 32)}

/-- A create that succeeds puts the session it answers with in a slot of the swept table. -/
theorem sessionCreate_keeps {table table' : SessionTable} {principal : AuthorizationPrincipal}
    {nowUs : UInt64} {random : Nat → EspErr × Vector UInt8 32} {c : SessionCredentials}
    (h : sessionCreate sha256 table principal nowUs random = (.ok c, table')) :
    ∃ index record, table' = Function.update (table.sweep nowUs) index record ∧
      c.principal = principal ∧ record.Keeps sha256 c := by
  unfold sessionCreate at h
  split at h
  · cases h
  dsimp only at h
  split at h
  · cases h
  next index hindex =>
  split at h
  · cases h
  split at h
  · cases h
  next token digest k hdraw =>
  split at h
  · cases h
  split at h
  · cases h
  cases h
  refine ⟨index, _, rfl, rfl, rfl, ?_, rfl, (random k).2, rfl, rfl⟩
  unfold digestSecret
  rw [tokenSecret_hexEncode]
  exact (drawToken_spec hdraw).1

/-- A call that creates nothing leaves the sessions, or ends some. -/
theorem ManagerStep.sub {s t : SessionManager} {ev : ManagerAct} (h : ManagerStep sha256 s ev t)
    (hcreate : ∀ principal nowUs random c, ev ≠ .create principal nowUs random (.ok c)) :
    t.table.Sub s.table := by
  cases h with
  | @create principal nowUs random result table _ _ hcreated =>
    rcases sessionCreate_cases hcreated with ⟨err, rfl, rfl | rfl⟩ | ⟨_, _, _, c, rfl, _⟩
    · exact .refl _
    · exact SessionTable.zeroWhere_sub _
    · exact absurd rfl (hcreate principal nowUs random c)
  | @authenticate token nowUs result table _ _ hauth =>
    rcases sessionAuthenticate_cases hauth with ⟨err, rfl, rfl | rfl⟩ | ⟨_, _, index, -, -, -, -, rfl⟩
    · exact .refl _
    · exact SessionTable.zeroWhere_sub _
    · refine SessionTable.Sub.trans (b := s.table.sweep nowUs) (fun i _ => ?_)
        (SessionTable.zeroWhere_sub _)
      dsimp only
      rw [Function.update_apply]
      split
      · next hi =>
        subst hi
        exact ⟨rfl, rfl, rfl, rfl, rfl⟩
      · exact .refl _
  | @revokePrincipal principalId count table hrevoke =>
    unfold sessionRevokePrincipal at hrevoke
    split at hrevoke
    · cases hrevoke
      exact .refl _
    · cases hrevoke
      exact SessionTable.zeroWhere_sub _
  | @revokeToken token found table hrevoke =>
    unfold sessionRevokeToken at hrevoke
    split at hrevoke
    · cases hrevoke
      exact .refl _
    · split at hrevoke
      · cases hrevoke
        exact .refl _
      · cases hrevoke
        exact SessionTable.update_zero_sub _
  | @revokeEpoch epoch count table hrevoke =>
    unfold sessionRevokeEpoch at hrevoke
    split at hrevoke
    · cases hrevoke
      exact .refl _
    · cases hrevoke
      exact SessionTable.zeroWhere_sub _
  | @revokeAll count table hrevoke =>
    cases hrevoke
    exact fun i hi => absurd hi (by simp [SessionRecord.zero])

/-- The same of a run that creates nothing. -/
theorem managerRun_sub {s : SessionManager} {ms : List ManagerMove} (h : IsRun (ManagerStep sha256) s ms)
    (hcreate : ∀ m ∈ ms, ∀ principal nowUs random c, m.ev ≠ .create principal nowUs random (.ok c)) :
    (final s ms).table.Sub s.table := by
  induction ms generalizing s with
  | nil => exact .refl _
  | cons m ms ih =>
    obtain ⟨rfl, hstep, hrun⟩ := h
    exact (ih hrun fun n hn => hcreate n (List.mem_cons_of_mem _ hn)).trans
      (hstep.sub (hcreate m List.mem_cons_self))

theorem IssuedIn.mono {ms ns : List ManagerMove} {c : SessionCredentials} (h : IssuedIn ms c)
    (hsub : ∀ m ∈ ms, m ∈ ns) : IssuedIn ns c :=
  let ⟨m, hm, hcreate⟩ := h
  ⟨m, hsub m hm, hcreate⟩

theorem SessionRecord.Keeps.of_same {a b : SessionRecord} {c : SessionCredentials}
    (h : b.Keeps sha256 c) (hsame : a.Same b) : a.Keeps sha256 c :=
  ⟨h.principal.trans hsame.principal.symm, hsame.tokenDigest ▸ h.token, hsame.csrfSecret.trans h.csrf, by
    rw [hsame.csrfDigest]
    exact h.secret⟩

/-- Sessions that the run has handed out stay so while some of them end. -/
theorem SessionsIssued.of_sub {ms : List ManagerMove} {m : ManagerMove} {s t : SessionManager}
    (h : SessionsIssued sha256 ms s) (hsub : t.table.Sub s.table) :
    SessionsIssued sha256 (ms ++ [m]) t := by
  intro i hi
  have hsame := hsub i hi
  obtain ⟨c, hissued, hkeeps⟩ := h i (hsame.occupied ▸ hi)
  exact ⟨c, hissued.mono fun _ => List.mem_append_left _, hkeeps.of_same hsame⟩

/-- **Every session in use** is one that a create of the run answered with, over every run. -/
theorem sessionsIssued_run {ms : List ManagerMove} (h : IsRun (ManagerStep sha256) freshManager ms) :
    SessionsIssued sha256 ms (final freshManager ms) := by
  refine h.inv_past_of (I := fun s ms => SessionsIssued sha256 ms s) (K := fun _ _ => True)
    (fun i hi => by cases hi) (fun _ _ _ _ => trivial) fun ns m hinv hstep _ => ?_
  by_cases hcreate : ∃ principal nowUs random c, m.ev = .create principal nowUs random (.ok c)
  · obtain ⟨principal, nowUs, random, c, hev⟩ := hcreate
    obtain ⟨s, ev, t⟩ := m
    cases hev
    cases hstep with
    | @create _ _ _ _ table _ _ hcreated =>
      dsimp only at hinv hcreated ⊢
      obtain ⟨index, record, rfl, hprincipal, hkeeps⟩ := sessionCreate_keeps hcreated
      intro i hi
      dsimp only at hi ⊢
      rw [Function.update_apply] at hi ⊢
      split at hi
      · next heq =>
        rw [if_pos heq]
        exact ⟨c, ⟨_, List.mem_append_right _ List.mem_cons_self, principal, nowUs, random, rfl,
          hprincipal⟩, hkeeps⟩
      · next hne =>
        rw [if_neg hne]
        have hsame := SessionTable.zeroWhere_sub _ i hi
        obtain ⟨c', hissued, hkeeps'⟩ := hinv i (hsame.occupied ▸ hi)
        exact ⟨c', hissued.mono fun _ => List.mem_append_left _, hkeeps'.of_same hsame⟩
  · exact hinv.of_sub (hstep.sub fun principal nowUs random c hev =>
      hcreate ⟨principal, nowUs, random, c, hev⟩)

end Manager

end Argus
