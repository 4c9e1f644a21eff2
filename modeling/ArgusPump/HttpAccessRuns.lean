import ArgusPump.HttpAccess

/-!
# Who gets past the access check

The check against the runs of the session manager and of the stores, with the other tasks
ending sessions and changing accounts between any two of its calls.

    the check says yes → the cookie and the CSRF secret are those of one login, still live, the
      account and the store are as that login read them, and the request came over the access
      point alone                                                       (http_access)
    the check says no → the cookie it refused opens nothing any more    (refused_token_dead)
-/

namespace Argus

open Interact Prog

/-- What the session manager and the stores have been called for. -/
structure AccessWorld where
  manager : List ManagerMove
  stores : List StoresMove

/-- The console credential's version, as `argus_security_store_get_console_verifier` reads it. -/
def consoleVersion (store : SecurityPayload) : Except EspErr UInt32 :=
  if store.consoleVerifierProvisioned = 0 then .error espErrNotFound
  else .ok store.consoleCredentialVersion

/-- `principal_current`, its two reads at different times. -/
def principalCurrentAcross (first second : SecurityStores) (principal : AuthorizationPrincipal) : Bool :=
  principalCurrent first.directory.payload (consoleVersion second.store)
    (if principal.type = .console then first.store.securityEpoch else second.store.securityEpoch)
    principal

namespace ManagerAct

/-- The call hands out credentials. -/
def Creates : ManagerAct → Prop
  | .create _ _ _ (.ok _) => True
  | _ => False

end ManagerAct

section World

variable (sha256 : List UInt8 → Option (Vector UInt8 32)) (store : SecurityPayload)

namespace AccessWorld

def table (w : AccessWorld) : SessionTable := (final freshManager w.manager).table

def securityStores (w : AccessWorld) : SecurityStores := final (freshStores store) w.stores

/-- The calls go on, and none of them hands out credentials. -/
def Goes (w w' : AccessWorld) : Prop :=
  ∃ ks js, w' = ⟨w.manager ++ ks, w.stores ++ js⟩ ∧
    IsRun (ManagerStep sha256) (final freshManager w.manager) ks ∧ (∀ m ∈ ks, ¬ m.ev.Creates) ∧
    IsRun StoresStep (final (freshStores store) w.stores) js

end AccessWorld

/-- A login as the principal, its first read after `l` and its second after `l ++ a`. -/
def LoginReads (l a : List StoresMove) (principal : AuthorizationPrincipal) : Prop :=
  ∃ username password refusal verify,
    authServiceAuthenticate (final (freshStores store) l).directory.payload
      (consoleVersion (final (freshStores store) l).store)
      (final (freshStores store) (l ++ a)).store.securityEpoch username password refusal verify =
        .ok principal

/-- The worlds that logins, which create sessions, and the other calls lead to. -/
inductive AccessReachable : AccessWorld → Prop
  | start : AccessReachable ⟨[], []⟩
  | goes {w w' : AccessWorld} : AccessReachable w → w.Goes sha256 store w' → AccessReachable w'
  | login {w : AccessWorld} {m : ManagerMove} {l a r : List StoresMove}
      {principal : AuthorizationPrincipal} {nowUs : UInt64} {random : Nat → EspErr × Vector UInt8 32}
      {result : Except EspErr SessionCredentials} :
      AccessReachable w → w.stores = l ++ a ++ r → LoginReads store l a principal →
      m.ev = .create principal nowUs random result →
      IsRun (ManagerStep sha256) (final freshManager w.manager) [m] →
      AccessReachable { w with manager := w.manager ++ [m] }

/-- What the calls of the check answer, after anything that the other tasks did before. -/
inductive AccessAnswers : (q : AccessCall) → AccessWorld → q.Answer → AccessWorld → Prop
  | netif {w w' : AccessWorld} {net : NetifView} : w.Goes sha256 store w' →
      AccessAnswers .netif w net w'
  | authenticate {w w' : AccessWorld} {m : ManagerMove} {token : Bytes} {nowUs : UInt64}
      {result : Except EspErr (AuthorizationPrincipal × Fin 8)} : w.Goes sha256 store w' →
      m.ev = .authenticate (some token) nowUs result →
      IsRun (ManagerStep sha256) (final freshManager w'.manager) [m] →
      AccessAnswers (.authenticate token) w result { w' with manager := w'.manager ++ [m] }
  | principalCurrent {w w' w'' : AccessWorld} {principal : AuthorizationPrincipal} :
      w.Goes sha256 store w' → w'.Goes sha256 store w'' →
      AccessAnswers (.principalCurrent principal) w
        (principalCurrentAcross (w'.securityStores store) (w''.securityStores store) principal) w''
  | revokeToken {w w' : AccessWorld} {m : ManagerMove} {token : Bytes} {found : Bool} :
      w.Goes sha256 store w' → m.ev = .revokeToken (some token) found →
      IsRun (ManagerStep sha256) (final freshManager w'.manager) [m] →
      AccessAnswers (.revokeToken token) w found { w' with manager := w'.manager ++ [m] }
  | csrfValid {w w' : AccessWorld} {index : Fin 8} {csrf : Bytes} : w.Goes sha256 store w' →
      AccessAnswers (.csrfValid index csrf) w (sessionCsrfValid sha256 w'.table index csrf) w'

end World

namespace AccessWorld

variable {sha256 : List UInt8 → Option (Vector UInt8 32)} {store : SecurityPayload} {w w' w'' : AccessWorld}

theorem Goes.refl (w : AccessWorld) : w.Goes sha256 store w :=
  ⟨[], [], by rw [List.append_nil, List.append_nil], trivial, by simp, trivial⟩

theorem Goes.trans (h : w.Goes sha256 store w') (h' : w'.Goes sha256 store w'') :
    w.Goes sha256 store w'' := by
  obtain ⟨ks, js, rfl, hks, hquiet, hjs⟩ := h
  obtain ⟨ks', js', rfl, hks', hquiet', hjs'⟩ := h'
  refine ⟨ks ++ ks', js ++ js', ?_, (isRun_append _ ks ks').mpr ⟨hks, ?_⟩, ?_,
    (isRun_append _ js js').mpr ⟨hjs, ?_⟩⟩
  · rw [List.append_assoc, List.append_assoc]
  · rw [← final_append]
    exact hks'
  · intro m hm
    rcases List.mem_append.mp hm with hm | hm
    · exact hquiet m hm
    · exact hquiet' m hm
  · rw [← final_append]
    exact hjs'

/-- One call of the session manager. -/
theorem Goes.call {m : ManagerMove} (hrun : IsRun (ManagerStep sha256) (final freshManager w.manager) [m])
    (hquiet : ¬ m.ev.Creates) : w.Goes sha256 store { w with manager := w.manager ++ [m] } :=
  ⟨[m], [], by rw [List.append_nil], hrun, by simpa using hquiet, trivial⟩

theorem Goes.manager_prefix (h : w.Goes sha256 store w') : w.manager <+: w'.manager := by
  obtain ⟨ks, js, rfl, -⟩ := h
  exact List.prefix_append _ _

theorem Goes.stores_prefix (h : w.Goes sha256 store w') : w.stores <+: w'.stores := by
  obtain ⟨ks, js, rfl, -⟩ := h
  exact List.prefix_append _ _

/-- Sessions only end while none is created. -/
theorem Goes.sub (h : w.Goes sha256 store w') : w'.table.Sub w.table := by
  obtain ⟨ks, js, rfl, hks, hquiet, -⟩ := h
  unfold table
  rw [final_append]
  refine managerRun_sub hks fun m hm principal nowUs random c hev => hquiet m hm ?_
  rw [hev]
  trivial

/-- What a reachable world knows of itself. -/
structure Valid (sha256 : List UInt8 → Option (Vector UInt8 32)) (store : SecurityPayload)
    (w : AccessWorld) : Prop where
  manager : IsRun (ManagerStep sha256) freshManager w.manager
  stores : IsRun StoresStep (freshStores store) w.stores
  login : ∀ c, IssuedIn w.manager c →
    ∃ l a r, w.stores = l ++ a ++ r ∧ LoginReads store l a c.principal

theorem Valid.goes (hw : w.Valid sha256 store) (h : w.Goes sha256 store w') : w'.Valid sha256 store := by
  obtain ⟨ks, js, rfl, hks, hquiet, hjs⟩ := h
  refine ⟨(isRun_append _ _ _).mpr ⟨hw.manager, hks⟩, (isRun_append _ _ _).mpr ⟨hw.stores, hjs⟩, ?_⟩
  rintro c ⟨m, hm, principal, nowUs, random, hev, hprincipal⟩
  rcases List.mem_append.mp hm with hm | hm
  · obtain ⟨l, a, r, hsplit, hreads⟩ := hw.login c ⟨m, hm, principal, nowUs, random, hev, hprincipal⟩
    refine ⟨l, a, r ++ js, ?_, hreads⟩
    rw [← List.append_assoc, ← hsplit]
  · refine absurd ?_ (hquiet m hm)
    rw [hev]
    trivial

theorem valid_of_reachable (h : AccessReachable sha256 store w) : w.Valid sha256 store := by
  induction h with
  | start => exact ⟨trivial, trivial, fun c ⟨m, hm, _⟩ => absurd hm List.not_mem_nil⟩
  | goes _ hgoes ih => exact ih.goes hgoes
  | @login w m l a r principal nowUs random result _ hsplit hreads hev hrun ih =>
    refine ⟨(isRun_append _ _ _).mpr ⟨ih.manager, hrun⟩, ih.stores, ?_⟩
    rintro c ⟨n, hn, principal', nowUs', random', hev', hprincipal⟩
    rcases List.mem_append.mp hn with hn | hn
    · exact ih.login c ⟨n, hn, principal', nowUs', random', hev', hprincipal⟩
    · cases List.mem_singleton.mp hn
      cases hev.symm.trans hev'
      exact ⟨l, a, r, hsplit, hprincipal ▸ hreads⟩

end AccessWorld

/-! ## What the check saw -/

/-- The request went to the access point's address, which the station does not share, from
another host of the access point's network. -/
structure FromSoftap (socket : RequestSocket) (net : NetifView) (localAddr peerAddr : UInt32) : Prop where
  open_ : socket.open_ = true
  sockname : socket.sockname.bind socketAddressIpv4 = some localAddr
  peername : socket.peername.bind socketAddressIpv4 = some peerAddr
  accessPoint : ∃ netmask, net.ap = some (localAddr, netmask) ∧
    peerAddr &&& netmask = localAddr &&& netmask
  unshared : net.sta ≠ some localAddr
  peer : localAddr ≠ 0 ∧ peerAddr ≠ 0 ∧ peerAddr ≠ localAddr

theorem softapPeer_eq_some {localAddr peerAddr peer : UInt32} {net : NetifView} {ip : Bytes}
    (h : softapPeer localAddr peerAddr net = some (peer, ip)) :
    peer = peerAddr ∧ ip = inetNtop localAddr ∧
      (∃ netmask, net.ap = some (localAddr, netmask) ∧ peerAddr &&& netmask = localAddr &&& netmask) ∧
      net.sta ≠ some localAddr ∧ localAddr ≠ 0 ∧ peerAddr ≠ 0 ∧ peerAddr ≠ localAddr := by
  unfold softapPeer at h
  split at h
  · cases h
  next hclass =>
  obtain ⟨hlocal, ⟨netmask, hap⟩, hsta⟩ := classifyInterface_softap.mp (not_not.mp hclass)
  rw [hap] at h
  dsimp only at h
  split at h
  · cases h
  next hpeer =>
  cases h
  rw [not_or, not_or, not_not] at hpeer
  exact ⟨rfl, rfl, ⟨netmask, hap, hpeer.1⟩, hsta, hlocal, hpeer.2.2, hpeer.2.1⟩

section Check

variable {sha256 : List UInt8 → Option (Vector UInt8 32)} {store : SecurityPayload}
  {req : HttpRequest} {required : PermissionSet} {mutation : Bool}

theorem socketIsSoftap_wpS {socket : RequestSocket} {w : AccessWorld}
    {post : Option (UInt32 × Bytes) → AccessWorld → Prop}
    (hnone : ∀ w', w.Goes sha256 store w' → post none w')
    (hsome : ∀ w' net localAddr peerAddr, w.Goes sha256 store w' →
      FromSoftap socket net localAddr peerAddr → post (some (peerAddr, inetNtop localAddr)) w') :
    (socketIsSoftap socket).wpS (AccessAnswers sha256 store) (fun _ _ => True) post w := by
  unfold socketIsSoftap
  split
  · exact hnone w (.refl w)
  next hopen =>
  split
  · next localAddr peerAddr hsock hpeer =>
    refine ⟨trivial, fun net w' hnet => ?_⟩
    cases hnet with
    | netif hgoes =>
      change post (softapPeer localAddr peerAddr net) w'
      cases hsoft : softapPeer localAddr peerAddr net with
      | none => exact hnone w' hgoes
      | some found =>
        obtain ⟨peer, ip⟩ := found
        obtain ⟨rfl, rfl, hap, hsta, hall⟩ := softapPeer_eq_some hsoft
        exact hsome w' net localAddr peer hgoes ⟨not_not.mp hopen, hsock, hpeer, hap, hsta, hall⟩
  · exact hnone w (.refl w)

/-- The route to a yes: the worlds `w₁` before the authentication `m`, `w₃` and `w₄` at the two
reads of the stores, and `w'` at the end. -/
structure AccessTrace (sha256 : List UInt8 → Option (Vector UInt8 32)) (store : SecurityPayload)
    (req : HttpRequest) (required : PermissionSet) (mutation : Bool) (w w' : AccessWorld)
    (ctx : HttpContext) (w₁ : AccessWorld) (m : ManagerMove) (nowUs : UInt64) (w₃ w₄ : AccessWorld) :
    Prop where
  softap : ∃ net localAddr, FromSoftap req.socket net localAddr ctx.peerKey
  cookie : httpSecurityCookie req.cookie = some ctx.sessionToken
  before : w.Goes sha256 store w₁
  authenticated : m.ev = .authenticate (some ctx.sessionToken) nowUs (.ok (ctx.principal, ctx.sessionIndex))
  run : IsRun (ManagerStep sha256) (final freshManager w₁.manager) [m]
  first : AccessWorld.Goes sha256 store { w₁ with manager := w₁.manager ++ [m] } w₃
  second : w₃.Goes sha256 store w₄
  current : principalCurrentAcross (w₃.securityStores store) (w₄.securityStores store) ctx.principal = true
  permitted : required ≠ 0 → authorizationRequire ctx.principal required = .allow
  ended : w₄.Goes sha256 store w'
  protected_ : mutation = true → jsonContentType req.contentType = true ∧
    (∃ net localAddr peerAddr, FromSoftap req.socket net localAddr peerAddr ∧
      originMatches (inetNtop localAddr) req.origin req.host = true) ∧
    ∃ csrf w₅, headerExact req.csrf 65 = some csrf ∧ w₄.Goes sha256 store w₅ ∧
      sessionCsrfValid sha256 w₅.table ctx.sessionIndex csrf = true

/-- What the check leaves, by its answer: a yes has gone all the way, and a cookie that opens no
session is revoked. -/
def AccessOutcome (sha256 : List UInt8 → Option (Vector UInt8 32)) (store : SecurityPayload)
    (req : HttpRequest) (required : PermissionSet) (mutation : Bool) (w : AccessWorld)
    (a : Except HttpAccess HttpContext) (w' : AccessWorld) : Prop :=
  match a with
  | .ok ctx =>
    ∃ w₁ m nowUs w₃ w₄, AccessTrace sha256 store req required mutation w w' ctx w₁ m nowUs w₃ w₄
  | .error .unauthenticated =>
    ∀ token, httpSecurityCookie req.cookie = some token →
      ∃ l m found, w'.manager = l ++ [m] ∧ m.ev = .revokeToken (some token) found
  | .error _ => True

/-- **The check**, whatever the other tasks do. -/
theorem httpSecurityRequire_wpS (w : AccessWorld) :
    (httpSecurityRequire req required mutation).wpS (AccessAnswers sha256 store) (fun _ _ => True)
      (AccessOutcome sha256 store req required mutation w) w := by
  unfold httpSecurityRequire
  refine (wpS_bind _ _ _ _ _).mpr (socketIsSoftap_wpS (fun _ _ => trivial) ?_)
  intro w₀ net localAddr peerAddr hgoes₀ hsoft
  dsimp only
  split
  · next hcookie => exact fun token htoken => by cases hcookie.symm.trans htoken
  next token hcookie =>
  -- a token that is not let in is revoked on the way out
  have hrevoke (w₂ : AccessWorld) : (AccessCall.call (.revokeToken token) >>= fun _ =>
      (.ret (.error .unauthenticated) : AccessProg (Except HttpAccess HttpContext))).wpS
        (AccessAnswers sha256 store) (fun _ _ => True)
        (AccessOutcome sha256 store req required mutation w) w₂ := by
    refine ⟨trivial, fun found w' hanswer => ?_⟩
    cases hanswer with
    | @revokeToken _ w₃ m _ _ _ hev _ =>
      intro token' htoken'
      cases hcookie.symm.trans htoken'
      exact ⟨w₃.manager, m, found, rfl, hev⟩
  refine ⟨trivial, fun result w₂ hauth => ?_⟩
  cases hauth with
  | @authenticate w w₁ m token nowUs result hgoes₁ hev hrun =>
  cases result with
  | error err => exact hrevoke _
  | ok found =>
  obtain ⟨principal, index⟩ := found
  refine ⟨trivial, fun current w₄ hcurrent => ?_⟩
  generalize hw₂ : ({ w₁ with manager := w₁.manager ++ [m] } : AccessWorld) = w₂ at hcurrent
  cases hcurrent with
  | @principalCurrent _ w₃ _ principal hfirst hsecond =>
  subst hw₂
  dsimp only [Prog.bind]
  split
  · exact hrevoke _
  next hcurrent =>
  split
  · exact trivial
  next hpermitted =>
  have hallow (hne : required ≠ 0) : authorizationRequire principal required = .allow := by
    by_contra hdeny
    exact hpermitted ⟨hne, hdeny⟩
  have htrace (w' : AccessWorld) (hend : w₄.Goes sha256 store w')
      (hprotected : mutation = true → jsonContentType req.contentType = true ∧
        (∃ net localAddr peerAddr, FromSoftap req.socket net localAddr peerAddr ∧
          originMatches (inetNtop localAddr) req.origin req.host = true) ∧
        ∃ csrf w₅, headerExact req.csrf 65 = some csrf ∧ w₄.Goes sha256 store w₅ ∧
          sessionCsrfValid sha256 w₅.table index csrf = true) :
      AccessOutcome sha256 store req required mutation w (.ok ⟨principal, index, peerAddr, token⟩) w' :=
    ⟨w₁, m, nowUs, w₃, w₄, ⟨net, localAddr, hsoft⟩, hcookie, hgoes₀.trans hgoes₁, hev, hrun, hfirst,
      hsecond, not_not.mp hcurrent, hallow, hend, hprotected⟩
  split
  · next hread => exact htrace w₄ (.refl w₄) fun hmut => absurd hmut hread
  split
  · exact trivial
  next hjson =>
  refine (wpS_bind _ _ _ _ _).mpr ?_
  unfold httpSecurityOrigin
  refine (wpS_bind _ _ _ _ _).mpr (socketIsSoftap_wpS (fun _ _ => trivial) ?_)
  intro w₅ net' localAddr' peerAddr' hgoes₅ hsoft'
  change Prog.wpS _ _ _ (if ¬ originMatches (inetNtop localAddr') req.origin req.host = true then _ else _) w₅
  split
  · exact trivial
  next horigin =>
  split
  · exact trivial
  next csrf hheader =>
  refine ⟨trivial, fun valid w₆ hanswer => ?_⟩
  cases hanswer with
  | csrfValid hgoes₆ =>
  dsimp only [Prog.bind]
  split
  · exact trivial
  next hvalid =>
  refine htrace w₆ (hgoes₅.trans hgoes₆) fun _ => ⟨not_not.mp hjson, ?_, ?_⟩
  · exact ⟨net', localAddr', peerAddr', hsoft', not_not.mp horigin⟩
  · exact ⟨csrf, w₆, hheader, hgoes₅.trans hgoes₆, not_not.mp hvalid⟩

/-- What a call of the check answers, after calls that hand out nothing. -/
theorem AccessAnswers.goes {q : AccessCall} {w w' : AccessWorld} {r : q.Answer}
    (h : AccessAnswers sha256 store q w r w') : w.Goes sha256 store w' := by
  cases h with
  | netif hgoes => exact hgoes
  | authenticate hgoes hev hrun => exact hgoes.trans (.call hrun (by rw [hev]; exact id))
  | principalCurrent hfirst hsecond => exact hfirst.trans hsecond
  | revokeToken hgoes hev hrun => exact hgoes.trans (.call hrun (by rw [hev]; exact id))
  | csrfValid hgoes => exact hgoes

theorem AccessWorld.Goes.of_exec {α : Type} {p : AccessProg α} {w w' : AccessWorld}
    {tr : List (Σ q, AccessCall.Answer q)} {a : α} (h : Exec (AccessAnswers sha256 store) p w tr a w') :
    w.Goes sha256 store w' := by
  induction h with
  | ret a w => exact .refl w
  | ask hanswer _ ih => exact hanswer.goes.trans ih

/-! ## The session behind a yes -/

/-- The digest tells the CSRF secrets that were handed out from what is sent in their place. -/
def CsrfFree (sha256 : List UInt8 → Option (Vector UInt8 32)) (ms : List ManagerMove) (csrf : Bytes) :
    Prop :=
  ∀ c, IssuedIn ms c → ∀ issued given, tokenSecret c.csrf = some issued → tokenSecret csrf = some given →
    sha256 given = some ((sha256 issued).getD (.replicate 32 0)) → given = issued

/-- The session of an authentication that succeeds is of credentials that were handed out with
the token it was given. -/
theorem authenticate_issued {w : AccessWorld} {m : ManagerMove} {token : Bytes} {nowUs : UInt64}
    {principal : AuthorizationPrincipal} {index : Fin 8}
    (hw : IsRun (ManagerStep sha256) freshManager w.manager)
    (hrun : IsRun (ManagerStep sha256) (final freshManager w.manager) [m])
    (hev : m.ev = .authenticate (some token) nowUs (.ok (principal, index)))
    (hfree : CollisionFree sha256 (w.manager ++ [m])) :
    ∃ c, IssuedIn (w.manager ++ [m]) c ∧ c.token = token ∧ c.principal = principal ∧
      (m.post.table index).occupied = true ∧ (m.post.table index).Keeps sha256 c := by
  have hissued := sessionsIssued_run ((isRun_append _ _ _).mpr ⟨hw, hrun⟩)
  rw [final_append] at hissued
  obtain ⟨-, hstep, -⟩ := hrun
  obtain ⟨s, ev, t⟩ := m
  cases hev
  change SessionsIssued sha256 _ t at hissued
  dsimp only at hstep ⊢
  cases hstep with
  | @authenticate _ _ _ table _ _ hauth =>
  rcases sessionAuthenticate_cases hauth with ⟨err, herr, -⟩ |
    ⟨used, digest, index', hused, hdigest, hkey, hok, rfl⟩
  · cases herr
  cases hused
  cases hok
  have hoccupied := SessionRecord.occupied_of_key hkey
  have hrecord : (Function.update (s.table.sweep nowUs) index
      { s.table.sweep nowUs index with lastActivityUs := nowUs }) index =
        { s.table.sweep nowUs index with lastActivityUs := nowUs } := Function.update_self ..
  obtain ⟨c, hin, hkeeps⟩ := hissued index (by
    dsimp only
    rw [hrecord]
    exact hoccupied)
  dsimp only at hkeeps ⊢
  rw [hrecord] at hkeeps ⊢
  have hdigest' : (s.table.sweep nowUs index).tokenDigest = digest := by
    unfold SessionRecord.key at hkey
    rw [hoccupied, if_pos rfl] at hkey
    exact Option.some.inj hkey
  have htoken : c.token = token := by
    obtain ⟨n, hn, principal', nowUs', random, hcreate, -⟩ := hin
    refine hfree.token_inj ⟨n, hn, by rw [hcreate]; rfl⟩
      ⟨_, List.mem_append_right _ List.mem_cons_self, rfl⟩ hkeeps.token ?_
    rw [hdigest]
    exact congrArg some hdigest'.symm
  exact ⟨c, hin, htoken, hkeeps.principal, hoccupied, hkeeps⟩

/-- What passes for the CSRF secret of a session is the one that was handed out with it. -/
theorem csrf_issued {ms : List ManagerMove} {table : SessionTable} {index : Fin 8} {csrf : Bytes}
    {c : SessionCredentials} (hissued : IssuedIn ms c) (hkeeps : (table index).Keeps sha256 c)
    (hfree : CsrfFree sha256 ms csrf) (hvalid : sessionCsrfValid sha256 table index csrf = true) :
    csrf = c.csrf := by
  unfold sessionCsrfValid at hvalid
  rw [Bool.and_eq_true, decide_eq_true_eq] at hvalid
  obtain ⟨secret, hcsrf, hdigest⟩ := hkeeps.secret
  obtain ⟨given, hgiven, hsha⟩ := Option.bind_eq_some_iff.mp hvalid.2
  have htoken : tokenSecret c.csrf = some secret.toList := by
    rw [hcsrf]
    exact tokenSecret_hexEncode secret
  rw [hdigest] at hsha
  have hsame := hfree c hissued _ _ htoken hgiven hsha
  rw [hsame] at hgiven
  exact tokenSecret_inj hgiven htoken

/-- A console's login has the epoch it read. -/
theorem authServiceAuthenticate_console {directory : SecurityDirectoryPayload}
    {console : Except EspErr UInt32} {securityEpoch : UInt32} {username password : List UInt8}
    {refusal : Option LoginResult} {verify : Except EspErr Bool} {principal : AuthorizationPrincipal}
    (h : authServiceAuthenticate directory console securityEpoch username password refusal verify =
      .ok principal) (htype : principal.type = .console) : principal.securityEpoch = securityEpoch := by
  unfold authServiceAuthenticate at h
  split at h
  · cases h
  split at h
  · cases h
  split at h
  · cases h
  · cases h
  split at h
  · split at h
    · cases h
    split at h
    · cases h
    cases h
    rfl
  · split at h
    · cases h
    split at h
    · cases h
    split at h
    · cases h
    next hbuilt =>
    cases h
    unfold buildHumanPrincipal at hbuilt
    split at hbuilt
    · cases hbuilt
    split at hbuilt
    · cases hbuilt
    dsimp only at hbuilt
    split at hbuilt
    · cases hbuilt
      cases htype
    · cases hbuilt

theorem principalCurrent_console {directory : SecurityDirectoryPayload} {console : Except EspErr UInt32}
    {securityEpoch : UInt32} {principal : AuthorizationPrincipal} (htype : principal.type = .console)
    (h : principalCurrent directory console securityEpoch principal = true) :
    securityEpoch = principal.securityEpoch := by
  unfold principalCurrent at h
  rw [htype] at h
  dsimp only at h
  split at h
  · cases h
  · simp only [Bool.and_eq_true, decide_eq_true_eq] at h
    exact h.1.2

/-- The principal's login, as the stores were when `w'` was reached, and how they were between
the request's arrival in `w` and the end: a human's account as the login read it but for its
name, with the permissions of now, and the store as the login read it. -/
def StillLoggedIn (store : SecurityPayload) (w w' : AccessWorld) (principal : AuthorizationPrincipal) :
    Prop :=
  ∃ l a k b r, w'.stores = l ++ a ++ k ++ b ++ r ∧ w.stores <+: l ++ a ++ k ∧
    LoginReads store l a principal ∧
    (principal.type = .human →
      (∀ m ∈ a ++ k, ¬ m.Ends (cString principal.identifier)) ∧
      (∀ m ∈ k ++ b, m.commitsStore = false) ∧
      ∃ human, (final (freshStores store) (l ++ a ++ k)).directory.payload.find
          (cString principal.identifier) = some human ∧
        principal.permissions =
          humanPermissions (final (freshStores store) (l ++ a ++ k)).directory.payload human) ∧
    (principal.type = .console → ∀ m ∈ k, m.commitsStore = false)

/-- What an authentication opened in a run belongs to a live grant. -/
theorem granted_of_authenticate {l r : List ManagerMove} {m : ManagerMove} {token : Bytes} {nowUs : UInt64}
    {principal : AuthorizationPrincipal} {index : Fin 8}
    (h : IsRun (ManagerStep sha256) freshManager (l ++ m :: r))
    (hfree : CollisionFree sha256 (l ++ m :: r))
    (hev : m.ev = .authenticate (some token) nowUs (.ok (principal, index))) :
    ∃ g, TokenIssued token l g ∧ g.Live nowUs ∧ g.principal = principal := by
  rw [isRun_append, isRun_cons] at h
  obtain ⟨hrun, hpre, hstep, -⟩ := h
  rw [List.append_cons] at hfree
  have hinv := tableInv_run hrun hfree.of_append.of_append
  obtain ⟨pre, ev, post⟩ := m
  cases hev
  cases hpre
  exact (hinv.authenticate hstep hfree.of_append principal).mp ⟨index, rfl⟩

/-- A yes, and whose request it answers. -/
structure Admitted (sha256 : List UInt8 → Option (Vector UInt8 32)) (store : SecurityPayload)
    (req : HttpRequest) (required : PermissionSet) (mutation : Bool) (w w' : AccessWorld)
    (ctx : HttpContext) (c : SessionCredentials) : Prop where
  softap : ∃ net localAddr, FromSoftap req.socket net localAddr ctx.peerKey
  issued : IssuedIn w'.manager c ∧ c.principal = ctx.principal
  cookie : httpSecurityCookie req.cookie = some c.token
  live : ∃ l m r nowUs g, w'.manager = l ++ m :: r ∧ w.manager <+: l ∧
    m.ev = .authenticate (some c.token) nowUs (.ok (ctx.principal, ctx.sessionIndex)) ∧
    TokenIssued c.token l g ∧ g.Live nowUs ∧ g.principal = ctx.principal
  current : StillLoggedIn store w w' ctx.principal
  permitted : required ≠ 0 → authorizationRequire ctx.principal required = .allow
  csrf : mutation = true → headerExact req.csrf 65 = some c.csrf
  origin : mutation = true → jsonContentType req.contentType = true ∧
    ∃ net localAddr peerAddr, FromSoftap req.socket net localAddr peerAddr ∧
      originMatches (inetNtop localAddr) req.origin req.host = true

/-- A human that both readings after a login find current: nothing has ended its sessions. -/
theorem human_of_current {l a k b : List StoresMove} (hstore : store.valid = true)
    (h : IsRun StoresStep (freshStores store) (l ++ a ++ k ++ b))
    (hgen : 1 + (l ++ a ++ k ++ b).countP StoresMove.commitsDirectory < 2 ^ 32)
    (hepoch : 1 + (l ++ a ++ k ++ b).countP StoresMove.commitsStore < 2 ^ 32)
    {console console' : Except EspErr UInt32} {username password : List UInt8}
    {refusal : Option LoginResult} {verify : Except EspErr Bool} {principal : AuthorizationPrincipal}
    (hlogin : authServiceAuthenticate (final (freshStores store) l).directory.payload console
      (final (freshStores store) (l ++ a)).store.securityEpoch username password refusal verify =
        .ok principal)
    (htype : principal.type = .human)
    (hcurrent : principalCurrent (final (freshStores store) (l ++ a ++ k)).directory.payload console'
      (final (freshStores store) (l ++ a ++ k ++ b)).store.securityEpoch principal = true) :
    (∀ m ∈ a ++ k, ¬ m.Ends (cString principal.identifier)) ∧ (∀ m ∈ k ++ b, m.commitsStore = false) ∧
      ∃ human, (final (freshStores store) (l ++ a ++ k)).directory.payload.find
          (cString principal.identifier) = some human ∧
        principal.permissions =
          humanPermissions (final (freshStores store) (l ++ a ++ k)).directory.payload human := by
  have hsession := ((isRun_append _ (l ++ a ++ k) b).mp h).1
  rw [List.append_assoc l a k] at hsession
  have hl := ((isRun_append _ l (a ++ k)).mp hsession).1
  obtain ⟨account, haccount, husable, hversion, hrevision, hpermissions, hstatus⟩ :=
    authServiceAuthenticate_human (stores_run_valid hl hstore).2.1 hlogin htype
  have hgen' : 1 + (l ++ (a ++ k)).countP StoresMove.commitsDirectory < 2 ^ 32 := by
    rw [← List.append_assoc]
    rw [List.countP_append] at hgen
    omega
  obtain ⟨hends, hkept⟩ := session_account hsession hstore hgen' haccount
  rw [principalCurrent_human htype, hstatus, hversion, hrevision] at hcurrent
  obtain ⟨now, hnow, -, -, hsame, hepochs⟩ := hcurrent
  rw [List.append_assoc l a k] at hnow
  have hnone := hends.mp ⟨now, hnow, hsame⟩
  refine ⟨hnone, ?_, ?_⟩
  · rw [List.append_assoc _ k b] at h hepoch hepochs
    exact (session_epoch h hstore hepoch).mp hepochs
  · obtain ⟨human, hfind, hpermitted⟩ := Option.map_eq_some_iff.mp (hkept hnone)
    rw [← List.append_assoc] at hfind
    refine ⟨human, hfind, hpermissions.trans ?_⟩
    rw [← congrArg HumanAccount.permissions hpermitted, List.append_assoc l a k]
    rfl

theorem stillLoggedIn_of_current (hstore : store.valid = true) {w w₃ w₄ w' : AccessWorld}
    {c : SessionCredentials} (hw : w₃.Valid sha256 store) (hissued : IssuedIn w₃.manager c)
    (hbefore : w.Goes sha256 store w₃) (hsecond : w₃.Goes sha256 store w₄)
    (hend : w₄.Goes sha256 store w')
    (hgen : 1 + w'.stores.countP StoresMove.commitsDirectory < 2 ^ 32)
    (hepoch : 1 + w'.stores.countP StoresMove.commitsStore < 2 ^ 32)
    (hcurrent : principalCurrentAcross (w₃.securityStores store) (w₄.securityStores store) c.principal = true) :
    StillLoggedIn store w w' c.principal := by
  obtain ⟨l, a, k, hsplit, hlogin⟩ := hw.login c hissued
  have hw₄ := hw.goes hsecond
  obtain ⟨b, hb⟩ := hsecond.stores_prefix
  obtain ⟨r, hr⟩ := hend.stores_prefix
  have hrun := hw₄.stores
  rw [← hr, List.countP_append] at hgen hepoch
  rw [← hb, hsplit] at hrun hgen hepoch hr
  unfold principalCurrentAcross AccessWorld.securityStores at hcurrent
  rw [← hb, hsplit] at hcurrent
  refine ⟨l, a, k, b, r, hr.symm, hsplit ▸ hbefore.stores_prefix, hlogin, fun htype => ?_, fun htype => ?_⟩
  · obtain ⟨username, password, refusal, verify, hlogin⟩ := hlogin
    rw [if_neg (by rw [htype]; decide)] at hcurrent
    exact human_of_current hstore hrun (by omega) (by omega) hlogin htype hcurrent
  · obtain ⟨username, password, refusal, verify, hlogin⟩ := hlogin
    rw [if_pos htype] at hcurrent
    have hsame := principalCurrent_console htype hcurrent
    rw [authServiceAuthenticate_console hlogin htype] at hsame
    rw [List.countP_append] at hepoch
    exact (session_epoch ((isRun_append _ _ _).mp hrun).1 hstore (by omega)).mp hsame

theorem admitted_of_exec (hstore : store.valid = true) {w w' : AccessWorld}
    (hw : AccessReachable sha256 store w) {tr : List (Σ q, AccessCall.Answer q)} {ctx : HttpContext}
    (h : Exec (AccessAnswers sha256 store) (httpSecurityRequire req required mutation) w tr (.ok ctx) w')
    (hfree : CollisionFree sha256 w'.manager)
    (hcsrf : ∀ csrf, headerExact req.csrf 65 = some csrf → CsrfFree sha256 w'.manager csrf)
    (hgen : 1 + w'.stores.countP StoresMove.commitsDirectory < 2 ^ 32)
    (hepoch : 1 + w'.stores.countP StoresMove.commitsStore < 2 ^ 32) :
    ∃ c, Admitted sha256 store req required mutation w w' ctx c := by
  have hvalid := AccessWorld.valid_of_reachable hw
  have hvalid' := hvalid.goes (.of_exec h)
  obtain ⟨w₁, m, nowUs, w₃, w₄, htrace⟩ := h.of_wpS (httpSecurityRequire_wpS w)
  have hvalid₁ := hvalid.goes htrace.before
  have hquiet : ¬ m.ev.Creates := by
    rw [htrace.authenticated]
    exact id
  have hgoes₂ : w₁.Goes sha256 store { w₁ with manager := w₁.manager ++ [m] } := .call htrace.run hquiet
  have hgoes' := htrace.first.trans (htrace.second.trans htrace.ended)
  obtain ⟨r, hr⟩ := hgoes'.manager_prefix
  obtain ⟨c, hissued, htoken, hprincipal, hoccupied, hkeeps⟩ :=
    authenticate_issued hvalid₁.manager htrace.run htrace.authenticated
      (CollisionFree.of_append (r := r) (hr ▸ hfree))
  have hissued' : IssuedIn w'.manager c := hissued.mono fun n hn => hr ▸ List.mem_append_left r hn
  have hsplit : w'.manager = w₁.manager ++ m :: r := by
    rw [← hr, List.append_assoc]
    rfl
  have hauth := htrace.authenticated
  rw [← htoken] at hauth
  refine ⟨c, htrace.softap, ⟨hissued', hprincipal⟩, htoken ▸ htrace.cookie, ?_, ?_, htrace.permitted,
    fun hmut => ?_, fun hmut => ?_⟩
  · obtain ⟨g, htokenIssued, hlive, hg⟩ :=
      granted_of_authenticate (hsplit ▸ hvalid'.manager) (hsplit ▸ hfree) hauth
    exact ⟨w₁.manager, m, r, nowUs, g, hsplit, htrace.before.manager_prefix, hauth, htokenIssued, hlive, hg⟩
  · have hissued₃ : IssuedIn w₃.manager c :=
      hissued.mono fun n hn => htrace.first.manager_prefix.subset hn
    have hcurrent := htrace.current
    rw [← hprincipal] at hcurrent ⊢
    exact stillLoggedIn_of_current hstore ((hvalid₁.goes hgoes₂).goes htrace.first) hissued₃
      (htrace.before.trans (hgoes₂.trans htrace.first)) htrace.second htrace.ended hgen hepoch hcurrent
  · obtain ⟨-, -, csrf, w₅, hheader, hgoes₅, hcsrfValid⟩ := htrace.protected_ hmut
    have hgoes := htrace.first.trans (htrace.second.trans hgoes₅)
    have htable : AccessWorld.table { w₁ with manager := w₁.manager ++ [m] } = m.post.table := by
      unfold AccessWorld.table
      rw [final_append]
      rfl
    have hsame := hgoes.sub ctx.sessionIndex (by
      unfold sessionCsrfValid at hcsrfValid
      exact (Bool.and_eq_true_iff.mp hcsrfValid).1)
    rw [htable] at hsame
    rw [hheader, csrf_issued hissued' (hkeeps.of_same hsame) (hcsrf csrf hheader) hcsrfValid]
  · exact ⟨(htrace.protected_ hmut).1, (htrace.protected_ hmut).2.1⟩

theorem socketIsSoftap_exec {socket : RequestSocket} {net : NetifView} {localAddr peerAddr : UInt32}
    (hsoft : FromSoftap socket net localAddr peerAddr) (w : AccessWorld) :
    Exec (AccessAnswers sha256 store) (socketIsSoftap socket) w [⟨.netif, net⟩]
      (some (peerAddr, inetNtop localAddr)) w := by
  obtain ⟨netmask, hap, hmask⟩ := hsoft.accessPoint
  have hpeer : softapPeer localAddr peerAddr net = some (peerAddr, inetNtop localAddr) := by
    unfold softapPeer
    rw [if_neg (not_not.mpr (classifyInterface_softap.mpr
      ⟨hsoft.peer.1, ⟨netmask, hap⟩, hsoft.unshared⟩)), hap]
    dsimp only
    rw [if_neg]
    rintro (hne | hlocal | hzero)
    · exact hne hmask
    · exact hsoft.peer.2.2 hlocal
    · exact hsoft.peer.2.1 hzero
  unfold socketIsSoftap
  rw [if_neg (not_not.mpr hsoft.open_), hsoft.sockname, hsoft.peername]
  dsimp only
  refine .ask (.netif (.refl w)) ?_
  change Exec _ (.ret (softapPeer localAddr peerAddr net)) _ _ _ _
  rw [hpeer]
  exact .ret _ _

/-- A request with nothing wrong, made for the credentials `c` of the session `g` at `nowUs`. -/
structure Presents (sha256 : List UInt8 → Option (Vector UInt8 32)) (store : SecurityPayload)
    (req : HttpRequest) (required : PermissionSet) (mutation : Bool) (w : AccessWorld)
    (c : SessionCredentials) (g : SessionGrant) (nowUs : UInt64) : Prop where
  softap : ∃ net localAddr peerAddr, FromSoftap req.socket net localAddr peerAddr ∧
    (mutation = true → originMatches (inetNtop localAddr) req.origin req.host = true)
  cookie : httpSecurityCookie req.cookie = some c.token
  once : ∀ c', IssuedIn w.manager c' → c'.token = c.token → c' = c
  granted : TokenIssued c.token w.manager g
  live : g.Live nowUs
  clock : (final freshManager w.manager).nowUs ≤ nowUs
  started : nowUs ≠ 0
  current : principalCurrentAcross (w.securityStores store) (w.securityStores store) c.principal = true
  permitted : required ≠ 0 → authorizationRequire c.principal required = .allow
  json : mutation = true → jsonContentType req.contentType = true
  csrf : mutation = true → headerExact req.csrf 65 = some c.csrf
  digests : mutation = true → (digestSecret sha256 c.csrf).isSome = true

/-- A live session of a request that nothing is wrong with is let in. -/
theorem http_session_opens {w : AccessWorld} (hw : AccessReachable sha256 store w)
    (hfree : CollisionFree sha256 w.manager) {c : SessionCredentials} {g : SessionGrant} {nowUs : UInt64}
    (hreq : Presents sha256 store req required mutation w c g nowUs) :
    ∃ tr m, ∃ ctx : HttpContext, m.ev.token? = some c.token ∧ ¬ m.ev.Creates ∧ ctx.principal = c.principal ∧
      Exec (AccessAnswers sha256 store) (httpSecurityRequire req required mutation) w tr (.ok ctx)
        { w with manager := w.manager ++ [m] } := by
  obtain ⟨⟨net, localAddr, peerAddr, hsoft, horigin⟩, hcookie, honce, hgrant, hlive, hnow, hzero, hcurrent,
    hpermitted, hjson, hcsrf, hdigest⟩ := hreq
  have hvalid := AccessWorld.valid_of_reachable hw
  let answer := sessionAuthenticate sha256 (final freshManager w.manager).table (some c.token) nowUs
  let m : ManagerMove := ⟨final freshManager w.manager, .authenticate (some c.token) nowUs answer.1,
    ⟨answer.2, nowUs⟩⟩
  have hstep : ManagerStep sha256 m.pre m.ev m.post := .authenticate hnow hzero rfl
  have hrun : IsRun (ManagerStep sha256) (final freshManager w.manager) [m] := ⟨rfl, hstep, trivial⟩
  have hfree' : CollisionFree sha256 (w.manager ++ [m]) := by
    obtain ⟨n₀, hn₀, htoken₀⟩ := hgrant.token_mem
    have hin (n : ManagerMove) (token : Bytes) (hn : n ∈ w.manager ++ [m])
        (htoken : n.ev.token? = some token) : ∃ n' ∈ w.manager, n'.ev.token? = some token := by
      rcases List.mem_append.mp hn with hn | hn
      · exact ⟨n, hn, htoken⟩
      · cases List.mem_singleton.mp hn
        cases htoken
        exact ⟨n₀, hn₀, htoken₀⟩
    intro n hn n' hn' token token' secret secret' digest ht ht'
    obtain ⟨k, hk, hkt⟩ := hin n token hn ht
    obtain ⟨k', hk', hkt'⟩ := hin n' token' hn' ht'
    exact hfree k hk k' hk' token token' secret secret' digest hkt hkt'
  obtain ⟨index, hok⟩ := ((tableInv_run hvalid.manager hfree).authenticate hstep hfree' g.principal).mpr
    ⟨g, hgrant, hlive, rfl⟩
  have hev : m.ev = .authenticate (some c.token) nowUs (.ok (g.principal, index)) := by rw [← hok]
  obtain ⟨c', hissued, htoken, hprincipal, hoccupied, hkeeps⟩ :=
    authenticate_issued hvalid.manager hrun hev hfree'
  have hissued' : IssuedIn w.manager c' := by
    obtain ⟨n, hn, principal, nowUs', random, hcreate, hsame⟩ := hissued
    rcases List.mem_append.mp hn with hn | hn
    · exact ⟨n, hn, principal, nowUs', random, hcreate, hsame⟩
    · cases List.mem_singleton.mp hn
      cases hcreate
  cases honce c' hissued' htoken
  let w₁ : AccessWorld := { w with manager := w.manager ++ [m] }
  have hvalidCsrf (hmut : mutation = true) : sessionCsrfValid sha256 w₁.table index c.csrf = true := by
    have htable : w₁.table = m.post.table := by
      change (final freshManager (w.manager ++ [m])).table = m.post.table
      rw [final_append]
      rfl
    unfold sessionCsrfValid
    rw [htable, hoccupied, Bool.true_and, decide_eq_true_eq]
    obtain ⟨secret, hsecret, hcsrfDigest⟩ := hkeeps.secret
    have hdigest := hdigest hmut
    unfold digestSecret at hdigest ⊢
    rw [hsecret, tokenSecret_hexEncode, Option.bind_some] at hdigest ⊢
    rw [hcsrfDigest]
    obtain ⟨d, hd⟩ := Option.isSome_iff_exists.mp hdigest
    rw [hd]
    rfl
  rw [← hprincipal] at hev
  have hstores : w₁.securityStores store = w.securityStores store := rfl
  have hask : AccessAnswers sha256 store (.principalCurrent c.principal) w₁ true w₁ := by
    rw [← hstores] at hcurrent
    have hgoes : w₁.Goes sha256 store w₁ := .refl w₁
    have hanswer : AccessAnswers sha256 store (.principalCurrent c.principal) w₁ _ w₁ :=
      .principalCurrent hgoes hgoes
    rwa [hcurrent] at hanswer
  have hcsrfAsk (hmut : mutation = true) :
      AccessAnswers sha256 store (.csrfValid index c.csrf) w₁ true w₁ :=
    hvalidCsrf hmut ▸ .csrfValid (.refl w₁)
  have hallow : ¬ (required ≠ 0 ∧ authorizationRequire c.principal required ≠ .allow) :=
    fun h => h.2 (hpermitted h.1)
  let asked : List (Σ q, AccessCall.Answer q) := [⟨.netif, net⟩]
  have horigin' (hmut : mutation = true) :
      Exec (AccessAnswers sha256 store) (httpSecurityOrigin req) w₁ asked true w₁ := by
    unfold httpSecurityOrigin
    rw [← List.append_nil asked]
    refine (socketIsSoftap_exec hsoft w₁).bind ?_
    change Exec _ (.ret (originMatches (inetNtop localAddr) req.origin req.host)) _ _ _ _
    rw [horigin hmut]
    exact .ret _ _
  let guarded : List (Σ q, AccessCall.Answer q) :=
    if mutation then asked ++ [⟨.csrfValid index c.csrf, true⟩] else []
  refine ⟨asked ++ ⟨.authenticate c.token, .ok (c.principal, index)⟩ ::
    ⟨.principalCurrent c.principal, true⟩ :: guarded, m, ⟨c.principal, index, peerAddr, c.token⟩, rfl, id,
    rfl, ?_⟩
  unfold httpSecurityRequire
  refine (socketIsSoftap_exec hsoft w).bind ?_
  dsimp only
  rw [hcookie]
  refine .ask (.authenticate (.refl w) hev hrun) (.ask hask ?_)
  dsimp only [Prog.bind]
  rw [if_neg (not_not.mpr rfl), if_neg hallow]
  cases mutation with
  | false => exact .ret _ _
  | true =>
    rw [if_neg (not_not.mpr rfl), if_neg (not_not.mpr (hjson rfl))]
    refine (horigin' rfl).bind ?_
    rw [if_neg (not_not.mpr rfl), hcsrf rfl]
    exact .ask (hcsrfAsk rfl) (.ret _ _)

/-- **Who gets past the access check**, over every run of logins, other calls and changes of
accounts, whatever happens between the calls of the check: whoever does holds credentials of a
login that still counts, and a request with nothing wrong is let in. -/
theorem http_access (hstore : store.valid = true) {w : AccessWorld} (hw : AccessReachable sha256 store w) :
    (∀ tr (ctx : HttpContext) w',
      Exec (AccessAnswers sha256 store) (httpSecurityRequire req required mutation) w tr (.ok ctx) w' →
      CollisionFree sha256 w'.manager →
      (∀ csrf, headerExact req.csrf 65 = some csrf → CsrfFree sha256 w'.manager csrf) →
      1 + w'.stores.countP StoresMove.commitsDirectory < 2 ^ 32 →
      1 + w'.stores.countP StoresMove.commitsStore < 2 ^ 32 →
        ∃ c, Admitted sha256 store req required mutation w w' ctx c) ∧
    ∀ c g nowUs, CollisionFree sha256 w.manager → Presents sha256 store req required mutation w c g nowUs →
      ∃ tr m, ∃ ctx : HttpContext, m.ev.token? = some c.token ∧ ¬ m.ev.Creates ∧
        ctx.principal = c.principal ∧
        Exec (AccessAnswers sha256 store) (httpSecurityRequire req required mutation) w tr (.ok ctx)
          { w with manager := w.manager ++ [m] } := by
  refine ⟨fun tr ctx w' h hfree hcsrf hgen hepoch => ?_, fun c g nowUs hfree hreq => ?_⟩
  · exact admitted_of_exec hstore hw h hfree hcsrf hgen hepoch
  · exact http_session_opens hw hfree hreq

/-- **A refused cookie is dead**: a token that a check has turned away opens no session in any
later call of the run, unless it is handed out again. -/
theorem refused_token_dead {w w' : AccessWorld} (hw : AccessReachable sha256 store w)
    {tr : List (Σ q, AccessCall.Answer q)} {token : Bytes}
    (h : Exec (AccessAnswers sha256 store) (httpSecurityRequire req required mutation) w tr
      (.error .unauthenticated) w') (hcookie : httpSecurityCookie req.cookie = some token)
    {ks : List ManagerMove} (hks : IsRun (ManagerStep sha256) (final freshManager w'.manager) ks)
    (hfree : CollisionFree sha256 (w'.manager ++ ks)) (hissue : ∀ m ∈ ks, m.ev.issues token = none) :
    ∀ m ∈ ks, ∀ nowUs result, m.ev = .authenticate (some token) nowUs result → ∃ err, result = .error err := by
  have hvalid' := (AccessWorld.valid_of_reachable hw).goes (.of_exec h)
  obtain ⟨l, n, found, hsplit, hrevoked⟩ := h.of_wpS (httpSecurityRequire_wpS w) token hcookie
  intro m hm nowUs result hev
  obtain ⟨before, after, rfl⟩ := List.append_of_mem hm
  cases result with
  | error err => exact ⟨err, rfl⟩
  | ok granted =>
    exfalso
    obtain ⟨principal, index⟩ := granted
    have hrun := (isRun_append _ _ _).mpr ⟨hvalid'.manager, hks⟩
    rw [← List.append_assoc] at hrun hfree
    obtain ⟨g, ⟨l', i, r', heq, hissues, hsince, -⟩, -, -⟩ := granted_of_authenticate hrun hfree hev
    -- the token was handed out before the revocation, which is then among what came since
    rw [hsplit, List.append_assoc, List.singleton_append] at heq
    rcases List.append_eq_append_iff.mp heq with ⟨k, rfl, hk⟩ | ⟨k, rfl, hk⟩
    · cases k with
      | nil =>
        cases hk
        rw [hrevoked] at hissues
        cases hissues
      | cons _ k =>
        obtain ⟨rfl, hbefore⟩ := List.cons.inj hk
        have hmem : i ∈ before ++ m :: after := by
          rw [hbefore]
          simp
        rw [hissue i hmem] at hissues
        cases hissues
    · cases k with
      | nil =>
        cases hk
        rw [hrevoked] at hissues
        cases hissues
      | cons _ k =>
        obtain ⟨rfl, rfl⟩ := List.cons.inj hk
        refine (hsince n (List.mem_append_right _ List.mem_cons_self)).2 ?_
        rw [hrevoked]
        rfl

end Check

namespace AccessDemo

/-- A store with a console credential. -/
def store : SecurityPayload :=
  { SecurityPayload.default with
    consoleVerifierProvisioned := 1
    consoleCredentialVersion := 1
    consoleVerifier := ⟨1, 1, 16, 32, 25000, .replicate 16 0, .replicate 32 0⟩ }

def sha256 (bytes : Bytes) : Option (Vector UInt8 32) := some (Sha256.digest bytes)

def random (_ : Nat) : EspErr × Vector UInt8 32 := (espOk, .replicate 32 1)

def token : Bytes := hexEncode (.replicate 32 1)

def credentials : SessionCredentials := ⟨token, token, consolePrincipal 1 1, 900000001⟩

/-- The console's login, at its first microsecond. -/
def login : ManagerMove :=
  ⟨freshManager, .create (consolePrincipal 1 1) 1 random (.ok credentials),
    ⟨(sessionCreate sha256 .init (consolePrincipal 1 1) 1 random).2, 1⟩⟩

def world : AccessWorld := ⟨[login], []⟩

def socket : RequestSocket := ⟨true, some (.inet 0x0104A8C0), some (.inet 0x0204A8C0)⟩

/-- A request that carries the cookie and the secret of that login. -/
def request : HttpRequest where
  socket := socket
  cookie := .whole (asciiBytes "theme=dark; argus_session=" ++ token) (by decide)
  contentType := .whole (asciiBytes "application/json") (by decide)
  origin := .whole (asciiBytes "http://192.168.4.1") (by decide)
  host := .whole (asciiBytes "192.168.4.1:80") (by decide)
  csrf := .whole token (by decide)

theorem request_cookie : httpSecurityCookie request.cookie = some token := by
  let theme : Cookie := ⟨[], asciiBytes "theme", asciiBytes "dark", by decide +kernel,
    by decide +kernel, by decide +kernel, by decide +kernel⟩
  let session : Cookie := ⟨[0x20], sessionCookieName, token, by decide +kernel,
    by decide +kernel, by decide +kernel, by decide +kernel⟩
  have hcookies : Cookie.IsHeader request.cookie.text [theme, session] := .cons theme (.last session)
  exact httpSecurityCookie_of_isHeader rfl rfl (by decide +kernel) hcookies (by decide +kernel)
    (by decide +kernel)

theorem login_created :
    (sessionCreate sha256 .init (consolePrincipal 1 1) 1 random).1 = .ok credentials := by
  have hall : (sessionCreate sha256 .init (consolePrincipal 1 1) 1 random).1.toOption =
      some credentials := by decide +kernel
  cases hcreate : (sessionCreate sha256 .init (consolePrincipal 1 1) 1 random).1 with
  | error err =>
    rw [hcreate] at hall
    cases hall
  | ok c =>
    rw [hcreate] at hall
    exact congrArg Except.ok (Option.some.inj hall)

theorem login_run : IsRun (ManagerStep sha256) freshManager [login] :=
  ⟨rfl, .create (show (0 : UInt64) ≤ 1 by decide) (by decide) (Prod.ext login_created rfl), trivial⟩

theorem world_reachable : AccessReachable sha256 store world := by
  have hlogin : LoginReads store [] [] (consolePrincipal 1 1) := by
    refine ⟨asciiBytes "argus", .replicate 12 0x41, none, .ok true, ?_⟩
    unfold authServiceAuthenticate
    rw [show canonicalizeLogin (asciiBytes "argus") = some (asciiBytes "argus") by decide]
    rfl
  exact .login (l := []) (a := []) (r := []) .start rfl hlogin rfl login_run

/-- Only one token is in use, and only one secret. -/
theorem collisionFree_of_token {ms : List ManagerMove} (h : ∀ m ∈ ms, m.ev.token? = some token) :
    CollisionFree sha256 ms := by
  intro m hm n hn t t' secret secret' digest ht ht' hs hs' _ _
  cases ht.symm.trans (h m hm)
  cases ht'.symm.trans (h n hn)
  exact Option.some.inj (hs.symm.trans hs')

theorem request_softap :
    FromSoftap request.socket ⟨some (0x0104A8C0, 0x00FFFFFF), none⟩ 0x0104A8C0 0x0204A8C0 :=
  ⟨rfl, rfl, rfl, ⟨_, rfl, by decide⟩, by decide, by decide⟩

theorem request_presents : Presents sha256 store request 0 true world credentials
    ⟨consolePrincipal 1 1, 1, 1⟩ 2 where
  softap := ⟨_, _, _, request_softap, fun _ => rfl⟩
  cookie := request_cookie
  once := by
    rintro c ⟨m, hm, principal, nowUs, random', hev, -⟩ -
    cases List.mem_singleton.mp hm
    cases hev
    rfl
  granted := ⟨[], login, [], rfl, by simp [login, ManagerAct.issues, credentials],
    fun n hn => absurd hn List.not_mem_nil, rfl⟩
  live := ⟨by decide, by decide⟩
  clock := show (1 : UInt64) ≤ 2 by decide
  started := by decide
  current := rfl
  permitted := fun h => absurd rfl h
  json := fun _ => rfl
  csrf := fun _ => rfl
  digests := fun _ => rfl

theorem login_free : CollisionFree sha256 world.manager :=
  collisionFree_of_token (by simp [world, login, ManagerAct.token?, credentials])

/-- The login hands out the only credentials. -/
theorem issued_eq {m : ManagerMove} (hm : ¬ m.ev.Creates) {c : SessionCredentials}
    (h : IssuedIn (world.manager ++ [m]) c) : c = credentials := by
  obtain ⟨n, hn, principal, nowUs, random', hev, -⟩ := h
  rcases List.mem_append.mp hn with hn | hn
  · cases List.mem_singleton.mp hn
    cases hev
    rfl
  · cases List.mem_singleton.mp hn
    exact absurd (hev ▸ trivial) hm

/-- With one more call for the same token, the digest still tells apart what is in use. -/
theorem world_free {m : ManagerMove} (htoken : m.ev.token? = some token) :
    CollisionFree sha256 (world.manager ++ [m]) := by
  refine collisionFree_of_token fun n hn => ?_
  rcases List.mem_append.mp hn with hn | hn
  · cases List.mem_singleton.mp hn
    rfl
  · cases List.mem_singleton.mp hn
    exact htoken

theorem world_csrfFree {m : ManagerMove} (hquiet : ¬ m.ev.Creates) (csrf : Bytes)
    (hheader : headerExact request.csrf 65 = some csrf) : CsrfFree sha256 (world.manager ++ [m]) csrf := by
  rintro c hissued issued given hissuedSecret hgiven -
  cases issued_eq hquiet hissued
  rw [← Option.some.inj hheader] at hgiven
  exact Option.some.inj (hgiven.symm.trans hissuedSecret)

end AccessDemo

open AccessDemo in
/-- The console, a moment after its login. -/
theorem http_access_console :
    ∃ w' ctx c, ctx.principal = consolePrincipal 1 1 ∧
      Admitted sha256 AccessDemo.store request 0 true world w' ctx c := by
  have hvalid : AccessDemo.store.valid = true := by decide +kernel
  obtain ⟨hadmits, hopens⟩ := @http_access sha256 AccessDemo.store request 0 true hvalid _ world_reachable
  obtain ⟨tr, m, ctx, htoken, hquiet, hprincipal, hexec⟩ := hopens _ _ _ login_free request_presents
  obtain ⟨c, hadmitted⟩ := hadmits tr ctx _ hexec (world_free htoken)
    (world_csrfFree hquiet) (show 1 + 0 < 2 ^ 32 by decide) (show 1 + 0 < 2 ^ 32 by decide)
  exact ⟨_, ctx, c, hprincipal, hadmitted⟩

open AccessDemo in
/-- The same cookie before there was a login. -/
theorem refused_token_dead_early :
    ∃ table : SessionTable, ∃ err, (sessionAuthenticate sha256 table (some token) 3).1 = .error err := by
  let first := sessionAuthenticate sha256 .init (some token) 1
  let m₁ : ManagerMove := ⟨freshManager, .authenticate (some token) 1 first.1, ⟨first.2, 1⟩⟩
  let second := sessionRevokeToken sha256 first.2 (some token)
  let m₂ : ManagerMove := ⟨⟨first.2, 1⟩, .revokeToken (some token) second.1, ⟨second.2, 1⟩⟩
  let third := sessionAuthenticate sha256 second.2 (some token) 3
  let m₃ : ManagerMove := ⟨⟨second.2, 1⟩, .authenticate (some token) 3 third.1, ⟨third.2, 3⟩⟩
  have hrun₁ : IsRun (ManagerStep sha256) freshManager [m₁] :=
    ⟨rfl, .authenticate (show (0 : UInt64) ≤ 1 by decide) (by decide) rfl, trivial⟩
  have hrun₂ : IsRun (ManagerStep sha256) ⟨first.2, 1⟩ [m₂] := ⟨rfl, .revokeToken rfl, trivial⟩
  have hrun₃ : IsRun (ManagerStep sha256) ⟨second.2, 1⟩ [m₃] :=
    ⟨rfl, .authenticate (show (1 : UInt64) ≤ 3 by decide) (by decide) rfl, trivial⟩
  have hrefused : first.1.toOption = none := by decide +kernel
  obtain ⟨err, herr⟩ : ∃ err, first.1 = .error err := by
    cases hfirst : first.1 with
    | error err => exact ⟨err, rfl⟩
    | ok found =>
      rw [hfirst] at hrefused
      cases hrefused
  have hexec : Exec (AccessAnswers sha256 AccessDemo.store) (httpSecurityRequire request 0 true) ⟨[], []⟩
      ([⟨.netif, ⟨some (0x0104A8C0, 0x00FFFFFF), none⟩⟩] ++ [⟨.authenticate token, .error err⟩,
        ⟨.revokeToken token, second.1⟩]) (.error .unauthenticated) ⟨[m₁, m₂], []⟩ := by
    unfold httpSecurityRequire
    refine (socketIsSoftap_exec request_softap _).bind ?_
    dsimp only
    rw [request_cookie]
    refine .ask (.authenticate (m := m₁) (.refl _) (congrArg (ManagerAct.authenticate _ _) herr) hrun₁) ?_
    exact .ask (.revokeToken (m := m₂) (.refl _) rfl hrun₂) (.ret _ _)
  have hfree : CollisionFree sha256 ([m₁, m₂] ++ [m₃]) := by
    refine collisionFree_of_token fun m hm => ?_
    rcases List.mem_cons.mp hm with rfl | hm
    · rfl
    rcases List.mem_cons.mp hm with rfl | hm
    · rfl
    · cases List.mem_singleton.mp hm
      rfl
  have hissue : ∀ m ∈ [m₃], m.ev.issues token = none := by
    intro m hm
    cases List.mem_singleton.mp hm
    rfl
  exact ⟨second.2, refused_token_dead .start hexec request_cookie hrun₃ hfree hissue m₃ List.mem_cons_self 3
    third.1 rfl⟩

end Argus
