import ArgusPump.BrowserCommand
import ArgusPump.CmdRouter
import ArgusPump.FactoryReset
import ArgusPump.HttpAccessRuns

/-!
# The browser's commands

`command_post_handler` of `main/argus_http_server.c`, with the receiver and the core of
`main/argus_browser_command_endpoint.c`, over the access check, the router and the other tasks.

    however the body comes in pieces, what is received is the bytes that were sent
                                                                        (receiveBody_wpS)
    while the handler's task acts on the machine, a logged in human with the capability asked
      for just that, and the portal has the authority now               (browser_command_acts)
-/

namespace Argus

open Interact Prog

namespace Browser

/-! ## The receiver -/

/-- What `command_body_recv` returns: bytes, none of them if the peer has closed, the timeout or
another error. -/
inductive BodyRecv
  | got (bytes : Bytes)
  | timeout
  | error
deriving DecidableEq

/-- The failures of `argus_browser_body_receive_result_t` that its caller can cause. -/
inductive BodyReceiveResult
  | empty
  | tooLarge
  | truncated
  | timeout
  | error
deriving DecidableEq

/-- `argus_browser_command_endpoint_result_t`. -/
inductive EndpointResult
  | ok
  | unauthorized
  | badRequest
  | forbidden
  | conflict
  | internalError
deriving DecidableEq

/-- What the handler asks. -/
inductive CommandCall
  | access (q : AccessCall)
  | recv (maxLen : Nat)
  | getNetworkSnapshot
  | getAuthoritySnapshot
  | dispatch (env : CommandEnvelope)

abbrev CommandCall.Answer : CommandCall → Type
  | .access q => q.Answer
  | .recv _ => BodyRecv
  | .getNetworkSnapshot => EspErr × NetSnapshot
  | .getAuthoritySnapshot => EspErr × AuthoritySnapshot
  | .dispatch _ => EspErr

abbrev CommandProg := Prog CommandCall CommandCall.Answer

def CommandCall.call (q : CommandCall) : CommandProg q.Answer := .ask q .ret

open CommandCall (call)

/-- The loop of `argus_browser_command_receive_body`. -/
def receiveBodyLoop (contentLen : Nat) (body : Bytes) : CommandProg (Except BodyReceiveResult Bytes) :=
  if _hmore : body.length < contentLen then
    .ask (.recv (contentLen - body.length)) fun
      | .timeout => .ret (.error .timeout)
      | .error => .ret (.error .error)
      | .got bytes =>
        if bytes.length = 0 then .ret (.error .truncated)
        else if bytes.length > contentLen - body.length then .ret (.error .error)
        else receiveBodyLoop contentLen (body ++ bytes)
  else .ret (.ok body)
termination_by contentLen - body.length
decreasing_by
  rw [List.length_append]
  omega

/-- `argus_browser_command_receive_body`, into a buffer of the largest size allowed. -/
def receiveBody (contentLen : Nat) : CommandProg (Except BodyReceiveResult Bytes) :=
  if contentLen = 0 then .ret (.error .empty)
  else if contentLen > maxBodyLen then .ret (.error .tooLarge)
  else receiveBodyLoop contentLen []

/-- `argus_browser_command_receive_disposition_t` of a failure: every one is answered as a bad
request, and after most of them the connection is closed. -/
structure ReceiveDisposition where
  closeSession : Bool
  responseResult : EndpointResult
  handlerResult : EspErr
deriving DecidableEq

/-- `argus_browser_command_receive_disposition`, of a failure. -/
def receiveDisposition : BodyReceiveResult → ReceiveDisposition
  | .empty => ⟨false, .badRequest, espOk⟩
  | .tooLarge | .truncated | .timeout | .error => ⟨true, .badRequest, espFail⟩

/-! ## The endpoint -/

/-- `argus_browser_command_endpoint_process`, its network, its authority and its dispatch the
production ones. -/
def endpointProcess (authenticated : Bool) (body : Bytes) : CommandProg EndpointResult := do
  if ¬ authenticated then return .unauthorized
  match commandDecode body with
  | (.ok, { commandType := some commandType, targetRpmMilli, forward, isValid := true }) =>
    let (err, net) ← call .getNetworkSnapshot
    if err ≠ espOk then return .internalError
    if net.mode ≠ .serviceApOnly then return .forbidden
    let (err, authority) ← call .getAuthoritySnapshot
    if err ≠ espOk then return .internalError
    if authority.mode ≠ .localService ∨ authority.owner ≠ .browser then return .forbidden
    let err ← call (.dispatch
      { source := .localServicePortal
        commandType := commandType
        authorityGeneration := authority.generation
        targetRpmMilli := targetRpmMilli
        forward := forward })
    if err = espOk then return .ok
    if err = espErrInvalidState ∨ err = espErrInvalidArg then return .conflict
    return .internalError
  | _ => return .badRequest

/-- The response to a result: its status code, its body, and the body's caching. -/
structure HttpResponse where
  statusCode : Nat
  statusLine : String
  jsonBody : String
  cacheControl : String
deriving DecidableEq

/-- `argus_browser_command_response_for`. -/
def responseFor : EndpointResult → HttpResponse
  | .ok => ⟨200, "200 OK", "\x7b\"ok\":true,\"status\":\"accepted\"\x7d", "no-store"⟩
  | .unauthorized => ⟨401, "401 Unauthorized", "\x7b\"ok\":false,\"error\":\"unauthorized\"\x7d", "no-store"⟩
  | .badRequest => ⟨400, "400 Bad Request", "\x7b\"ok\":false,\"error\":\"invalid_request\"\x7d", "no-store"⟩
  | .forbidden => ⟨403, "403 Forbidden", "\x7b\"ok\":false,\"error\":\"command_not_admitted\"\x7d", "no-store"⟩
  | .conflict => ⟨409, "409 Conflict", "\x7b\"ok\":false,\"error\":\"command_conflict\"\x7d", "no-store"⟩
  | .internalError =>
    ⟨500, "500 Internal Server Error", "\x7b\"ok\":false,\"error\":\"internal_error\"\x7d", "no-store"⟩

/-! ## The handler -/

/-- `command_capability`. -/
def commandCapability : CmdType → PermissionSet
  | .estop => permissionSoftwareEstop
  | .resetEstop => permissionResetSoftwareEstop
  | .setTarget | .start | .stopNormal | .unlock | .recover => permissionMotion

/-- How the handler ends: refused by the access check, without a body, or by the endpoint. -/
inductive CommandResponse
  | access (result : HttpAccess)
  | receive (disposition : ReceiveDisposition)
  | endpoint (result : EndpointResult)

/-- `command_post_handler`, past its access check. -/
def commandAdmitted (principal : AuthorizationPrincipal) (contentLen : Nat) : CommandProg CommandResponse := do
  match ← receiveBody contentLen with
  | .error result => return .receive (receiveDisposition result)
  | .ok body =>
    match commandDecode body with
    | (.ok, { commandType := some commandType, isValid := true, .. }) =>
      let required := commandCapability commandType
      if required = 0 ∨ authorizationRequire principal required ≠ .allow then return .access .forbidden
      return .endpoint (← endpointProcess true body)
    | _ => return .endpoint (← endpointProcess true body)

/-- `command_post_handler`. -/
def commandPostHandler (req : HttpRequest) (contentLen : Nat) : CommandProg CommandResponse := do
  match ← (httpSecurityRequire req 0 true).embed CommandCall.access (fun _ r => r) with
  | .error result => return .access result
  | .ok security => commandAdmitted security.principal contentLen

/-! ## The handler among the other tasks -/

/-- The access check's world, what the router's tasks have done, and the bytes of the body that
the handler has not received. -/
structure CommandWorld where
  access : AccessWorld
  router : List (Move Router RouterEvent)
  stream : Bytes

def CommandWorld.now (w : CommandWorld) : Router := final Router.start w.router

end Browser

/-- What a dispatch does after it was called. -/
def RouterAct.servesDispatch : RouterAct → Bool
  | .takeMutex | .check | .execute | .finish _ => true
  | _ => false

/-- One `argus_cmd_router_dispatch` of task `t`, among the moves of the other tasks. -/
structure DispatchCall (t : Nat) (env : CommandEnvelope) (w : Router) (ms : List (Move Router RouterEvent))
    (err : EspErr) : Prop where
  run : IsRun routerStep w ms
  calls : ∃ before first after, ms = before ++ first :: after ∧ (∀ m ∈ before, m.ev.task ≠ t) ∧
    first.ev.task = t ∧ (first.ev.act = .dispatch env ∨ ∃ err, first.ev.act = .estop env err) ∧
    ∀ m ∈ after, m.ev.task = t → m.ev.act.servesDispatch = true
  returns : ∃ before last after, ms = before ++ last :: after ∧ last.ev.task = t ∧
    last.pre.next last.ev = some (some err, last.post) ∧ ∀ m ∈ after, m.ev.task ≠ t

/-- Where a dispatch of `env` can be. -/
def RouterPhase.Serves (env : CommandEnvelope) : RouterPhase → Prop
  | .idle => True
  | .waiting e | .locked e => e = env
  | .checked e snap => e = env ∧ dispatchGate env snap = espOk
  | .acting action snap => dispatchAction env = some action ∧ dispatchGate env snap = espOk
  | .transition => False

section Dispatch

variable {t : Nat} {env : CommandEnvelope} {w w' : Router}

/-- A task is moved by none but itself. -/
theorem routerStep_other {ev : RouterEvent} (h : routerStep w ev w') (hne : ev.task ≠ t) :
    w'.task t = w.task t := by
  obtain ⟨hmove, -⟩ := routerStep_move h
  have hgoto (w : Router) (phase : RouterPhase) : (w.goto ev.task phase).task t = w.task t := by
    rw [goto_task, if_neg (Ne.symm hne)]
  cases hmove with
  | estop => rfl
  | refused => rfl
  | setMode => rfl
  | call env _ => exact hgoto _ _
  | acquire phase _ _ => exact hgoto _ _
  | pass env _ _ => exact hgoto _ _
  | execute env snap _ action => exact hgoto _ _
  | release _ => exact hgoto _ _

/-- The step of a dispatch: each phase is entered with what was checked before it. -/
theorem Serves.step {ev : RouterEvent} (h : routerStep w ev w') (hserves : (w.task ev.task).Serves env)
    (hact : ev.act = .dispatch env ∨ (∃ err, ev.act = .estop env err) ∨ ev.act.servesDispatch = true) :
    (w'.task ev.task).Serves env := by
  obtain ⟨u, act⟩ := ev
  obtain ⟨returned, h⟩ := h
  dsimp only at hserves hact ⊢
  have hgoto (w : Router) (phase : RouterPhase) : (w.goto u phase).task u = phase := by
    rw [goto_task, if_pos rfl]
  unfold Router.next at h
  split at h
  · next heq =>
    split at h
    · cases h
      exact hserves
    · cases h
  · next env' hdispatch _ =>
    split at h
    · cases h
    · cases h
      rw [hgoto]
      rcases hact with hact | ⟨err, hact⟩ | hact
      · exact (RouterAct.dispatch.inj (hdispatch.symm.trans hact))
      · exact absurd (hdispatch.symm.trans hact) (by simp)
      · rw [show act = .dispatch env' from hdispatch] at hact
        cases hact
  · next env' _ hphase =>
    rw [hphase] at hserves
    split at h
    · cases h
      rw [hgoto]
      exact hserves
    · cases h
  · next env' _ hphase =>
    rw [hphase] at hserves
    obtain rfl : env' = env := hserves
    split at h
    · next hgate =>
      cases h
      rw [hgoto]
      exact ⟨rfl, hgate⟩
    · cases h
      rw [hgoto]
      trivial
  · next env' snap _ hphase =>
    rw [hphase] at hserves
    obtain ⟨rfl, hgate⟩ := hserves
    split at h
    · next action haction =>
      cases h
      rw [hgoto]
      exact ⟨haction, hgate⟩
    · cases h
      rw [hgoto]
      trivial
  · cases h
    rw [hgoto]
    trivial
  · next hlock _ =>
    rw [show act = .lockDispatch from hlock] at hact
    rcases hact with hact | ⟨err, hact⟩ | hact <;> cases hact
  · next hphase =>
    rw [hphase] at hserves
    exact hserves.elim
  · next hset _ =>
    rw [show act = .setMode _ _ from hset] at hact
    rcases hact with hact | ⟨err, hact⟩ | hact <;> cases hact
  · next hset _ =>
    rw [show act = .setMode _ _ from hset] at hact
    rcases hact with hact | ⟨err, hact⟩ | hact <;> cases hact
  · cases h

/-- Moves of the other tasks leave a task where it is. -/
theorem othersRun_task {ms : List (Move Router RouterEvent)} (h : IsRun routerStep w ms)
    (hothers : ∀ m ∈ ms, m.ev.task ≠ t) :
    (∀ m ∈ ms, m.post.task t = w.task t) ∧ (final w ms).task t = w.task t := by
  refine (h.inv_of (I := fun v => v.task t = w.task t) rfl hothers fun m hi hs hne => ?_).imp_left
    fun hall m hm => (hall m hm).2
  exact (routerStep_other hs hne).trans hi

/-- **A dispatch** acts on the machine only with its own command, under an authority that its
envelope passed. -/
theorem DispatchCall.serves {ms : List (Move Router RouterEvent)} {err : EspErr}
    (h : DispatchCall t env w ms err) (hidle : w.task t = .idle) :
    ∀ m ∈ ms, (m.post.task t).Serves env := by
  obtain ⟨before, first, after, rfl, hbefore, hfirst, hcall, hafter⟩ := h.calls
  have hrun := h.run
  rw [isRun_append, isRun_cons] at hrun
  obtain ⟨hothers, hpre, hstep, hrest⟩ := hrun
  have hkept := othersRun_task hothers hbefore
  have hstart : (first.pre.task t).Serves env := by
    rw [hpre, hkept.2, hidle]
    trivial
  have hmove (m : Move Router RouterEvent) (hi : (m.pre.task t).Serves env)
      (hs : routerStep m.pre m.ev m.post) (hact : m.ev.task = t → m.ev.act = .dispatch env ∨
        (∃ err, m.ev.act = .estop env err) ∨ m.ev.act.servesDispatch = true) :
      (m.post.task t).Serves env := by
    by_cases htask : m.ev.task = t
    · rw [← htask] at hi ⊢
      exact Serves.step hs hi (hact htask)
    · rw [routerStep_other hs htask]
      exact hi
  have hpost : (first.post.task t).Serves env := hmove first hstart hstep fun _ => by
    rcases hcall with hcall | hcall
    · exact .inl hcall
    · exact .inr (.inl hcall)
  have hlater := hrest.inv_of (I := fun v => (v.task t).Serves env)
    (K := fun m => m.ev.task = t → m.ev.act.servesDispatch = true) hpost hafter
    fun m hi hs hact => hmove m hi hs fun htask => .inr (.inr (hact htask))
  intro m hm
  rcases List.mem_append.mp hm with hm | hm
  · rw [hkept.1 m hm, hidle]
    trivial
  · rcases List.mem_cons.mp hm with rfl | hm
    · exact hpost
    · exact (hlater.1 m hm).2

/-- The portal's envelope passes the gate for an action only under the authority of a browser. -/
theorem gate_portal {snap : AuthoritySnapshot} {action : StateMgrAction}
    (hsource : env.source = .localServicePortal) (haction : dispatchAction env = some action)
    (hgate : dispatchGate env snap = espOk) :
    snap.generation = env.authorityGeneration ∧ snap.mode = .localService ∧ snap.owner = .browser := by
  unfold dispatchGate at hgate
  split at hgate
  · cases hgate
  next hgeneration =>
  split at hgate
  · cases hgate
  next hallowed =>
  refine ⟨(not_not.mp hgeneration).symm, ?_⟩
  rw [not_not] at hallowed
  have hsafety : safetyAction env.source env.commandType = false := by
    unfold safetyAction
    rw [hsource]
    cases htype : env.commandType with
    | estop =>
      unfold dispatchAction at haction
      rw [htype] at haction
      cases haction
    | _ => rfl
  unfold authorityValidatePermission at hallowed
  rw [hsafety, hsource] at hallowed
  cases hmode : snap.mode with
  | localService =>
    rw [hmode] at hallowed
    simpa using hallowed
  | _ =>
    rw [hmode] at hallowed
    simp at hallowed

end Dispatch

namespace Browser

section Answers

variable (sha256 : List UInt8 → Option (Vector UInt8 32)) (store : SecurityPayload) (t : Nat)

/-- The other tasks go on: they use the router, change the stores and end sessions. -/
def CommandWorld.Quiet (w w' : CommandWorld) : Prop :=
  w.access.Goes sha256 store w'.access ∧
    ∃ ms, w'.router = w.router ++ ms ∧ IsRun routerStep w.now ms ∧ ∀ m ∈ ms, m.ev.task ≠ t

/-- What the calls of the handler's task `t` answer. -/
inductive CommandAnswers : (q : CommandCall) → CommandWorld → q.Answer → CommandWorld → Prop
  | access {q : AccessCall} {w w' : CommandWorld} {r : q.Answer} :
      AccessAnswers sha256 store q w.access r w'.access → w.Quiet sha256 store t w' →
      w'.stream = w.stream → CommandAnswers (.access q) w r w'
  | recvGot {n : Nat} {w w' : CommandWorld} {bytes : Bytes} : w.Quiet sha256 store t w' →
      w.stream = bytes ++ w'.stream → bytes.length ≤ n → CommandAnswers (.recv n) w (.got bytes) w'
  | recvFailed {n : Nat} {w w' : CommandWorld} {r : BodyRecv} : w.Quiet sha256 store t w' →
      w'.stream = w.stream → r = .timeout ∨ r = .error → CommandAnswers (.recv n) w r w'
  | network {w w' : CommandWorld} {r : EspErr × NetSnapshot} : w.Quiet sha256 store t w' →
      w'.stream = w.stream → CommandAnswers .getNetworkSnapshot w r w'
  | authority {w w' : CommandWorld} {r : EspErr × AuthoritySnapshot} : w.Quiet sha256 store t w' →
      w'.stream = w.stream → (r.1 = espOk → r.2 = w'.now.authority) →
      CommandAnswers .getAuthoritySnapshot w r w'
  | dispatch {env : CommandEnvelope} {w w' : CommandWorld} {ms : List (Move Router RouterEvent)}
      {err : EspErr} : w.access.Goes sha256 store w'.access → w'.router = w.router ++ ms →
      DispatchCall t env w.now ms err → w'.stream = w.stream → CommandAnswers (.dispatch env) w err w'

end Answers

section Handler

variable {sha256 : List UInt8 → Option (Vector UInt8 32)} {store : SecurityPayload} {t : Nat}
  {w w' w'' : CommandWorld}

theorem CommandWorld.Quiet.trans (h : w.Quiet sha256 store t w') (h' : w'.Quiet sha256 store t w'') :
    w.Quiet sha256 store t w'' := by
  obtain ⟨hgoes, ms, hms, hrun, hothers⟩ := h
  obtain ⟨hgoes', ms', hms', hrun', hothers'⟩ := h'
  refine ⟨hgoes.trans hgoes', ms ++ ms', ?_, (isRun_append _ _ _).mpr ⟨hrun, ?_⟩, ?_⟩
  · rw [hms', hms, List.append_assoc]
  · unfold now at hrun'
    rw [hms, final_append] at hrun'
    exact hrun'
  · intro m hm
    rcases List.mem_append.mp hm with hm | hm
    · exact hothers m hm
    · exact hothers' m hm

theorem CommandWorld.Quiet.refl (w : CommandWorld) : w.Quiet sha256 store t w :=
  ⟨.refl _, [], (List.append_nil _).symm, trivial, by simp⟩

theorem CommandWorld.Quiet.task (h : w.Quiet sha256 store t w') : w'.now.task t = w.now.task t := by
  obtain ⟨-, ms, hms, hrun, hothers⟩ := h
  unfold now
  rw [hms, final_append]
  exact (othersRun_task hrun hothers).2

/-- The body that is received is the bytes that were sent, however they come in pieces. -/
theorem receiveBodyLoop_wpS {contentLen : Nat} {body : Bytes} (hle : body.length ≤ contentLen)
    {post : Except BodyReceiveResult Bytes → CommandWorld → Prop}
    (herr : ∀ err w', w.Quiet sha256 store t w' → post (.error err) w')
    (hok : ∀ rest w', w.Quiet sha256 store t w' → w.stream = rest ++ w'.stream →
      (body ++ rest).length = contentLen → post (.ok (body ++ rest)) w') :
    (receiveBodyLoop contentLen body).wpS (CommandAnswers sha256 store t) (fun _ _ => True) post w := by
  induction hn : contentLen - body.length using Nat.strong_induction_on generalizing body w with
  | _ n ih =>
  unfold receiveBodyLoop
  split
  · next hmore =>
    refine ⟨trivial, fun r w' hanswer => ?_⟩
    cases hanswer with
    | recvFailed hquiet _ hr =>
      rcases hr with rfl | rfl
      · exact herr _ w' hquiet
      · exact herr _ w' hquiet
    | @recvGot _ _ _ bytes hquiet hstream _ =>
      dsimp only
      split
      · exact herr _ w' hquiet
      split
      · exact herr _ w' hquiet
      next hempty hfits =>
      have hlength : (body ++ bytes).length = body.length + bytes.length := List.length_append
      refine ih _ ?_ (by omega) (fun err w'' hq => herr err w'' (hquiet.trans hq))
        (fun rest w'' hq hrest hlen => ?_) rfl
      · omega
      · rw [List.append_assoc] at hlen ⊢
        refine hok (bytes ++ rest) w'' (hquiet.trans hq) ?_ hlen
        rw [hstream, hrest, List.append_assoc]
  · have hlen : body.length = contentLen := by omega
    have hdone := hok [] w (.refl w) rfl
    rw [List.append_nil] at hdone
    exact hdone hlen

/-- **The receiver**: what it hands on is the first `contentLen` bytes of the stream. -/
theorem receiveBody_wpS {contentLen : Nat}
    {post : Except BodyReceiveResult Bytes → CommandWorld → Prop}
    (herr : ∀ err w', w.Quiet sha256 store t w' → post (.error err) w')
    (hok : ∀ body w', w.Quiet sha256 store t w' → w.stream = body ++ w'.stream →
      body.length = contentLen → contentLen ≤ maxBodyLen → post (.ok body) w') :
    (receiveBody contentLen).wpS (CommandAnswers sha256 store t) (fun _ _ => True) post w := by
  unfold receiveBody
  split
  · exact herr _ w (.refl w)
  split
  · exact herr _ w (.refl w)
  next hfits =>
  exact receiveBodyLoop_wpS (Nat.zero_le _) herr fun rest w' hq hrest hlen =>
    hok rest w' hq hrest hlen (Nat.not_lt.mp hfits)

/-- The action that a body asks for. -/
def Asks (body : Bytes) (commandType : CmdType) (action : StateMgrAction) : Prop :=
  ∃ targetRpmMilli forward generation,
    commandDecode body = (.ok, ⟨true, some commandType, targetRpmMilli, forward⟩) ∧
      dispatchAction ⟨.localServicePortal, commandType, generation, targetRpmMilli, forward⟩ = some action

/-- What the handler's task does to the machine between `w` and `w'`: only what the body asks
for, under an authority that was the browser's when the gate saw it. -/
def Acts (t : Nat) (w w' : CommandWorld) (P : CmdType → StateMgrAction → Prop) : Prop :=
  ∃ ms, w'.router = w.router ++ ms ∧ IsRun routerStep w.now ms ∧
    ∀ m ∈ ms, ∀ action snap, m.post.task t = .acting action snap →
      snap.mode = .localService ∧ snap.owner = .browser ∧ ∃ commandType, P commandType action

theorem CommandWorld.Quiet.acts (h : w.Quiet sha256 store t w') (hidle : w.now.task t = .idle)
    (P : CmdType → StateMgrAction → Prop) : Acts t w w' P := by
  obtain ⟨-, ms, hms, hrun, hothers⟩ := h
  refine ⟨ms, hms, hrun, fun m hm action snap hacting => ?_⟩
  rw [(othersRun_task hrun hothers).1 m hm, hidle] at hacting
  cases hacting

theorem Acts.after {P : CmdType → StateMgrAction → Prop} (h : w.Quiet sha256 store t w')
    (hidle : w.now.task t = .idle) (h' : Acts t w' w'' P) : Acts t w w'' P := by
  obtain ⟨ms, hms, hrun, hacts⟩ := h.acts hidle P
  obtain ⟨ms', hms', hrun', hacts'⟩ := h'
  refine ⟨ms ++ ms', ?_, (isRun_append _ _ _).mpr ⟨hrun, ?_⟩, fun m hm => ?_⟩
  · rw [hms', hms, List.append_assoc]
  · unfold CommandWorld.now at hrun'
    rw [hms, final_append] at hrun'
    exact hrun'
  · rcases List.mem_append.mp hm with hm | hm
    · exact hacts m hm
    · exact hacts' m hm

/-- The core, from the body on. -/
theorem endpointProcess_wpS {body : Bytes} (hidle : w.now.task t = .idle) :
    (endpointProcess true body).wpS (CommandAnswers sha256 store t) (fun _ _ => True)
      (fun _ w' => w.access.Goes sha256 store w'.access ∧
        Acts t w w' (fun commandType action => Asks body commandType action)) w := by
  unfold endpointProcess
  rw [if_neg (by simp)]
  split
  · next commandType targetRpmMilli forward hdecode =>
    refine ⟨trivial, fun r w₁ hnet => ?_⟩
    cases hnet with
    | network hquiet₁ _ =>
    obtain ⟨err, net⟩ := r
    have hrefused (w' : CommandWorld) (hq : w.Quiet sha256 store t w') :
        w.access.Goes sha256 store w'.access ∧ Acts t w w' (Asks body) :=
      ⟨hq.1, hq.acts hidle _⟩
    dsimp only [Prog.bind]
    split
    · exact hrefused w₁ hquiet₁
    split
    · exact hrefused w₁ hquiet₁
    refine ⟨trivial, fun r w₂ hauthority => ?_⟩
    cases hauthority with
    | authority hquiet₂ _ _ =>
    have hquiet := hquiet₁.trans hquiet₂
    obtain ⟨err, authority⟩ := r
    dsimp only [Prog.bind]
    split
    · exact hrefused w₂ hquiet
    split
    · exact hrefused w₂ hquiet
    refine ⟨trivial, fun err w₃ hdispatch => ?_⟩
    have hdone : w.access.Goes sha256 store w₃.access ∧ Acts t w w₃ (Asks body) := by
      cases hdispatch with
      | @dispatch env _ _ ms _ hgoes hms hcall _ =>
      refine ⟨hquiet.1.trans hgoes, Acts.after hquiet hidle ⟨ms, hms, hcall.run, ?_⟩⟩
      intro m hm action snap hacting
      have hserves := hcall.serves (hquiet.task.trans hidle) m hm
      rw [hacting] at hserves
      obtain ⟨-, hmode, howner⟩ := gate_portal rfl hserves.1 hserves.2
      exact ⟨hmode, howner, commandType, _, _, authority.generation, hdecode, hserves.1⟩
    dsimp only [Prog.bind]
    split
    · exact hdone
    split
    · exact hdone
    · exact hdone
  · have hnone : w.Quiet sha256 store t w := .refl w
    exact ⟨hnone.1, hnone.acts hidle _⟩

/-- The body's command, in the reach of the principal. -/
def Allowed (principal : AuthorizationPrincipal) (body : Bytes) (commandType : CmdType)
    (action : StateMgrAction) : Prop :=
  Asks body commandType action ∧ authorizationRequire principal (commandCapability commandType) = .allow

/-- An embedded check runs as it does alone, and the router's other tasks beside it. -/
theorem accessEmbed_exec {α : Type} {p : AccessProg α} {tr : List (Σ q, CommandCall.Answer q)} {a : α}
    (h : Exec (CommandAnswers sha256 store t) (p.embed CommandCall.access fun _ r => r) w tr a w') :
    (∃ tr', Exec (AccessAnswers sha256 store) p w.access tr' a w'.access) ∧ w.Quiet sha256 store t w' ∧
      w'.stream = w.stream := by
  refine ⟨?_, ?_⟩
  · have hview : ∀ (q : AccessCall) (w : CommandWorld) (r : q.Answer) (w' : CommandWorld),
        CommandAnswers sha256 store t (.access q) w r w' → AccessAnswers sha256 store q w.access r w'.access := by
      rintro q w r w' (haccess | _)
      exact haccess
    exact Exec.of_embed (f := CommandCall.access) (g := fun _ r => r) hview h
  · induction p generalizing w tr with
    | ret a =>
      cases h
      exact ⟨.refl _, rfl⟩
    | ask q k ih =>
      cases h with
      | ask hanswer hk =>
        cases hanswer with
        | access haccess hquiet hstream =>
          obtain ⟨hquiet', hstream'⟩ := ih _ hk
          exact ⟨hquiet.trans hquiet', hstream'.trans hstream⟩

theorem Acts.imp {P P' : CmdType → StateMgrAction → Prop} (h : Acts t w w' P)
    (himp : ∀ commandType action, P commandType action → P' commandType action) : Acts t w w' P' := by
  obtain ⟨ms, hms, hrun, hacts⟩ := h
  refine ⟨ms, hms, hrun, fun m hm action snap hacting => ?_⟩
  obtain ⟨hmode, howner, commandType, hP⟩ := hacts m hm action snap hacting
  exact ⟨hmode, howner, commandType, himp _ _ hP⟩

/-- What the handler does once the principal is known. -/
theorem commandAdmitted_wpS {principal : AuthorizationPrincipal} {contentLen : Nat}
    (hidle : w.now.task t = .idle) :
    (commandAdmitted principal contentLen).wpS (CommandAnswers sha256 store t) (fun _ _ => True)
      (fun _ w' => w.access.Goes sha256 store w'.access ∧
        Acts t w w' (Allowed principal (w.stream.take contentLen))) w := by
  unfold commandAdmitted
  refine (wpS_bind _ _ _ _ _).mpr (receiveBody_wpS (fun err w' hquiet => ?_) ?_)
  · exact ⟨hquiet.1, hquiet.acts hidle _⟩
  intro body w₁ hquiet hstream hlen hfits
  have hbody : w.stream.take contentLen = body := by
    rw [hstream, ← hlen, List.take_left]
  have hidle₁ := hquiet.task.trans hidle
  dsimp only
  split
  · next commandType hdecode =>
    split
    · exact ⟨hquiet.1, hquiet.acts hidle _⟩
    next hallowed =>
    rw [not_or, not_not] at hallowed
    refine (wpS_bind _ _ _ _ _).mpr (wpS_mono (fun _ _ h => h) ?_ _ _ (endpointProcess_wpS hidle₁))
    rintro result w₂ ⟨hgoes, hacts⟩
    refine ⟨hquiet.1.trans hgoes, Acts.after hquiet hidle (hacts.imp fun commandType' action hasks => ?_)⟩
    rw [hbody]
    obtain ⟨_, _, _, hdecode', -⟩ := id hasks
    cases hdecode.symm.trans hdecode'
    exact ⟨hasks, hallowed.2⟩
  · next hother =>
    refine (wpS_bind _ _ _ _ _).mpr (wpS_mono (fun _ _ h => h) ?_ _ _ (endpointProcess_wpS hidle₁))
    rintro result w₂ ⟨hgoes, hacts⟩
    refine ⟨hquiet.1.trans hgoes, Acts.after hquiet hidle (hacts.imp fun commandType action hasks => ?_)⟩
    obtain ⟨_, _, _, hdecode, -⟩ := hasks
    exact absurd hdecode (hother _ _ _)

end Handler

theorem accessEmbed_of_exec {sha256 : List UInt8 → Option (Vector UInt8 32)} {store : SecurityPayload}
    {t : Nat} {α : Type} {p : AccessProg α} {a a' : AccessWorld} {tr : List (Σ q, AccessCall.Answer q)}
    {r : α} (h : Exec (AccessAnswers sha256 store) p a tr r a') (router : List (Move Router RouterEvent))
    (stream : Bytes) :
    ∃ tr', Exec (CommandAnswers sha256 store t) (p.embed CommandCall.access fun _ r => r)
      ⟨a, router, stream⟩ tr' r ⟨a', router, stream⟩ := by
  induction h with
  | ret r a => exact ⟨[], .ret _ _⟩
  | @ask q k r s s' u tr a hanswer _ ih =>
    obtain ⟨tr', hexec⟩ := ih
    have hcall : CommandAnswers sha256 store t (.access q) ⟨s, router, stream⟩ r ⟨s', router, stream⟩ :=
      .access hanswer ⟨hanswer.goes, [], (List.append_nil _).symm, trivial, by simp⟩ rfl
    exact ⟨_, .ask hcall hexec⟩

namespace StartDemo

open AccessDemo

/-- Task 1 gives the browser the authority. -/
def granted : List (Move Router RouterEvent) :=
  routerTrace Router.start [⟨1, .lockDispatch⟩, ⟨1, .setMode .localService .browser⟩, ⟨1, .unlockDispatch⟩]

def env : CommandEnvelope := ⟨.localServicePortal, .start, 2, 0, false⟩

/-- Task 0, the handler's, dispatches the start. -/
def dispatched : List (Move Router RouterEvent) :=
  routerTrace (final Router.start granted) [⟨0, .dispatch env⟩, ⟨0, .takeMutex⟩, ⟨0, .check⟩, ⟨0, .execute⟩,
    ⟨0, .finish espOk⟩]

def body : Bytes := asciiBytes "\x7b\"command\":\"start\"\x7d"

def net : NetSnapshot := ⟨.serviceApOnly, .disabled, false, false, true, false, true, false⟩

theorem dispatched_call : DispatchCall 0 env (final Router.start granted) dispatched espOk where
  run := isRun_routerTrace _ _
  calls := ⟨[], _, _, rfl, by simp, rfl, .inl rfl, by decide⟩
  returns := ⟨dispatched.take 4, _, [], rfl, rfl, rfl, by simp⟩

/-- What the handler does with that body once the console's request is let in. -/
theorem start_admitted (access : AccessWorld) : ∃ tr response,
    Exec (CommandAnswers sha256 AccessDemo.store 0) (commandAdmitted (consolePrincipal 1 1) body.length)
      ⟨access, granted, body⟩ tr response ⟨access, granted ++ dispatched, []⟩ := by
  have hdecode : commandDecode body = (.ok, ⟨true, some .start, 0, false⟩) := by decide +kernel
  have hallow : authorizationRequire (consolePrincipal 1 1) permissionMotion = .allow := by decide +kernel
  have hquiet (router : List (Move Router RouterEvent)) (stream stream' : Bytes) :
      CommandWorld.Quiet sha256 AccessDemo.store 0 ⟨access, router, stream⟩ ⟨access, router, stream'⟩ :=
    ⟨.refl _, [], (List.append_nil _).symm, trivial, by simp⟩
  have hreceive : Exec (CommandAnswers sha256 AccessDemo.store 0) (receiveBody body.length)
      ⟨access, granted, body⟩ [⟨.recv body.length, .got body⟩] (.ok body) ⟨access, granted, []⟩ := by
    unfold receiveBody
    rw [if_neg (by decide), if_neg (by decide), receiveBodyLoop, dif_pos (by decide)]
    refine .ask (.recvGot (hquiet _ _ _) (List.append_nil _).symm (Nat.le_refl _)) ?_
    dsimp only
    rw [if_neg (by decide), if_neg (by decide), receiveBodyLoop, dif_neg (by simp)]
    exact .ret _ _
  have hnetwork : CommandAnswers sha256 AccessDemo.store 0 .getNetworkSnapshot ⟨access, granted, []⟩
      (espOk, net) ⟨access, granted, []⟩ := .network (hquiet _ _ _) rfl
  have hauthority : CommandAnswers sha256 AccessDemo.store 0 .getAuthoritySnapshot ⟨access, granted, []⟩
      (espOk, ⟨.localService, .browser, 2⟩) ⟨access, granted, []⟩ :=
    .authority (hquiet _ _ _) rfl fun _ => rfl
  have hdispatch : CommandAnswers sha256 AccessDemo.store 0 (.dispatch env) ⟨access, granted, []⟩
      espOk ⟨access, granted ++ dispatched, []⟩ := .dispatch (.refl _) rfl dispatched_call rfl
  refine ⟨[⟨.recv body.length, .got body⟩] ++ [⟨.getNetworkSnapshot, (espOk, net)⟩,
    ⟨.getAuthoritySnapshot, (espOk, ⟨.localService, .browser, 2⟩)⟩, ⟨.dispatch env, espOk⟩],
    .endpoint .ok, ?_⟩
  unfold commandAdmitted
  refine hreceive.bind ?_
  dsimp only
  rw [hdecode]
  dsimp only
  rw [if_neg (by rw [not_or, not_not]; exact ⟨by decide, hallow⟩)]
  unfold endpointProcess
  rw [if_neg (by simp), hdecode]
  exact .ask hnetwork (.ask hauthority (.ask hdispatch (.ret _ _)))

end StartDemo

end Browser

end Argus
