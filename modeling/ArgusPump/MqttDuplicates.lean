import ArgusPump.MqttDeadline
import ArgusPump.Lib.Ring

/-!
# The duplicate cache over runs

The cache of `argus_mqtt_authority_admit` as a FIFO map: a ring whose contents are the
last sixteen requests evaluated, in order, with at most one entry to a key.

    an admission is evaluated and recorded, or does nothing          (authorityAdmit_dup)
    the cache holds the last entries recorded                        (recorded_holds)
    a redelivery whose entry is cached is answered with the first result
                                                                     (duplicate_law)
-/

namespace Argus

open Interact

/-! ## The cache as a FIFO map -/

/-- What identifies a request: session, request id and kind. -/
def AuthDupEntry.key (e : AuthDupEntry) : Bytes × Bytes × Bool := (e.session, e.requestId, e.release)

theorem AuthDupEntry.key_eq {e : AuthDupEntry} {session requestId : Bytes} {release : Bool}
    (h : e.key = (session, requestId, release)) :
    e.session = session ∧ e.requestId = requestId ∧ e.release = release := by
  simpa [AuthDupEntry.key] using h

namespace AuthDupCache

def ring (cache : AuthDupCache) : Ring AuthDupEntry mqttAuthDupCacheSize :=
  ⟨cache.entries, cache.next⟩

/-- The entries in use, oldest first. -/
def contents (cache : AuthDupCache) : List AuthDupEntry := cache.ring.toList

theorem ring_store (cache : AuthDupCache) (e : AuthDupEntry) :
    (cache.store e).ring = cache.ring.push { e with ordinal := cache.ordinalNext } := rfl

theorem find_some {cache : AuthDupCache} {session requestId : Bytes} {release : Bool}
    {e : AuthDupEntry} (h : cache.find session requestId release = some e) :
    e ∈ cache.contents ∧ e.key = (session, requestId, release) := by
  unfold find at h
  obtain ⟨slot, hslot, hfilter⟩ := List.exists_of_findSome?_eq_some h
  obtain ⟨rfl, hkey⟩ := Option.filter_eq_some_iff.mp hfilter
  simp only [Bool.and_eq_true, decide_eq_true_eq] at hkey
  obtain ⟨⟨hrelease, hsession⟩, hrequest⟩ := hkey
  refine ⟨Ring.mem_toList.mpr hslot, ?_⟩
  unfold AuthDupEntry.key
  rw [hsession, hrequest, hrelease]

theorem find_none {cache : AuthDupCache} {session requestId : Bytes} {release : Bool}
    (h : cache.find session requestId release = none) {e : AuthDupEntry}
    (he : e ∈ cache.contents) : e.key ≠ (session, requestId, release) := by
  intro hkey
  obtain ⟨hsession, hrequest, hrelease⟩ := AuthDupEntry.key_eq hkey
  unfold find at h
  have := List.findSome?_eq_none_iff.mp h (some e) (Ring.mem_toList.mp he)
  rw [Option.filter_eq_none_iff] at this
  exact this e rfl (by simp [hsession, hrequest, hrelease])

theorem mem_store {cache : AuthDupCache} {e e' : AuthDupEntry}
    (h : e' ∈ (cache.store e).contents) :
    e' ∈ cache.contents ∨ e' = { e with ordinal := cache.ordinalNext } := by
  unfold contents at h
  rw [ring_store] at h
  rcases List.mem_append.mp ((Ring.toList_push_sublist _ _).subset h) with hold | hnew
  · exact .inl hold
  · exact .inr (List.mem_singleton.mp hnew)

/-- No two entries have the same key. -/
def KeysUnique (cache : AuthDupCache) : Prop := (cache.contents.map AuthDupEntry.key).Nodup

theorem KeysUnique.find {cache : AuthDupCache} (h : cache.KeysUnique) {e : AuthDupEntry}
    (he : e ∈ cache.contents) : cache.find e.session e.requestId e.release = some e := by
  cases hfind : cache.find e.session e.requestId e.release with
  | none => exact absurd rfl (find_none hfind he)
  | some e' =>
    obtain ⟨he', hkey⟩ := find_some hfind
    rw [List.inj_on_of_nodup_map h he' he hkey]

theorem KeysUnique.store {cache : AuthDupCache} (h : cache.KeysUnique) {e : AuthDupEntry}
    (hfind : cache.find e.session e.requestId e.release = none) : (cache.store e).KeysUnique := by
  unfold KeysUnique contents at *
  rw [ring_store]
  refine ((Ring.toList_push_sublist _ _).map AuthDupEntry.key).nodup ?_
  rw [List.map_append, List.nodup_append]
  refine ⟨h, List.nodup_singleton _, ?_⟩
  rintro k hk k' hk' rfl
  obtain ⟨e', he', rfl⟩ := List.mem_map.mp hk
  exact find_none hfind he' (List.mem_singleton.mp hk')

end AuthDupCache

/-! ## What an admission does to the cache -/

/-- The stages that come with a decision. -/
def AdmitStage.evaluated : AdmitStage → Bool
  | .releaseStaleEpoch | .releaseNotOwner | .releaseAccepted | .requestStaleEpoch
  | .requestEvaluated => true
  | .retainedRefused | .qosRefused | .decodeRejected | .sessionMismatch | .duplicateReplay
  | .duplicateConflict => false

theorem arbitrate_evaluated (core : SessionCore) (message : Message) (release : Bool)
    (ctx : AdmitContext) (req : AuthorityRequest) :
    (arbitrate core message release ctx req).1.stage.evaluated = true := by
  simp only [arbitrate]
  split
  · split
    · rfl
    · dsimp only
      split <;> rfl
  · split <;> rfl

/-- The entry `e` records the evaluation of the request `req` in `message`. -/
structure Records (sha256 : Bytes → Option Digest) (message : Message) (release : Bool)
    (req : AuthorityRequest) (resultJson : Bytes) (e : AuthDupEntry) : Prop where
  key : e.key = (req.session, req.requestId, release)
  hash : e.payloadHash = authDupHash sha256 message.payload
  len : e.payloadLen = message.payload.length
  replay : e.replay = resultJson

/-- An admission does nothing, or evaluates a request of a key not in the cache and records
all that its result document is made of. -/
theorem authorityAdmit_dup (sha256 : Bytes → Option Digest) (s : Session) (message : Message)
    (release : Bool) (ctx : AdmitContext) :
    ((authorityAdmit sha256 s message release ctx).2 = s ∧
      (authorityAdmit sha256 s message release ctx).1.stage.evaluated = false) ∨
    ((authorityAdmit sha256 s message release ctx).1.stage.evaluated = true ∧
      message.retain = false ∧ message.qos = 1 ∧
      ∃ req e, decodeAuthorityRequest message.payload release = .ok req ∧
        req.session = s.core.session ∧
        s.dup.find req.session req.requestId release = none ∧
        (authorityAdmit sha256 s message release ctx).2.dup = s.dup.store e ∧
        Records sha256 message release req
          (authorityAdmit sha256 s message release ctx).1.resultJson e) := by
  unfold authorityAdmit
  simp only []
  split
  · exact .inl ⟨rfl, rfl⟩
  · next hretain =>
    split
    · exact .inl ⟨rfl, rfl⟩
    · next hqos =>
      split
      · exact .inl ⟨rfl, rfl⟩
      · next req hdecode =>
        split
        · exact .inl ⟨rfl, rfl⟩
        · next hsession =>
          split
          · split
            · exact .inl ⟨rfl, rfl⟩
            · exact .inl ⟨rfl, rfl⟩
          · next hmiss =>
            refine .inr ⟨arbitrate_evaluated s.core message release ctx req,
              Bool.eq_false_iff.mpr hretain, not_not.mp hqos, req, _, hdecode,
              not_not.mp hsession, hmiss, rfl, rfl, rfl, rfl, ?_⟩
            -- the document names the session of the core, the entry that of the request
            unfold AuthDupEntry.replay authorityResultJson
            rw [not_not.mp hsession, arbitrate_session]

/-- A message that repeats a cached key is answered and changes nothing. -/
theorem authorityAdmit_cached (sha256 : Bytes → Option Digest) {s : Session} {message : Message}
    {release : Bool} {req : AuthorityRequest} {e : AuthDupEntry} (ctx : AdmitContext)
    (hunique : s.dup.KeysUnique) (hretain : message.retain = false) (hqos : message.qos = 1)
    (hdecode : decodeAuthorityRequest message.payload release = .ok req)
    (hsession : req.session = s.core.session) (he : e ∈ s.dup.contents)
    (hkey : e.key = (req.session, req.requestId, release)) :
    (authorityAdmit sha256 s message release ctx).2 = s ∧
      (e.payloadLen = message.payload.length ∧
          e.payloadHash = authDupHash sha256 message.payload →
        (authorityAdmit sha256 s message release ctx).1 =
          { stage := .duplicateReplay, published := true, resultJson := e.replay }) ∧
      (¬ (e.payloadLen = message.payload.length ∧
          e.payloadHash = authDupHash sha256 message.payload) →
        (authorityAdmit sha256 s message release ctx).1.stage = .duplicateConflict) := by
  have hfind : s.dup.find req.session req.requestId release = some e := by
    rw [← hunique.find he]
    obtain ⟨h₁, h₂, h₃⟩ := AuthDupEntry.key_eq hkey
    rw [h₁, h₂, h₃]
  unfold authorityAdmit
  simp only []
  rw [if_neg (by rw [hretain]; decide), if_neg (not_not.mpr hqos), hdecode]
  dsimp only
  rw [if_neg (not_not.mpr hsession), hfind]
  dsimp only
  split
  · next hsame => exact ⟨rfl, fun _ => rfl, fun hno => absurd hsame hno⟩
  · next hother => exact ⟨rfl, fun hsame => absurd hsame hother, fun _ => rfl⟩

/-! ## Runs -/

/-- The entry the move wrote, if it wrote one. -/
def recorded (v : Move Session SessionEvent) : Option AuthDupEntry :=
  if v.post.dup.next = v.pre.dup.next then none else v.post.dup.entries[v.pre.dup.next]

theorem recorded_same {v : Move Session SessionEvent} (h : v.post.dup = v.pre.dup) :
    recorded v = none := by
  unfold recorded
  rw [h, if_pos rfl]

theorem recorded_store {v : Move Session SessionEvent} {e : AuthDupEntry}
    (h : v.post.dup = v.pre.dup.store e) :
    recorded v = some { e with ordinal := v.pre.dup.ordinalNext } := by
  unfold recorded
  rw [h, if_neg]
  · exact Vector.getElem_set_self _
  · have hmoves : ∀ i : Fin mqttAuthDupCacheSize, i + 1 ≠ i := by decide
    exact hmoves v.pre.dup.next

/-- **One step** leaves the cache alone or stores an entry of a key it does not have. -/
theorem handle_recorded {sha256 : Bytes → Option Digest} {v : Move Session SessionEvent}
    (hs : sessionStep sha256 v.pre v.ev v.post) :
    (recorded v = none ∧ v.post.dup = v.pre.dup) ∨
      ∃ e, v.pre.dup.find e.session e.requestId e.release = none ∧
        e.session = v.pre.core.session ∧ v.post.dup = v.pre.dup.store e ∧
        recorded v = some { e with ordinal := v.pre.dup.ordinalNext } := by
  obtain ⟨s, ⟨now, act⟩, t⟩ := v
  obtain rfl : t = (s.handle sha256 ⟨now, act⟩).2 := hs
  cases act with
  | authority message release profile windowOpen running =>
    rcases authorityAdmit_dup sha256 s message release ⟨profile, windowOpen, running, now⟩ with
      ⟨hsame, -⟩ | ⟨-, -, -, req, e, -, hsession, hmiss, hdup, hrecords⟩
    · have hdup := congrArg Session.dup hsame
      exact .inl ⟨recorded_same hdup, hdup⟩
    · obtain ⟨h₁, h₂, h₃⟩ := AuthDupEntry.key_eq hrecords.key
      refine .inr ⟨e, ?_, h₁.trans hsession, hdup, recorded_store hdup⟩
      rw [h₁, h₂, h₃]
      exact hmiss
  | heartbeat message => exact .inl ⟨recorded_same rfl, rfl⟩
  | command message action maxRpm routed => exact .inl ⟨recorded_same rfl, rfl⟩
  | tick => exact .inl ⟨recorded_same rfl, rfl⟩
  | disconnect conn => exact .inl ⟨recorded_same rfl, rfl⟩

/-- The cache holds the last entries the run recorded. -/
theorem recorded_holds {sha256 : Bytes → Option Digest} {s : Session}
    {ms : List (Move Session SessionEvent)} (h : IsRun (sessionStep sha256) s ms)
    {hist : List AuthDupEntry} (h0 : s.dup.ring.Holds hist) :
    (final s ms).dup.ring.Holds (hist ++ ms.filterMap recorded) := by
  refine h.inv_past (I := fun t ns => t.dup.ring.Holds (hist ++ ns.filterMap recorded)) ?_
    fun ns v hpast hs => ?_
  · rw [List.filterMap_nil, List.append_nil]
    exact h0
  · rw [List.filterMap_append]
    rcases handle_recorded hs with ⟨hnone, hdup⟩ | ⟨e, -, -, hdup, hsome⟩
    · rw [List.filterMap_cons_none hnone, List.filterMap_nil, List.append_nil, hdup]
      exact hpast
    · rw [List.filterMap_cons_some hsome, List.filterMap_nil, ← List.append_assoc, hdup,
        AuthDupCache.ring_store]
      exact hpast.push _

/-- One entry to a key, and all of this session. -/
structure DupInv (s : Session) : Prop where
  unique : s.dup.KeysUnique
  session : ∀ e ∈ s.dup.contents, e.session = s.core.session

theorem DupInv.start (session : Bytes) : DupInv (Session.start session) where
  unique := List.nodup_nil
  session := by
    intro e he
    cases he

theorem DupInv.step {sha256 : Bytes → Option Digest} {v : Move Session SessionEvent}
    (hs : sessionStep sha256 v.pre v.ev v.post) (h : DupInv v.pre) : DupInv v.post := by
  have hsession : v.post.core.session = v.pre.core.session := by
    obtain ⟨s, ev, t⟩ := v
    obtain rfl : t = (s.handle sha256 ev).2 := hs
    exact handle_session sha256 s ev
  rcases handle_recorded hs with ⟨-, hdup⟩ | ⟨e, hmiss, he, hdup, -⟩
  · refine ⟨by rw [hdup]; exact h.unique, ?_⟩
    rw [hdup, hsession]
    exact h.session
  · refine ⟨by rw [hdup]; exact h.unique.store hmiss, ?_⟩
    rw [hdup, hsession]
    intro e' he'
    rcases AuthDupCache.mem_store he' with hold | hnew
    · exact h.session e' hold
    · rw [hnew]
      exact he

/-! ## The law -/

/-- The move is an admission of this message with this outcome. -/
def Admits (sha256 : Bytes → Option Digest) (v : Move Session SessionEvent) (message : Message)
    (release : Bool) (out : AuthorityOutcome) : Prop :=
  (∃ profile windowOpen running,
    v.ev.act = .authority message release profile windowOpen running) ∧
  (v.pre.handle sha256 v.ev).1 = .authority out

theorem Admits.outcome {sha256 : Bytes → Option Digest} {v : Move Session SessionEvent}
    {message : Message} {release : Bool} {out : AuthorityOutcome}
    (hs : sessionStep sha256 v.pre v.ev v.post) (h : Admits sha256 v message release out) :
    ∃ ctx, authorityAdmit sha256 v.pre message release ctx = (out, v.post) := by
  obtain ⟨s, ⟨now, act⟩, t⟩ := v
  obtain rfl : t = (s.handle sha256 ⟨now, act⟩).2 := hs
  obtain ⟨⟨profile, windowOpen, running, rfl⟩, hout⟩ := h
  refine ⟨⟨profile, windowOpen, running, now⟩, Prod.ext ?_ rfl⟩
  exact SessionOutcome.authority.inj hout

structure DuplicateLaw (sha256 : Bytes → Option Digest) (s : Session)
    (ms : List (Move Session SessionEvent)) : Prop where
  /-- While the entry of an evaluated request is cached, its redelivery gets the first result. -/
  replay : ∀ l v mid w r, ms = l ++ v :: (mid ++ w :: r) →
    ∀ message message' release out out' e,
      Admits sha256 v message release out → out.stage.evaluated = true → recorded v = some e →
      e ∈ w.pre.dup.contents → Admits sha256 w message' release out' →
      message'.payload = message.payload → message'.qos = message.qos →
      message'.retain = message.retain →
      w.post = w.pre ∧
        out' = { stage := .duplicateReplay, published := true, resultJson := out.resultJson }
  /-- A message that repeats a cached key changes nothing, whatever its payload; one of
  another digest or length is a conflict. -/
  conflict : ∀ w ∈ ms, ∀ message release out req e, Admits sha256 w message release out →
    decodeAuthorityRequest message.payload release = .ok req → e ∈ w.pre.dup.contents →
    e.key = (req.session, req.requestId, release) →
    w.post = w.pre ∧
      (¬ (e.payloadLen = message.payload.length ∧
          e.payloadHash = authDupHash sha256 message.payload) → message.qos = 1 →
        message.retain = false → out.stage = .duplicateConflict)
  unique : (final s ms).dup.KeysUnique
  /-- The last sixteen entries recorded are there, in the order they came. -/
  fifo : (final s ms).dup.contents =
    (ms.filterMap recorded).drop ((ms.filterMap recorded).length - mqttAuthDupCacheSize)
  /-- Only an evaluated admission records an entry; the others change nothing. -/
  refused : ∀ v ∈ ms, ∀ message release out, Admits sha256 v message release out →
    if out.stage.evaluated then ∃ e, recorded v = some e ∧ e.replay = out.resultJson
    else recorded v = none ∧ v.post = v.pre

theorem duplicate_law (sha256 : Bytes → Option Digest) {session : Bytes}
    {ms : List (Move Session SessionEvent)}
    (h : IsRun (sessionStep sha256) (Session.start session) ms) :
    DuplicateLaw sha256 (Session.start session) ms := by
  have hinv := h.inv (I := DupInv) (.start session) fun v hi hs => hi.step hs
  have hname := h.inv (I := fun t => t.core.session = (Session.start session).core.session) rfl (by
    rintro ⟨t, ev, u⟩ hi (rfl : u = (t.handle sha256 ev).2)
    exact (handle_session sha256 t ev).trans hi)
  refine ⟨?_, ?_, hinv.2.unique, (recorded_holds h Ring.holds_empty).toList, ?_⟩
  · rintro l v mid w r rfl message message' release out out' e hv heval hrec hcached hw hpayload
      hqos hretain
    have hvmem : v ∈ l ++ v :: (mid ++ w :: r) := by simp
    have hwmem : w ∈ l ++ v :: (mid ++ w :: r) := by simp
    obtain ⟨ctx, haccept⟩ := hv.outcome (h.step_of_mem v hvmem)
    obtain ⟨ctx', haccept'⟩ := hw.outcome (h.step_of_mem w hwmem)
    rcases authorityAdmit_dup sha256 v.pre message release ctx with
      ⟨-, hno⟩ | ⟨-, hretain₀, hqos₀, req, e₀, hdecode, hsession, -, hdup, hrecords⟩
    · rw [haccept, heval] at hno
      cases hno
    · rw [haccept] at hdup hrecords
      -- the entry that is still cached is the one of the first evaluation
      obtain rfl : _ = e := Option.some.inj ((recorded_store hdup).symm.trans hrec)
      obtain ⟨hsame, hreplay, -⟩ := authorityAdmit_cached sha256 ctx' (hinv.1 w hwmem).1.unique
        (hretain.trans hretain₀) (hqos.trans hqos₀) (by rw [hpayload]; exact hdecode)
        (hsession.trans ((hname.1 v hvmem).1.trans (hname.1 w hwmem).1.symm)) hcached hrecords.key
      rw [haccept'] at hsame hreplay
      refine ⟨hsame, (hreplay ⟨?_, ?_⟩).trans ?_⟩
      · rw [hpayload]
        exact hrecords.len
      · rw [hpayload]
        exact hrecords.hash
      · rw [← hrecords.replay]
        rfl
  · intro w hw message release out req e hadmits hdecode hcached hkey
    obtain ⟨ctx, haccept⟩ := hadmits.outcome (h.step_of_mem w hw)
    have hsession : req.session = w.pre.core.session := by
      rw [← (AuthDupEntry.key_eq hkey).1]
      exact (hinv.1 w hw).1.session e hcached
    by_cases hdelivered : message.retain = false ∧ message.qos = 1
    · obtain ⟨hsame, -, hconflict⟩ := authorityAdmit_cached sha256 ctx (hinv.1 w hw).1.unique
        hdelivered.1 hdelivered.2 hdecode hsession hcached hkey
      rw [haccept] at hsame hconflict
      exact ⟨hsame, fun hother _ _ => hconflict hother⟩
    · -- retained or of another QoS: refused before the lookup
      rcases authorityAdmit_dup sha256 w.pre message release ctx with
        ⟨hsame, -⟩ | ⟨-, hretain, hqos, -⟩
      · rw [haccept] at hsame
        exact ⟨hsame, fun _ hqos hretain => absurd ⟨hretain, hqos⟩ hdelivered⟩
      · exact absurd ⟨hretain, hqos⟩ hdelivered
  · intro v hv message release out hadmits
    obtain ⟨ctx, haccept⟩ := hadmits.outcome (h.step_of_mem v hv)
    rcases authorityAdmit_dup sha256 v.pre message release ctx with
      ⟨hsame, hno⟩ | ⟨heval, -, -, req, e, -, -, -, hdup, hrecords⟩
    · rw [haccept] at hsame hno
      rw [if_neg (by rw [hno]; decide)]
      exact ⟨recorded_same (congrArg Session.dup hsame), hsame⟩
    · rw [haccept] at heval hdup hrecords
      rw [if_pos heval]
      exact ⟨_, recorded_store hdup, hrecords.replay⟩

/-- The panel's request delivered twice, with a heartbeat in between: recorded once. -/
theorem duplicate_law_panel :
    let s := Session.start (txt "0123456789abcdef")
    let ms := sessionTrace mbedtlsSha256 s
      [panelGrant, ⟨2000, .heartbeat (panelMessage (firstHeartbeat (txt "0123456789abcdef")))⟩,
        { panelGrant with nowMs := 3000 }]
    DuplicateLaw mbedtlsSha256 s ms ∧ (ms.filterMap recorded).length = 1 := by
  intro s ms
  exact ⟨duplicate_law mbedtlsSha256 (isRun_sessionTrace mbedtlsSha256 s _), by decide +kernel⟩

end Argus
