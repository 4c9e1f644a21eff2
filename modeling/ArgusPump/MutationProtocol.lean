import ArgusPump.AuditMutation
import ArgusPump.AuditPages

/-!
# The protocol of audited mutations

What is promised to who begins a mutation: it goes ahead only with a record that it is prepared,
and it ends with one that says how it ended, or no other mutation begins until the next boot.  The
ledger is the trail of the records that are kept, with the calls that return.

    a begin or a finish returns ESP_OK → its record is kept, with its lifecycle   (LedgerStep)
    the runs of the service → runs of the ledger with the same events             (ServiceInv.step)
    a mutation whose finish failed → every begin fails until a reboot             (mutation_protocol)
-/

namespace Argus

open Interact AuditFlash

/-! ## The ledger -/

/-- A mutation as `begin` stores it. -/
def AuditMutation.Finishable (m : AuditMutation) : Prop :=
  m.lifecycleId ≠ 0 ∧ (cString m.action).length ≤ auditActionMax

/-- The record a call that returned `ESP_OK` has left in the log. -/
def AuditOperation.Left (op : AuditOperation) (log : List AuditRecord) (out : Option AuditMutation) : Prop :=
  match op with
  | .append _ => True
  | .begin _ => ∃ m, out = some m ∧ m.Finishable ∧
      ∃ r ∈ log, r.outcome = auditOutcomePrepared ∧ r.lifecycleId = m.lifecycleId
  | .finish mutation succeeded => ∃ m, mutation = some m ∧
      ∃ r ∈ log, r.outcome = finishOutcome succeeded ∧ r.lifecycleId = m.lifecycleId

namespace AuditServiceAct

/-- What happens to the device. -/
def device : AuditServiceAct → Option AuditAct
  | .write record err => some (.append record err)
  | .init act | .reboot act => some act
  | _ => none

/-- The call that starts. -/
def starts : AuditServiceAct → Option AuditOperation
  | .refuse op _ | .enter _ op => some op
  | _ => none

/-- The call that returns, with its result and what it has stored. -/
def returned : AuditServiceAct → Option (AuditOperation × EspErr × Option AuditMutation)
  | .refuse op err => some (op, err, none)
  | .leave op err out => some (op, err, out)
  | _ => none

def reboots : AuditServiceAct → Bool
  | .reboot _ => true
  | _ => false

end AuditServiceAct

inductive LedgerStep : Trail → AuditServiceAct → Trail → Prop
  | device {t u : Trail} {ev : AuditServiceAct} {act : AuditAct} :
      ev.device = some act → TrailStep t act u → LedgerStep t ev u
  | leave {t : Trail} {op : AuditOperation} {err : EspErr} {out : Option AuditMutation} :
      (err = espOk → op.Left t.log out) → LedgerStep t (.leave op err out) t
  | refuse {t : Trail} {op : AuditOperation} {err : EspErr} :
      err ≠ espOk → LedgerStep t (.refuse op err) t
  | enter {t : Trail} {c : Nat} {op : AuditOperation} : LedgerStep t (.enter c op) t
  | drop {t : Trail} {c : Nat} {err : EspErr} : LedgerStep t (.drop c err) t
  | enqueue {t : Trail} {c : Nat} : LedgerStep t (.enqueue c) t
  | receive {t : Trail} : LedgerStep t .receive t

abbrev LedgerMove := Move Trail AuditServiceAct

theorem TrailStep.prefix {t u : Trail} {act : AuditAct} (h : TrailStep t act u) : t.log <+: u.log := by
  cases h with
  | append r => exact List.prefix_append _ _
  | adopt _ => exact List.prefix_append _ _
  | _ => exact List.prefix_rfl

theorem TrailStep.acked {t u : Trail} {r : AuditRecord} (h : TrailStep t (.append r espOk) u) :
    r ∈ u.log := by
  cases h with
  | append _ => exact List.mem_append_right _ List.mem_cons_self
  | appendFailed _ hne => exact absurd rfl hne

/-- A call that returns `ESP_OK` has left its record. -/
theorem LedgerStep.left {t u : Trail} {ev : AuditServiceAct} (h : LedgerStep t ev u) {op : AuditOperation}
    {out : Option AuditMutation} (hreturned : ev.returned = some (op, espOk, out)) : op.Left u.log out := by
  cases h with
  | device hdevice _ =>
    cases ev with
    | refuse _ _ => cases hdevice
    | leave _ _ _ => cases hdevice
    | _ => cases hreturned
  | leave hleft =>
    obtain ⟨rfl, hrest⟩ := Prod.mk.inj (Option.some.inj hreturned)
    obtain ⟨rfl, rfl⟩ := Prod.mk.inj hrest
    exact hleft rfl
  | refuse herr =>
    obtain ⟨-, hrest⟩ := Prod.mk.inj (Option.some.inj hreturned)
    exact absurd (Prod.mk.inj hrest).1 herr
  | _ => cases hreturned

/-! ## The entry of a call -/

theorem safeText_some {s : List UInt8} {capacity : Nat} (h : safeText (some s) capacity = true) :
    s.length < capacity ∧ (0 : UInt8) ∉ s := by
  unfold safeText at h
  dsimp only at h
  rw [Bool.and_eq_true, decide_eq_true_eq, List.all_eq_true] at h
  refine ⟨h.1, fun hzero => ?_⟩
  exact absurd (h.2 0 hzero) (by decide)

theorem mutationBegin_ok {q : MutationRequest} {degraded : Bool} {e : AuditEntry}
    (h : mutationBegin q degraded = .ok e) :
    degraded = false ∧ e.required = true ∧ e.record.outcome = auditOutcomePrepared ∧
      e.record.lifecycleId = 0 ∧
        ∃ action, q.action = some action ∧ safeText (some action) (auditActionMax + 1) = true := by
  unfold mutationBegin at h
  split at h
  · cases h
  · next action haction =>
    split at h
    · cases h
    · next hchecked =>
      dsimp only at h
      split at h
      · cases h
      · cases h
        simp only [not_or, Bool.not_eq_false, Bool.not_eq_true] at hchecked
        obtain ⟨-, htext, -, hhealthy⟩ := hchecked
        exact ⟨hhealthy, rfl, rfl, rfl, action, haction, htext⟩

theorem mutationFinish_ok {mutation : Option AuditMutation} {succeeded : Bool} {e : AuditEntry}
    (h : mutationFinish mutation succeeded = .ok e) :
    ∃ m, mutation = some m ∧ m.lifecycleId ≠ 0 ∧ e.required = true ∧
      e.record.outcome = finishOutcome succeeded ∧ e.record.lifecycleId = m.lifecycleId := by
  unfold mutationFinish at h
  split at h
  · cases h
  · next m =>
    split at h
    · cases h
    · next hne =>
      dsimp only at h
      split at h
      · cases h
      · cases h
        refine ⟨m, rfl, hne, rfl, ?_, rfl⟩
        cases succeeded <;> rfl

/-- The checks of a finish take what a begin has stored. -/
theorem mutationFinish_finishable {m : AuditMutation} (h : m.Finishable) (succeeded : Bool) :
    ∃ e, mutationFinish (some m) succeeded = .ok e := by
  have hsuffix : (finishSuffix succeeded).length ≤ 10 := by
    cases succeeded <;> decide
  have haction : (cString m.action).length ≤ 20 := h.2
  have hmax : auditTextMax + 1 = 37 := rfl
  unfold mutationFinish
  dsimp only
  rw [if_neg h.1, if_neg]
  · exact ⟨_, rfl⟩
  · rw [List.length_append]
    omega

/-- Only `argus_security_audit_append` does not wait for its record, and it gives no lifecycle. -/
theorem append_of_optional {op : AuditOperation} {degraded : Bool} {entry : AuditEntry}
    (h : op.entry degraded = .ok entry) (hoptional : entry.required ≠ true) :
    ∃ e, op = .append e ∧ entry.record.lifecycleId = 0 := by
  cases op with
  | append e =>
    cases h
    exact ⟨e, rfl, rfl⟩
  | begin q =>
    obtain ⟨-, hyes, -⟩ := mutationBegin_ok h
    exact absurd hyes hoptional
  | finish mutation succeeded =>
    obtain ⟨m, -, -, hyes, -⟩ := mutationFinish_ok h
    exact absurd hyes hoptional

theorem entry_error {op : AuditOperation} {degraded : Bool} {err : EspErr}
    (h : op.entry degraded = .error err) : err ≠ espOk := by
  cases op with
  | append e => cases h
  | begin q =>
    change mutationBegin q degraded = _ at h
    unfold mutationBegin at h
    split at h
    · cases h
      decide
    · split at h
      · cases h
        decide
      · dsimp only at h
        split at h
        · cases h
          decide
        · cases h
  | finish mutation succeeded =>
    change mutationFinish mutation succeeded = _ at h
    unfold mutationFinish at h
    split at h
    · cases h
      decide
    · split at h
      · cases h
        decide
      · dsimp only at h
        split at h
        · cases h
          decide
        · cases h

theorem foldLifecycle_ne_zero (sequence : UInt64) : foldLifecycle sequence ≠ 0 := by
  unfold foldLifecycle
  dsimp only
  split
  · decide
  · next hne => exact hne

namespace AuditRam

variable (ram : AuditRam) (record : AuditRecord) (uptimeUs : UInt64)

theorem stamp_outcome : (ram.stamp record uptimeUs).outcome = record.outcome := by
  unfold stamp
  dsimp only
  split <;> rfl

/-- A prepared record gets a lifecycle, any other keeps the one it has. -/
theorem stamp_lifecycleId : (ram.stamp record uptimeUs).lifecycleId =
    if record.outcome = auditOutcomePrepared ∧ record.lifecycleId = 0 then
      foldLifecycle ram.sMeta.nextSequence
    else record.lifecycleId := by
  unfold stamp
  dsimp only
  split <;> rfl

end AuditRam

/-! ## The service keeps the ledger -/

/-- The record is one that the call asks for. -/
def AuditOperation.Asks (op : AuditOperation) (record : AuditRecord) : Prop :=
  ∃ degraded entry, op.entry degraded = .ok entry ∧ record = entry.record

/-- What a task knows. -/
def AuditClient.Sound (log : List AuditRecord) : AuditClient → Prop
  | .idle => True
  | .appends op entry => ∃ degraded, op.entry degraded = .ok entry
  | .waits op record => op.Asks record
  | .served op err written => err = espOk → op.Left log (op.out err written)

theorem AuditOperation.Left.mono {op : AuditOperation} {log log' : List AuditRecord}
    {out : Option AuditMutation} (h : op.Left log out) (hlog : log <+: log') : op.Left log' out := by
  cases op with
  | append e => exact trivial
  | begin q =>
    obtain ⟨m, hm, hfin, r, hr, hkind⟩ := h
    exact ⟨m, hm, hfin, r, hlog.subset hr, hkind⟩
  | finish mutation succeeded =>
    obtain ⟨m, hm, r, hr, hkind⟩ := h
    exact ⟨m, hm, r, hlog.subset hr, hkind⟩

theorem AuditClient.Sound.mono {client : AuditClient} {log log' : List AuditRecord}
    (h : client.Sound log) (hlog : log <+: log') : client.Sound log' := by
  cases client with
  | served op err written => exact fun hok => (h hok).mono hlog
  | _ => exact h

/-- The stamped record of a call, once it is in the log. -/
theorem AuditOperation.Asks.left {op : AuditOperation} {record : AuditRecord} (h : op.Asks record)
    {ram : AuditRam} {uptimeUs : UInt64} {log : List AuditRecord} (hmem : ram.stamp record uptimeUs ∈ log) :
    op.Left log (op.out espOk (ram.stamp record uptimeUs)) := by
  obtain ⟨degraded, entry, hentry, rfl⟩ := h
  have houtcome := ram.stamp_outcome entry.record uptimeUs
  have hlifecycle := ram.stamp_lifecycleId entry.record uptimeUs
  cases op with
  | append e => exact trivial
  | begin q =>
    obtain ⟨-, -, hprepared, hzero, action, haction, hsafe⟩ := mutationBegin_ok hentry
    rw [if_pos ⟨hprepared, hzero⟩] at hlifecycle
    obtain ⟨hlen, hnul⟩ := safeText_some hsafe
    refine ⟨q.mutation (ram.stamp entry.record uptimeUs), rfl, ⟨?_, ?_⟩, _, hmem,
      houtcome.trans hprepared, rfl⟩
    · show (ram.stamp entry.record uptimeUs).lifecycleId ≠ 0
      rw [hlifecycle]
      exact foldLifecycle_ne_zero _
    · show (cString (strlcpy 21 (q.action.getD []))).length ≤ auditActionMax
      rw [haction, Option.getD_some]
      rw [cString_strlcpy (n := 21) hlen hnul]
      exact Nat.le_of_lt_succ hlen
  | finish mutation succeeded =>
    obtain ⟨m, hm, hne, -, hterminal, hsame⟩ := mutationFinish_ok hentry
    refine ⟨m, hm, _, hmem, houtcome.trans hterminal, ?_⟩
    rw [hlifecycle, if_neg, hsame]
    rw [hsame]
    exact fun hzero => hne hzero.2

/-- What holds of the service and the ledger. -/
structure ServiceInv (s : AuditService) (t : Trail) : Prop where
  device : AuditInv s.device t
  clients : ∀ c, (s.clients c).Sound t.log

namespace ServiceInv

variable {s : AuditService} {t : Trail}

theorem setClient (h : ∀ c, (s.clients c).Sound t.log) {c : Nat} {client : AuditClient}
    (hclient : client.Sound t.log) : ∀ i, ((s.setClient c client).clients i).Sound t.log := by
  intro i
  unfold AuditService.setClient
  dsimp only
  split
  · exact hclient
  · exact h i

theorem booting {device : AuditDevice} (h : AuditInv device t) : ServiceInv (.booting device) t :=
  ⟨h, fun _ => trivial⟩

/-- The writer's answer, with its record in the log if there is no error. -/
theorem answer (h : ∀ c, (s.clients c).Sound t.log) {request : AuditRequest} {record : AuditRecord}
    (hrecord : s.recordOf request = some record) {err : EspErr} {ram : AuditRam} {uptimeUs : UInt64}
    (hmem : err = espOk → ram.stamp record uptimeUs ∈ t.log) :
    ∀ i, ((s.answer request err (ram.stamp record uptimeUs)).clients i).Sound t.log := by
  cases request with
  | optional r => exact h
  | required c =>
    unfold AuditService.answer
    unfold AuditService.recordOf at hrecord
    dsimp only at hrecord ⊢
    have hc := h c
    split at hrecord
    · next op r hwaits =>
      cases hrecord
      rw [hwaits] at hc
      refine setClient h fun hok => ?_
      obtain rfl := hok
      exact AuditOperation.Asks.left hc (hmem rfl)
    · cases hrecord

/-- **One step of the service is one of the ledger.** -/
theorem step {s' : AuditService} {ev : AuditServiceAct} (hs : AuditServiceStep s ev s') (h : ServiceInv s t) :
    ∃ u, LedgerStep t ev u ∧ ServiceInv s' u := by
  cases hs with
  | refuse _ _ hentry => exact ⟨t, .refuse (entry_error hentry), h⟩
  | enter _ _ hentry => exact ⟨t, .enter, h.device, setClient h.clients ⟨_, hentry⟩⟩
  | drop _ herr => exact ⟨t, .drop, h.device, setClient h.clients fun hok => absurd hok herr⟩
  | @enqueue c op entry happends _ _ _ =>
    have hc := h.clients c
    rw [happends] at hc
    obtain ⟨degraded, hentry⟩ := hc
    refine ⟨t, .enqueue, ?_⟩
    by_cases hrequired : entry.required = true
    · rw [if_pos hrequired]
      exact ⟨h.device, setClient h.clients ⟨degraded, entry, hentry, rfl⟩⟩
    · rw [if_neg hrequired]
      refine ⟨h.device, setClient h.clients fun _ => ?_⟩
      obtain ⟨e, rfl, -⟩ := append_of_optional hentry hrequired
      exact trivial
  | receive _ _ => exact ⟨t, .receive, h.device, h.clients⟩
  | @write request record uptimeUs ram err device _ hrecord _ hwrite =>
    obtain ⟨u, htrail, hu⟩ := AuditInv.step hwrite h.device
    refine ⟨u, .device rfl htrail, hu, ?_⟩
    refine answer (s := s) (t := u) (fun c => (h.clients c).mono htrail.prefix) hrecord ?_
    rintro rfl
    exact htrail.acked
  | @leave c op err written hserved =>
    have hc := h.clients c
    rw [hserved] at hc
    refine ⟨t, .leave ?_, h.device, setClient h.clients trivial⟩
    rintro rfl
    exact hc rfl
  | init _ hinit =>
    obtain ⟨u, htrail, hu⟩ := AuditInv.step hinit h.device
    exact ⟨u, .device rfl htrail, hu, fun c => (h.clients c).mono htrail.prefix⟩
  | reboot hreboot =>
    obtain ⟨u, htrail, hu⟩ := AuditInv.step hreboot h.device
    exact ⟨u, .device rfl htrail, booting hu⟩
  | interrupted _ _ _ hcut =>
    obtain ⟨u, htrail, hu⟩ := AuditInv.step hcut h.device
    exact ⟨u, .device rfl htrail, booting hu⟩
  | initCut hcut =>
    obtain ⟨u, htrail, hu⟩ := AuditInv.step hcut h.device
    exact ⟨u, .device rfl htrail, booting hu⟩

end ServiceInv

/-! ## A finish that failed -/

namespace AuditServiceAct

/-- A begin returns `ESP_OK` with the mutation. -/
def Obtains (ev : AuditServiceAct) (mutation : AuditMutation) : Prop :=
  ∃ q, ev.returned = some (.begin q, espOk, some mutation)

/-- A finish of the mutation returns an error. -/
def FailsFinish (ev : AuditServiceAct) (mutation : AuditMutation) : Prop :=
  ∃ succeeded err out, err ≠ espOk ∧ ev.returned = some (.finish (some mutation) succeeded, err, out)

end AuditServiceAct

namespace AuditServiceStep

variable {s s' : AuditService} {ev : AuditServiceAct}

/-- It marks the audit. -/
theorem marks (h : AuditServiceStep s ev s') {mutation : AuditMutation} (hfin : mutation.Finishable)
    (hfails : ev.FailsFinish mutation) : s'.degraded = true := by
  obtain ⟨succeeded, err, out, herr, hreturned⟩ := hfails
  cases h with
  | refuse _ _ hentry =>
    obtain ⟨rfl, -⟩ := Prod.mk.inj (Option.some.inj hreturned)
    obtain ⟨e, hok⟩ := mutationFinish_finishable hfin succeeded
    cases hentry.symm.trans hok
  | leave _ =>
    obtain ⟨rfl, hrest⟩ := Prod.mk.inj (Option.some.inj hreturned)
    obtain ⟨rfl, -⟩ := Prod.mk.inj hrest
    simp [AuditOperation.isFinish, herr]
  | _ => cases hreturned

/-- Only a reboot takes the mark away. -/
theorem degraded (h : AuditServiceStep s ev s') (hreboot : ev.reboots ≠ true) (hs : s.degraded = true) :
    s'.degraded = true := by
  cases h with
  | enqueue _ _ _ _ =>
    split
    · exact hs
    · exact hs
  | @write request record uptimeUs ram err device _ _ _ _ =>
    show (s.answer request err _).degraded = true
    unfold AuditService.answer
    split
    · exact hs
    · split
      · exact hs
      · exact hs
  | leave _ =>
    show (s.degraded || _) = true
    rw [hs, Bool.true_or]
  | reboot _ => exact absurd rfl hreboot
  | interrupted _ _ _ _ => exact absurd rfl hreboot
  | initCut _ => exact absurd rfl hreboot
  | _ => exact hs

/-- While it is marked, a begin that starts fails. -/
theorem blocked (h : AuditServiceStep s ev s') (hs : s.degraded = true) {q : MutationRequest}
    (hstarts : ev.starts = some (.begin q)) :
    ∃ err, err ≠ espOk ∧ ev.returned = some (.begin q, err, none) := by
  cases h with
  | refuse _ _ hentry =>
    obtain rfl := Option.some.inj hstarts
    exact ⟨_, entry_error hentry, rfl⟩
  | enter _ _ hentry =>
    obtain rfl := Option.some.inj hstarts
    rw [hs] at hentry
    cases (mutationBegin_ok hentry).1
  | _ => cases hstarts

end AuditServiceStep

theorem ServiceInv.blank : ServiceInv .blank ⟨[], []⟩ := .booting (.inl ⟨rfl, rfl, rfl⟩)

/-- A mutation that is obtained can be finished. -/
theorem finishable_of_obtains {ms : List AuditServiceMove} (h : IsRun AuditServiceStep .blank ms)
    {m : AuditServiceMove} (hm : m ∈ ms) {mutation : AuditMutation} (hobtains : m.ev.Obtains mutation) :
    mutation.Finishable := by
  have hinv := h.inv (I := fun s => ∃ t, ServiceInv s t) ⟨_, ServiceInv.blank⟩ (by
    rintro m ⟨t, ht⟩ hstep
    obtain ⟨u, -, hu⟩ := ht.step hstep
    exact ⟨u, hu⟩)
  obtain ⟨t, ht⟩ := (hinv.1 m hm).1
  obtain ⟨u, hledger, -⟩ := ht.step (h.step_of_mem m hm)
  obtain ⟨q, hreturned⟩ := hobtains
  obtain ⟨m', hout, hfin, -⟩ := hledger.left hreturned
  rw [Option.some.inj hout]
  exact hfin

theorem degraded_of_since {ms : List AuditServiceMove} (h : IsRun AuditServiceStep .blank ms)
    (hsince : Since (fun m => ∃ mutation : AuditMutation, mutation.Finishable ∧ m.ev.FailsFinish mutation)
      (fun m => m.ev.reboots = true) ms) : (final .blank ms).degraded = true := by
  refine h.inv_past (I := fun s past => Since _ (fun m => m.ev.reboots = true) past → s.degraded = true)
    ?_ ?_ hsince
  · rintro ⟨l, m, r, hnil, -⟩
    cases l <;> cases hnil
  · intro past m hpast hstep hsince
    rcases since_append_singleton.mp hsince with ⟨mutation, hfin, hfails⟩ | ⟨hsince, hkeeps⟩
    · exact hstep.marks hfin hfails
    · exact hstep.degraded hkeeps (hpast hsince)

/-- **Audited mutations.**  Every begin that returned `ESP_OK` has left a prepared record with the
lifecycle it returned, every finish a terminal one with that lifecycle, in a log that only grows
and that the device shows whenever it runs; and once the finish of a mutation obtained from a begin
has failed, every begin that starts fails until a reboot. -/
theorem mutation_protocol {ms : List AuditServiceMove} (h : IsRun AuditServiceStep .blank ms) :
    (∃ ts : List LedgerMove, IsRun LedgerStep ⟨[], []⟩ ts ∧
      List.Forall₂ (fun t m => t.ev = m.ev ∧
        (m.post.device.ram ≠ none → ∀ offset, m.post.device.read offset = readOf t.post.log offset) ∧
        ∀ op out, m.ev.returned = some (op, espOk, out) → op.Left t.post.log out) ts ms) ∧
    ∀ l v r, ms = l ++ v :: r →
      Since (fun m => ∃ mutation, (∃ n ∈ ms, n.ev.Obtains mutation) ∧ m.ev.FailsFinish mutation)
        (fun m => m.ev.reboots = true) l →
      ∀ q, v.ev.starts = some (.begin q) →
        ∃ err, err ≠ espOk ∧ v.ev.returned = some (.begin q, err, none) := by
  obtain ⟨ts, hts, hall⟩ := h.simulate ServiceInv.blank fun hs hinv => ServiceInv.step hs hinv
  have hleft : ∀ t ∈ ts, ∀ op out, t.ev.returned = some (op, espOk, out) → op.Left t.post.log out :=
    fun t ht op out => (hts.step_of_mem t ht).left
  have hshown : List.Forall₂ (fun t m => t.ev = m.ev ∧
      (m.post.device.ram ≠ none → ∀ offset, m.post.device.read offset = readOf t.post.log offset) ∧
      ∀ op out, m.ev.returned = some (op, espOk, out) → op.Left t.post.log out) ts ms := by
    refine ((List.forall₂_and_left _ _).mpr ⟨hleft, hall⟩).imp ?_
    rintro t m ⟨hop, hev, hinv⟩
    exact ⟨hev, hinv.device.read_running, hev ▸ hop⟩
  refine ⟨⟨ts, hts, hshown⟩, ?_⟩
  rintro l v r rfl ⟨l', m, r', rfl, ⟨mutation, ⟨n, hn, hobtains⟩, hfails⟩, hkeeps⟩ q hstarts
  have hfin := finishable_of_obtains h hn hobtains
  rw [isRun_append, isRun_cons] at h
  obtain ⟨hbefore, hpre, hstep, -⟩ := h
  have hdegraded := degraded_of_since hbefore ⟨l', m, r', rfl, ⟨mutation, hfin, hfails⟩, hkeeps⟩
  rw [← hpre] at hdegraded
  exact hstep.blocked hdegraded hstarts

namespace FailedFinish

def request : MutationRequest where
  type := 6
  principalType := 1
  actor := some (asciiBytes "admin")
  target := some (asciiBytes "viewer")
  source := some (asciiBytes "HTTP")
  action := some (asciiBytes "disable")
  securityEpoch := 1
  out := true

def prepared : AuditEntry :=
  ⟨6, 4, 1, 0, request.actor, request.target, request.source, some (asciiBytes "disable_prepared"), 1, true⟩

def running : AuditService := .booting ⟨Adoption.blob, true, some Adoption.first⟩
def asking : AuditService := running.setClient 0 (.appends (.begin request) prepared)
def queued : AuditService :=
  { asking.setClient 0 (.waits (.begin request) prepared.record) with queue := [.required 0] }
def received : AuditService := { queued with queue := [], writer := some (.required 0) }
def written : AuditRecord := Adoption.first.stamp prepared.record 0
def store : AuditFlash :=
  (Adoption.blob.setRecord Adoption.first.sMeta.spareSlot written).setMeta Adoption.first.sMeta.next
def answered : AuditService :=
  { received.setClient 0 (.served (.begin request) espOk written) with
    device := ⟨store, true, some (Adoption.first.appended espOk)⟩, writer := none }
def begun : AuditService := { answered.setClient 0 .idle with degraded := false }
def mutation : AuditMutation := request.mutation written
def terminal : AuditEntry :=
  ⟨6, 1, 1, 1, request.actor, request.target, request.source, some (asciiBytes "disable_succeeded"), 1, true⟩
def finishing : AuditService := begun.setClient 0 (.appends (.finish (some mutation) true) terminal)
def dropped : AuditService :=
  finishing.setClient 0 (.served (.finish (some mutation) true) espErrNoMem .zero)
def blocked : AuditService := { dropped.setClient 0 .idle with degraded := true }

end FailedFinish

namespace FailedFinish

/-- A mutation is begun, -/
def begins : List AuditServiceMove :=
  [⟨.blank, .init .init, running⟩, ⟨running, .enter 0 (.begin request), asking⟩,
    ⟨asking, .enqueue 0, queued⟩, ⟨queued, .receive, received⟩, ⟨received, .write written espOk, answered⟩,
    ⟨answered, .leave (.begin request) espOk (some mutation), begun⟩,
    ⟨begun, .enter 0 (.finish (some mutation) true), finishing⟩,
    ⟨finishing, .drop 0 espErrNoMem, dropped⟩]

/-- its finish finds no memory, -/
def fails : AuditServiceMove := ⟨dropped, .leave (.finish (some mutation) true) espErrNoMem none, blocked⟩

/-- and another begin is refused. -/
def refuses : AuditServiceMove := ⟨blocked, .refuse (.begin request) espErrInvalidState, blocked⟩

theorem begins_run : IsRun AuditServiceStep .blank begins := by
  have hinit : AuditStep blankAudit .init ⟨Adoption.blob, true, some Adoption.first⟩ :=
    .init (Prog.playS_exec AuditFlash.ideal_call auditInit .blank) (by decide)
  have hrunning : asking.device.ram ≠ none := Option.some_ne_none _
  have hwrite : AuditServiceStep received (.write written espOk) answered :=
    @AuditServiceStep.write received (.required 0) prepared.record 0 Adoption.first espOk _ rfl rfl rfl
      (append_ideal Adoption.blob Adoption.first prepared.record 0)
  have hfinish : mutationFinish (some mutation) true = .ok terminal := rfl
  refine ⟨rfl, .init (.inl rfl) hinit, rfl, .enter rfl rfl rfl, rfl,
    @AuditServiceStep.enqueue asking 0 _ prepared rfl hrunning rfl (by decide), rfl, .receive rfl rfl, rfl,
    hwrite, rfl, .leave rfl, rfl, .enter rfl rfl hfinish, rfl, .drop rfl (by decide), trivial⟩

end FailedFinish

open FailedFinish in
def failedFinish : List AuditServiceMove := begins ++ [fails] ++ [refuses]

open FailedFinish in
theorem failedFinish_run : IsRun AuditServiceStep .blank failedFinish := by
  unfold failedFinish
  rw [isRun_append, isRun_append]
  exact ⟨⟨begins_run, rfl, .leave rfl, trivial⟩, rfl, .refuse (c := 0) rfl rfl rfl, trivial⟩

open FailedFinish in
theorem mutation_protocol_failedFinish :
    (∃ ts : List LedgerMove, IsRun LedgerStep ⟨[], []⟩ ts ∧
      List.Forall₂ (fun t m => t.ev = m.ev ∧
        (m.post.device.ram ≠ none → ∀ offset, m.post.device.read offset = readOf t.post.log offset) ∧
        ∀ op out, m.ev.returned = some (op, espOk, out) → op.Left t.post.log out) ts failedFinish) ∧
    ∃ err, err ≠ espOk ∧ refuses.ev.returned = some (.begin request, err, none) := by
  have hprotocol := mutation_protocol failedFinish_run
  have hobtained :
      (⟨FailedFinish.answered, .leave (.begin request) espOk (some mutation), begun⟩ : AuditServiceMove) ∈ begins :=
    .tail _ (.tail _ (.tail _ (.tail _ (.tail _ (.head _)))))
  have hmem := List.mem_append_left [refuses] (List.mem_append_left [fails] hobtained)
  refine ⟨hprotocol.1, hprotocol.2 (begins ++ [fails]) refuses [] rfl ?_ request rfl⟩
  have hobtains : (AuditServiceAct.leave (.begin request) espOk (some mutation)).Obtains mutation := ⟨request, rfl⟩
  have hfails : fails.ev.FailsFinish mutation := ⟨true, espErrNoMem, none, by decide, rfl⟩
  exact .now ⟨mutation, ⟨_, hmem, hobtains⟩, hfails⟩

end Argus
