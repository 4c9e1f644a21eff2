import ArgusPump.MqttInterleaving

/-!
# At most one dispatch

The sequence rules of section 9 over the runs of one controller session: from a fresh
session, without a restart, with the other tasks in between.

    sequences advance by less than 2³¹ in total → none is dispatched twice
    an exact redelivery of the last evaluated command → its result once more
    its sequence with other contents → sequence_conflict
    only the commit of a dispatched command changes the record            (at_most_once)
-/

namespace Argus

open Interact SessionCore

def dispatchedSequence (v : Move Runtime RuntimeEvent) : Option UInt32 :=
  if v.ev.act.isDispatch then v.pre.task.command.map fun p => p.2.sequence else none

/-- How far a step moves the last sequence on. -/
def advance (v : Move Runtime RuntimeEvent) : Nat :=
  if v.pre.session.core.hasSequence then
    (v.post.session.core.lastSequence - v.pre.session.core.lastSequence).toNat
  else 0

/-- The message gets past the checks before the one of the sequence. -/
structure PassesAdmission (c : SessionCore) (message : Message) (command : MqttCommand) : Prop where
  policy : message.policyAdmitted = true
  qos : message.qos = 1
  admission : commandAdmissionCheck c message.principal.identifier message.connectionId command = .ok

/-- `(message, command, result)` is the last the runtime task has committed in the run. -/
def LastEvaluated (message : Message) (command : MqttCommand) (result : Bytes)
    (l : List (Move Runtime RuntimeEvent)) : Prop :=
  Since (Commits message command result) (fun n => n.ev.act = .commit) l

structure AtMostOnce (session : Bytes) (ms : List (Move Runtime RuntimeEvent)) : Prop where
  once : (ms.map advance).sum < 2 ^ 31 → (ms.filterMap dispatchedSequence).Nodup
  redelivery : ∀ l r message command result, ms = l ++ r → LastEvaluated message command result l →
    ∀ message' maxRpmMilli ctx, message'.payload = message.payload →
      let core := (final (Runtime.start session) l).session.core
      (receiveCommand core message' command.action maxRpmMilli ctx).2 = .idle ∧
        ∀ command', decodeCommand message'.payload command.action maxRpmMilli = .ok command' →
          PassesAdmission core message' command' →
          receiveCommand core message' command.action maxRpmMilli ctx = (some result, .idle)
  conflict : ∀ l r message command result, ms = l ++ r → LastEvaluated message command result l →
    ∀ message' action maxRpmMilli ctx command',
      let core := (final (Runtime.start session) l).session.core
      decodeCommand message'.payload action maxRpmMilli = .ok command' →
      PassesAdmission core message' command' → command'.sequence = command.sequence →
      (action ≠ command.action ∨ command'.commandId ≠ command.commandId ∨
        message'.payload ≠ message.payload) →
      receiveCommand core message' action maxRpmMilli ctx =
        (some (rejectDecoded ctx command' (txt "sequence_conflict")), .idle)
  kept : ∀ v ∈ ms, v.ev.act ≠ .commit → SameRecord v.pre.session.core v.post.session.core
  evaluated : ∀ l v r, ms = l ++ v :: r → v.ev.act = .commit →
    ∃ message command result, Commits message command result v ∧ v.ev.published = some result ∧
      Since (fun n => Dispatches n message command) (fun n => n.post.task = .idle) l

/-! ## Serial numbers -/

theorem sub_toNat_le (a b c : UInt32) : (a - c).toNat ≤ (a - b).toNat + (b - c).toNat := by
  have ha := a.toNat_lt
  have hb := b.toNat_lt
  have hc := c.toNat_lt
  simp only [UInt32.toNat_sub]
  omega

/-- A newer number is none that lies less than 2³¹ back. -/
theorem newer_ne {q q' last : UInt32} (hpast : (last - q).toNat < 2 ^ 31)
    (h : sessionIsNewer q' last = true) : q' ≠ q := by
  rintro rfl
  unfold sessionIsNewer at h
  rw [Bool.and_eq_true] at h
  obtain ⟨hne, hlt⟩ := h
  have hlt : (q' - last).toNat < 2 ^ 31 := UInt32.lt_iff_toNat_lt.mp (of_decide_eq_true hlt)
  have hne : (q' - last).toNat ≠ 0 := fun h0 =>
    absurd (UInt32.toNat_inj.mp h0) (of_decide_eq_true hne)
  -- the two distances are complements modulo 2³²
  have hq := q'.toNat_lt
  have hl := last.toNat_lt
  rw [UInt32.toNat_sub] at hpast hlt hne
  omega

/-! ## The sequences of a run -/

/-- Evaluated, and at most `total` behind the last one. -/
def Past (total : Nat) (c : SessionCore) (q : UInt32) : Prop :=
  c.hasSequence = true ∧ (c.lastSequence - q).toNat ≤ total

def Fresh (c : SessionCore) (q : UInt32) : Prop :=
  c.hasSequence = false ∨ sessionIsNewer q c.lastSequence = true

theorem Past.ne {total : Nat} {c : SessionCore} {q q' : UInt32} (h : Past total c q)
    (htotal : total < 2 ^ 31) (hfresh : Fresh c q') : q' ≠ q := by
  rcases hfresh with hno | hnewer
  · rw [h.1] at hno
    cases hno
  · exact newer_ne (h.2.trans_lt htotal) hnewer

theorem Past.same {total : Nat} {c d : SessionCore} {q : UInt32} (h : Past total c q)
    (hsame : SameRecord c d) : Past total d q := by
  refine ⟨hsame.hasSequence.trans h.1, ?_⟩
  rw [hsame.lastSequence]
  exact h.2

theorem Fresh.same {c d : SessionCore} {q : UInt32} (h : Fresh c q) (hsame : SameRecord c d) :
    Fresh d q := by
  unfold Fresh
  rw [hsame.hasSequence, hsame.lastSequence]
  exact h

theorem advance_same {v : Move Runtime RuntimeEvent}
    (h : SameRecord v.pre.session.core v.post.session.core) : advance v = 0 := by
  unfold advance
  rw [h.lastSequence, UInt32.sub_self]
  exact ite_self 0

/-- After the run `l`, a session old: its dispatches are past or the one being evaluated. -/
structure SequenceInv (l : List (Move Runtime RuntimeEvent)) (w : Runtime) : Prop where
  nodup : (l.filterMap dispatchedSequence).Nodup
  past : ∀ q ∈ l.filterMap dispatchedSequence, Past (l.map advance).sum w.session.core q ∨
    ∃ message command result, w.task = .evaluated message command result ∧ command.sequence = q
  fresh : ∀ message command, w.task.inFlight = some (message, command) →
    Fresh w.session.core command.sequence

theorem SequenceInv.start (session : Bytes) : SequenceInv [] (.start session) where
  nodup := List.nodup_nil
  past := fun _ h => by cases h
  fresh := fun _ _ h => by cases h

/-- A step that neither dispatches nor commits. -/
theorem SequenceInv.append {l : List (Move Runtime RuntimeEvent)} {v : Move Runtime RuntimeEvent}
    (h : SequenceInv l v.pre) (hdispatch : dispatchedSequence v = none)
    (hsame : SameRecord v.pre.session.core v.post.session.core)
    (hevaluated : ∀ message command result, v.pre.task = .evaluated message command result →
      v.post.task = .evaluated message command result)
    (hfresh : ∀ message command, v.post.task.inFlight = some (message, command) →
      Fresh v.post.session.core command.sequence) : SequenceInv (l ++ [v]) v.post := by
  have hlist : (l ++ [v]).filterMap dispatchedSequence = l.filterMap dispatchedSequence := by
    rw [List.filterMap_append, List.filterMap_cons_none hdispatch, List.filterMap_nil,
      List.append_nil]
  have htotal : ((l ++ [v]).map advance).sum = (l.map advance).sum := by
    simp [advance_same hsame]
  refine ⟨by rw [hlist]; exact h.nodup, fun q hq => ?_, hfresh⟩
  rw [hlist] at hq
  rw [htotal]
  rcases h.past q hq with hpast | ⟨m, c, r, htask, hq⟩
  · exact .inl (hpast.same hsame)
  · exact .inr ⟨m, c, r, hevaluated m c r htask, hq⟩

theorem not_evaluated_of_inFlight {task : CommandPhase} (h : task.inFlight ≠ none)
    {message : Message} {command : MqttCommand} {result : Bytes} :
    task ≠ .evaluated message command result := by
  rintro rfl
  exact h rfl

theorem dispatchedSequence_of_check {v : Move Runtime RuntimeEvent} (h : v.ev.act.isCheck = true) :
    dispatchedSequence v = none := by
  obtain ⟨w, ⟨act, published⟩, w'⟩ := v
  unfold dispatchedSequence
  cases act with
  | snapshot => rfl
  | checkAuthority => rfl
  | _ => cases h

theorem SequenceInv.step {sha256 : Bytes → Option Digest} {l : List (Move Runtime RuntimeEvent)}
    {v : Move Runtime RuntimeEvent} (h : SequenceInv l v.pre)
    (hs : runtimeStep sha256 v.pre v.ev v.post) (hone : ¬ Restarts v)
    (htotal : (l.map advance).sum < 2 ^ 31) : SequenceInv (l ++ [v]) v.post := by
  obtain ⟨w, ev, w'⟩ := v
  have hmove : RuntimeMove sha256 w ev w' := runtimeStep_move hs
  cases hmove with
  | answer => exact h.append rfl (.refl _) (fun _ _ _ heq => heq) h.fresh
  | admitted message action maxRpm ctx command hidle _ _ hsequence =>
    refine h.append rfl (.refl _) (fun m c r heq => ?_) fun m c heq => ?_
    · rw [show w.task = _ from hidle] at heq
      cases heq
    · cases heq
      exact hsequence
  | forward ev task hcheck hflight hin =>
    refine h.append (dispatchedSequence_of_check hcheck) (.refl _) (fun m c r heq => ?_)
      fun m c heq => h.fresh m c (hflight.symm.trans heq)
    exact absurd heq (not_evaluated_of_inFlight hin)
  | reject ev hcheck hin =>
    refine h.append (dispatchedSequence_of_check hcheck) (.refl _) (fun m c r heq => ?_)
      fun m c heq => by cases heq
    exact absurd heq (not_evaluated_of_inFlight hin)
  | dispatch err ctx message command env result htask =>
    have hsame : SameRecord w.session.core w.session.core := .refl _
    have hnew : dispatchedSequence ⟨w, ⟨.dispatch err ctx, none⟩,
        { w with task := .evaluated message command result }⟩ = some command.sequence := by
      unfold dispatchedSequence
      rw [show w.task = _ from htask]
      rfl
    have hfresh := h.fresh message command (by rw [show w.task = _ from htask]; rfl)
    -- nothing is being evaluated, so all the sequences before are past
    have hpast : ∀ q ∈ l.filterMap dispatchedSequence, Past (l.map advance).sum w.session.core q := by
      intro q hq
      rcases h.past q hq with hpast | ⟨_, _, _, heq, -⟩
      · exact hpast
      · rw [show w.task = _ from htask] at heq
        cases heq
    refine ⟨?_, fun q hq => ?_, fun m c heq => by cases heq⟩
    · rw [List.filterMap_append, List.filterMap_cons_some hnew, List.filterMap_nil,
        List.nodup_append]
      refine ⟨h.nodup, List.pairwise_singleton _ _, fun q hq q' hq' heq => ?_⟩
      rw [List.mem_singleton.mp hq'] at heq
      exact (hpast q hq).ne htotal hfresh heq.symm
    · rw [List.filterMap_append, List.filterMap_cons_some hnew, List.mem_append] at hq
      rcases hq with hq | hq
      · refine .inl ?_
        rw [List.map_append, List.sum_append]
        exact ⟨(hpast q hq).1, (hpast q hq).2.trans (Nat.le_add_right _ _)⟩
      · exact .inr ⟨message, command, result, rfl, (List.mem_singleton.mp hq).symm⟩
  | commit message command result htask =>
    have hlist : (l ++ [(⟨w, ⟨.commit, some result⟩, ⟨{ w.session with
        core := w.session.core.commitResult command message.payload result }, .idle⟩⟩ :
          Move Runtime RuntimeEvent)]).filterMap dispatchedSequence =
        l.filterMap dispatchedSequence := by
      rw [List.filterMap_append, List.filterMap_cons_none rfl, List.filterMap_nil, List.append_nil]
    refine ⟨by rw [hlist]; exact h.nodup, fun q hq => .inl ⟨rfl, ?_⟩, fun m c heq => by cases heq⟩
    rw [hlist] at hq
    rw [List.map_append, List.sum_append]
    show (command.sequence - q).toNat ≤ _
    rcases h.past q hq with hpast | ⟨_, _, _, heq, hq⟩
    · have hadvance : advance ⟨w, ⟨.commit, some result⟩, ⟨{ w.session with
          core := w.session.core.commitResult command message.payload result }, .idle⟩⟩ =
          (command.sequence - w.session.core.lastSequence).toNat := if_pos hpast.1
      rw [List.map_singleton, List.sum_singleton, hadvance, Nat.add_comm]
      exact (sub_toNat_le _ w.session.core.lastSequence _).trans (Nat.add_le_add_left hpast.2 _)
    · rw [show w.task = _ from htask] at heq
      cases heq
      rw [hq, UInt32.sub_self]
      exact Nat.zero_le _
  | session ev hallows =>
    have hsame := handle_record sha256 w.session hallows
    exact h.append rfl hsame (fun _ _ _ heq => heq) fun m c heq => (h.fresh m c heq).same hsame
  | prepareStart => exact absurd rfl hone

theorem sequenceInv_run {sha256 : Bytes → Option Digest} {session : Bytes}
    {ms : List (Move Runtime RuntimeEvent)}
    (h : IsRun (runtimeStep sha256) (Runtime.start session) ms) (hone : ∀ v ∈ ms, ¬ Restarts v)
    (htotal : (ms.map advance).sum < 2 ^ 31) :
    SequenceInv ms (final (Runtime.start session) ms) := by
  refine h.inv_past_of (I := fun w ms => SequenceInv ms w)
    (K := fun l v => ¬ Restarts v ∧ (l.map advance).sum < 2 ^ 31) (.start session)
    (fun l v r heq => ⟨hone v (by rw [heq]; simp), ?_⟩) fun l v hinv hs hmet =>
      hinv.step hs hmet.1 hmet.2
  rw [heq, List.map_append, List.sum_append] at htotal
  omega

/-- What is being evaluated has been dispatched. -/
theorem evaluated_dispatched {sha256 : Bytes → Option Digest} {session : Bytes}
    {ms : List (Move Runtime RuntimeEvent)}
    (h : IsRun (runtimeStep sha256) (Runtime.start session) ms) {message : Message}
    {command : MqttCommand} {result : Bytes}
    (htask : (final (Runtime.start session) ms).task = .evaluated message command result) :
    Since (fun n => Dispatches n message command) (fun n => n.post.task = .idle) ms := by
  refine h.inv_past (I := fun w ms => w.task = .evaluated message command result →
    Since (fun n => Dispatches n message command) (fun n => n.post.task = .idle) ms)
    (fun hidle => by cases hidle) (fun ms v ih hs htask => ?_) htask
  obtain ⟨w, ev, w'⟩ := v
  have hbusy : w'.task ≠ .idle := by
    intro hidle
    cases hidle.symm.trans htask
  have hmove : RuntimeMove sha256 w ev w' := runtimeStep_move hs
  cases hmove with
  | answer _ _ _ _ _ hidle => exact absurd hidle hbusy
  | admitted => cases htask
  | forward ev task _ hflight hin =>
    exact absurd htask (not_evaluated_of_inFlight (by rw [hflight]; exact hin))
  | reject => cases htask
  | dispatch err ctx message' command' env result' hauthorized =>
    cases htask
    exact .now ⟨rfl, env, hauthorized⟩
  | commit => cases htask
  | session => exact (ih htask).append hbusy
  | prepareStart => exact (ih htask).append hbusy

/-! ## The record and what it answers -/

theorem commit_record {sha256 : Bytes → Option Digest} {w w' : Runtime} {ev : RuntimeEvent}
    (hs : runtimeStep sha256 w ev w') (hact : ev.act = .commit) {message : Message}
    {command : MqttCommand} {result : Bytes} (htask : w.task = .evaluated message command result) :
    w'.session.core = w.session.core.commitResult command message.payload result ∧
      ev.published = some result := by
  unfold runtimeStep Runtime.next at hs
  rw [hact, htask] at hs
  obtain ⟨hpublished, rfl⟩ := Prod.mk.inj (Option.some.inj hs)
  exact ⟨rfl, hpublished.symm⟩

/-- The record is the one of the last evaluated command. -/
theorem recordOf_last {sha256 : Bytes → Option Digest} {session : Bytes}
    {l : List (Move Runtime RuntimeEvent)}
    (h : IsRun (runtimeStep sha256) (Runtime.start session) l) (hone : ∀ v ∈ l, ¬ Restarts v)
    {message : Message} {command : MqttCommand} {result : Bytes}
    (hlast : LastEvaluated message command result l) :
    RecordOf (final (Runtime.start session) l).session.core message command result ∧
      ∃ maxRpmMilli, decodeCommand message.payload command.action maxRpmMilli = .ok command := by
  have hwf := (h.inv (I := fun w => w.task.WellFormed) CommandPhase.wellFormed_idle
    fun v hi hs => hi.step hs).1
  obtain ⟨l, v, r, rfl, ⟨hact, htask⟩, hnone⟩ := hlast
  obtain ⟨hlen, maxRpm, hdecode⟩ := (hwf v (by simp)).1.2 message command result htask
  rw [isRun_append, isRun_cons] at h
  obtain ⟨-, -, hs, hr⟩ := h
  refine ⟨?_, maxRpm, hdecode⟩
  rw [final_append, final_cons]
  refine (hr.inv_of (I := fun w => RecordOf w.session.core message command result)
    (K := fun n => n.ev.act ≠ .commit ∧ ¬ Restarts n) ?_ ?_ ?_).2
  · rw [(commit_record hs hact htask).1]
    exact commitResult_of hdecode hlen _
  · exact fun n hn => ⟨hnone n hn, hone n (by simp [hn])⟩
  · rintro n hi hs ⟨hcommit, hrestart⟩
    exact hi.same (runtimeStep_record hs hcommit fun high low hprep =>
      hrestart (by unfold Restarts; rw [hprep]; rfl))

/-- A message that decodes to the recorded sequence is answered from the record. -/
theorem receive_recorded {core : SessionCore} {message message' : Message}
    {command command' : MqttCommand} {result : Bytes} (hrec : RecordOf core message command result)
    {action : MqttAction} {maxRpmMilli : Nat} (ctx : ResultContext)
    (hdecode : decodeCommand message'.payload action maxRpmMilli = .ok command')
    (hsequence : command'.sequence = command.sequence) :
    (receiveCommand core message' action maxRpmMilli ctx).2 = .idle ∧
      (PassesAdmission core message' command' →
        receiveCommand core message' action maxRpmMilli ctx =
          if action = command.action ∧ command'.commandId = command.commandId ∧
              message'.payload = message.payload then (some result, .idle)
          else (some (rejectDecoded ctx command' (txt "sequence_conflict")), .idle)) := by
  constructor
  · rcases receiveCommand_cases core message' action maxRpmMilli ctx with ⟨_, h⟩ | ⟨c, hok, -, hnew, -⟩
    · rw [h]
    · -- the recorded sequence is not first, and not newer than itself
      cases hdecode.symm.trans hok
      rcases hnew with hno | hnewer
      · rw [hrec.hasSequence] at hno
        cases hno
      · refine absurd (hsequence.trans hrec.lastSequence.symm) (newer_ne ?_ hnewer)
        rw [UInt32.sub_self]
        decide
  · rintro ⟨hpolicy, hqos, haccept⟩
    have hcheck : core.checkSequence command' message'.payload =
        if action = command.action ∧ command'.commandId = command.commandId ∧
          message'.payload = message.payload then .duplicate else .conflict := by
      unfold checkSequence
      rw [if_neg (by rw [hrec.hasSequence]; simp),
        if_pos (hsequence.trans hrec.lastSequence.symm), hrec.cachedAction, hrec.cachedCommandId,
        hrec.cachedPayload, (decodeCommand_spec hdecode).1]
      simp only [Option.some.injEq]
    unfold receiveCommand
    simp only [hdecode, hpolicy, hqos, haccept, hcheck]
    by_cases hsame : action = command.action ∧ command'.commandId = command.commandId ∧
      message'.payload = message.payload
    · simp only [if_pos hsame]
      rw [hrec.cachedResult]
      rfl
    · simp only [if_neg hsame]
      rfl

theorem at_most_once (sha256 : Bytes → Option Digest) {session : Bytes}
    {ms : List (Move Runtime RuntimeEvent)}
    (h : IsRun (runtimeStep sha256) (Runtime.start session) ms) (hone : ∀ v ∈ ms, ¬ Restarts v) :
    AtMostOnce session ms where
  once htotal := (sequenceInv_run h hone htotal).nodup
  redelivery := by
    rintro l r message command result rfl hlast message' maxRpm ctx hpayload
    obtain ⟨hrec, n, hdecode⟩ := recordOf_last ((isRun_append _ _ _).mp h).1
      (fun v hv => hone v (List.mem_append_left _ hv)) hlast
    intro core
    rw [← hpayload] at hdecode
    -- it decodes to the same command, or under the maximum of today to none
    cases hnow : decodeCommand message'.payload command.action maxRpm with
    | error e =>
      refine ⟨?_, fun command' hok => by cases hok⟩
      unfold receiveCommand
      rw [hnow]
    | ok command' =>
      obtain rfl := decodeCommand_agree hdecode hnow
      obtain ⟨hidle, hanswer⟩ := receive_recorded hrec ctx hnow rfl
      refine ⟨hidle, fun command' hok hpass => ?_⟩
      cases hok
      rw [hanswer hpass, if_pos ⟨rfl, rfl, hpayload⟩]
  conflict := by
    rintro l r message command result rfl hlast message' action maxRpm ctx command'
    intro core hnow hpass hsequence hdiffers
    obtain ⟨hrec, -⟩ := recordOf_last ((isRun_append _ _ _).mp h).1
      (fun v hv => hone v (List.mem_append_left _ hv)) hlast
    rw [(receive_recorded hrec ctx hnow hsequence).2 hpass, if_neg]
    rintro ⟨haction, hid, hpayload⟩
    rcases hdiffers with hne | hne | hne
    · exact hne haction
    · exact hne hid
    · exact hne hpayload
  kept := fun v hv hcommit => runtimeStep_record (h.step_of_mem v hv) hcommit fun high low hprep =>
    hone v hv (by unfold Restarts; rw [hprep]; rfl)
  evaluated := by
    rintro l v r rfl hact
    rw [isRun_append, isRun_cons] at h
    obtain ⟨hl, hpre, hs, -⟩ := h
    obtain ⟨message, command, result, htask, -⟩ := commit_step hs hact
    refine ⟨message, command, result, ⟨hact, htask⟩, (commit_record hs hact htask).2, ?_⟩
    exact evaluated_dispatched hl (by rw [← hpre]; exact htask)

/-- The panel's start, its redelivery, its sequence used again and the next sequence. -/
theorem at_most_once_panel :
    let start := Runtime.start (txt "0123456789abcdef")
    let again := RuntimeAct.receive (panelMessage (startPayload (txt "1") (txt "c-1"))) .start 600000
      panelContext
    let reuse := RuntimeAct.receive (panelMessage (startPayload (txt "1") (txt "c-2"))) .start 600000
      panelContext
    let next := RuntimeAct.receive (panelMessage (startPayload (txt "2") (txt "c-2"))) .start 600000
      panelContext
    let ms := runtimeTrace mbedtlsSha256 start (panelStart ++ [.dispatch espOk panelContext, .commit,
      again, reuse, next, .snapshot (some supervisoryAuthority) panelContext,
      .checkAuthority supervisoryAuthority panelContext, .dispatch espOk panelContext])
    AtMostOnce (txt "0123456789abcdef") ms ∧ ms.filterMap dispatchedSequence = [1, 2] := by
  intro start again reuse next ms
  exact ⟨at_most_once mbedtlsSha256 (isRun_runtimeTrace _ _ _) (by decide +kernel),
    by decide +kernel⟩

end Argus
