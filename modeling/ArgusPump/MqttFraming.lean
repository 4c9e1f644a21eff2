import ArgusPump.Lib.Reader
import ArgusPump.MqttConnect
import Mathlib.Order.MinMax

/-!
# The packets of a stream

How a client task of `main/argus_mqtt_broker.c` takes packets off its socket: `recv` with a
receive timeout, `argus_mqtt_read_exact` over it, the remaining length in one to four bytes, and
the head of the loop of `argus_mqtt_client_task` with its liveness check.

    however the bytes are cut into segments and whatever timeouts fall between them, the loop
      serves the packets of the byte stream, up to where it reaps the client or a packet stalls
                                                                      (client_frames)
    a peer that falls silent is dropped                               (silent_peer_dropped)

What a handler does is an input: whether it ends the connection, and what it makes of the
record's liveness fields.
-/

namespace Argus

open Interact

abbrev mqttPartialReadPolls : Nat := 8
abbrev mqttConnectGraceUs : UInt64 := 3000000

/-! ## The socket -/

/-- What a `recv` meets on a socket: a segment, or the receive timeout at some time. -/
inductive RecvEvent
  | data (first : UInt8) (rest : Bytes)
  | idle (nowUs : UInt64)
deriving DecidableEq

/-- The bytes still to come. -/
def streamed : List RecvEvent → Bytes
  | [] => []
  | .data first rest :: inbound => first :: rest ++ streamed inbound
  | .idle _ :: inbound => streamed inbound

/-- The bytes and timeouts still to come. -/
def pending : List RecvEvent → Nat
  | [] => 0
  | .data _ rest :: inbound => rest.length + 1 + pending inbound
  | .idle _ :: inbound => 1 + pending inbound

inductive RecvResult
  | got (bytes : Bytes)
  /-- `EAGAIN`. -/
  | again (nowUs : UInt64)
  /-- 0, or another error. -/
  | closed

/-- `recv` of at most `len` bytes. -/
def recv (len : Nat) : List RecvEvent → RecvResult × List RecvEvent
  | [] => (.closed, [])
  | .idle nowUs :: inbound => (.again nowUs, inbound)
  | .data first rest :: inbound =>
    (.got ((first :: rest).take len),
      match (first :: rest).drop len with
      | [] => inbound
      | next :: later => .data next later :: inbound)

theorem recv_pending_lt {len : Nat} (hlen : 0 < len) {inbound after : List RecvEvent}
    {result : RecvResult} (h : recv len inbound = (result, after)) :
    result = .closed ∨ pending after < pending inbound := by
  cases inbound with
  | nil =>
    cases h
    exact .inl rfl
  | cons event inbound =>
    cases event with
    | idle nowUs =>
      cases h
      exact .inr (by simp only [pending]; omega)
    | data first rest =>
      right
      obtain ⟨n, rfl⟩ : ∃ n, len = n + 1 := ⟨len - 1, by omega⟩
      simp only [recv, List.drop_succ_cons, Prod.mk.injEq] at h
      obtain ⟨-, rfl⟩ := h
      cases hdrop : rest.drop n with
      | nil => simp only [pending]; omega
      | cons next later =>
        have hlength : (next :: later).length = rest.length - n := by
          rw [← hdrop, List.length_drop]
        simp only [List.length_cons] at hlength
        simp only [pending]
        omega

/-- Why a client task leaves its loop. -/
inductive ClientExit
  /-- The liveness check. -/
  | reaped
  | closed
  /-- Too many timeouts within a packet. -/
  | stalled
  /-- A fifth length byte would be needed. -/
  | badLength
  | tooLong
  /-- The handler, or a DISCONNECT. -/
  | handled
deriving DecidableEq

/-- The loop of `argus_mqtt_read_exact`; `buffer.length` is `offset`. -/
def readExactLoop (len : Nat) (buffer : Bytes) (idlePolls : Nat) (inbound : List RecvEvent) :
    Except ClientExit (Bytes × List RecvEvent) :=
  if _hshort : buffer.length < len then
    match hrecv : recv (len - buffer.length) inbound with
    | (.again _, after) =>
      if idlePolls + 1 > mqttPartialReadPolls then .error .stalled
      else readExactLoop len buffer (idlePolls + 1) after
    | (.closed, _) => .error .closed
    | (.got bytes, after) => readExactLoop len (buffer ++ bytes) 0 after
  else .ok (buffer, inbound)
termination_by pending inbound
decreasing_by
  all_goals
    have := recv_pending_lt (by omega) hrecv
    simpa using this

/-- `argus_mqtt_read_exact`. -/
def readExact (inbound : List RecvEvent) (len : Nat) : Except ClientExit (Bytes × List RecvEvent) :=
  readExactLoop len [] 0 inbound

/-! ## The remaining length -/

/-- The loop of `argus_mqtt_decode_remaining_length`, with the bytes it may still read. -/
def decodeRemainingLengthLoop : Nat → UInt32 → UInt32 → Reader UInt8 ClientExit UInt32
  | 0, _, _ => .fail .badLength
  | i + 1, multiplier, value => .take 1 fun encoded =>
    let value := value + (encoded.headD 0 &&& 127).toUInt32 * multiplier
    if encoded.headD 0 &&& 128 = 0 then .done value
    else decodeRemainingLengthLoop i (multiplier * 128) value

/-- `argus_mqtt_decode_remaining_length`. -/
def decodeRemainingLength : Reader UInt8 ClientExit UInt32 := decodeRemainingLengthLoop 4 1 0

/-! ## The loop of a client task -/

/-- A packet as the loop hands it on. -/
structure MqttPacket where
  fixedHeader : UInt8
  body : Bytes
deriving DecidableEq

/-- What the loop reads after the first byte of a packet. -/
def readPacket (fixedHeader : UInt8) : Reader UInt8 ClientExit MqttPacket := do
  let remainingLen ← decodeRemainingLength
  if remainingLen.toNat > mqttMaxPacketLen then .fail .tooLong
  else if remainingLen > 0 then .take remainingLen.toNat fun packet => .done ⟨fixedHeader, packet⟩
  else return ⟨fixedHeader, []⟩

/-- The liveness fields of a record. -/
structure ClientClock where
  connected : Bool
  keepAliveS : UInt16
  lastActivityUs : UInt64

/-- The deadline of an idle client; `none` where it asked for no timeout. -/
def ClientClock.deadlineUs (client : ClientClock) : Option UInt64 :=
  if ¬ client.connected then some mqttConnectGraceUs
  else if client.keepAliveS = 0 then none
  else some (client.keepAliveS.toUInt64 * 1500000)

/-- The liveness check of an idle poll. -/
def ClientClock.expired (client : ClientClock) (nowUs : UInt64) : Bool :=
  match client.deadlineUs with
  | none => false
  | some deadlineUs => ¬ nowUs - client.lastActivityUs < deadlineUs

/-- What the packets served so far have led to: the last of them ended the connection, or left
these liveness fields. -/
structure Served where
  ends : Bool
  clock : ClientClock

theorem readExactLoop_pending {len idlePolls : Nat} {buffer out : Bytes}
    {inbound after : List RecvEvent}
    (h : readExactLoop len buffer idlePolls inbound = .ok (out, after)) :
    pending after ≤ pending inbound := by
  fun_induction readExactLoop len buffer idlePolls inbound with
  | case1 => cases h
  | case2 buffer idlePolls inbound hlen nowUs after' hrecv hpolls ih =>
    have := recv_pending_lt (by omega) hrecv
    simp only [reduceCtorEq, false_or] at this
    have := ih h
    omega
  | case3 => cases h
  | case4 buffer idlePolls inbound hlen bytes after' hrecv ih =>
    have := recv_pending_lt (by omega) hrecv
    simp only [reduceCtorEq, false_or] at this
    have := ih h
    omega
  | case5 =>
    cases h
    exact Nat.le_refl _

theorem readPacket_pending {fixedHeader : UInt8} {packet : MqttPacket} {inbound after : List RecvEvent}
    (h : (readPacket fixedHeader).run readExact inbound = .ok (packet, after)) :
    pending after ≤ pending inbound :=
  Reader.run_rel (R := fun s t => pending t ≤ pending s) (fun _ => Nat.le_refl _)
    (fun hst htu => Nat.le_trans htu hst) (fun hread => readExactLoop_pending hread) h

/-- The loop of `argus_mqtt_client_task` after the packets `done`. -/
def clientLoop (serve : List MqttPacket → Served) (done : List MqttPacket)
    (inbound : List RecvEvent) : List MqttPacket × ClientExit :=
  match _hrecv : recv 1 inbound with
  | (.again nowUs, after) =>
    if (serve done).clock.expired nowUs then (done, .reaped) else clientLoop serve done after
  | (.closed, _) => (done, .closed)
  | (.got bytes, after) =>
    match _hpacket : (readPacket (bytes.headD 0)).run readExact after with
    | .error exit => (done, exit)
    | .ok (packet, after') =>
      if (serve (done ++ [packet])).ends then (done ++ [packet], .handled)
      else clientLoop serve (done ++ [packet]) after'
termination_by pending inbound
decreasing_by
  · have := recv_pending_lt (by omega) _hrecv
    simpa using this
  · have hlt := recv_pending_lt (by omega) _hrecv
    simp only [reduceCtorEq, false_or] at hlt
    exact Nat.lt_of_le_of_lt (readPacket_pending _hpacket) hlt

/-! ## The byte stream -/

/-- The loop over a byte stream: no segments and no timeouts. -/
def frames (ends : List MqttPacket → Bool) (done : List MqttPacket) :
    Bytes → List MqttPacket × ClientExit
  | [] => (done, .closed)
  | fixedHeader :: bytes =>
    match _hpacket : (readPacket fixedHeader).run (Reader.fromList .closed) bytes with
    | .error exit => (done, exit)
    | .ok (packet, rest) =>
      if ends (done ++ [packet]) then (done ++ [packet], .handled)
      else frames ends (done ++ [packet]) rest
termination_by bytes => bytes.length
decreasing_by
  have hle : rest.length ≤ bytes.length :=
    Reader.run_rel (R := fun s t => t.length ≤ s.length) (fun _ => Nat.le_refl _)
      (fun hst htu => Nat.le_trans htu hst) (fun hread => by
        unfold Reader.fromList at hread
        split at hread
        · cases hread
          rw [List.length_drop]
          omega
        · cases hread) _hpacket
  simpa using Nat.lt_succ_of_le hle

/-- The longest wait within a segmented stream, in timeouts, after `n` of them. -/
def longestWait : Nat → List RecvEvent → Nat
  | n, [] => n
  | n, .idle _ :: inbound => longestWait (n + 1) inbound
  | n, .data _ _ :: inbound => max n (longestWait 0 inbound)

/-- The times of the timeouts. -/
def timeouts : List RecvEvent → List UInt64
  | [] => []
  | .idle nowUs :: inbound => nowUs :: timeouts inbound
  | .data _ _ :: inbound => timeouts inbound

theorem le_longestWait (n : Nat) (inbound : List RecvEvent) : n ≤ longestWait n inbound := by
  induction inbound generalizing n with
  | nil => exact Nat.le_refl n
  | cons event inbound ih =>
    cases event with
    | idle nowUs => exact Nat.le_trans (Nat.le_succ n) (ih (n + 1))
    | data first rest => exact Nat.le_max_left _ _

theorem longestWait_mono {m n : Nat} (h : m ≤ n) (inbound : List RecvEvent) :
    longestWait m inbound ≤ longestWait n inbound := by
  induction inbound generalizing m n with
  | nil => exact h
  | cons event inbound ih =>
    cases event with
    | idle nowUs => exact ih (Nat.succ_le_succ h)
    | data first rest => exact max_le_max h (Nat.le_refl _)

/-- What one `recv` takes off the stream. -/
inductive Taken : List RecvEvent → RecvResult → List RecvEvent → Prop
  | closed : Taken [] .closed []
  | again (nowUs : UInt64) (after : List RecvEvent) :
      Taken (.idle nowUs :: after) (.again nowUs) after
  | got {inbound after : List RecvEvent} {bytes : Bytes} (hne : bytes ≠ [])
      (hstream : streamed inbound = bytes ++ streamed after)
      (htimeouts : timeouts after = timeouts inbound)
      (hwait : ∀ n, longestWait 0 after ≤ longestWait n inbound) :
      Taken inbound (.got bytes) after

theorem recv_taken {len : Nat} (hlen : 0 < len) (inbound : List RecvEvent) :
    Taken inbound (recv len inbound).1 (recv len inbound).2 ∧
      ∀ bytes, (recv len inbound).1 = .got bytes → bytes.length ≤ len := by
  cases inbound with
  | nil => exact ⟨.closed, fun bytes h => by cases h⟩
  | cons event inbound =>
    cases event with
    | idle nowUs => exact ⟨.again nowUs inbound, fun bytes h => by cases h⟩
    | data first rest =>
      refine ⟨?_, fun bytes h => ?_⟩
      · have hsplit := List.take_append_drop len (first :: rest)
        have hne : (first :: rest).take len ≠ [] := by
          obtain ⟨n, rfl⟩ : ∃ n, len = n + 1 := ⟨len - 1, by omega⟩
          simp
        change Taken _ (.got ((first :: rest).take len))
          (match (first :: rest).drop len with
            | [] => inbound
            | next :: later => .data next later :: inbound)
        cases hdrop : (first :: rest).drop len with
        | nil =>
          rw [hdrop, List.append_nil] at hsplit
          refine .got hne ?_ rfl fun n => Nat.le_max_right _ _
          rw [hsplit]
          rfl
        | cons next later =>
          rw [hdrop] at hsplit
          refine .got hne ?_ rfl fun n => max_le_max (Nat.zero_le n) (Nat.le_refl _)
          change first :: rest ++ streamed inbound = _ ++ (next :: later ++ streamed inbound)
          rw [← List.append_assoc, hsplit]
      · cases h
        exact List.length_take_le _ _

theorem taken_of_recv {len : Nat} (hlen : 0 < len) {inbound after : List RecvEvent}
    {result : RecvResult} (h : recv len inbound = (result, after)) : Taken inbound result after := by
  have := (recv_taken hlen inbound).1
  rwa [h] at this

/-! ## What is read is the stream -/

theorem readExactLoop_ok {len idlePolls : Nat} {buffer out : Bytes} {inbound after : List RecvEvent}
    (h : readExactLoop len buffer idlePolls inbound = .ok (out, after))
    (hbuffer : buffer.length ≤ len) :
    out.length = len ∧ (∃ bytes, out = buffer ++ bytes ∧ streamed inbound = bytes ++ streamed after) ∧
      timeouts after <:+ timeouts inbound ∧ longestWait 0 after ≤ longestWait idlePolls inbound := by
  fun_induction readExactLoop len buffer idlePolls inbound with
  | case1 => cases h
  | case2 buffer idlePolls inbound hshort nowUs after' hrecv hpolls ih =>
    cases taken_of_recv (by omega) hrecv with
    | again =>
      obtain ⟨hlen, hbytes, htimeouts, hwait⟩ := ih h hbuffer
      exact ⟨hlen, hbytes, htimeouts.trans (List.suffix_cons _ _), hwait⟩
  | case3 => cases h
  | case4 buffer idlePolls inbound hshort bytes after' hrecv ih =>
    have hle := (recv_taken (by omega : 0 < len - buffer.length) inbound).2 bytes (by rw [hrecv])
    cases taken_of_recv (by omega) hrecv with
    | got hne hstream htimes hwait' =>
      obtain ⟨hlen, ⟨more, hout, hmore⟩, htimeouts, hwait⟩ := ih h (by
        rw [List.length_append]
        omega)
      refine ⟨hlen, ⟨bytes ++ more, ?_, ?_⟩, ?_, Nat.le_trans hwait (hwait' _)⟩
      · rw [hout, List.append_assoc]
      · rw [hstream, hmore, List.append_assoc]
      · rwa [htimes] at htimeouts
  | case5 buffer idlePolls inbound hfull =>
    cases h
    exact ⟨by omega, ⟨[], (List.append_nil _).symm, rfl⟩, List.suffix_refl _,
      longestWait_mono (Nat.zero_le _) _⟩

theorem readExactLoop_error {len idlePolls : Nat} {buffer : Bytes} {inbound : List RecvEvent}
    {exit : ClientExit} (h : readExactLoop len buffer idlePolls inbound = .error exit) :
    (exit = .stalled ∧ mqttPartialReadPolls < longestWait idlePolls inbound) ∨
      (exit = .closed ∧ buffer.length + (streamed inbound).length < len) := by
  fun_induction readExactLoop len buffer idlePolls inbound with
  | case1 buffer idlePolls inbound hshort nowUs after hrecv hpolls =>
    cases h
    cases taken_of_recv (by omega) hrecv
    exact .inl ⟨rfl, Nat.lt_of_lt_of_le hpolls (le_longestWait _ _)⟩
  | case2 buffer idlePolls inbound hshort nowUs after hrecv hpolls ih =>
    cases taken_of_recv (by omega) hrecv
    exact ih h
  | case3 buffer idlePolls inbound hshort after hrecv =>
    cases h
    cases taken_of_recv (by omega) hrecv
    exact .inr ⟨rfl, hshort⟩
  | case4 buffer idlePolls inbound hshort bytes after hrecv ih =>
    cases taken_of_recv (by omega) hrecv with
    | got hne hstream htimes hwait =>
      rcases ih h with ⟨hexit, hlong⟩ | ⟨hexit, hless⟩
      · exact .inl ⟨hexit, Nat.lt_of_lt_of_le hlong (hwait _)⟩
      · refine .inr ⟨hexit, ?_⟩
        rw [hstream, List.length_append]
        rw [List.length_append] at hless
        omega
  | case5 => cases h

/-- `argus_mqtt_read_exact` reads the stream, unless a packet stalls. -/
theorem readExact_faithful :
    Reader.Faithful readExact streamed ClientExit.closed (· = .stalled) where
  ok := by
    intro inbound len bytes after h
    obtain ⟨hlen, ⟨more, hmore, hstream⟩, -⟩ := readExactLoop_ok h (Nat.zero_le _)
    rw [List.nil_append] at hmore
    exact ⟨hlen, hmore ▸ hstream⟩
  error := by
    intro inbound len exit h
    rcases readExactLoop_error h with ⟨hexit, -⟩ | ⟨hexit, hless⟩
    · exact .inl hexit
    · rw [List.length_nil, Nat.zero_add] at hless
      exact .inr ⟨hexit, hless⟩

/-- `t` is what a reader leaves of `s`, as far as timeouts and waits go. -/
def LeftOf (s t : List RecvEvent) : Prop :=
  timeouts t <:+ timeouts s ∧ longestWait 0 t ≤ longestWait 0 s

theorem LeftOf.refl (s : List RecvEvent) : LeftOf s s := ⟨List.suffix_refl _, Nat.le_refl _⟩

theorem LeftOf.trans {s t u : List RecvEvent} (hst : LeftOf s t) (htu : LeftOf t u) : LeftOf s u :=
  ⟨htu.1.trans hst.1, Nat.le_trans htu.2 hst.2⟩

theorem readExact_leftOf {inbound after : List RecvEvent} {len : Nat} {bytes : Bytes}
    (h : readExact inbound len = .ok (bytes, after)) : LeftOf inbound after :=
  (readExactLoop_ok h (Nat.zero_le _)).2.2

theorem readPacket_leftOf {fixedHeader : UInt8} {packet : MqttPacket}
    {inbound after : List RecvEvent}
    (h : (readPacket fixedHeader).run readExact inbound = .ok (packet, after)) :
    LeftOf inbound after :=
  Reader.run_rel LeftOf.refl LeftOf.trans readExact_leftOf h

theorem decodeRemainingLength_mayFail {exit : ClientExit} {i : Nat} {multiplier value : UInt32}
    (h : (decodeRemainingLengthLoop i multiplier value).MayFail exit) : exit = .badLength := by
  induction i generalizing multiplier value with
  | zero => exact h.symm
  | succ i ih =>
    obtain ⟨encoded, hk⟩ := h
    dsimp only at hk
    split at hk
    · exact hk.elim
    · exact ih hk

theorem readPacket_mayFail {fixedHeader : UInt8} {exit : ClientExit}
    (h : (readPacket fixedHeader).MayFail exit) : exit = .badLength ∨ exit = .tooLong := by
  rcases Reader.mayFail_bind _ _ _ h with h | ⟨remainingLen, h⟩
  · exact .inl (decodeRemainingLength_mayFail h)
  · split at h
    · exact .inr h.symm
    · split at h
      · obtain ⟨packet, hk⟩ := h
        exact hk.elim
      · exact h.elim

theorem readPacket_error {fixedHeader : UInt8} {inbound : List RecvEvent} {exit : ClientExit}
    (h : (readPacket fixedHeader).run readExact inbound = .error exit) :
    exit ≠ .reaped ∧ (exit = .stalled → mqttPartialReadPolls < longestWait 0 inbound) := by
  rcases Reader.run_refused LeftOf.refl LeftOf.trans readExact_leftOf h with
    h | ⟨rest, len, hleft, h⟩
  · rcases readPacket_mayFail h with rfl | rfl <;> exact ⟨by decide, fun heq => by cases heq⟩
  · rcases readExactLoop_error h with ⟨rfl, hlong⟩ | ⟨rfl, -⟩
    · exact ⟨by decide, fun _ => Nat.lt_of_lt_of_le hlong hleft.2⟩
    · exact ⟨by decide, fun heq => by cases heq⟩

/-! ## What the loop serves -/

/-- What a run of the loop is to the packets of the whole stream. -/
structure ServesStream (serve : List MqttPacket → Served) (inbound : List RecvEvent)
    (served whole : List MqttPacket × ClientExit) : Prop where
  packets : served.1 <+: whole.1
  all : served.2 ≠ .reaped → served.2 ≠ .stalled → served = whole
  stalled : served.2 = .stalled → mqttPartialReadPolls < longestWait 0 inbound
  reaped : served.2 = .reaped → ∃ nowUs ∈ timeouts inbound, (serve served.1).clock.expired nowUs

theorem prefix_frames (ends : List MqttPacket → Bool) (done : List MqttPacket) (bytes : Bytes) :
    done <+: (frames ends done bytes).1 := by
  fun_induction frames ends done bytes with
  | case1 => exact List.prefix_refl _
  | case2 => exact List.prefix_refl _
  | case3 => exact List.prefix_append _ _
  | case4 done fixedHeader bytes packet rest hpacket hends ih =>
    exact (List.prefix_append _ _).trans ih

theorem ServesStream.refl {serve : List MqttPacket → Served} {inbound : List RecvEvent}
    {served : List MqttPacket × ClientExit} (hreaped : served.2 ≠ .reaped)
    (hstalled : served.2 ≠ .stalled) : ServesStream serve inbound served served where
  packets := List.prefix_refl _
  all := fun _ _ => rfl
  stalled := fun h => absurd h hstalled
  reaped := fun h => absurd h hreaped

theorem ServesStream.of_leftOf {serve : List MqttPacket → Served} {inbound after : List RecvEvent}
    {served whole : List MqttPacket × ClientExit} (h : ServesStream serve after served whole)
    (hleft : LeftOf inbound after) : ServesStream serve inbound served whole where
  packets := h.packets
  all := h.all
  stalled := fun hexit => Nat.lt_of_lt_of_le (h.stalled hexit) hleft.2
  reaped := fun hexit => by
    obtain ⟨nowUs, hmem, hexpired⟩ := h.reaped hexit
    exact ⟨nowUs, hleft.1.subset hmem, hexpired⟩

theorem leftOf_again (nowUs : UInt64) (after : List RecvEvent) :
    LeftOf (.idle nowUs :: after) after :=
  ⟨List.suffix_cons _ _, longestWait_mono (Nat.zero_le 1) after⟩

/-- The first byte of a packet. -/
theorem recv_header {inbound after : List RecvEvent} {bytes : Bytes}
    (h : recv 1 inbound = (.got bytes, after)) :
    ∃ fixedHeader, bytes = [fixedHeader] ∧ streamed inbound = fixedHeader :: streamed after ∧
      LeftOf inbound after := by
  have hlen := (recv_taken Nat.one_pos inbound).2 bytes (by rw [h])
  cases taken_of_recv Nat.one_pos h with
  | got hne hstream htimeouts hwait =>
    obtain ⟨fixedHeader, rfl⟩ : ∃ fixedHeader, bytes = [fixedHeader] := by
      match bytes, hne, hlen with
      | [b], _, _ => exact ⟨b, rfl⟩
    exact ⟨fixedHeader, rfl, hstream, htimeouts ▸ List.suffix_refl _, hwait 0⟩

theorem clientLoop_serves (serve : List MqttPacket → Served) (done : List MqttPacket)
    (inbound : List RecvEvent) :
    ServesStream serve inbound (clientLoop serve done inbound)
      (frames (fun history => (serve history).ends) done (streamed inbound)) := by
  fun_induction clientLoop serve done inbound with
  | case1 done inbound nowUs after hrecv hexpired =>
    cases taken_of_recv Nat.one_pos hrecv
    exact ⟨prefix_frames _ _ _, fun h => absurd rfl h, (fun h => by cases h),
      fun _ => ⟨nowUs, List.mem_cons_self, hexpired⟩⟩
  | case2 done inbound nowUs after hrecv hexpired ih =>
    cases taken_of_recv Nat.one_pos hrecv
    exact ih.of_leftOf (leftOf_again nowUs after)
  | case3 done inbound after hrecv =>
    cases taken_of_recv Nat.one_pos hrecv
    rw [streamed, frames]
    exact .refl (by simp) (by simp)
  | case4 done inbound bytes after hrecv exit hpacket =>
    -- the packet is not read to its end
    obtain ⟨fixedHeader, rfl, hstream, hleft⟩ := recv_header hrecv
    obtain ⟨hreaped, hstalled⟩ := readPacket_error hpacket
    have hwhole : exit ≠ .stalled →
        (readPacket fixedHeader).run (Reader.fromList .closed) (streamed after) = .error exit :=
      fun hne => (readExact_faithful.run_error hpacket).resolve_left hne
    refine ⟨?_, fun _ hne => ?_, fun hexit => ?_, fun hexit => absurd hexit hreaped⟩
    · exact prefix_frames _ _ _
    · rw [hstream, frames, hwhole hne]
    · exact Nat.lt_of_lt_of_le (hstalled hexit) hleft.2
  | case5 done inbound bytes after hrecv packet after' hpacket hends =>
    obtain ⟨fixedHeader, rfl, hstream, -⟩ := recv_header hrecv
    have hwhole := readExact_faithful.run_ok hpacket
    rw [List.headD_cons] at hwhole
    rw [hstream, frames, hwhole]
    dsimp only
    rw [if_pos hends]
    exact .refl (by simp) (by simp)
  | case6 done inbound bytes after hrecv packet after' hpacket hends ih =>
    obtain ⟨fixedHeader, rfl, hstream, hleft⟩ := recv_header hrecv
    have hwhole := readExact_faithful.run_ok hpacket
    rw [List.headD_cons] at hwhole
    rw [hstream, frames, hwhole]
    dsimp only
    rw [if_neg hends]
    exact ih.of_leftOf (hleft.trans (readPacket_leftOf hpacket))

/-- **Packets by the byte stream**: the segments and the timeouts between them do not matter, up
to where a client is reaped or a packet stalls. -/
theorem client_frames (serve : List MqttPacket → Served) (inbound : List RecvEvent) :
    ServesStream serve inbound (clientLoop serve [] inbound)
      (frames (fun history => (serve history).ends) [] (streamed inbound)) :=
  clientLoop_serves serve [] inbound

/-! ## A peer that falls silent -/

theorem ClientClock.expired_of_deadline {client : ClientClock} {deadlineUs lastUs nowUs : UInt64}
    (hdeadline : client.deadlineUs = some deadlineUs) (hlast : client.lastActivityUs ≤ lastUs)
    (hnow : lastUs.toNat + deadlineUs.toNat ≤ nowUs.toNat) : client.expired nowUs = true := by
  have hle : client.lastActivityUs.toNat ≤ lastUs.toNat := UInt64.le_iff_toNat_le.mp hlast
  have hsub : (nowUs - client.lastActivityUs).toNat = nowUs.toNat - client.lastActivityUs.toNat :=
    UInt64.toNat_sub_of_le _ _ (UInt64.le_iff_toNat_le.mpr (by omega))
  unfold expired
  rw [hdeadline]
  simp only [UInt64.lt_iff_toNat_lt, hsub, decide_eq_true_eq]
  omega

/-- With nothing but timeouts to come, an unfinished read stalls. -/
theorem readExactLoop_quiet {len idlePolls : Nat} {buffer : Bytes} {quiet : List RecvEvent}
    (hquiet : streamed quiet = []) (hshort : buffer.length < len)
    (hpolls : idlePolls ≤ mqttPartialReadPolls)
    (hlong : mqttPartialReadPolls < idlePolls + quiet.length) :
    readExactLoop len buffer idlePolls quiet = .error .stalled := by
  induction quiet generalizing idlePolls with
  | nil => simp only [List.length_nil] at hlong; omega
  | cons event quiet ih =>
    cases event with
    | data first rest => cases hquiet
    | idle nowUs =>
      rw [readExactLoop, dif_pos hshort]
      simp only [recv]
      split
      · rfl
      · next hmore =>
        rw [List.length_cons] at hlong
        exact ih hquiet (by omega) (by omega)

theorem suffix_of_recv {len : Nat} (hlen : 0 < len) {inbound after quiet : List RecvEvent}
    {bytes : Bytes} (hquiet : streamed quiet = []) (hsuffix : quiet <:+ inbound)
    (h : recv len inbound = (.got bytes, after)) : quiet <:+ after := by
  cases inbound with
  | nil => cases h
  | cons event inbound =>
    cases event with
    | idle nowUs => cases h
    | data first rest =>
      have htail : quiet <:+ inbound := by
        rcases List.suffix_cons_iff.mp hsuffix with rfl | htail
        · cases hquiet
        · exact htail
      obtain ⟨n, rfl⟩ : ∃ n, len = n + 1 := ⟨len - 1, by omega⟩
      simp only [recv, List.drop_succ_cons, Prod.mk.injEq] at h
      obtain ⟨-, rfl⟩ := h
      cases rest.drop n with
      | nil => exact htail
      | cons next later => exact htail.trans (List.suffix_cons _ _)

theorem readExactLoop_suffix {len idlePolls : Nat} {buffer : Bytes}
    {inbound quiet : List RecvEvent} (hquiet : streamed quiet = [])
    (hlong : mqttPartialReadPolls < quiet.length) (hsuffix : quiet <:+ inbound)
    (hpolls : idlePolls ≤ mqttPartialReadPolls) :
    readExactLoop len buffer idlePolls inbound ≠ .error .closed ∧
      ∀ out after, readExactLoop len buffer idlePolls inbound = .ok (out, after) → quiet <:+ after := by
  fun_induction readExactLoop len buffer idlePolls inbound with
  | case1 => exact ⟨by simp, fun out after h => by cases h⟩
  | case2 buffer idlePolls inbound hshort nowUs after hrecv hmore ih =>
    cases taken_of_recv (by omega) hrecv
    rcases List.suffix_cons_iff.mp hsuffix with rfl | htail
    · have hstalled : readExactLoop len buffer (idlePolls + 1) after = .error .stalled :=
        readExactLoop_quiet hquiet hshort (Nat.le_of_not_lt hmore)
          (by rw [List.length_cons] at hlong; omega)
      rw [hstalled]
      exact ⟨by simp, fun out after h => by cases h⟩
    · exact ih htail (Nat.le_of_not_lt hmore)
  | case3 buffer idlePolls inbound hshort after hrecv =>
    cases taken_of_recv (by omega) hrecv
    rw [List.suffix_nil.mp hsuffix] at hlong
    exact absurd hlong (Nat.not_lt_zero _)
  | case4 buffer idlePolls inbound hshort bytes after hrecv ih =>
    exact ih (suffix_of_recv (by omega) hquiet hsuffix hrecv) (Nat.zero_le _)
  | case5 buffer idlePolls inbound hfull =>
    refine ⟨by simp, fun out after h => ?_⟩
    cases h
    exact hsuffix

theorem readPacket_suffix {fixedHeader : UInt8} {inbound quiet : List RecvEvent}
    (hquiet : streamed quiet = []) (hlong : mqttPartialReadPolls < quiet.length)
    (hsuffix : quiet <:+ inbound) :
    (readPacket fixedHeader).run readExact inbound ≠ .error .closed ∧
      ∀ packet after, (readPacket fixedHeader).run readExact inbound = .ok (packet, after) →
        quiet <:+ after := by
  have hread : ∀ {s len bytes t}, readExact s len = .ok (bytes, t) → quiet <:+ s → quiet <:+ t :=
    fun h hs => (readExactLoop_suffix hquiet hlong hs (Nat.zero_le _)).2 _ _ h
  refine ⟨fun h => ?_, fun packet after h => ?_⟩
  · rcases Reader.run_refused (R := fun s t => quiet <:+ s → quiet <:+ t) (fun _ => id)
        (fun hst htu hs => htu (hst hs)) hread h with h | ⟨rest, len, hrest, h⟩
    · rcases readPacket_mayFail h with h | h <;> cases h
    · exact (readExactLoop_suffix hquiet hlong (hrest hsuffix) (Nat.zero_le _)).1 h
  · exact Reader.run_rel (R := fun s t => quiet <:+ s → quiet <:+ t) (fun _ => id)
      (fun hst htu hs => htu (hst hs)) hread h hsuffix

/-- Between packets, the first poll past the deadline reaps. -/
theorem clientLoop_quiet {serve : List MqttPacket → Served} {done : List MqttPacket}
    {quiet : List RecvEvent} {nowUs : UInt64} (hquiet : streamed quiet = [])
    (hpoll : nowUs ∈ timeouts quiet) (hexpired : (serve done).clock.expired nowUs = true) :
    clientLoop serve done quiet = (done, .reaped) := by
  induction quiet with
  | nil => cases hpoll
  | cons event quiet ih =>
    cases event with
    | data first rest => cases hquiet
    | idle atUs =>
      rw [clientLoop]
      simp only [recv]
      split
      · rfl
      · next hnot =>
        rcases List.mem_cons.mp hpoll with rfl | hpoll
        · exact absurd hexpired hnot
        · exact ih hquiet hpoll

theorem clientLoop_suffix {serve : List MqttPacket → Served} {done : List MqttPacket}
    {inbound quiet : List RecvEvent} {nowUs : UInt64} (hquiet : streamed quiet = [])
    (hlong : mqttPartialReadPolls < quiet.length) (hpoll : nowUs ∈ timeouts quiet)
    (hexpired : ∀ history, (serve history).clock.expired nowUs = true)
    (hsuffix : quiet <:+ inbound) : (clientLoop serve done inbound).2 ≠ .closed := by
  fun_induction clientLoop serve done inbound with
  | case1 => simp
  | case2 done inbound atUs after hrecv hnot ih =>
    cases taken_of_recv Nat.one_pos hrecv
    rcases List.suffix_cons_iff.mp hsuffix with rfl | htail
    · -- silent from here on
      have hpoll' : nowUs ∈ timeouts after := by
        rcases List.mem_cons.mp hpoll with rfl | hpoll
        · exact absurd (hexpired done) hnot
        · exact hpoll
      have hreaped : clientLoop serve done after = (done, .reaped) :=
        clientLoop_quiet hquiet hpoll' (hexpired done)
      rw [hreaped]
      simp
    · exact ih htail
  | case3 done inbound after hrecv =>
    cases taken_of_recv Nat.one_pos hrecv
    rw [List.suffix_nil.mp hsuffix] at hlong
    exact absurd hlong (Nat.not_lt_zero _)
  | case4 done inbound bytes after hrecv exit hpacket =>
    have hafter := suffix_of_recv Nat.one_pos hquiet hsuffix hrecv
    intro hclosed
    rw [show exit = .closed from hclosed] at hpacket
    exact (readPacket_suffix hquiet hlong hafter).1 hpacket
  | case5 => simp
  | case6 done inbound bytes after hrecv packet after' hpacket hends ih =>
    have hafter := suffix_of_recv Nat.one_pos hquiet hsuffix hrecv
    exact ih ((readPacket_suffix hquiet hlong hafter).2 _ _ hpacket)

/-- **A silent peer is dropped**: wherever in the stream it falls silent, the loop is left at the
latest by its ninth poll from there or the first past the deadline. -/
theorem silent_peer_dropped (serve : List MqttPacket → Served) (live quiet : List RecvEvent)
    (lastUs nowUs : UInt64) (hquiet : streamed quiet = [])
    (hlong : mqttPartialReadPolls < quiet.length) (hpoll : nowUs ∈ timeouts quiet)
    (hlast : ∀ done, (serve done).clock.lastActivityUs ≤ lastUs)
    (hdeadline : ∀ done, ∃ deadlineUs, (serve done).clock.deadlineUs = some deadlineUs ∧
      lastUs.toNat + deadlineUs.toNat ≤ nowUs.toNat) :
    (clientLoop serve [] (live ++ quiet)).2 ≠ .closed := by
  refine clientLoop_suffix hquiet hlong hpoll (fun done => ?_) (List.suffix_append _ _)
  obtain ⟨deadlineUs, hsome, hnow⟩ := hdeadline done
  exact ClientClock.expired_of_deadline hsome (hlast done) hnow

/-- A client with a keep-alive of 10 s, in the middle of a packet. -/
theorem silent_peer_dropped_midPacket :
    (clientLoop (fun _ => ⟨false, ⟨true, 10, 1000000⟩⟩) []
      ([.data 0x30 [2]] ++ (List.range 9).map fun i => .idle (2000000 * (i + 1).toUInt64))).2 ≠
        .closed :=
  silent_peer_dropped _ _ _ 1000000 18000000 rfl (by decide) (by decide) (fun _ => by decide)
    fun _ => ⟨15000000, by decide, by decide⟩

end Argus
