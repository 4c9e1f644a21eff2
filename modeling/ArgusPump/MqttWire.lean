import ArgusPump.MqttFraming
import ArgusPump.MqttGate
import Mathlib.Data.List.TakeWhile

/-!
# Packets on the wire

`argus_mqtt_encode_remaining_length` and `argus_mqtt_send_publish` of
`main/argus_mqtt_broker.c` against the reading side.

    a length below 2 ^ 28 is read back as it was written; no other bytes are shorter and none
      are read as a longer length                                     (remainingLength_exact)
    packets written one after another are the packets of the stream   (frames_bytes)
    publications written one after another are read back, in whatever segments they arrive
                                                                      (publications_framed)
-/

namespace Argus

open Interact

/-! ## The remaining length -/

/-- The loop of `argus_mqtt_encode_remaining_length`, with the bytes it may still write. -/
def encodeRemainingLengthLoop : Nat → UInt32 → Bytes
  | 0, _ => []
  | count + 1, len =>
    let encoded := (len % 128).toUInt8
    let len := len / 128
    if len > 0 then (encoded ||| 128) :: encodeRemainingLengthLoop count len else [encoded]

/-- `argus_mqtt_encode_remaining_length`. -/
def encodeRemainingLength (len : UInt32) : Bytes := encodeRemainingLengthLoop 4 len

/-- A length byte: seven bits of the length, and whether more follow. -/
theorem lengthByte_all : ∀ n, n < 128 →
    n.toUInt8 &&& 128 = 0 ∧ n.toUInt8 &&& 127 = n.toUInt8 ∧
      (n.toUInt8 ||| 128) &&& 128 ≠ 0 ∧ (n.toUInt8 ||| 128) &&& 127 = n.toUInt8 := by
  decide +kernel

theorem lengthByte_lt_all : ∀ n, n < 256 → (n.toUInt8 &&& 127).toNat < 128 := by
  decide +kernel

theorem lengthByte_lt (b : UInt8) : (b &&& 127).toNat < 128 := by
  have := lengthByte_lt_all b.toNat b.toNat_lt
  rwa [show b.toNat.toUInt8 = b by simp] at this

theorem toUInt8_mod (len : UInt32) : (len % 128).toUInt8 = (len.toNat % 128).toUInt8 := by
  apply UInt8.toNat_inj.mp
  rw [UInt32.toNat_toUInt8, UInt32.toNat_mod]
  simp

theorem toUInt32_mod (len : UInt32) : ((len.toNat % 128).toUInt8).toUInt32 = len % 128 := by
  apply UInt32.toNat_inj.mp
  rw [UInt8.toNat_toUInt32, UInt32.toNat_mod]
  simp
  omega

theorem decodeRemainingLength_cons (i : Nat) (multiplier value : UInt32) (b : UInt8) (bytes : Bytes) :
    (decodeRemainingLengthLoop (i + 1) multiplier value).run (Reader.fromList .closed) (b :: bytes) =
      if b &&& 128 = 0 then .ok (value + (b &&& 127).toUInt32 * multiplier, bytes)
      else (decodeRemainingLengthLoop i (multiplier * 128)
        (value + (b &&& 127).toUInt32 * multiplier)).run (Reader.fromList .closed) bytes := by
  rw [decodeRemainingLengthLoop, Reader.run_fromList_cons]
  change Reader.run _ (if b &&& 128 = 0 then .done (value + (b &&& 127).toUInt32 * multiplier) else _)
    bytes = _
  by_cases hlast : b &&& 128 = 0
  · rw [if_pos hlast, if_pos hlast, Reader.run]
  · rw [if_neg hlast, if_neg hlast]
    rfl

theorem decodeRemainingLength_encode {count : Nat} {len : UInt32} (h : len.toNat < 128 ^ count)
    (hcount : 0 < count) (multiplier value : UInt32) (rest : Bytes) :
    (decodeRemainingLengthLoop count multiplier value).run (Reader.fromList .closed)
        (encodeRemainingLengthLoop count len ++ rest) = .ok (value + len * multiplier, rest) := by
  induction count generalizing len multiplier value with
  | zero => exact absurd hcount (Nat.lt_irrefl 0)
  | succ count ih =>
    obtain ⟨hlast, hkeep, hmore, hkeepMore⟩ :=
      lengthByte_all (len.toNat % 128) (Nat.mod_lt _ (by decide))
    have hsplit : len % 128 + len / 128 * 128 = len := by
      apply UInt32.toNat_inj.mp
      have := len.toNat_lt
      simp only [UInt32.toNat_add, UInt32.toNat_mul, UInt32.toNat_mod, UInt32.toNat_div,
        UInt32.reduceToNat]
      omega
    unfold encodeRemainingLengthLoop
    simp only [toUInt8_mod]
    split
    · next hpos =>
      have hdiv : (len / 128).toNat < 128 ^ count := by
        rw [UInt32.toNat_div]
        exact Nat.div_lt_of_lt_mul (by rw [Nat.pow_succ, Nat.mul_comm] at h; exact h)
      have hcount' : 0 < count := by
        rcases Nat.eq_zero_or_pos count with rfl | hc
        · rw [pow_zero, Nat.lt_one_iff] at hdiv
          rw [gt_iff_lt, UInt32.lt_iff_toNat_lt, hdiv] at hpos
          exact absurd hpos (Nat.lt_irrefl 0)
        · exact hc
      rw [List.cons_append, decodeRemainingLength_cons, if_neg hmore, hkeepMore, toUInt32_mod,
        ih hdiv hcount']
      congr 2
      calc value + len % 128 * multiplier + len / 128 * (multiplier * 128)
          = value + (len % 128 + len / 128 * 128) * multiplier := by grind
        _ = value + len * multiplier := by rw [hsplit]
    · next hzero =>
      have hdiv : len / 128 = 0 := by
        apply UInt32.toNat_inj.mp
        rw [gt_iff_lt, UInt32.lt_iff_toNat_lt] at hzero
        simpa using hzero
      rw [List.cons_append, decodeRemainingLength_cons, if_pos hlast, hkeep, toUInt32_mod,
        List.nil_append]
      rw [hdiv, UInt32.zero_mul, UInt32.add_zero] at hsplit
      rw [hsplit]

/-- What is read as a length was written in some of the bytes, seven bits in each. -/
theorem decodeRemainingLength_ok {i : Nat} {multiplier value len : UInt32} {bytes rest : Bytes}
    (h : (decodeRemainingLengthLoop i multiplier value).run (Reader.fromList .closed) bytes =
      .ok (len, rest)) :
    ∃ code d, bytes = code ++ rest ∧ 0 < code.length ∧ code.length ≤ i ∧ d < 128 ^ code.length ∧
      len = value + UInt32.ofNat d * multiplier := by
  induction i generalizing multiplier value bytes with
  | zero => cases h
  | succ i ih =>
    cases bytes with
    | nil =>
      rw [decodeRemainingLengthLoop, Reader.run_take] at h
      cases h
    | cons b bytes =>
      rw [decodeRemainingLength_cons] at h
      have hlow := lengthByte_lt b
      have hb : (b &&& 127).toUInt32 = UInt32.ofNat (b &&& 127).toNat := by simp
      split at h
      · cases h
        refine ⟨[b], (b &&& 127).toNat, rfl, Nat.one_pos, ?_, by simpa using hlow, by rw [hb]⟩
        rw [List.length_singleton]
        omega
      · obtain ⟨code, d, rfl, hpos, hle, hd, rfl⟩ := ih h
        refine ⟨b :: code, (b &&& 127).toNat + 128 * d, rfl, Nat.succ_pos _, Nat.succ_le_succ hle, ?_,
          ?_⟩
        · rw [List.length_cons, Nat.pow_succ]
          omega
        · rw [hb, UInt32.ofNat_add, UInt32.ofNat_mul]
          have h128 : UInt32.ofNat 128 = 128 := rfl
          rw [h128]
          grind

theorem encodeRemainingLength_length {count k : Nat} {len : UInt32} (h : len.toNat < 128 ^ k)
    (hk : 0 < k) : (encodeRemainingLengthLoop count len).length ≤ k := by
  induction count generalizing k len with
  | zero => exact Nat.zero_le _
  | succ count ih =>
    unfold encodeRemainingLengthLoop
    dsimp only
    split
    · next hpos =>
      obtain ⟨k, rfl⟩ : ∃ m, k = m + 1 := ⟨k - 1, by omega⟩
      have hdiv : (len / 128).toNat < 128 ^ k := by
        rw [UInt32.toNat_div]
        exact Nat.div_lt_of_lt_mul (by rw [Nat.pow_succ, Nat.mul_comm] at h; exact h)
      have hk' : 0 < k := by
        rcases Nat.eq_zero_or_pos k with rfl | hk'
        · rw [pow_zero, Nat.lt_one_iff] at hdiv
          rw [gt_iff_lt, UInt32.lt_iff_toNat_lt, hdiv] at hpos
          exact absurd hpos (Nat.lt_irrefl 0)
        · exact hk'
      rw [List.length_cons]
      exact Nat.succ_le_succ (ih hdiv hk')
    · exact hk

/-- A length that needs more than the bytes there are is written without an end. -/
theorem decodeRemainingLength_long {count : Nat} {len : UInt32} (h : 128 ^ count ≤ len.toNat)
    (multiplier value : UInt32) (rest : Bytes) :
    (decodeRemainingLengthLoop count multiplier value).run (Reader.fromList .closed)
        (encodeRemainingLengthLoop count len ++ rest) = .error .badLength := by
  induction count generalizing len multiplier value with
  | zero => rfl
  | succ count ih =>
    obtain ⟨-, -, hmore, -⟩ := lengthByte_all (len.toNat % 128) (Nat.mod_lt _ (by decide))
    have hdiv : 128 ^ count ≤ (len / 128).toNat := by
      rw [UInt32.toNat_div]
      exact (Nat.le_div_iff_mul_le (by decide)).mpr (by rw [Nat.pow_succ] at h; exact h)
    have hpos : len / 128 > 0 := by
      rw [gt_iff_lt, UInt32.lt_iff_toNat_lt]
      exact Nat.lt_of_lt_of_le (Nat.pow_pos (by decide)) hdiv
    unfold encodeRemainingLengthLoop
    simp only [toUInt8_mod]
    rw [if_pos hpos, List.cons_append, decodeRemainingLength_cons, if_neg hmore]
    exact ih hdiv _ _

theorem decodeRemainingLength_short (len : UInt32) (rest : Bytes) (h : len.toNat < 2 ^ 28) :
    decodeRemainingLength.run (Reader.fromList .closed) (encodeRemainingLength len ++ rest) =
      .ok (len, rest) := by
  have hread := decodeRemainingLength_encode (show len.toNat < 128 ^ 4 from h) (by decide) 1 0 rest
  rwa [UInt32.mul_one, UInt32.zero_add] at hread

/-- **The remaining length is exact**: a length below 2 ^ 28 is read back as written and in no
fewer bytes, nothing is read as a longer one, and a longer one is refused as it is written. -/
theorem remainingLength_exact :
    (∀ (len : UInt32) rest, len.toNat < 2 ^ 28 →
      decodeRemainingLength.run (Reader.fromList .closed) (encodeRemainingLength len ++ rest) =
        .ok (len, rest)) ∧
    (∀ (len : UInt32) bytes rest,
      decodeRemainingLength.run (Reader.fromList .closed) bytes = .ok (len, rest) →
        len.toNat < 2 ^ 28 ∧ ∃ code, bytes = code ++ rest ∧
          (encodeRemainingLength len).length ≤ code.length ∧ code.length ≤ 4) ∧
    (∀ (len : UInt32) rest, 2 ^ 28 ≤ len.toNat →
      decodeRemainingLength.run (Reader.fromList .closed) (encodeRemainingLength len ++ rest) =
        .error .badLength) := by
  refine ⟨decodeRemainingLength_short, fun len bytes rest h => ?_, fun len rest h => ?_⟩
  · obtain ⟨code, d, hbytes, hpos, hle, hd, hlen⟩ := decodeRemainingLength_ok h
    have hmax : 128 ^ code.length ≤ 2 ^ 28 := Nat.pow_le_pow_right (by decide) hle
    have hnat : len.toNat = d := by
      rw [hlen, UInt32.zero_add, UInt32.mul_one]
      exact UInt32.toNat_ofNat_of_lt' (Nat.lt_of_lt_of_le hd (Nat.le_trans hmax (by decide)))
    refine ⟨by omega, code, hbytes, encodeRemainingLength_length (by rw [hnat]; exact hd) hpos, hle⟩
  · exact decodeRemainingLength_long h 1 0 rest

/-! ## Writing packets -/

/-- A packet on the wire. -/
def MqttPacket.bytes (packet : MqttPacket) : Bytes :=
  packet.fixedHeader :: encodeRemainingLength packet.body.length.toUInt32 ++ packet.body

theorem readPacket_bytes (packet : MqttPacket) (h : packet.body.length ≤ mqttMaxPacketLen)
    (rest : Bytes) :
    (readPacket packet.fixedHeader).run (Reader.fromList .closed)
        (encodeRemainingLength packet.body.length.toUInt32 ++ packet.body ++ rest) =
      .ok (packet, rest) := by
  obtain ⟨fixedHeader, body⟩ := packet
  have hmax : body.length ≤ 1024 := h
  have hlen : body.length.toUInt32.toNat = body.length :=
    UInt32.toNat_ofNat_of_lt' (Nat.lt_of_le_of_lt hmax (by decide))
  have hread := decodeRemainingLength_short body.length.toUInt32 (body ++ rest) (by rw [hlen]; omega)
  unfold readPacket
  rw [Reader.run_bind, List.append_assoc, hread]
  dsimp only
  rw [hlen, if_neg (Nat.not_lt.mpr h)]
  cases body with
  | nil => rfl
  | cons b body =>
    rw [if_pos (by rw [gt_iff_lt, UInt32.lt_iff_toNat_lt, hlen]; exact Nat.succ_pos _),
      Reader.run_fromList_take, Reader.run]

/-- **One packet at a time**: what stands before the rest of the stream is served, and then the
rest. -/
theorem frames_bytes (ends : List MqttPacket → Bool) (done : List MqttPacket) (packet : MqttPacket)
    (h : packet.body.length ≤ mqttMaxPacketLen) (rest : Bytes) :
    frames ends done (packet.bytes ++ rest) =
      if ends (done ++ [packet]) then (done ++ [packet], .handled)
      else frames ends (done ++ [packet]) rest := by
  unfold MqttPacket.bytes
  rw [List.cons_append, List.cons_append, frames, readPacket_bytes packet h rest]

theorem frames_flatMap (ends : List MqttPacket → Bool) (hends : ∀ done, ends done = false)
    (done packets : List MqttPacket) (h : ∀ p ∈ packets, p.body.length ≤ mqttMaxPacketLen) :
    frames ends done (packets.flatMap MqttPacket.bytes) = (done ++ packets, .closed) := by
  induction packets generalizing done with
  | nil =>
    rw [List.append_nil, List.flatMap_nil]
    exact frames.eq_1 ends done
  | cons packet packets ih =>
    rw [List.flatMap_cons, frames_bytes ends done packet (h packet List.mem_cons_self), hends,
      if_neg Bool.false_ne_true, ih _ fun p hp => h p (List.mem_cons_of_mem _ hp)]
    simp

/-! ## Publications -/

/-- The bytes `strnlen` counts in a buffer of `cap`. -/
def boundedCString (cap : Nat) (text : Bytes) : Bytes := (text.takeWhile (· ≠ 0)).take (cap - 1)

/-- What `argus_mqtt_send_publish` sends. -/
def sendPublish (topic payload : Bytes) (retain : Bool) : Except EspErr Bytes :=
  let topic := boundedCString mqttBrokerTopicCap topic
  let payload := boundedCString mqttBrokerPayloadCap payload
  let remainingLen := 2 + topic.length + payload.length
  if remainingLen + 5 > mqttMaxPacketLen then .error espErrInvalidSize
  else
    .ok ((if retain then 0x31 else 0x30) :: encodeRemainingLength remainingLen.toUInt32 ++
      [(topic.length >>> 8).toUInt8, (topic.length &&& 0xFF).toUInt8] ++ topic ++ payload)

/-- A topic and a payload as the C code has them, in buffers of their sizes. -/
structure Publication where
  topic : Bytes
  payload : Bytes
  retain : Bool
  topicText : 0 ∉ topic
  topicFits : topic.length < mqttBrokerTopicCap
  payloadText : 0 ∉ payload
  payloadFits : payload.length < mqttBrokerPayloadCap

theorem boundedCString_eq {cap : Nat} {text : Bytes} (htext : 0 ∉ text) (hfits : text.length < cap) :
    boundedCString cap text = text := by
  have hall : text.takeWhile (· ≠ 0) = text :=
    List.takeWhile_eq_self_iff.mpr fun b hb => by
      simpa using fun hzero : b = 0 => htext (hzero ▸ hb)
  unfold boundedCString
  rw [hall, List.take_of_length_le (by omega)]

namespace Publication

/-- The packet of a publication. -/
def wire (p : Publication) : MqttPacket where
  fixedHeader := if p.retain then 0x31 else 0x30
  body := [(p.topic.length >>> 8).toUInt8, (p.topic.length &&& 0xFF).toUInt8] ++ p.topic ++ p.payload

theorem wire_length (p : Publication) :
    p.wire.body.length = 2 + p.topic.length + p.payload.length := by
  unfold wire
  simp
  omega

theorem sendPublish_eq (p : Publication) :
    sendPublish p.topic p.payload p.retain = .ok p.wire.bytes := by
  have htopic : p.topic.length < 160 := p.topicFits
  have hpayload : p.payload.length < 385 := p.payloadFits
  unfold sendPublish MqttPacket.bytes
  rw [boundedCString_eq p.topicText p.topicFits, boundedCString_eq p.payloadText p.payloadFits,
    p.wire_length]
  dsimp only
  rw [if_neg (by simp only [mqttMaxPacketLen]; omega)]
  simp [wire]

theorem wire_fits (p : Publication) : p.wire.body.length ≤ mqttMaxPacketLen := by
  have htopic : p.topic.length < 160 := p.topicFits
  have hpayload : p.payload.length < 385 := p.payloadFits
  rw [p.wire_length]
  simp only [mqttMaxPacketLen]
  omega

/-- The message the packet carries. -/
def packet (p : Publication) : PublishPacket := ⟨p.topic, p.payload, 0, p.retain, false⟩

theorem lengthBytes_all : ∀ n, n < 160 →
    (((n >>> 8).toUInt8.toUInt16 <<< 8) ||| (n &&& 0xFF).toUInt8.toUInt16).toNat = n := by
  decide +kernel

theorem publishHeader_all : ∀ retain : Bool,
    ((if retain then (0x31 : UInt8) else 0x30) >>> 1) &&& 3 = 0 ∧
      decide ((if retain then (0x31 : UInt8) else 0x30) &&& 1 ≠ 0) = retain ∧
      decide ((if retain then (0x31 : UInt8) else 0x30) &&& 8 ≠ 0) = false := by
  decide

theorem parsePublish_wire (p : Publication) :
    parsePublish p.wire.fixedHeader p.wire.body = .ok p.packet := by
  have hlength := lengthBytes_all p.topic.length p.topicFits
  have htext : p.topic.takeWhile (· ≠ 0) = p.topic :=
    List.takeWhile_eq_self_iff.mpr fun b hb => by
      simpa using fun hzero : b = 0 => p.topicText (hzero ▸ hb)
  have hstring : readString p.wire.body mqttBrokerTopicCap = some (p.topic, p.payload) := by
    unfold readString wire
    simp only [List.cons_append, List.nil_append, readU16, hlength]
    rw [if_neg (by rw [List.length_append]; exact not_or.mpr ⟨by omega, Nat.not_le.mpr p.topicFits⟩),
      List.take_left, List.drop_left, htext]
  have hfits : ¬ p.payload.length ≥ mqttBrokerPayloadCap := Nat.not_le.mpr p.payloadFits
  obtain ⟨hqos, hretain, hdup⟩ :
      (p.wire.fixedHeader >>> 1) &&& 3 = 0 ∧ decide (p.wire.fixedHeader &&& 1 ≠ 0) = p.retain ∧
        decide (p.wire.fixedHeader &&& 8 ≠ 0) = false := publishHeader_all p.retain
  unfold parsePublish
  simp only [hqos, hretain, hdup, hstring]
  rw [if_neg (by decide), if_neg (by decide)]
  dsimp only
  rw [if_neg hfits]
  rfl

end Publication

/-- **Publications are read back**: what is written with one call after another arrives, in any
segments, as the same messages in the same order, as far as the client gets. -/
theorem publications_framed (serve : List MqttPacket → Served)
    (hends : ∀ done, (serve done).ends = false) (publications : List Publication)
    (writes : List Bytes)
    (hwrites : (publications.mapM fun p => sendPublish p.topic p.payload p.retain) = .ok writes)
    (inbound : List RecvEvent) (hstream : streamed inbound = writes.flatten) :
    let served := clientLoop serve [] inbound
    served.1.map (fun p => parsePublish p.fixedHeader p.body) <+:
        publications.map (fun p => .ok p.packet) ∧
      (served.2 ≠ .reaped → served.2 ≠ .stalled →
        served.1.map (fun p => parsePublish p.fixedHeader p.body) =
          publications.map fun p => .ok p.packet) := by
  have hbytes : writes.flatten = (publications.map Publication.wire).flatMap MqttPacket.bytes := by
    have hsend : (fun p : Publication => sendPublish p.topic p.payload p.retain) =
        fun p => pure p.wire.bytes := funext fun p => p.sendPublish_eq
    rw [hsend, List.mapM_pure] at hwrites
    cases hwrites
    rw [List.flatMap_map, List.flatMap_def]
  have hframes := frames_flatMap (fun done => (serve done).ends) hends []
    (publications.map Publication.wire) fun p hp => by
      obtain ⟨q, -, rfl⟩ := List.mem_map.mp hp
      exact q.wire_fits
  have hparse : (publications.map Publication.wire).map
      (fun p => parsePublish p.fixedHeader p.body) = publications.map fun p => .ok p.packet := by
    rw [List.map_map]
    exact List.map_congr_left fun p _ => p.parsePublish_wire
  obtain ⟨hstart, hall, -, -⟩ := clientLoop_serves serve [] inbound
  rw [hstream, hbytes, hframes] at hstart hall
  refine ⟨?_, fun hreaped hstalled => ?_⟩
  · rw [← hparse]
    exact hstart.map _
  · rw [hall hreaped hstalled]
    exact hparse

/-- One publication in two segments. -/
theorem publications_framed_split :
    (clientLoop (fun _ => ⟨false, ⟨true, 60, 0⟩⟩) []
        [.data 0x31 [4, 0, 1], .data 97 [49]]).1.map
      (fun p => parsePublish p.fixedHeader p.body) = [.ok ⟨txt "a", txt "1", 0, true, false⟩] :=
  let publication : Publication :=
    ⟨txt "a", txt "1", true, by decide, by decide, by decide, by decide⟩
  have hserves := clientLoop_serves (fun _ => ⟨false, ⟨true, 60, 0⟩⟩) [] [.data 0x31 [4, 0, 1], .data 97 [49]]
  (publications_framed (fun _ => ⟨false, ⟨true, 60, 0⟩⟩) (fun _ => rfl) [publication]
    [publication.wire.bytes] (by rw [List.mapM_cons, publication.sendPublish_eq]; rfl) _
    (by decide)).2
    (fun hexit => by
      obtain ⟨nowUs, hmem, -⟩ := hserves.reaped hexit
      cases hmem)
    fun hexit => absurd (hserves.stalled hexit) (by decide)

end Argus
