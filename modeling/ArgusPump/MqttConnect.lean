import ArgusPump.MqttDecode
import ArgusPump.NvsConfig

/-!
# The CONNECT parser

`argus_mqtt_broker_parse_connect` of `main/argus_mqtt_broker.c`.  A read of the packet has an
offset and is an `Option`: outside of the packet there is nothing to read.

    a packet of 1 to 1024 bytes → every read is inside it, the result is OK exactly for the
      CONNECT packets of the grammar, and what fails leaves no credential  (parse_connect)

A `size_t` holds every offset the parser computes.
-/

namespace Argus

def mqttMaxPacketLen : Nat := 1024
abbrev mqttBrokerClientIdCap : Nat := 33
abbrev mqttBrokerUsernameCap : Nat := 37
abbrev mqttBrokerPasswordCap : Nat := 129

/-! ## Reading the packet -/

/-- `packet[offset]`. -/
def readByte (packet : Bytes) (offset : Nat) : Option UInt8 := packet[offset]?

/-- The bytes a `memcpy` from the packet reads. -/
def readBytes (packet : Bytes) (offset length : Nat) : Option Bytes :=
  if offset + length ≤ packet.length then some ((packet.drop offset).take length) else none

/-- What `argus_mqtt_read_binary` returns and leaves in its arguments. -/
structure BinaryField (capacity : Nat) where
  found : Bool
  offset : Nat
  out : Vector UInt8 capacity
  outLength : Nat

/-- `argus_mqtt_read_binary`. -/
def readBinary {capacity : Nat} (packet : Bytes) (offset : Nat) (out : Vector UInt8 capacity)
    (outLength : Nat) : Option (BinaryField capacity) :=
  if offset + 2 > packet.length then some ⟨false, offset, out, outLength⟩
  else
    (readByte packet offset).bind fun high =>
    (readByte packet (offset + 1)).bind fun low =>
    let fieldLength := high.toNat <<< 8 ||| low.toNat
    if fieldLength ≥ capacity ∨ offset + 2 + fieldLength > packet.length then
      some ⟨false, offset + 2, out, outLength⟩
    else
      (readBytes packet (offset + 2) fieldLength).bind fun field =>
      some ⟨true, offset + 2 + fieldLength, putString out field, fieldLength⟩

/-- The bytes of a field that was found. -/
def BinaryField.bytes {capacity : Nat} (field : BinaryField capacity) : Bytes :=
  field.out.toList.take field.outLength

/-- The three ways the parser refuses a field. -/
def BinaryField.refused {capacity : Nat} (field : BinaryField capacity) : Bool :=
  !field.found || field.outLength = 0 || field.bytes.contains 0

/-! ## The parser -/

/-- `argus_mqtt_connect_parse_result_t`. -/
inductive ConnectParseResult
  | ok | malformed | protocol | flags | clientId | credentials | tooLarge
deriving DecidableEq

/-- `argus_mqtt_connect_request_t` as it is in memory. -/
structure ConnectBuffers where
  clientId : Vector UInt8 mqttBrokerClientIdCap
  username : Vector UInt8 mqttBrokerUsernameCap
  usernameLen : Nat
  password : Vector UInt8 mqttBrokerPasswordCap
  passwordLen : Nat
  keepAliveS : UInt16
deriving DecidableEq

/-- After `memset` and after `argus_password_zeroize`. -/
def ConnectBuffers.zero : ConnectBuffers :=
  ⟨.replicate _ 0, .replicate _ 0, 0, .replicate _ 0, 0, 0⟩

/-- The user name, the password and the end of the packet. -/
def parseCredentials (packet : Bytes) (offset : Nat) (clientId : Bytes) (out : ConnectBuffers) :
    Option (ConnectParseResult × ConnectBuffers) :=
  (readBinary packet offset out.username out.usernameLen).bind fun username =>
  if username.refused then some (.credentials, .zero)
  else
    (readBinary packet username.offset out.password out.passwordLen).bind fun password =>
    if password.refused then some (.credentials, .zero)
    else if password.offset ≠ packet.length then some (.malformed, .zero)
    else
      some (.ok, { out with
        username := username.out
        usernameLen := username.outLength
        password := password.out
        passwordLen := password.outLength
        clientId := putString out.clientId clientId })

def parseClientId (packet : Bytes) (offset : Nat) (out : ConnectBuffers) :
    Option (ConnectParseResult × ConnectBuffers) :=
  (readBinary packet offset (.replicate mqttBrokerClientIdCap 0) 0).bind fun clientId =>
  if clientId.refused then some (.clientId, out)
  else parseCredentials packet clientId.offset clientId.bytes out

/-- The connect flags the parser takes. -/
def connectFlags (flags : UInt8) : Bool :=
  let username := flags &&& 0x80 ≠ 0
  let password := flags &&& 0x40 ≠ 0
  let willRetain := flags &&& 0x20 ≠ 0
  let willQos := (flags >>> 3) &&& 0x03
  let will := flags &&& 0x04 ≠ 0
  let cleanSession := flags &&& 0x02 ≠ 0
  !(flags &&& 0x01 ≠ 0 || !cleanSession || will || willRetain || willQos ≠ 0 || !username ||
    !password)

/-- What follows the protocol level. -/
def parseFlags (packet : Bytes) (offset : Nat) : Option (ConnectParseResult × ConnectBuffers) :=
  (readByte packet offset).bind fun flags =>
  (readByte packet (offset + 1)).bind fun high =>
  (readByte packet (offset + 2)).bind fun low =>
  let out : ConnectBuffers := { ConnectBuffers.zero with
    keepAliveS := (high.toUInt16 <<< 8) ||| low.toUInt16 }
  if ¬ connectFlags flags then some (.flags, out) else parseClientId packet (offset + 3) out

/-- `argus_mqtt_broker_parse_connect`. -/
def parseConnect (packet : Bytes) (out : ConnectBuffers) :
    Option (ConnectParseResult × ConnectBuffers) :=
  if packet.length = 0 ∨ packet.length > mqttMaxPacketLen then some (.malformed, out)
  else
    (readBinary packet 0 (.replicate 8 0) 0).bind fun protocol =>
    if ¬ protocol.found ∨ protocol.outLength ≠ 4 ∨ protocol.out.toList.take 4 ≠ txt "MQTT" ∨
        protocol.offset + 4 > packet.length then
      some (.protocol, .zero)
    else
      (readByte packet protocol.offset).bind fun level =>
      if level ≠ 4 then some (.protocol, .zero) else parseFlags packet (protocol.offset + 1)

/-! ## The grammar -/

/-- A field behind its length in two bytes. -/
def lengthPrefixed (field : Bytes) : Bytes :=
  (field.length / 256).toUInt8 :: (field.length % 256).toUInt8 :: field

/-- A nonempty field without NUL that fits a buffer. -/
structure Fits (capacity : Nat) (field : Bytes) : Prop where
  nonempty : field ≠ []
  room : field.length < capacity
  noNul : 0 ∉ field

/-- A CONNECT packet of a machine. -/
structure ConnectPacket where
  keepAlive : UInt16
  clientId : Bytes
  username : Bytes
  password : Bytes
  clientId_fits : Fits mqttBrokerClientIdCap clientId
  username_fits : Fits mqttBrokerUsernameCap username
  password_fits : Fits mqttBrokerPasswordCap password

namespace ConnectPacket

/-- Protocol name, level, flags, keep-alive, and the three fields. -/
def bytes (c : ConnectPacket) : Bytes :=
  lengthPrefixed (txt "MQTT") ++
    ((4 : UInt8) :: 0xC2 :: (c.keepAlive >>> 8).toUInt8 :: c.keepAlive.toUInt8 ::
      (lengthPrefixed c.clientId ++ (lengthPrefixed c.username ++ lengthPrefixed c.password)))

/-- Its fields in the buffers, and nothing else. -/
def buffers (c : ConnectPacket) : ConnectBuffers where
  clientId := charArray _ c.clientId
  username := charArray _ c.username
  usernameLen := c.username.length
  password := charArray _ c.password
  passwordLen := c.password.length
  keepAliveS := c.keepAlive

end ConnectPacket

/-! ## Reads -/

theorem readByte_spec {packet : Bytes} {offset : Nat} (h : offset < packet.length) :
    ∃ b, readByte packet offset = some b ∧ packet.drop offset = b :: packet.drop (offset + 1) :=
  ⟨packet[offset], List.getElem?_eq_getElem h, List.drop_eq_getElem_cons h⟩

theorem readByte_of_drop {packet rest : Bytes} {offset : Nat} {b : UInt8}
    (h : packet.drop offset = b :: rest) :
    readByte packet offset = some b ∧ packet.drop (offset + 1) = rest := by
  have hget : packet[offset]? = (packet.drop offset)[0]? := by
    rw [List.getElem?_drop, Nat.add_zero]
  refine ⟨?_, ?_⟩
  · unfold readByte
    rw [hget, h]
    rfl
  · rw [← List.drop_drop, h]
    rfl

/-- Two bytes are a length below 65536. -/
theorem lengthBytes {high low : UInt8} :
    high.toNat <<< 8 ||| low.toNat = high.toNat * 256 + low.toNat := by
  have hlow := low.toNat_lt
  rw [Nat.shiftLeft_eq, Nat.mul_comm high.toNat, ← Nat.two_pow_add_eq_or_of_lt (by omega),
    Nat.mul_comm]

theorem lengthPrefixed_length {field : Bytes} (h : field.length < 65536) :
    (field.length / 256).toUInt8.toNat <<< 8 ||| (field.length % 256).toUInt8.toNat =
      field.length := by
  have hhigh : (field.length / 256).toUInt8.toNat = field.length / 256 % 2 ^ 8 :=
    UInt8.toNat_ofNat'
  have hlow : (field.length % 256).toUInt8.toNat = field.length % 256 % 2 ^ 8 :=
    UInt8.toNat_ofNat'
  rw [lengthBytes, hhigh, hlow]
  omega

section

variable {capacity : Nat} {packet field rest : Bytes} {offset : Nat}

/-- A field that is there is found. -/
theorem readBinary_of (hcapacity : capacity ≤ 65536) (hroom : field.length < capacity)
    (h : packet.drop offset = lengthPrefixed field ++ rest) (out : Vector UInt8 capacity)
    (outLength : Nat) :
    readBinary packet offset out outLength =
        some ⟨true, offset + 2 + field.length, putString out field, field.length⟩ ∧
      packet.drop (offset + 2 + field.length) = rest := by
  have hlength := congrArg List.length h
  rw [List.length_drop, List.length_append] at hlength
  have hprefixed : (lengthPrefixed field).length = field.length + 2 := rfl
  obtain ⟨hhigh, hnext⟩ := readByte_of_drop h
  obtain ⟨hlow, hfield⟩ := readByte_of_drop hnext
  have hfield : packet.drop (offset + 2) = field ++ rest := hfield
  have hbytes : readBytes packet (offset + 2) field.length = some field := by
    unfold readBytes
    rw [if_pos (by omega), hfield, List.take_left]
  refine ⟨?_, ?_⟩
  · unfold readBinary
    rw [if_neg (by omega), hhigh, hlow]
    dsimp only [Option.bind_some]
    rw [lengthPrefixed_length (by omega), if_neg (by omega), hbytes]
    rfl
  · rw [← List.drop_drop, hfield, List.drop_left]

/-- The reads of `argus_mqtt_read_binary` are inside the packet: a field is there, or none is
found and nothing is written. -/
theorem readBinary_cases (packet : Bytes) (offset : Nat) (out : Vector UInt8 capacity)
    (outLength : Nat) :
    (∃ field rest, field.length < capacity ∧ packet.drop offset = lengthPrefixed field ++ rest) ∨
      ∃ next, readBinary packet offset out outLength = some ⟨false, next, out, outLength⟩ := by
  by_cases hshort : offset + 2 > packet.length
  · refine .inr ⟨offset, ?_⟩
    unfold readBinary
    rw [if_pos hshort]
  · obtain ⟨high, hhigh, hfirst⟩ := readByte_spec (show offset < packet.length by omega)
    obtain ⟨low, hlow, hsecond⟩ := readByte_spec (show offset + 1 < packet.length by omega)
    by_cases hlong : high.toNat * 256 + low.toNat ≥ capacity ∨
        offset + 2 + (high.toNat * 256 + low.toNat) > packet.length
    · refine .inr ⟨offset + 2, ?_⟩
      unfold readBinary
      rw [if_neg hshort, hhigh, hlow]
      dsimp only [Option.bind_some]
      rw [lengthBytes, if_pos hlong]
    · have hhighLt := high.toNat_lt
      have hlowLt := low.toNat_lt
      have hlength : ((packet.drop (offset + 2)).take (high.toNat * 256 + low.toNat)).length =
          high.toNat * 256 + low.toNat := by
        rw [List.length_take, List.length_drop]
        omega
      refine .inl ⟨(packet.drop (offset + 2)).take (high.toNat * 256 + low.toNat),
        (packet.drop (offset + 2)).drop (high.toNat * 256 + low.toNat), by omega, ?_⟩
      unfold lengthPrefixed
      rw [hlength, hfirst, hsecond, List.cons_append, List.cons_append, List.take_append_drop]
      congr 2
      · refine UInt8.toNat_inj.mp ?_
        rw [Nat.toUInt8, UInt8.toNat_ofNat']
        omega
      · refine UInt8.toNat_inj.mp ?_
        rw [Nat.toUInt8, UInt8.toNat_ofNat']
        omega

theorem refused_missing (next outLength : Nat) (out : Vector UInt8 capacity) :
    BinaryField.refused ⟨false, next, out, outLength⟩ = true := rfl

theorem bytes_found (next : Nat) (out : Vector UInt8 capacity) (hroom : field.length < capacity) :
    BinaryField.bytes ⟨true, next, putString out field, field.length⟩ = field := by
  unfold BinaryField.bytes
  dsimp only
  rw [putString_toList out hroom, List.take_left]

/-- A field that is found is taken if it fits. -/
theorem refused_found (next : Nat) (out : Vector UInt8 capacity) (hroom : field.length < capacity) :
    BinaryField.refused ⟨true, next, putString out field, field.length⟩ = false ↔
      Fits capacity field := by
  unfold BinaryField.refused
  rw [bytes_found next out hroom]
  constructor
  · intro h
    simp at h
    exact ⟨h.1, hroom, h.2⟩
  · rintro ⟨hne, -, hnul⟩
    simp [hne, hnul]

end

/-- The flags with clean session, user name and password. -/
theorem connectFlags_iff (flags : UInt8) : connectFlags flags = true ↔ flags = 0xC2 := by
  have hall : ∀ n : Fin 256, connectFlags (UInt8.ofNat n) = true ↔ n = 0xC2 := by decide +kernel
  have hflags := hall ⟨flags.toNat, flags.toNat_lt⟩
  rw [UInt8.ofNat_toNat] at hflags
  rw [hflags, ← UInt8.toNat_inj, Fin.ext_iff]
  rfl

/-! ## The keep-alive -/

theorem keepAlive_toNat (high low : UInt8) :
    ((high.toUInt16 <<< 8) ||| low.toUInt16).toNat = high.toNat * 256 + low.toNat := by
  have hhigh := high.toNat_lt
  have hshift : (high.toUInt16 <<< 8).toNat = high.toNat <<< 8 := by
    rw [UInt16.toNat_shiftLeft, UInt8.toNat_toUInt16]
    show high.toNat <<< 8 % 2 ^ 16 = _
    rw [Nat.shiftLeft_eq]
    exact Nat.mod_eq_of_lt (by omega)
  rw [UInt16.toNat_or, hshift, UInt8.toNat_toUInt16, lengthBytes]

/-- The two bytes of a keep-alive. -/
theorem keepAlive_bytes (high low : UInt8) :
    (((high.toUInt16 <<< 8) ||| low.toUInt16) >>> 8).toUInt8 = high ∧
      ((high.toUInt16 <<< 8) ||| low.toUInt16).toUInt8 = low := by
  have hvalue := keepAlive_toNat high low
  have hhigh := high.toNat_lt
  have hlow := low.toNat_lt
  constructor
  · refine UInt8.toNat_inj.mp ?_
    rw [UInt16.toNat_toUInt8, UInt16.toNat_shiftRight, hvalue]
    show (high.toNat * 256 + low.toNat) >>> 8 % 2 ^ 8 = _
    rw [Nat.shiftRight_eq_div_pow]
    omega
  · refine UInt8.toNat_inj.mp ?_
    rw [UInt16.toNat_toUInt8, hvalue]
    omega

theorem keepAlive_joined (k : UInt16) :
    ((k >>> 8).toUInt8.toUInt16 <<< 8) ||| k.toUInt8.toUInt16 = k := by
  have hk := k.toNat_lt
  refine UInt16.toNat_inj.mp ?_
  rw [keepAlive_toNat, UInt16.toNat_toUInt8, UInt16.toNat_toUInt8, UInt16.toNat_shiftRight]
  show (k.toNat >>> 8) % 2 ^ 8 * 256 + k.toNat % 2 ^ 8 = _
  rw [Nat.shiftRight_eq_div_pow]
  omega

/-! ## The stages -/

/-- A failure: every read was inside the packet, and no credential is in the buffers. -/
def RefusedClean (r : Option (ConnectParseResult × ConnectBuffers)) : Prop :=
  ∃ result keepAlive, result ≠ .ok ∧
    r = some (result, { ConnectBuffers.zero with keepAliveS := keepAlive })

section

variable {packet : Bytes} {offset : Nat}

/-- A packet with its credentials in place is accepted. -/
theorem parseCredentials_of {clientId username password : Bytes} {keepAlive : UInt16}
    (husername : Fits mqttBrokerUsernameCap username)
    (hpassword : Fits mqttBrokerPasswordCap password)
    (h : packet.drop offset = lengthPrefixed username ++ lengthPrefixed password) :
    parseCredentials packet offset clientId { ConnectBuffers.zero with keepAliveS := keepAlive } =
      some (.ok, ⟨charArray _ clientId, charArray _ username, username.length,
        charArray _ password, password.length, keepAlive⟩) := by
  obtain ⟨hfirst, hrest⟩ := readBinary_of (by decide) husername.room h
    (.replicate mqttBrokerUsernameCap 0) 0
  have hlast : packet.drop (offset + 2 + username.length) = lengthPrefixed password ++ [] := by
    rw [hrest, List.append_nil]
  obtain ⟨hsecond, hend⟩ := readBinary_of (by decide) hpassword.room hlast
    (.replicate mqttBrokerPasswordCap 0) 0
  have hlength : offset + 2 + username.length + 2 + password.length = packet.length := by
    have hall := congrArg List.length h
    rw [List.length_drop, List.length_append] at hall
    have hu : (lengthPrefixed username).length = username.length + 2 := rfl
    have hp : (lengthPrefixed password).length = password.length + 2 := rfl
    omega
  unfold parseCredentials
  dsimp only [ConnectBuffers.zero]
  rw [hfirst, Option.bind_some, (refused_found _ _ husername.room).mpr husername,
    if_neg Bool.false_ne_true, hsecond, Option.bind_some,
    (refused_found _ _ hpassword.room).mpr hpassword, if_neg Bool.false_ne_true,
    if_neg (not_not.mpr hlength), putString_zero, putString_zero, putString_zero]

theorem parseCredentials_cases (packet : Bytes) (offset : Nat) (clientId : Bytes)
    (keepAlive : UInt16) :
    (∃ username password, Fits mqttBrokerUsernameCap username ∧
      Fits mqttBrokerPasswordCap password ∧
        packet.drop offset = lengthPrefixed username ++ lengthPrefixed password) ∨
    RefusedClean (parseCredentials packet offset clientId
      { ConnectBuffers.zero with keepAliveS := keepAlive }) := by
  have hrefused : ∀ {result : ConnectParseResult}, result ≠ .ok →
      RefusedClean (some (result, .zero)) := fun hresult => ⟨_, 0, hresult, rfl⟩
  unfold parseCredentials
  dsimp only [ConnectBuffers.zero]
  rcases readBinary_cases packet offset (.replicate mqttBrokerUsernameCap 0) 0 with
    ⟨username, rest, hroom, hdrop⟩ | ⟨next, hnone⟩
  · obtain ⟨hfirst, hrest⟩ := readBinary_of (by decide) hroom hdrop
      (.replicate mqttBrokerUsernameCap 0) 0
    rw [hfirst, Option.bind_some]
    split
    · exact .inr (hrefused (by decide))
    · next husername =>
      rcases readBinary_cases packet (offset + 2 + username.length)
          (.replicate mqttBrokerPasswordCap 0) 0 with
        ⟨password, last, hroom', hdrop'⟩ | ⟨next, hnone⟩
      · obtain ⟨hsecond, hend⟩ := readBinary_of (by decide) hroom' hdrop'
          (.replicate mqttBrokerPasswordCap 0) 0
        rw [hsecond, Option.bind_some]
        split
        · exact .inr (hrefused (by decide))
        · next hpassword =>
          split
          · exact .inr (hrefused (by decide))
          · next hlength =>
            -- nothing is left behind the password
            have hlast : last = [] := by
              rw [← hend, List.drop_eq_nil_iff]
              exact Nat.le_of_eq (not_not.mp hlength).symm
            refine .inl ⟨username, password,
              (refused_found _ _ hroom).mp (Bool.eq_false_iff.mpr husername),
              (refused_found _ _ hroom').mp (Bool.eq_false_iff.mpr hpassword), ?_⟩
            rw [hdrop, ← hrest, hdrop', hlast, List.append_nil]
      · rw [hnone, Option.bind_some, refused_missing, if_pos rfl]
        exact .inr (hrefused (by decide))
  · rw [hnone, Option.bind_some, refused_missing, if_pos rfl]
    exact .inr (hrefused (by decide))

/-- The three fields behind the fixed part. -/
def ConnectPacket.fields (c : ConnectPacket) : Bytes :=
  lengthPrefixed c.clientId ++ (lengthPrefixed c.username ++ lengthPrefixed c.password)

theorem parseClientId_of {c : ConnectPacket} (h : packet.drop offset = c.fields) :
    parseClientId packet offset { ConnectBuffers.zero with keepAliveS := c.keepAlive } =
      some (.ok, c.buffers) := by
  obtain ⟨hfirst, hrest⟩ := readBinary_of (by decide) c.clientId_fits.room h
    (.replicate mqttBrokerClientIdCap 0) 0
  unfold parseClientId
  rw [hfirst, Option.bind_some, (refused_found _ _ c.clientId_fits.room).mpr c.clientId_fits,
    if_neg Bool.false_ne_true, bytes_found _ _ c.clientId_fits.room]
  exact parseCredentials_of c.username_fits c.password_fits hrest

theorem parseClientId_cases (packet : Bytes) (offset : Nat) (keepAlive : UInt16) :
    (∃ c : ConnectPacket, c.keepAlive = keepAlive ∧ packet.drop offset = c.fields) ∨
    RefusedClean (parseClientId packet offset
      { ConnectBuffers.zero with keepAliveS := keepAlive }) := by
  unfold parseClientId
  rcases readBinary_cases packet offset (.replicate mqttBrokerClientIdCap 0) 0 with
    ⟨clientId, rest, hroom, hdrop⟩ | ⟨next, hnone⟩
  · obtain ⟨hfirst, hrest⟩ := readBinary_of (by decide) hroom hdrop
      (.replicate mqttBrokerClientIdCap 0) 0
    rw [hfirst, Option.bind_some]
    split
    · exact .inr ⟨_, keepAlive, by decide, rfl⟩
    · next hclient =>
      have hclient := (refused_found _ _ hroom).mp (Bool.eq_false_iff.mpr hclient)
      rw [bytes_found _ _ hroom]
      dsimp only
      refine (parseCredentials_cases packet (offset + 2 + clientId.length) clientId
        keepAlive).imp_left ?_
      rintro ⟨username, password, husername, hpassword, hlast⟩
      refine ⟨⟨keepAlive, clientId, username, password, hclient, husername, hpassword⟩, rfl, ?_⟩
      rw [hdrop, ← hrest, hlast]
      rfl
  · rw [hnone, Option.bind_some, refused_missing, if_pos rfl]
    exact .inr ⟨_, keepAlive, by decide, rfl⟩

/-- Everything behind the protocol level. -/
def ConnectPacket.afterLevel (c : ConnectPacket) : Bytes :=
  0xC2 :: (c.keepAlive >>> 8).toUInt8 :: c.keepAlive.toUInt8 :: c.fields

theorem parseFlags_of {c : ConnectPacket} (h : packet.drop offset = c.afterLevel) :
    parseFlags packet offset = some (.ok, c.buffers) := by
  obtain ⟨hflags, hfirst⟩ := readByte_of_drop h
  obtain ⟨hhigh, hsecond⟩ := readByte_of_drop hfirst
  obtain ⟨hlow, hfields⟩ := readByte_of_drop hsecond
  have hlow : readByte packet (offset + 2) = some c.keepAlive.toUInt8 := hlow
  unfold parseFlags
  rw [hflags, hhigh, hlow]
  dsimp only [Option.bind_some]
  rw [if_neg (not_not.mpr ((connectFlags_iff _).mpr rfl)), keepAlive_joined]
  exact parseClientId_of hfields

theorem parseFlags_cases {packet : Bytes} {offset : Nat} (hroom : offset + 3 ≤ packet.length) :
    (∃ c : ConnectPacket, packet.drop offset = c.afterLevel) ∨
      RefusedClean (parseFlags packet offset) := by
  obtain ⟨flags, hflags, hfirst⟩ := readByte_spec (show offset < packet.length by omega)
  obtain ⟨high, hhigh, hsecond⟩ := readByte_spec (show offset + 1 < packet.length by omega)
  obtain ⟨low, hlow, hthird⟩ := readByte_spec (show offset + 2 < packet.length by omega)
  unfold parseFlags
  rw [hflags, hhigh, hlow]
  dsimp only [Option.bind_some]
  split
  · exact .inr ⟨_, _, by decide, rfl⟩
  · next hvalid =>
    refine (parseClientId_cases packet (offset + 3) _).imp_left ?_
    rintro ⟨c, hkeepAlive, hfields⟩
    refine ⟨c, ?_⟩
    obtain ⟨hkhigh, hklow⟩ := keepAlive_bytes high low
    unfold ConnectPacket.afterLevel
    rw [hkeepAlive, hkhigh, hklow, ← hfields, ← (connectFlags_iff flags).mp (not_not.mp hvalid),
      hfirst, hsecond, hthird]

theorem connectBytes_eq (c : ConnectPacket) :
    c.bytes = lengthPrefixed (txt "MQTT") ++ 4 :: c.afterLevel := rfl

/-- The first four bytes of the protocol buffer. -/
theorem take_protocol {field : Bytes} (hroom : field.length < 8) (h : field.length = 4) :
    (putString (.replicate 8 0) field).toList.take 4 = field := by
  rw [putString_toList _ hroom, ← h, List.take_left]

theorem parseConnect_of (c : ConnectPacket) (out : ConnectBuffers) :
    parseConnect c.bytes out = some (.ok, c.buffers) := by
  have hlength : c.bytes.length = 16 + c.clientId.length + c.username.length +
      c.password.length := by
    unfold ConnectPacket.bytes lengthPrefixed
    simp only [List.length_append, List.length_cons]
    rw [show (txt "MQTT").length = 4 from rfl]
    omega
  have hclient : c.clientId.length < 33 := c.clientId_fits.room
  have husername : c.username.length < 37 := c.username_fits.room
  have hpassword : c.password.length < 129 := c.password_fits.room
  have hstart : c.bytes.drop 0 = lengthPrefixed (txt "MQTT") ++ _ := connectBytes_eq c
  obtain ⟨hprotocol, hrest⟩ := readBinary_of (show 8 ≤ 65536 by decide)
    (show (txt "MQTT").length < 8 by decide) hstart (.replicate 8 0) 0
  obtain ⟨hlevel, hafter⟩ := readByte_of_drop hrest
  unfold parseConnect
  rw [if_neg (by unfold mqttMaxPacketLen; omega), hprotocol, Option.bind_some]
  dsimp only
  rw [take_protocol (by decide) rfl, if_neg (by
    rw [show (txt "MQTT").length = 4 from rfl]
    simp
    omega), hlevel, Option.bind_some, if_neg (not_not.mpr rfl)]
  exact parseFlags_of hafter

theorem parseConnect_cases {packet : Bytes} (hpos : 0 < packet.length)
    (hmax : packet.length ≤ mqttMaxPacketLen) (out : ConnectBuffers) :
    (∃ c : ConnectPacket, packet = c.bytes) ∨ RefusedClean (parseConnect packet out) := by
  have hrefused : RefusedClean (some (.protocol, .zero)) := ⟨_, 0, by decide, rfl⟩
  unfold parseConnect
  rw [if_neg (by omega)]
  rcases readBinary_cases packet 0 (.replicate 8 0) 0 with ⟨field, rest, hroom, hdrop⟩ | ⟨next, hnone⟩
  · obtain ⟨hprotocol, hrest⟩ := readBinary_of (by decide) hroom hdrop (.replicate 8 0) 0
    rw [hprotocol, Option.bind_some]
    split
    · exact .inr hrefused
    · next hgood =>
      simp only [not_or, not_not] at hgood
      obtain ⟨-, hfour, hname, hfixed⟩ := hgood
      rw [take_protocol hroom hfour] at hname
      have hfixed : 6 + 4 ≤ packet.length := by omega
      subst hname
      obtain ⟨level, hlevel, hfirst⟩ := readByte_spec (show 6 < packet.length by omega)
      dsimp only
      rw [show 0 + 2 + (txt "MQTT").length = 6 from rfl, hlevel, Option.bind_some]
      split
      · exact .inr hrefused
      · next hfourth =>
        refine (@parseFlags_cases packet (6 + 1) (by omega)).imp_left ?_
        rintro ⟨c, hafter⟩
        refine ⟨c, ?_⟩
        have hwhole : packet = lengthPrefixed (txt "MQTT") ++ rest := hdrop
        have hrest : packet.drop 6 = rest := hrest
        rw [connectBytes_eq, hwhole, ← hrest, hfirst, hafter, not_not.mp hfourth]
  · rw [hnone, Option.bind_some, if_pos (.inl (by simp))]
    exact .inr hrefused

end

/-- **The CONNECT parser.** -/
theorem parse_connect {packet : Bytes} (hpos : 0 < packet.length)
    (hmax : packet.length ≤ mqttMaxPacketLen) (out : ConnectBuffers) :
    ∃ result written, parseConnect packet out = some (result, written) ∧
      (result = .ok ↔ ∃ c : ConnectPacket, packet = c.bytes) ∧
      (∀ c : ConnectPacket, packet = c.bytes → written = c.buffers) ∧
      (result ≠ .ok → written = { ConnectBuffers.zero with keepAliveS := written.keepAliveS }) := by
  rcases parseConnect_cases hpos hmax out with ⟨c, rfl⟩ | ⟨result, keepAlive, hresult, hrun⟩
  · have hrun := parseConnect_of c out
    refine ⟨_, _, hrun, iff_of_true rfl ⟨c, rfl⟩, fun d hd => ?_, fun h => absurd rfl h⟩
    have hrun' := parseConnect_of d out
    rw [← hd, hrun] at hrun'
    exact (Prod.mk.inj (Option.some.inj hrun')).2
  · have hno : ∀ c : ConnectPacket, packet ≠ c.bytes := by
      rintro c rfl
      rw [parseConnect_of] at hrun
      exact hresult (Prod.mk.inj (Option.some.inj hrun)).1.symm
    exact ⟨_, _, hrun, iff_of_false hresult fun ⟨c, hc⟩ => hno c hc, fun c hc => absurd hc (hno c),
      fun _ => rfl⟩

/-- The CONNECT of a panel. -/
def panelConnectPacket : ConnectPacket where
  keepAlive := 60
  clientId := txt "panel-01"
  username := txt "panel-01"
  password := txt "correct horse"
  clientId_fits := ⟨by decide, by decide, by decide⟩
  username_fits := ⟨by decide, by decide, by decide⟩
  password_fits := ⟨by decide, by decide, by decide⟩

theorem parse_connect_panel :
    parseConnect panelConnectPacket.bytes .zero = some (.ok, panelConnectPacket.buffers) := by
  obtain ⟨result, written, hrun, hok, hfields, -⟩ :=
    @parse_connect panelConnectPacket.bytes (by decide) (by decide) .zero
  rw [hrun, hok.mpr ⟨panelConnectPacket, rfl⟩, hfields panelConnectPacket rfl]

end Argus
