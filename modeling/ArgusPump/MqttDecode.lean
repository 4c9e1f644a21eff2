import Mathlib.Tactic.Common
import Mathlib.Algebra.Group.Nat.Defs

/-!
# Decoding the MQTT payloads

The strict JSON decoders of `main/argus_mqtt_contract.c` on payload bytes.  A
cursor is the rest of the payload; the three decoders share `decodeFields`, the
loop over `"key":value` pairs, and differ in their table of fields.

    more fuel than bytes changes nothing                              (decoders_fuel)
    the first heartbeat of a valid session decodes to it              (decodeHeartbeat_first)

Left out: the NULL arguments and `action`/`max_rpm_milli` out of their range.
-/

namespace Argus

/-- The bytes of a C string, without its NUL. -/
abbrev Bytes := List UInt8

def txt (s : String) : Bytes := s.toList.map fun c => c.toNat.toUInt8

def mqttSessionHexLen : Nat := 16
def mqttCommandIdMax : Nat := 36
def mqttAuthorityRequestIdMax : Nat := 36
def mqttAuthorityIntentMax : Nat := 24
def mqttAuthorityPayloadMax : Nat := 384
def mqttBrokerPayloadCap : Nat := 385

/-- `argus_mqtt_decode_result_t` less `OK`. -/
inductive DecodeError
  | invalidArgument | malformed | unknownField | duplicateField | missingField | invalidValue
  | tooLarge | schemaUnsupported | invalidRequestId
deriving DecidableEq, Repr

/-! ## The cursor -/

def isWs (c : UInt8) : Bool := c = 0x20 || c = 0x09 || c = 0x0D || c = 0x0A

def isDigit (c : UInt8) : Bool := 0x30 ≤ c && c ≤ 0x39

def skipWs (s : Bytes) : Bytes := s.dropWhile isWs

def consume (expected : UInt8) (s : Bytes) : Option Bytes :=
  match skipWs s with
  | [] => none
  | c :: r => if c = expected then some r else none

/-- The characters up to the closing quote; `room` bytes of the buffer are left. -/
def scanString : Nat → Bytes → Option (Bytes × Bytes)
  | _, [] => none
  | room, c :: s =>
    if c = 0x22 then some ([], s)
    else if c < 0x20 ∨ c = 0x5C ∨ room ≤ 1 then none
    else (scanString (room - 1) s).map fun p => (c :: p.1, p.2)

def parseString (outSize : Nat) (s : Bytes) : Option (Bytes × Bytes) :=
  match skipWs s with
  | [] => none
  | c :: r => if c ≠ 0x22 ∨ outSize = 0 then none else scanString outSize r

/-- The number of a run of digits. -/
def digitsValue (ds : Bytes) : Nat := ds.foldl (fun v d => v * 10 + (d.toNat - 0x30)) 0

/-- The C loop gives up as soon as the value passes `UINT32_MAX`; it only grows. -/
def parseU32 (s : Bytes) : Option (UInt32 × Bytes) :=
  let s := skipWs s
  let ds := s.takeWhile isDigit
  let rest := s.dropWhile isDigit
  if ds = [] ∨ digitsValue ds > 0xFFFFFFFF then none
  else if ds.length > 1 ∧ ds.head? = some 0x30 then none
  else if rest.head? = some 0x2E ∨ rest.head? = some 0x65 ∨ rest.head? = some 0x45 then none
  else some ((digitsValue ds).toUInt32, rest)

def parseTrue (s : Bytes) : Option Bytes :=
  if (skipWs s).take 4 = txt "true" then some ((skipWs s).drop 4) else none

def validSession (session : Bytes) : Bool :=
  session.length = mqttSessionHexLen && session.all fun c => isDigit c || (0x61 ≤ c && c ≤ 0x66)

def hexDigit (n : Nat) : UInt8 := if n < 10 then 0x30 + n.toUInt8 else 0x57 + n.toUInt8

/-- `%08lx`. -/
def hex32 (v : UInt32) : Bytes :=
  (List.range 8).map fun i => hexDigit (v.toNat / 16 ^ (7 - i) % 16)

/-- `argus_mqtt_session_format`, less the check that not both words are 0. -/
def sessionFormat (high low : UInt32) : Bytes := hex32 high ++ hex32 low

/-- The length and character check of the two client-chosen ids. -/
def validId (max : Nat) (punctuation : Bytes) (id : Bytes) : Bool :=
  !(id.length = 0 || id.length > max) && id.all fun c =>
    isDigit c || (0x41 ≤ c && c ≤ 0x5A) || (0x61 ≤ c && c ≤ 0x7A) || punctuation.contains c

def validCommandId (id : Bytes) : Bool := validId mqttCommandIdMax (txt "-_.:") id
def validRequestId (id : Bytes) : Bool := validId mqttAuthorityRequestIdMax (txt "._-") id

def validIntent (intent : Bytes) : Bool :=
  intent = txt "OPERATOR_INTENT" || intent = txt "SUPERVISORY_START" || intent = txt "SERVICE" ||
    intent = txt "FALLBACK"

/-! ## The loop over fields -/

/-- One `if` branch of a decoder: its bit of the mask, how it reads its value into the
result, and the error of a bad value. -/
structure Field (α : Type) where
  bit : UInt8
  parse : α → Bytes → Option (α × Bytes)
  onInvalid : DecodeError := .invalidValue

def decodeFields {α : Type} (field : Bytes → Option (Field α)) :
    Nat → Bool → UInt8 → α → Bytes → Except DecodeError (UInt8 × α × Bytes)
  | 0, _, _, _, _ => .error .malformed
  | fuel + 1, afterComma, fields, decoded, s =>
    if (skipWs s).head? = some 0x7D then
      if afterComma then .error .malformed else .ok (fields, decoded, (skipWs s).tail)
    else
      match parseString 24 (skipWs s) with
      | none => .error .malformed
      | some (key, s) =>
        match consume 0x3A s with
        | none => .error .malformed
        | some s =>
          match field key with
          | none => .error .unknownField
          | some f =>
            if fields &&& f.bit ≠ 0 then .error .duplicateField
            else
              match f.parse decoded s with
              | none => .error f.onInvalid
              | some (decoded, s) =>
                if (skipWs s).head? = some 0x2C then
                  decodeFields field fuel true (fields ||| f.bit) decoded (skipWs s).tail
                else if (skipWs s).head? = some 0x7D then
                  .ok (fields ||| f.bit, decoded, (skipWs s).tail)
                else .error .malformed

/-- `validate_payload`, the opening brace, the loop and the end of the payload. -/
def decodeObject {α : Type} (field : Bytes → Option (Field α)) (decoded : α) (payload : Bytes) :
    Except DecodeError (UInt8 × α) :=
  if payload.length = 0 then .error .malformed
  else if payload.length ≥ mqttBrokerPayloadCap then .error .tooLarge
  else if payload.contains 0 then .error .malformed
  else
    match consume 0x7B payload with
    | none => .error .malformed
    | some s =>
      match decodeFields field (s.length + 1) false 0 decoded s with
      | .error e => .error e
      | .ok (fields, decoded, s) => if skipWs s ≠ [] then .error .malformed else .ok (fields, decoded)

/-- A string field checked by `valid`. -/
def stringField {α : Type} (bit : UInt8) (outSize : Nat) (valid : Bytes → Bool)
    (set : α → Bytes → α) (onInvalid : DecodeError) : Field α where
  bit := bit
  parse d s :=
    match parseString outSize s with
    | some (v, r) => if valid v then some (set d v, r) else none
    | none => none
  onInvalid := onInvalid

/-- A number field checked by `valid`. -/
def u32Field {α : Type} (bit : UInt8) (valid : UInt32 → Bool) (set : α → UInt32 → α)
    (onInvalid : DecodeError) : Field α where
  bit := bit
  parse d s :=
    match parseU32 s with
    | some (v, r) => if valid v then some (set d v, r) else none
    | none => none
  onInvalid := onInvalid

/-! ## The decoders -/

/-- `argus_mqtt_heartbeat_t`. -/
structure Heartbeat where
  session : Bytes
  counter : UInt32
deriving DecidableEq, Repr

def heartbeatField (key : Bytes) : Option (Field Heartbeat) :=
  if key = txt "session" then
    some (stringField 1 (mqttSessionHexLen + 1) validSession
      (fun d v => { d with session := v }) .invalidValue)
  else if key = txt "counter" then
    some (u32Field 2 (· ≠ 0) (fun d v => { d with counter := v }) .invalidValue)
  else none

def decodeHeartbeat (payload : Bytes) : Except DecodeError Heartbeat :=
  match decodeObject heartbeatField ⟨[], 0⟩ payload with
  | .error e => .error e
  | .ok (fields, decoded) => if fields ≠ 3 then .error .missingField else .ok decoded

/-- The operational part of `argus_mqtt_action_t`. -/
inductive MqttAction
  | setTarget | start | stop | unlock | eStop | resetEStop | recover
deriving DecidableEq, Repr

/-- `argus_mqtt_command_t`; `forward` is always true. -/
structure MqttCommand where
  session : Bytes
  sequence : UInt32
  commandId : Bytes
  authorityEpoch : UInt32
  action : MqttAction
  targetRpmMilli : UInt32
  forward : Bool
deriving DecidableEq, Repr

def commandField (action : MqttAction) (maxRpmMilli : Nat) (key : Bytes) :
    Option (Field MqttCommand) :=
  if key = txt "session" then
    some (stringField 1 (mqttSessionHexLen + 1) validSession
      (fun d v => { d with session := v }) .invalidValue)
  else if key = txt "sequence" then
    some (u32Field 2 (· ≠ 0) (fun d v => { d with sequence := v }) .invalidValue)
  else if key = txt "command_id" then
    some (stringField 4 (mqttCommandIdMax + 1) validCommandId
      (fun d v => { d with commandId := v }) .invalidValue)
  else if key = txt "value" then
    if action = .setTarget then
      some (u32Field 8 (·.toNat ≤ maxRpmMilli) (fun d v => { d with targetRpmMilli := v })
        .invalidValue)
    else some { bit := 8, parse := fun d s => (parseTrue s).map fun r => (d, r) }
  else if key = txt "authority_epoch" then
    -- 0 decodes, but no live epoch is 0
    some (u32Field 16 (fun _ => true) (fun d v => { d with authorityEpoch := v }) .invalidValue)
  else none

def decodeCommand (payload : Bytes) (action : MqttAction) (maxRpmMilli : Nat) :
    Except DecodeError MqttCommand :=
  match decodeObject (commandField action maxRpmMilli) ⟨[], 0, [], 0, action, 0, true⟩ payload with
  | .error e => .error e
  | .ok (fields, decoded) => if fields ≠ 31 then .error .missingField else .ok decoded

/-- `argus_mqtt_authority_request_t`. -/
structure AuthorityRequest where
  schema : UInt32
  requestId : Bytes
  session : Bytes
  authorityEpoch : UInt32
  intent : Bytes
  hasIntent : Bool
deriving DecidableEq, Repr

def authorityField (key : Bytes) : Option (Field AuthorityRequest) :=
  if key = txt "schema" then
    some (u32Field 1 (· = 1) (fun d v => { d with schema := v }) .schemaUnsupported)
  else if key = txt "request_id" then
    some (stringField 2 (mqttAuthorityRequestIdMax + 1) validRequestId
      (fun d v => { d with requestId := v }) .invalidRequestId)
  else if key = txt "session" then
    some (stringField 4 (mqttSessionHexLen + 1) validSession
      (fun d v => { d with session := v }) .invalidValue)
  else if key = txt "authority_epoch" then
    some (u32Field 8 (fun _ => true) (fun d v => { d with authorityEpoch := v }) .invalidValue)
  else if key = txt "intent" then
    some (stringField 16 (mqttAuthorityIntentMax + 1) validIntent
      (fun d v => { d with intent := v, hasIntent := true }) .invalidValue)
  else none

def decodeAuthorityRequest (payload : Bytes) (isRelease : Bool) :
    Except DecodeError AuthorityRequest :=
  if payload.length > mqttAuthorityPayloadMax then .error .tooLarge
  else
    match decodeObject authorityField ⟨0, [], [], 0, [], false⟩ payload with
    | .error e => .error e
    | .ok (fields, decoded) =>
      if fields &&& 15 ≠ 15 then .error .missingField
      else if isRelease ∧ decoded.authorityEpoch = 0 then .error .invalidValue
      else .ok decoded

/-! ## The loop ends -/

theorem skipWs_length_le (s : Bytes) : (skipWs s).length ≤ s.length :=
  (List.dropWhile_suffix _).length_le

theorem consume_length_lt {c : UInt8} {s r : Bytes} (h : consume c s = some r) :
    r.length < s.length := by
  have hle := skipWs_length_le s
  unfold consume at h
  split at h
  · cases h
  · next d t ht =>
    rw [ht, List.length_cons] at hle
    split at h
    · cases h
      omega
    · cases h

theorem scanString_length_lt {room : Nat} {s v r : Bytes} (h : scanString room s = some (v, r)) :
    r.length < s.length := by
  induction s generalizing room v r with
  | nil => cases h
  | cons c s ih =>
    unfold scanString at h
    split at h
    · cases h
      simp
    · split at h
      · cases h
      · obtain ⟨⟨v', r'⟩, hs, hp⟩ := Option.map_eq_some_iff.mp h
        cases hp
        have := ih hs
        simp only [List.length_cons]
        omega

theorem parseString_length_lt {n : Nat} {s v r : Bytes} (h : parseString n s = some (v, r)) :
    r.length < s.length := by
  have hle := skipWs_length_le s
  unfold parseString at h
  split at h
  · cases h
  · next c t ht =>
    rw [ht, List.length_cons] at hle
    split at h
    · cases h
    · have := scanString_length_lt h
      omega

theorem parseU32_length_le {s r : Bytes} {v : UInt32} (h : parseU32 s = some (v, r)) :
    r.length ≤ s.length := by
  simp only [parseU32] at h
  split at h
  · cases h
  · split at h
    · cases h
    · split at h
      · cases h
      · cases h
        exact Nat.le_trans (List.dropWhile_suffix _).length_le (skipWs_length_le s)

/-- Reading a value never gives bytes back. -/
def Field.Shrinks {α : Type} (f : Field α) : Prop :=
  ∀ d s d' r, f.parse d s = some (d', r) → r.length ≤ s.length

theorem stringField_shrinks {α : Type} (bit : UInt8) (n : Nat) (valid : Bytes → Bool)
    (set : α → Bytes → α) (e : DecodeError) : (stringField bit n valid set e).Shrinks := by
  intro d s d' r h
  simp only [stringField] at h
  split at h
  · next v t hv =>
    split at h
    · cases h
      exact Nat.le_of_lt (parseString_length_lt hv)
    · cases h
  · cases h

theorem u32Field_shrinks {α : Type} (bit : UInt8) (valid : UInt32 → Bool)
    (set : α → UInt32 → α) (e : DecodeError) : (u32Field bit valid set e).Shrinks := by
  intro d s d' r h
  simp only [u32Field] at h
  split at h
  · next v t hv =>
    split at h
    · cases h
      exact parseU32_length_le hv
    · cases h
  · cases h

/-- **The fuel of the loop never runs out**: any two amounts above the number of bytes
left give the same result. -/
theorem decodeFields_fuel {α : Type} {field : Bytes → Option (Field α)}
    (hf : ∀ key f, field key = some f → f.Shrinks) {n m : Nat} {s : Bytes} (hn : s.length < n)
    (hm : s.length < m) (afterComma : Bool) (fields : UInt8) (decoded : α) :
    decodeFields field n afterComma fields decoded s =
      decodeFields field m afterComma fields decoded s := by
  induction n generalizing m s afterComma fields decoded with
  | zero => omega
  | succ n ih =>
    cases m with
    | zero => omega
    | succ m =>
      unfold decodeFields
      split
      · rfl
      · split
        · rfl
        · next key s₁ hk =>
          split
          · rfl
          · next s₂ hc =>
            split
            · rfl
            · next f hfield =>
              split
              · rfl
              · split
                · rfl
                · next d' s₃ hp =>
                  -- every field read leaves fewer bytes than the loop started with
                  have h₁ := parseString_length_lt hk
                  have h₂ := consume_length_lt hc
                  have h₃ := hf key f hfield _ _ _ _ hp
                  have h₀ := skipWs_length_le s
                  have h₄ : (skipWs s₃).tail.length ≤ s₃.length := by
                    rw [List.length_tail]
                    exact Nat.le_trans (Nat.sub_le _ _) (skipWs_length_le s₃)
                  split
                  · exact ih (by omega) (by omega) _ _ _
                  · rfl

theorem heartbeatField_shrinks {key : Bytes} {f : Field Heartbeat}
    (h : heartbeatField key = some f) : f.Shrinks := by
  unfold heartbeatField at h
  split_ifs at h <;> cases h
  · exact stringField_shrinks _ _ _ _ _
  · exact u32Field_shrinks _ _ _ _

theorem authorityField_shrinks {key : Bytes} {f : Field AuthorityRequest}
    (h : authorityField key = some f) : f.Shrinks := by
  unfold authorityField at h
  split_ifs at h <;> cases h
  · exact u32Field_shrinks _ _ _ _
  · exact stringField_shrinks _ _ _ _ _
  · exact stringField_shrinks _ _ _ _ _
  · exact u32Field_shrinks _ _ _ _
  · exact stringField_shrinks _ _ _ _ _

theorem commandField_shrinks {action : MqttAction} {maxRpmMilli : Nat} {key : Bytes}
    {f : Field MqttCommand} (h : commandField action maxRpmMilli key = some f) : f.Shrinks := by
  unfold commandField at h
  split_ifs at h <;> cases h
  · exact stringField_shrinks _ _ _ _ _
  · exact u32Field_shrinks _ _ _ _
  · exact stringField_shrinks _ _ _ _ _
  · exact u32Field_shrinks _ _ _ _
  · intro d s d' r hp
    obtain ⟨t, ht, he⟩ := Option.map_eq_some_iff.mp hp
    cases he
    unfold parseTrue at ht
    split_ifs at ht
    cases ht
    rw [List.length_drop]
    exact Nat.le_trans (Nat.sub_le _ _) (skipWs_length_le s)
  · exact u32Field_shrinks _ _ _ _

/-- Nor does that of any of the decoders. -/
theorem decoders_fuel {action : MqttAction} {maxRpmMilli n m : Nat} {s : Bytes} (hn : s.length < n)
    (hm : s.length < m) (afterComma : Bool) (fields : UInt8) :
    (∀ d, decodeFields heartbeatField n afterComma fields d s =
      decodeFields heartbeatField m afterComma fields d s) ∧
    (∀ d, decodeFields authorityField n afterComma fields d s =
      decodeFields authorityField m afterComma fields d s) ∧
    ∀ d, decodeFields (commandField action maxRpmMilli) n afterComma fields d s =
      decodeFields (commandField action maxRpmMilli) m afterComma fields d s :=
  ⟨decodeFields_fuel (fun _ _ => heartbeatField_shrinks) hn hm afterComma fields,
    decodeFields_fuel (fun _ _ => authorityField_shrinks) hn hm afterComma fields,
    decodeFields_fuel (fun _ _ => commandField_shrinks) hn hm afterComma fields⟩

/-! ## What the loop keeps -/

/-- What reading any field keeps holds of the result. -/
theorem decodeFields_inv {α : Type} {field : Bytes → Option (Field α)} {I : UInt8 → α → Prop}
    (hread : ∀ key f fields d s d' r, field key = some f → I fields d →
      f.parse d s = some (d', r) → I (fields ||| f.bit) d') {n : Nat} {afterComma : Bool}
    {fields fields' : UInt8} {d d' : α} {s r : Bytes} (h0 : I fields d)
    (h : decodeFields field n afterComma fields d s = .ok (fields', d', r)) : I fields' d' := by
  induction n generalizing afterComma fields d s with
  | zero => cases h
  | succ n ih =>
    unfold decodeFields at h
    split at h
    · split at h
      · cases h
      · cases h
        exact h0
    · split at h
      · cases h
      · split at h
        · cases h
        · split at h
          · cases h
          · next f hfield =>
            split at h
            · cases h
            · split at h
              · cases h
              · next hp =>
                have hI := hread _ f fields d _ _ _ hfield h0 hp
                split at h
                · exact ih hI h
                · split at h
                  · cases h
                    exact hI
                  · cases h

theorem decodeObject_inv {α : Type} {field : Bytes → Option (Field α)} {I : UInt8 → α → Prop}
    (hread : ∀ key f fields d s d' r, field key = some f → I fields d →
      f.parse d s = some (d', r) → I (fields ||| f.bit) d') {fields : UInt8} {d d' : α}
    {payload : Bytes} (h0 : I 0 d) (h : decodeObject field d payload = .ok (fields, d')) :
    I fields d' := by
  unfold decodeObject at h
  split at h
  · cases h
  · split at h
    · cases h
    · split at h
      · cases h
      · split at h
        · cases h
        · split at h
          · cases h
          · next hloop =>
            split at h
            · cases h
            · cases h
              exact decodeFields_inv hread h0 hloop

theorem stringField_parse {α : Type} {bit : UInt8} {n : Nat} {valid : Bytes → Bool}
    {set : α → Bytes → α} {e : DecodeError} {d d' : α} {s r : Bytes}
    (h : (stringField bit n valid set e).parse d s = some (d', r)) :
    ∃ v, valid v = true ∧ d' = set d v := by
  simp only [stringField] at h
  split at h
  · split at h
    · next hvalid =>
      cases h
      exact ⟨_, hvalid, rfl⟩
    · cases h
  · cases h

theorem u32Field_parse {α : Type} {bit : UInt8} {valid : UInt32 → Bool} {set : α → UInt32 → α}
    {e : DecodeError} {d d' : α} {s r : Bytes}
    (h : (u32Field bit valid set e).parse d s = some (d', r)) :
    ∃ v, valid v = true ∧ d' = set d v := by
  simp only [u32Field] at h
  split at h
  · split at h
    · next hvalid =>
      cases h
      exact ⟨_, hvalid, rfl⟩
    · cases h
  · cases h

theorem u32Field_agree {α : Type} {bit : UInt8} {valid valid' : UInt32 → Bool}
    {set : α → UInt32 → α} {e : DecodeError} {d : α} {s : Bytes} {a b : α × Bytes}
    (ha : (u32Field bit valid set e).parse d s = some a)
    (hb : (u32Field bit valid' set e).parse d s = some b) : a = b := by
  simp only [u32Field] at ha hb
  split at ha
  · next hv =>
    simp only [hv] at hb
    split_ifs at ha hb
    exact Option.some.inj (ha.symm.trans hb)
  · cases ha

/-- A heartbeat that decodes has a counter. -/
theorem decodeHeartbeat_counter {payload : Bytes} {heartbeat : Heartbeat}
    (h : decodeHeartbeat payload = .ok heartbeat) : heartbeat.counter ≠ 0 := by
  unfold decodeHeartbeat at h
  split at h
  · cases h
  · next fields decoded hobject =>
    split at h
    · cases h
    · next hfields =>
      cases h
      have hI : fields &&& 2 ≠ 0 → heartbeat.counter ≠ 0 := by
        refine decodeObject_inv (I := fun fields d => fields &&& 2 ≠ 0 → d.counter ≠ 0) ?_ ?_
          hobject
        · intro key f fields d s d' r hf h0 hp
          unfold heartbeatField at hf
          split_ifs at hf <;> cases hf
          · -- the session: its bit is not the counter's
            have hbit : (fields ||| 1) &&& 2 = fields &&& 2 := by
              apply UInt8.toBitVec_inj.mp
              exact BitVec.and_or_distrib_right.trans BitVec.or_zero
            obtain ⟨v, -, rfl⟩ := stringField_parse hp
            intro hset
            refine h0 ?_
            rw [← hbit]
            exact hset
          · obtain ⟨v, hvalid, rfl⟩ := u32Field_parse hp
            exact fun _ => of_decide_eq_true hvalid
        · intro hset
          exact absurd rfl hset
      refine hI ?_
      rw [not_not.mp hfields]
      decide

/-- Two decoders that only differ in what they refuse. -/
def FieldsAgree {α : Type} (field₁ field₂ : Bytes → Option (Field α)) : Prop :=
  ∀ key f g, field₁ key = some f → field₂ key = some g → f.bit = g.bit ∧
    ∀ d s a b, f.parse d s = some a → g.parse d s = some b → a = b

theorem decodeFields_agree {α : Type} {field₁ field₂ : Bytes → Option (Field α)}
    (hagree : FieldsAgree field₁ field₂) {n : Nat} {afterComma : Bool} {fields : UInt8} {d : α}
    {s : Bytes} {x y : UInt8 × α × Bytes} (hx : decodeFields field₁ n afterComma fields d s = .ok x)
    (hy : decodeFields field₂ n afterComma fields d s = .ok y) : x = y := by
  induction n generalizing afterComma fields d s with
  | zero => cases hx
  | succ n ih =>
    unfold decodeFields at hx hy
    split at hx
    · next hend =>
      rw [if_pos hend] at hy
      exact Except.ok.inj (hx.symm.trans hy)
    · next hend =>
      rw [if_neg hend] at hy
      split at hx
      · cases hx
      · next hkey =>
        simp only [hkey] at hy
        split at hx
        · cases hx
        · next hcolon =>
          simp only [hcolon] at hy
          split at hx
          · cases hx
          · next f hf =>
            split at hy
            · cases hy
            · next g hg =>
              obtain ⟨hbit, hparse⟩ := hagree _ f g hf hg
              rw [hbit] at hx
              split at hx
              · cases hx
              · next hfree =>
                rw [if_neg hfree] at hy
                split at hx
                · cases hx
                · next hpx =>
                  split at hy
                  · cases hy
                  · next hpy =>
                    obtain ⟨rfl, rfl⟩ := Prod.mk.inj (hparse _ _ _ _ hpx hpy)
                    split at hx
                    · next hcomma =>
                      rw [if_pos hcomma] at hy
                      exact ih hx hy
                    · next hcomma =>
                      rw [if_neg hcomma] at hy
                      exact Except.ok.inj (hx.symm.trans hy)

theorem decodeObject_agree {α : Type} {field₁ field₂ : Bytes → Option (Field α)}
    (hagree : FieldsAgree field₁ field₂) {d : α} {payload : Bytes} {x y : UInt8 × α}
    (hx : decodeObject field₁ d payload = .ok x) (hy : decodeObject field₂ d payload = .ok y) :
    x = y := by
  unfold decodeObject at hx hy
  split_ifs at hx hy
  split at hx
  · cases hx
  · next hopen =>
    simp only [hopen] at hy
    split at hx
    · cases hx
    · next hloop₁ =>
      split at hy
      · cases hy
      · next hloop₂ =>
        cases decodeFields_agree hagree hloop₁ hloop₂
        split at hx
        · cases hx
        · next hend =>
          rw [if_neg hend] at hy
          exact Except.ok.inj (hx.symm.trans hy)

/-- A payload that decodes fits the buffers it is copied to. -/
theorem decodeObject_length {α : Type} {field : Bytes → Option (Field α)} {fields : UInt8}
    {d d' : α} {payload : Bytes} (h : decodeObject field d payload = .ok (fields, d')) :
    payload.length < mqttBrokerPayloadCap := by
  unfold decodeObject at h
  split at h
  · cases h
  · split at h
    · cases h
    · next hlen => exact Nat.lt_of_not_le hlen

/-- What a command that decodes has: its action, and an id and a payload that fit. -/
theorem decodeCommand_spec {payload : Bytes} {action : MqttAction} {maxRpmMilli : Nat}
    {command : MqttCommand} (h : decodeCommand payload action maxRpmMilli = .ok command) :
    command.action = action ∧ command.commandId.length ≤ mqttCommandIdMax ∧
      payload.length < mqttBrokerPayloadCap := by
  unfold decodeCommand at h
  split at h
  · cases h
  · next fields decoded hobject =>
    split at h
    · cases h
    · cases h
      have hI : command.action = action ∧ command.commandId.length ≤ mqttCommandIdMax := by
        refine decodeObject_inv (I := fun _ (d : MqttCommand) =>
          d.action = action ∧ d.commandId.length ≤ mqttCommandIdMax) ?_ ⟨rfl, Nat.zero_le _⟩ hobject
        intro key f fields d s d' r hf h0 hp
        unfold commandField at hf
        split_ifs at hf <;> cases hf
        · obtain ⟨v, -, rfl⟩ := stringField_parse hp
          exact h0
        · obtain ⟨v, -, rfl⟩ := u32Field_parse hp
          exact h0
        · -- the id: its check bounds the length
          obtain ⟨v, hvalid, rfl⟩ := stringField_parse hp
          unfold validCommandId validId at hvalid
          rw [Bool.and_eq_true, Bool.not_eq_true', Bool.or_eq_false_iff] at hvalid
          exact ⟨h0.1, Nat.le_of_not_lt (of_decide_eq_false hvalid.1.2)⟩
        · obtain ⟨v, -, rfl⟩ := u32Field_parse hp
          exact h0
        · obtain ⟨t, -, heq⟩ := Option.map_eq_some_iff.mp hp
          cases heq
          exact h0
        · obtain ⟨v, -, rfl⟩ := u32Field_parse hp
          exact h0
      exact ⟨hI.1, hI.2, decodeObject_length hobject⟩

/-- The configured maximum decides whether a command decodes, not what it decodes to. -/
theorem decodeCommand_agree {payload : Bytes} {action : MqttAction} {m n : Nat}
    {command command' : MqttCommand} (h : decodeCommand payload action m = .ok command)
    (h' : decodeCommand payload action n = .ok command') : command = command' := by
  have hagree : FieldsAgree (commandField action m) (commandField action n) := by
    intro key f g hf hg
    unfold commandField at hf hg
    split_ifs at hf hg <;> cases hf <;> cases hg <;> refine ⟨rfl, fun d s a b ha hb => ?_⟩
    · exact Option.some.inj (ha.symm.trans hb)
    · exact Option.some.inj (ha.symm.trans hb)
    · exact Option.some.inj (ha.symm.trans hb)
    · exact u32Field_agree ha hb
    · exact Option.some.inj (ha.symm.trans hb)
    · exact Option.some.inj (ha.symm.trans hb)
  unfold decodeCommand at h h'
  split at h
  · cases h
  · next hobject =>
    split at h'
    · cases h'
    · next hobject' =>
      cases decodeObject_agree hagree hobject hobject'
      split_ifs at h h'
      exact Except.ok.inj (h.symm.trans h')

/-! ## A heartbeat that decodes -/

/-- One turn of the loop that reads a field and goes on. -/
theorem decodeFields_comma {α : Type} {field : Bytes → Option (Field α)} {f : Field α} {n : Nat}
    {afterComma : Bool} {fields : UInt8} {d d' : α} {s s₁ s₂ s₃ key : Bytes}
    (h₀ : (skipWs s).head? ≠ some 0x7D) (hk : parseString 24 (skipWs s) = some (key, s₁))
    (hc : consume 0x3A s₁ = some s₂) (hf : field key = some f) (hb : fields &&& f.bit = 0)
    (hp : f.parse d s₂ = some (d', s₃)) (hcomma : (skipWs s₃).head? = some 0x2C) :
    decodeFields field (n + 1) afterComma fields d s =
      decodeFields field n true (fields ||| f.bit) d' (skipWs s₃).tail := by
  simp [decodeFields, h₀, hk, hc, hf, hb, hp, hcomma]

/-- One turn of the loop that reads the last field. -/
theorem decodeFields_close {α : Type} {field : Bytes → Option (Field α)} {f : Field α} {n : Nat}
    {afterComma : Bool} {fields : UInt8} {d d' : α} {s s₁ s₂ s₃ key : Bytes}
    (h₀ : (skipWs s).head? ≠ some 0x7D) (hk : parseString 24 (skipWs s) = some (key, s₁))
    (hc : consume 0x3A s₁ = some s₂) (hf : field key = some f) (hb : fields &&& f.bit = 0)
    (hp : f.parse d s₂ = some (d', s₃)) (hclose : (skipWs s₃).head? = some 0x7D) :
    decodeFields field (n + 1) afterComma fields d s =
      .ok (fields ||| f.bit, d', (skipWs s₃).tail) := by
  simp [decodeFields, h₀, hk, hc, hf, hb, hp, hclose]

/-- Plain characters are read up to the quote. -/
theorem scanString_append {room : Nat} {v r : Bytes} (hv : ∀ c ∈ v, 0x20 < c ∧ c ≠ 0x22 ∧ c ≠ 0x5C)
    (hlen : v.length < room) : scanString room (v ++ 0x22 :: r) = some (v, r) := by
  induction v generalizing room with
  | nil => simp [scanString]
  | cons c v ih =>
    obtain ⟨h20, h22, h5c⟩ := hv c List.mem_cons_self
    rw [List.length_cons] at hlen
    have hlt : ¬ c < 0x20 := fun h => absurd (UInt8.lt_trans h h20) (UInt8.lt_irrefl _)
    rw [List.cons_append, scanString, if_neg h22, if_neg, ih (fun d hd => hv d
      (List.mem_cons_of_mem _ hd)) (by omega)]
    · rfl
    · rintro (h | h | h)
      · exact hlt h
      · exact h5c h
      · omega

theorem validSession_plain {session : Bytes} (h : validSession session = true) :
    session.length = 16 ∧ ∀ c ∈ session, 0x20 < c ∧ c ≠ 0x22 ∧ c ≠ 0x5C := by
  unfold validSession at h
  rw [Bool.and_eq_true, List.all_eq_true] at h
  refine ⟨of_decide_eq_true h.1, fun c hc => ?_⟩
  have hhex := h.2 c hc
  simp only [isDigit, Bool.or_eq_true, Bool.and_eq_true, decide_eq_true_eq,
    UInt8.le_iff_toNat_le] at hhex
  refine ⟨?_, ?_, ?_⟩
  · rw [UInt8.lt_iff_toNat_lt]
    simp at hhex ⊢
    omega
  · rintro rfl
    simp at hhex
  · rintro rfl
    simp at hhex

theorem hexDigit_valid (n : Nat) :
    (isDigit (hexDigit (n % 16)) || (0x61 ≤ hexDigit (n % 16) && hexDigit (n % 16) ≤ 0x66)) = true := by
  have hall : ∀ d : Fin 16, (isDigit (hexDigit d) ||
      (0x61 ≤ hexDigit d && hexDigit d ≤ 0x66)) = true := by decide
  exact hall ⟨n % 16, Nat.mod_lt _ (by decide)⟩

/-- A session the controller names itself passes its own check. -/
theorem validSession_format (high low : UInt32) : validSession (sessionFormat high low) = true := by
  unfold validSession
  rw [Bool.and_eq_true]
  constructor
  · simp [sessionFormat, hex32, mqttSessionHexLen]
  · rw [List.all_eq_true]
    intro c hc
    unfold sessionFormat hex32 at hc
    rw [List.mem_append, List.mem_map, List.mem_map] at hc
    rcases hc with ⟨i, -, rfl⟩ | ⟨i, -, rfl⟩
    · exact hexDigit_valid _
    · exact hexDigit_valid _

/-- The first heartbeat of a session. -/
def firstHeartbeat (session : Bytes) : Bytes :=
  txt "\x7b\"session\":\"" ++ (session ++ txt "\",\"counter\":1\x7d")

theorem decodeFields_firstHeartbeat {session : Bytes} (h : validSession session = true) (n : Nat) :
    decodeFields heartbeatField (n + 2) false 0 ⟨[], 0⟩
      (txt "\"session\":\"" ++ (session ++ txt "\",\"counter\":1\x7d")) =
      .ok (3, ⟨session, 1⟩, []) := by
  obtain ⟨hlen, hplain⟩ := validSession_plain h
  have hscan : scanString 17 (session ++ txt "\",\"counter\":1\x7d") =
      some (session, txt ",\"counter\":1\x7d") := scanString_append hplain (by omega)
  have hsession : ∀ d : Heartbeat, (stringField 1 17 validSession
      (fun d v => { d with session := v }) .invalidValue : Field Heartbeat).parse d
        (txt "\"" ++ (session ++ txt "\",\"counter\":1\x7d")) =
      some ({ d with session := session }, txt ",\"counter\":1\x7d") := by
    intro d
    show (match scanString 17 (session ++ txt "\",\"counter\":1\x7d") with
      | some (v, r) => if validSession v then some ({ d with session := v }, r) else none
      | none => none) = _
    rw [hscan]
    exact if_pos h
  have hquote : (skipWs (txt "\"session\":\"" ++
      (session ++ txt "\",\"counter\":1\x7d"))).head? = some 0x22 := rfl
  rw [decodeFields_comma (by rw [hquote]; decide) rfl rfl rfl rfl (hsession _) (by decide),
    decodeFields_close (by decide) rfl rfl rfl rfl rfl (by decide)]
  rfl

theorem decodeHeartbeat_first {session : Bytes} (h : validSession session = true) :
    decodeHeartbeat (firstHeartbeat session) = .ok ⟨session, 1⟩ := by
  obtain ⟨hlen, hplain⟩ := validSession_plain h
  have hl : (firstHeartbeat session).length = 42 := by
    show (txt _ ++ (session ++ txt _)).length = 42
    rw [List.length_append, List.length_append, hlen]
    rfl
  have h0 : (firstHeartbeat session).contains 0 = false := by
    have hs : session.contains 0 = false := by
      rw [List.contains_eq_mem, decide_eq_false_iff_not]
      intro hm
      exact absurd (hplain 0 hm).1 (by decide)
    show (txt _ ++ (session ++ txt _)).contains 0 = false
    rw [List.contains_append, List.contains_append, hs]
    rfl
  have hobj : decodeObject heartbeatField ⟨[], 0⟩ (firstHeartbeat session) =
      .ok (3, ⟨session, 1⟩) := by
    unfold decodeObject
    rw [if_neg (by omega), if_neg (by rw [hl]; decide), if_neg (by rw [h0]; decide)]
    have hc : consume 0x7B (firstHeartbeat session) =
      some (txt "\"session\":\"" ++ (session ++ txt "\",\"counter\":1\x7d")) := rfl
    simp only [hc]
    have hbody : (txt "\"session\":\"" ++
        (session ++ txt "\",\"counter\":1\x7d")).length = 41 := by
      rw [List.length_append, List.length_append, hlen]
      rfl
    rw [hbody, decodeFields_firstHeartbeat h 40]
    rfl
  unfold decodeHeartbeat
  rw [hobj]
  rfl

end Argus
