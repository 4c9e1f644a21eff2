import ArgusPump.CmdRouter
import ArgusPump.MqttDecode

/-!
# Browser commands

The decoder of `main/argus_browser_command.c`, a recursive descent over the body's bytes: a
position is the rest of the body.  The loops over a string and over the members have one turn
of fuel more than bytes are left; `BrowserGrammar` shows that they end within it.

Left out: the NULL arguments.
-/

namespace Argus

namespace Browser

def maxBodyLen : Nat := 192
def maxTargetRpmMilli : Nat := 200000

/-- `argus_browser_command_decode_result_t`, less the NULL arguments. -/
inductive DecodeResult
  | ok | emptyBody | bodyTooLarge | topLevelNotObject | malformedJson | duplicateField
  | unknownField | missingField | invalidType | unsupportedCommand | valueOutOfRange
  | unexpectedField
deriving DecidableEq, Repr

/-- `argus_browser_command_request_t`; the command type -1 is `none`. -/
structure Request where
  isValid : Bool
  commandType : Option CmdType
  targetRpmMilli : Int32
  forward : Bool
deriving DecidableEq

def invalidateRequest : Request := ⟨false, none, 0, false⟩

/-! ## The lexical helpers -/

def isJsonWhitespace (ch : UInt8) : Bool := ch = 0x20 || ch = 0x09 || ch = 0x0D || ch = 0x0A

def skipWhitespace (s : Bytes) : Bytes := s.dropWhile isJsonWhitespace

def isValueDelimiter : Bytes → Bool
  | [] => true
  | ch :: _ => isJsonWhitespace ch || ch = 0x2C || ch = 0x7D

def hexValue (ch : UInt8) : Option Nat :=
  if 0x30 ≤ ch ∧ ch ≤ 0x39 then some (ch.toNat - 0x30)
  else if 0x61 ≤ ch ∧ ch ≤ 0x66 then some (ch.toNat - 0x61 + 10)
  else if 0x41 ≤ ch ∧ ch ≤ 0x46 then some (ch.toNat - 0x41 + 10)
  else none

/-- `count` more digits of a number. -/
def hexDigits : Nat → Nat → Bytes → Option (Nat × Bytes)
  | 0, value, s => some (value, s)
  | _ + 1, _, [] => none
  | count + 1, value, ch :: s =>
    match hexValue ch with
    | none => none
    | some digit => hexDigits count (value * 16 + digit) s

def parseHexQuad (s : Bytes) : Option (Nat × Bytes) := if s.length < 4 then none else hexDigits 4 0 s

/-- The bytes that `append_codepoint` appends. -/
def codepointBytes (codepoint : Nat) : Option Bytes :=
  if codepoint = 0 ∨ codepoint > 0x10FFFF ∨ (0xD800 ≤ codepoint ∧ codepoint ≤ 0xDFFF) then none
  else if codepoint ≤ 0x7F then some [codepoint.toUInt8]
  else if codepoint ≤ 0x7FF then
    some [(0xC0 ||| codepoint >>> 6).toUInt8, (0x80 ||| codepoint &&& 0x3F).toUInt8]
  else if codepoint ≤ 0xFFFF then
    some [(0xE0 ||| codepoint >>> 12).toUInt8, (0x80 ||| codepoint >>> 6 &&& 0x3F).toUInt8,
      (0x80 ||| codepoint &&& 0x3F).toUInt8]
  else
    some [(0xF0 ||| codepoint >>> 18).toUInt8, (0x80 ||| codepoint >>> 12 &&& 0x3F).toUInt8,
      (0x80 ||| codepoint >>> 6 &&& 0x3F).toUInt8, (0x80 ||| codepoint &&& 0x3F).toUInt8]

/-- Behind `\u`: the code point and the rest. -/
def parseUnicode (s : Bytes) : Option (Nat × Bytes) :=
  match parseHexQuad s with
  | none => none
  | some (codepoint, s) =>
    if 0xD800 ≤ codepoint ∧ codepoint ≤ 0xDBFF then
      if s.length < 6 ∨ s.head? ≠ some 0x5C ∨ s.tail.head? ≠ some 0x75 then none
      else
        match parseHexQuad (s.drop 2) with
        | none => none
        | some (low, s) =>
          if low < 0xDC00 ∨ low > 0xDFFF then none
          else some (0x10000 + (codepoint - 0xD800) <<< 10 + (low - 0xDC00), s)
    else if 0xDC00 ≤ codepoint ∧ codepoint ≤ 0xDFFF then none
    else some (codepoint, s)

/-- One character of a string: the bytes it appends, and the rest. -/
def parseChar (ch : UInt8) (s : Bytes) : Option (Bytes × Bytes) :=
  if ch < 0x20 then none
  else if ch ≠ 0x5C then some ([ch], s)
  else
    match s with
    | [] => none
    | escape :: s =>
      if escape = 0x22 ∨ escape = 0x5C ∨ escape = 0x2F then some ([escape], s)
      else if escape = 0x62 then some ([0x08], s)
      else if escape = 0x66 then some ([0x0C], s)
      else if escape = 0x6E then some ([0x0A], s)
      else if escape = 0x72 then some ([0x0D], s)
      else if escape = 0x74 then some ([0x09], s)
      else if escape = 0x75 then
        match parseUnicode s with
        | none => none
        | some (codepoint, s) => (codepointBytes codepoint).map fun bytes => (bytes, s)
      else none

/-- The characters up to the closing quote; `room` bytes of the buffer are left.  A byte that
is 0 or takes the last place is not appended. -/
def parseChars : Nat → Nat → Bytes → Option (Bytes × Bytes)
  | 0, _, _ => none
  | _ + 1, _, [] => none
  | fuel + 1, room, ch :: s =>
    if ch = 0x22 then some ([], s)
    else
      match parseChar ch s with
      | none => none
      | some (bytes, s) =>
        if bytes.contains 0 ∨ room ≤ bytes.length then none
        else (parseChars fuel (room - bytes.length) s).map fun p => (bytes ++ p.1, p.2)

def parseJsonString (outSize : Nat) : Bytes → Option (Bytes × Bytes)
  | [] => none
  | ch :: s => if ch ≠ 0x22 ∨ outSize = 0 then none else parseChars (s.length + 1) outSize s

/-! ## The fields -/

/-- `argus_browser_field_t`, less the unknown field. -/
inductive BrowserField
  | command | targetRpmMilli | forward
deriving DecidableEq, Repr

def identifyField (key : Bytes) : Option BrowserField :=
  if key = txt "command" then some .command
  else if key = txt "target_rpm_milli" then some .targetRpmMilli
  else if key = txt "forward" then some .forward
  else none

def seenCommand : UInt8 := 1
def seenTarget : UInt8 := 2
def seenForward : UInt8 := 4

def fieldBit : BrowserField → UInt8
  | .command => seenCommand
  | .targetRpmMilli => seenTarget
  | .forward => seenForward

def mappings : List (Bytes × CmdType) :=
  [(txt "set_target", .setTarget), (txt "start", .start), (txt "stop", .stopNormal),
    (txt "unlock", .unlock), (txt "estop", .estop), (txt "reset_estop", .resetEstop),
    (txt "recover", .recover)]

def mapCommand (command : Bytes) : Option CmdType :=
  (mappings.find? fun m => m.1 = command).map Prod.snd

def parseCommandValue (s : Bytes) : Except DecodeResult (CmdType × Bytes) :=
  match s with
  | [] => .error .malformedJson
  | ch :: _ =>
    if ch ≠ 0x22 then .error .invalidType
    else
      match parseJsonString 20 s with
      | none => .error .malformedJson
      | some (command, s) =>
        match mapCommand command with
        | none => .error .unsupportedCommand
        | some type => .ok (type, s)

/-- The digits of a target; `none` when 64 bits do not hold the value. -/
def targetDigits : Nat → Bytes → Option (Nat × Bytes)
  | value, [] => some (value, [])
  | value, ch :: s =>
    if isDigit ch then
      if value > (2 ^ 64 - 1 - (ch.toNat - 0x30)) / 10 then none
      else targetDigits (value * 10 + (ch.toNat - 0x30)) s
    else some (value, ch :: s)

/-- Behind the digits: no fraction, no exponent, a delimiter, and a value in range. -/
def finishTarget (negative : Bool) (value : Nat) (s : Bytes) : Except DecodeResult (Int32 × Bytes) :=
  if s.head? = some 0x2E ∨ s.head? = some 0x65 ∨ s.head? = some 0x45 then .error .invalidType
  else if isValueDelimiter s = false then .error .malformedJson
  else if negative = true ∨ value > maxTargetRpmMilli then .error .valueOutOfRange
  else .ok (Int32.ofNat value, s)

def parseTargetValue (s : Bytes) : Except DecodeResult (Int32 × Bytes) :=
  if s = [] then .error .malformedJson
  else
    let negative : Bool := s.head? = some 0x2D
    let s := if negative then s.tail else s
    match s with
    | [] => .error .malformedJson
    | ch :: rest =>
      if isDigit ch = false then .error .invalidType
      else if ch = 0x30 then
        if rest.head?.any isDigit then .error .malformedJson else finishTarget negative 0 rest
      else
        match targetDigits 0 s with
        | none => .error .valueOutOfRange
        | some (value, s) => finishTarget negative value s

def parseForwardValue (s : Bytes) : Except DecodeResult (Bool × Bytes) :=
  if s = [] then .error .malformedJson
  else if s.take 4 = txt "true" then
    if isValueDelimiter (s.drop 4) then .ok (true, s.drop 4) else .error .malformedJson
  else if s.take 5 = txt "false" then
    if isValueDelimiter (s.drop 5) then .ok (false, s.drop 5) else .error .malformedJson
  else .error .invalidType

def parseValue (field : BrowserField) (candidate : Request) (s : Bytes) :
    Except DecodeResult (Request × Bytes) :=
  match field with
  | .command => (parseCommandValue s).map fun p => ({ candidate with commandType := some p.1 }, p.2)
  | .targetRpmMilli => (parseTargetValue s).map fun p => ({ candidate with targetRpmMilli := p.1 }, p.2)
  | .forward => (parseForwardValue s).map fun p => ({ candidate with forward := p.1 }, p.2)

/-! ## The decoder -/

/-- The loop over the members, up to the closing brace. -/
def decodeMembers : Nat → UInt8 → Request → Bytes → Except DecodeResult (UInt8 × Request × Bytes)
  | 0, _, _, _ => .error .malformedJson
  | fuel + 1, seenFields, candidate, s =>
    match parseJsonString 24 s with
    | none => .error .malformedJson
    | some (key, s) =>
      if (skipWhitespace s).head? ≠ some 0x3A then .error .malformedJson
      else
        match identifyField key with
        | none => .error .unknownField
        | some field =>
          if seenFields &&& fieldBit field ≠ 0 then .error .duplicateField
          else
            match parseValue field candidate (skipWhitespace (skipWhitespace s).tail) with
            | .error e => .error e
            | .ok (candidate, s) =>
              if (skipWhitespace s).head? = some 0x7D then
                .ok (seenFields ||| fieldBit field, candidate, (skipWhitespace s).tail)
              else if (skipWhitespace s).head? ≠ some 0x2C then .error .malformedJson
              else
                decodeMembers fuel (seenFields ||| fieldBit field) candidate
                  (skipWhitespace (skipWhitespace s).tail)

/-- The object behind its opening brace. -/
def decodeBody (s : Bytes) : Except DecodeResult (UInt8 × Request × Bytes) :=
  if (skipWhitespace s).head? = some 0x7D then .ok (0, invalidateRequest, (skipWhitespace s).tail)
  else decodeMembers (s.length + 1) 0 invalidateRequest (skipWhitespace s)

/-- The checks behind the object. -/
def checkCandidate (seenFields : UInt8) (candidate : Request) : DecodeResult :=
  if seenFields &&& seenCommand = 0 then .missingField
  else if candidate.commandType = some .setTarget then
    if seenFields &&& (seenTarget ||| seenForward) ≠ seenTarget ||| seenForward then .missingField
    else .ok
  else if seenFields &&& (seenTarget ||| seenForward) ≠ 0 then .unexpectedField
  else .ok

/-- `argus_browser_command_decode`. -/
def commandDecode (body : Bytes) : DecodeResult × Request :=
  if body.length > maxBodyLen then (.bodyTooLarge, invalidateRequest)
  else if skipWhitespace body = [] then (.emptyBody, invalidateRequest)
  else if (skipWhitespace body).head? ≠ some 0x7B then (.topLevelNotObject, invalidateRequest)
  else
    match decodeBody (skipWhitespace body).tail with
    | .error e => (e, invalidateRequest)
    | .ok (seenFields, candidate, s) =>
      if skipWhitespace s ≠ [] then (.malformedJson, invalidateRequest)
      else if checkCandidate seenFields candidate ≠ .ok then
        (checkCandidate seenFields candidate, invalidateRequest)
      else (.ok, { candidate with isValid := true })

end Browser

end Argus
