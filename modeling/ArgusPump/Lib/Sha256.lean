import Mathlib.Tactic.Common
import Mathlib.Logic.Function.Iterate

/-!
# SHA-256

The one-shot digest of a byte string, as FIPS 180-4 defines it.
-/

namespace Sha256

def rotr (x n : UInt32) : UInt32 := (x >>> n) ||| (x <<< (32 - n))

def roundConstants : List UInt32 := [
  0x428a2f98, 0x71374491, 0xb5c0fbcf, 0xe9b5dba5, 0x3956c25b, 0x59f111f1, 0x923f82a4, 0xab1c5ed5,
  0xd807aa98, 0x12835b01, 0x243185be, 0x550c7dc3, 0x72be5d74, 0x80deb1fe, 0x9bdc06a7, 0xc19bf174,
  0xe49b69c1, 0xefbe4786, 0x0fc19dc6, 0x240ca1cc, 0x2de92c6f, 0x4a7484aa, 0x5cb0a9dc, 0x76f988da,
  0x983e5152, 0xa831c66d, 0xb00327c8, 0xbf597fc7, 0xc6e00bf3, 0xd5a79147, 0x06ca6351, 0x14292967,
  0x27b70a85, 0x2e1b2138, 0x4d2c6dfc, 0x53380d13, 0x650a7354, 0x766a0abb, 0x81c2c92e, 0x92722c85,
  0xa2bfe8a1, 0xa81a664b, 0xc24b8b70, 0xc76c51a3, 0xd192e819, 0xd6990624, 0xf40e3585, 0x106aa070,
  0x19a4c116, 0x1e376c08, 0x2748774c, 0x34b0bcb5, 0x391c0cb3, 0x4ed8aa4a, 0x5b9cca4f, 0x682e6ff3,
  0x748f82ee, 0x78a5636f, 0x84c87814, 0x8cc70208, 0x90befffa, 0xa4506ceb, 0xbef9a3f7, 0xc67178f2]

def bigEndian (bytes : List UInt8) : UInt32 :=
  bytes.foldl (fun w b => (w <<< 8) ||| b.toUInt32) 0

/-- A one bit, zeros, and the length in bits on eight bytes. -/
def pad (message : List UInt8) : List UInt8 :=
  let zeros : List UInt8 := List.replicate ((119 - message.length % 64) % 64) 0
  let length : List UInt8 := (List.range 8).map fun i =>
    ((message.length * 8) >>> (56 - 8 * i)).toUInt8
  message ++ [0x80] ++ zeros ++ length

/-- The words of the message schedule, the latest first. -/
def schedule (words : List UInt32) : List UInt32 :=
  (fun w : List UInt32 =>
    let s₀ := rotr (w.getD 14 0) 7 ^^^ rotr (w.getD 14 0) 18 ^^^ (w.getD 14 0 >>> 3)
    let s₁ := rotr (w.getD 1 0) 17 ^^^ rotr (w.getD 1 0) 19 ^^^ (w.getD 1 0 >>> 10)
    (w.getD 15 0 + s₀ + w.getD 6 0 + s₁) :: w)^[48] words.reverse

structure Hash where
  (a b c d e f g h : UInt32)

def Hash.initial : Hash :=
  ⟨0x6a09e667, 0xbb67ae85, 0x3c6ef372, 0xa54ff53a, 0x510e527f, 0x9b05688c, 0x1f83d9ab, 0x5be0cd19⟩

def Hash.round (s : Hash) (k w : UInt32) : Hash :=
  let ch := (s.e &&& s.f) ^^^ (~~~s.e &&& s.g)
  let maj := (s.a &&& s.b) ^^^ (s.a &&& s.c) ^^^ (s.b &&& s.c)
  let t₁ := s.h + (rotr s.e 6 ^^^ rotr s.e 11 ^^^ rotr s.e 25) + ch + k + w
  let t₂ := (rotr s.a 2 ^^^ rotr s.a 13 ^^^ rotr s.a 22) + maj
  ⟨t₁ + t₂, s.a, s.b, s.c, s.d + t₁, s.e, s.f, s.g⟩

def Hash.block (s : Hash) (bytes : List UInt8) : Hash :=
  let words := (List.range 16).map fun i => bigEndian ((bytes.drop (4 * i)).take 4)
  let t := (roundConstants.zip (schedule words).reverse).foldl (fun s p => s.round p.1 p.2) s
  ⟨s.a + t.a, s.b + t.b, s.c + t.c, s.d + t.d, s.e + t.e, s.f + t.f, s.g + t.g, s.h + t.h⟩

def Hash.bytes (s : Hash) : Vector UInt8 32 :=
  let words : Vector UInt32 8 := #v[s.a, s.b, s.c, s.d, s.e, s.f, s.g, s.h]
  .ofFn fun i => (words.get ⟨i.val / 4, by omega⟩ >>> (24 - 8 * (i.val % 4)).toUInt32).toUInt8

def digest (message : List UInt8) : Vector UInt8 32 :=
  let padded := pad message
  ((List.range (padded.length / 64)).foldl
    (fun s i => s.block ((padded.drop (64 * i)).take 64)) Hash.initial).bytes

example : (digest [0x61, 0x62, 0x63]).toList.take 4 = [0xba, 0x78, 0x16, 0xbf] := by
  decide +kernel

end Sha256
