import ArgusPump.BrowserCommand
import ArgusPump.Lib.FieldTable
import ArgusPump.Lib.FlatJson

/-!
# The bodies that are browser commands

The decoder of `BrowserCommand` against the grammar of flat objects, keys and command by what
they stand for: the characters of a string first, then the values, the loop over the members,
and the checks behind it.

    what a string parses to                                              (parseJsonString_eq_some)
    the objects the decoder reads                                        (decodeBody_eq_ok)
    the bodies that are a request                                        (commandDecode_strict)
-/

namespace Argus

namespace Browser

open Interact
open Interact.FlatJson (Quad Item Str Blank Number Scalar Data Member Object utf8 membersText)

theorem skipWhitespace_eq (s : Bytes) : skipWhitespace s = FlatJson.skip s := by
  have hspace : isJsonWhitespace = FlatJson.isSpace := by
    funext ch
    unfold isJsonWhitespace FlatJson.isSpace
    rw [Bool.or_assoc (decide (ch = 0x20) || decide (ch = 0x09)), Bool.or_comm (decide (ch = 0x0D)),
      ← Bool.or_assoc]
  unfold skipWhitespace FlatJson.skip
  rw [hspace]

/-! ## The characters of a string -/

theorem hexValue_eq (ch : UInt8) :
    hexValue ch = if FlatJson.isHex ch then some (FlatJson.hexValue ch) else none := by
  have hall : ∀ c : Fin 256, hexValue (UInt8.ofNat c) =
      if FlatJson.isHex (UInt8.ofNat c) then some (FlatJson.hexValue (UInt8.ofNat c)) else none := by
    decide +kernel
  have hch := hall ⟨ch.toNat, ch.toNat_lt⟩
  rwa [UInt8.ofNat_toNat] at hch

theorem hexDigits_eq_some {count value w : Nat} {s r : Bytes} :
    hexDigits count value s = some (w, r) ↔
      ∃ ds, s = ds ++ r ∧ ds.length = count ∧ (∀ c ∈ ds, FlatJson.isHex c = true) ∧
        ds.foldl (fun v c => v * 16 + FlatJson.hexValue c) value = w := by
  induction count generalizing value s with
  | zero =>
    unfold hexDigits
    constructor
    · intro h
      cases h
      exact ⟨[], rfl, rfl, by simp, rfl⟩
    · rintro ⟨ds, rfl, hlen, -, rfl⟩
      rw [List.length_eq_zero_iff.mp hlen]
      rfl
  | succ count ih =>
    cases s with
    | nil =>
      unfold hexDigits
      refine ⟨by simp, ?_⟩
      rintro ⟨ds, heq, hlen, -⟩
      rw [(List.append_eq_nil_iff.mp heq.symm).1] at hlen
      cases hlen
    | cons ch s =>
      rw [hexDigits, hexValue_eq]
      constructor
      · intro h
        by_cases hhex : FlatJson.isHex ch = true
        · rw [if_pos hhex] at h
          obtain ⟨ds, rfl, hlen, hds, hvalue⟩ := ih.mp h
          refine ⟨ch :: ds, rfl, by rw [List.length_cons, hlen], ?_, hvalue⟩
          rintro c (_ | ⟨_, hc⟩)
          · exact hhex
          · exact hds c hc
        · rw [if_neg hhex] at h
          cases h
      · rintro ⟨ds, heq, hlen, hds, hvalue⟩
        cases ds with
        | nil => cases hlen
        | cons c ds =>
          obtain ⟨rfl, rfl⟩ := List.cons.inj heq
          rw [if_pos (hds ch List.mem_cons_self)]
          exact ih.mpr ⟨ds, rfl, Nat.succ.inj hlen, fun c hc => hds c (List.mem_cons_of_mem _ hc), hvalue⟩

theorem parseHexQuad_eq_some {v : Nat} {s r : Bytes} :
    parseHexQuad s = some (v, r) ↔ ∃ q : Quad, s = q.digits ++ r ∧ q.value = v := by
  unfold parseHexQuad
  constructor
  · intro h
    split at h
    · cases h
    · obtain ⟨ds, rfl, hlen, hds, rfl⟩ := hexDigits_eq_some.mp h
      exact ⟨⟨ds, hlen, hds⟩, rfl, rfl⟩
  · rintro ⟨q, rfl, rfl⟩
    rw [if_neg (by rw [List.length_append, q.length_eq]; omega)]
    exact hexDigits_eq_some.mpr ⟨q.digits, rfl, q.length_eq, q.hex, rfl⟩

theorem quad_value_le (q : Quad) : q.value ≤ 0xFFFF := by
  have hdigit {c : UInt8} (hc : FlatJson.isHex c = true) : FlatJson.hexValue c < 16 := by
    have hall : ∀ c : Fin 256, FlatJson.isHex (UInt8.ofNat c) = true →
        FlatJson.hexValue (UInt8.ofNat c) < 16 := by decide +kernel
    have hch := hall ⟨c.toNat, c.toNat_lt⟩
    rw [UInt8.ofNat_toNat] at hch
    exact hch hc
  obtain ⟨digits, hlen, hhex⟩ := q
  match digits, hlen with
  | [a, b, c, d], _ =>
    have ha := hdigit (hhex a (by simp))
    have hb := hdigit (hhex b (by simp))
    have hc := hdigit (hhex c (by simp))
    have hd := hdigit (hhex d (by simp))
    simp only [Quad.value, List.foldl_cons, List.foldl_nil]
    omega

/-- The appended bytes are the UTF-8 encoding. -/
theorem codepointBytes_eq {codepoint : Nat} (h0 : codepoint ≠ 0) (hmax : codepoint ≤ 0x10FFFF)
    (hsurrogate : codepoint < 0xD800 ∨ 0xDFFF < codepoint) :
    codepointBytes codepoint = some (utf8 codepoint) := by
  have hvalid : codepoint.isValidChar := by
    rcases hsurrogate with h | h
    · exact .inl h
    · exact .inr ⟨h, by omega⟩
  have hval : (Char.ofNat codepoint).val.toNat = codepoint := by
    rw [Char.ofNat, dif_pos hvalid]
    rfl
  -- a marker above the bits of `b`
  have hor {i a b : Nat} (hb : b < 2 ^ i) : 2 ^ i * a ||| b = b + 2 ^ i * a := by
    rw [← Nat.two_pow_add_eq_or_of_lt hb, Nat.add_comm]
  have hlast (b : Nat) : 0x80 ||| b &&& 0x3F = b % 0x40 + 0x80 := by
    rw [show (0x3F : Nat) = 2 ^ 6 - 1 from rfl, Nat.and_two_pow_sub_one_eq_mod]
    exact @hor 6 2 _ (Nat.mod_lt _ (by decide))
  unfold codepointBytes utf8 String.utf8EncodeChar
  rw [hval, if_neg (by omega)]
  simp only [Nat.shiftRight_eq_div_pow, hlast]
  by_cases h1 : codepoint ≤ 0x7F
  · rw [if_pos h1, if_pos h1]
  rw [if_neg h1, if_neg h1]
  by_cases h2 : codepoint ≤ 0x7FF
  · rw [if_pos h2, if_pos h2]
    have hlead : 0xC0 ||| codepoint / 2 ^ 6 = codepoint / 64 % 0x20 + 0xC0 := by
      rw [Nat.mod_eq_of_lt (by omega)]
      exact @hor 6 3 _ (by omega)
    rw [hlead]
  rw [if_neg h2, if_neg h2]
  by_cases h3 : codepoint ≤ 0xFFFF
  · rw [if_pos h3, if_pos h3]
    have hlead : 0xE0 ||| codepoint / 2 ^ 12 = codepoint / 4096 % 0x10 + 0xE0 := by
      rw [Nat.mod_eq_of_lt (by omega)]
      exact @hor 5 7 _ (by omega)
    rw [hlead]
  · rw [if_neg h3, if_neg h3]
    have hlead : 0xF0 ||| codepoint / 2 ^ 18 = codepoint / 262144 % 0x08 + 0xF0 := by
      rw [Nat.mod_eq_of_lt (by omega)]
      exact @hor 4 15 _ (by omega)
    rw [hlead]

/-- A `\u` escape with the code point it stands for. -/
def UnicodeItem (codepoint : Nat) : Item → Prop
  | .plain _ _ => False
  | .short _ _ _ => False
  | .unicode q _ => q.value = codepoint
  | .pair high low _ _ => 0x10000 + (high.value - 0xD800) * 0x400 + (low.value - 0xDC00) = codepoint

theorem UnicodeItem.bounds {codepoint : Nat} {i : Item} (h : UnicodeItem codepoint i) :
    codepoint ≤ 0x10FFFF ∧ (codepoint < 0xD800 ∨ 0xDFFF < codepoint) := by
  cases i with
  | plain c hc => exact absurd h id
  | short c d hcd => exact absurd h id
  | unicode q hq =>
    have hle := quad_value_le q
    obtain rfl : q.value = codepoint := h
    exact ⟨by omega, hq⟩
  | pair high low hhigh hlow =>
    unfold UnicodeItem at h
    omega

theorem UnicodeItem.decode {codepoint : Nat} {i : Item} (h : UnicodeItem codepoint i) :
    i.decode = utf8 codepoint := by
  cases i with
  | plain c hc => exact absurd h id
  | short c d hcd => exact absurd h id
  | unicode q hq =>
    obtain rfl : q.value = codepoint := h
    rfl
  | pair high low hhigh hlow =>
    unfold UnicodeItem at h
    rw [← h]
    rfl

theorem parseUnicode_eq_some {codepoint : Nat} {s r : Bytes} :
    parseUnicode s = some (codepoint, r) ↔
      ∃ i : Item, UnicodeItem codepoint i ∧ 0x5C :: 0x75 :: s = i.text ++ r := by
  have hshift (a : Nat) : a <<< 10 = a * 0x400 := Nat.shiftLeft_eq a 10
  unfold parseUnicode
  constructor
  · intro h
    split at h
    · cases h
    · next high s₁ hquad =>
      obtain ⟨q, rfl, rfl⟩ := parseHexQuad_eq_some.mp hquad
      split at h
      · next hhigh =>
        split at h
        · cases h
        · next hlow =>
          rw [not_or, not_or, not_not, not_not] at hlow
          split at h
          · cases h
          · next low s₂ hquad₂ =>
            obtain ⟨q₂, hq₂, rfl⟩ := parseHexQuad_eq_some.mp hquad₂
            split at h
            · cases h
            · next hrange =>
              obtain ⟨hvalue, rfl⟩ := Prod.mk.inj (Option.some.inj h)
              rw [not_or, Nat.not_lt, Nat.not_lt] at hrange
              refine ⟨.pair q q₂ hhigh hrange, ?_, ?_⟩
              · rw [hshift] at hvalue
                exact hvalue
              · obtain ⟨s', hs'⟩ := List.head?_eq_some_iff.mp hlow.2.1
                rw [hs', List.tail_cons] at hlow
                obtain ⟨s'', hs''⟩ := List.head?_eq_some_iff.mp hlow.2.2
                rw [hs', hs''] at hq₂ ⊢
                rw [show s'' = q₂.digits ++ s₂ from hq₂]
                simp [Item.text, Quad.text]
      · next hhigh =>
        split at h
        · cases h
        · next hlow =>
          cases h
          exact ⟨.unicode q (by omega), rfl, rfl⟩
  · rintro ⟨i, hi, htext⟩
    cases i with
    | plain c hc => exact absurd hi id
    | short c d hcd => exact absurd hi id
    | unicode q hq =>
      obtain rfl : q.value = codepoint := hi
      obtain rfl : s = q.digits ++ r := (List.cons.inj (List.cons.inj htext).2).2
      rw [parseHexQuad_eq_some.mpr ⟨q, rfl, rfl⟩]
      dsimp only
      rw [if_neg (by omega), if_neg (by omega)]
    | pair high low hhigh hlow =>
      have hs : s = high.digits ++ (0x5C :: 0x75 :: (low.digits ++ r)) := by
        have hcons : 0x5C :: 0x75 :: s = 0x5C :: 0x75 :: (high.digits ++ (0x5C :: 0x75 :: (low.digits ++ r))) := by
          rw [htext]
          simp [Item.text, Quad.text]
        exact (List.cons.inj (List.cons.inj hcons).2).2
      rw [hs, parseHexQuad_eq_some.mpr ⟨high, rfl, rfl⟩]
      dsimp only
      rw [if_pos hhigh, if_neg]
      · rw [List.drop_succ_cons, List.drop_succ_cons, List.drop_zero,
          parseHexQuad_eq_some.mpr ⟨low, rfl, rfl⟩]
        dsimp only
        unfold UnicodeItem at hi
        rw [if_neg (by omega), hshift, hi]
      · have hlen := low.length_eq
        simp [hlen]

theorem parseChar_sound {ch : UInt8} (hquote : ch ≠ 0x22) {s r bytes : Bytes}
    (h : parseChar ch s = some (bytes, r)) : ∃ i : Item, ch :: s = i.text ++ r ∧ i.decode = bytes := by
  unfold parseChar at h
  split at h
  · cases h
  · next hlow =>
    split at h
    · next hback =>
      cases h
      have hplain : FlatJson.isPlain ch = true := by
        simp only [FlatJson.isPlain, Bool.and_eq_true, decide_eq_true_eq]
        exact ⟨⟨by simpa using hlow, hquote⟩, hback⟩
      exact ⟨.plain ch hplain, rfl, rfl⟩
    · next hback =>
      obtain rfl := not_not.mp hback
      split at h
      · cases h
      · next escape s =>
        split_ifs at h with h₁ h₂ h₃ h₄ h₅ h₆ h₇
        · cases h
          refine ⟨.short escape escape ?_, rfl, rfl⟩
          rcases h₁ with rfl | rfl | rfl <;> rfl
        · cases h
          exact ⟨.short escape 0x08 (by rw [h₂]; rfl), rfl, rfl⟩
        · cases h
          exact ⟨.short escape 0x0C (by rw [h₃]; rfl), rfl, rfl⟩
        · cases h
          exact ⟨.short escape 0x0A (by rw [h₄]; rfl), rfl, rfl⟩
        · cases h
          exact ⟨.short escape 0x0D (by rw [h₅]; rfl), rfl, rfl⟩
        · cases h
          exact ⟨.short escape 0x09 (by rw [h₆]; rfl), rfl, rfl⟩
        · split at h
          · cases h
          · next codepoint s₁ hunicode =>
            obtain ⟨bytes', hbytes, hp⟩ := Option.map_eq_some_iff.mp h
            cases hp
            obtain ⟨i, hi, htext⟩ := parseUnicode_eq_some.mp hunicode
            obtain ⟨hmax, hsurrogate⟩ := hi.bounds
            have h0 : codepoint ≠ 0 := by
              rintro rfl
              cases hbytes
            rw [codepointBytes_eq h0 hmax hsurrogate] at hbytes
            refine ⟨i, by rw [h₇]; exact htext, ?_⟩
            rw [hi.decode]
            exact Option.some.inj hbytes

theorem utf8_zero : utf8 0 = [0] := by decide

theorem parseChar_short {c d : UInt8} (hcd : FlatJson.escaped c = some d) (r : Bytes) :
    parseChar 0x5C (c :: r) = some ([d], r) := by
  unfold FlatJson.escaped at hcd
  unfold parseChar
  rw [if_neg (by decide), if_neg (by simp)]
  dsimp only
  simp only [Bool.or_eq_true, decide_eq_true_eq, or_assoc] at hcd
  split_ifs at hcd with h₁ h₂ h₃ h₄ h₅ h₆
  · rw [if_pos h₁, Option.some.inj hcd]
  · rw [if_neg h₁, if_pos h₂, Option.some.inj hcd]
  · rw [if_neg h₁, if_neg h₂, if_pos h₃, Option.some.inj hcd]
  · rw [if_neg h₁, if_neg h₂, if_neg h₃, if_pos h₄, Option.some.inj hcd]
  · rw [if_neg h₁, if_neg h₂, if_neg h₃, if_neg h₄, if_pos h₅, Option.some.inj hcd]
  · rw [if_neg h₁, if_neg h₂, if_neg h₃, if_neg h₄, if_neg h₅, if_pos h₆, Option.some.inj hcd]

/-- A written character without a NUL in what it stands for is read. -/
theorem parseChar_complete {i : Item} (h0 : 0 ∉ i.decode) {ch : UInt8} {s r : Bytes}
    (htext : ch :: s = i.text ++ r) : parseChar ch s = some (i.decode, r) := by
  have hunicode {codepoint : Nat} (hi : UnicodeItem codepoint i) {s' : Bytes}
      (hs' : ch :: s = 0x5C :: 0x75 :: s') : parseChar ch s = some (i.decode, r) := by
    obtain ⟨hmax, hsurrogate⟩ := hi.bounds
    have hne : codepoint ≠ 0 := by
      rintro rfl
      rw [hi.decode, utf8_zero] at h0
      exact h0 List.mem_cons_self
    obtain ⟨rfl, rfl⟩ := List.cons.inj hs'
    have hparse : parseUnicode s' = some (codepoint, r) := parseUnicode_eq_some.mpr ⟨i, hi, htext⟩
    unfold parseChar
    rw [if_neg (by decide), if_neg (by simp)]
    dsimp only
    rw [if_neg (by decide), if_neg (by decide), if_neg (by decide), if_neg (by decide), if_neg (by decide),
      if_neg (by decide), if_pos rfl, hparse]
    dsimp only
    rw [codepointBytes_eq hne hmax hsurrogate, hi.decode]
    rfl
  cases i with
  | plain c hc =>
    obtain ⟨rfl, rfl⟩ := List.cons.inj htext
    simp only [FlatJson.isPlain, Bool.and_eq_true, decide_eq_true_eq] at hc
    unfold parseChar
    rw [if_neg (by simpa using hc.1.1), if_pos hc.2]
    rfl
  | short c d hcd =>
    obtain ⟨rfl, hs⟩ := List.cons.inj htext
    obtain rfl : s = c :: r := hs
    exact parseChar_short hcd r
  | unicode q hq => exact hunicode rfl htext
  | pair high low hhigh hlow =>
    have hpair {v : Nat} (hv : v = 0x10000 + (high.value - 0xD800) * 0x400 + (low.value - 0xDC00)) :
        UnicodeItem v (.pair high low hhigh hlow) := hv.symm
    exact hunicode (hpair rfl) htext

/-! ## Strings -/

theorem length_le_of_item {i : Item} {ch : UInt8} {s r : Bytes} (h : ch :: s = i.text ++ r) :
    r.length ≤ s.length := by
  obtain ⟨c, t, hc, -⟩ := i.exists_cons
  have hlen := congrArg List.length h
  rw [hc, List.length_append, List.length_cons, List.length_cons] at hlen
  omega

theorem parseChars_eq_some {fuel room : Nat} (hroom : 0 < room) {s v r : Bytes} (hfuel : s.length < fuel) :
    parseChars fuel room s = some (v, r) ↔
      ∃ str : Str, s = str.text ++ 0x22 :: r ∧ str.decode = v ∧ v.length < room ∧ 0 ∉ v := by
  induction fuel generalizing room s v with
  | zero => omega
  | succ fuel ih =>
    cases s with
    | nil =>
      refine ⟨by simp [parseChars], ?_⟩
      rintro ⟨str, heq, -⟩
      simp at heq
    | cons ch s =>
      have htext (i : Item) (str : Str) (r : Bytes) :
          Str.text (i :: str) ++ 0x22 :: r = i.text ++ (Str.text str ++ 0x22 :: r) :=
        List.append_assoc _ _ _
      unfold parseChars
      rw [List.length_cons] at hfuel
      by_cases hquote : ch = 0x22
      · rw [if_pos hquote]
        constructor
        · intro h
          cases h
          exact ⟨[], by rw [hquote]; rfl, rfl, hroom, List.not_mem_nil⟩
        · rintro ⟨str, heq, rfl, -⟩
          cases str with
          | nil => rw [(List.cons.inj heq).2]; rfl
          | cons i str =>
            obtain ⟨c, t, hi, hc⟩ := i.exists_cons
            rw [htext, hi] at heq
            exact absurd ((List.cons.inj heq).1.symm.trans hquote) hc
      · rw [if_neg hquote]
        constructor
        · intro h
          split at h
          · cases h
          · next bytes s₁ hchar =>
            obtain ⟨i, hi, rfl⟩ := parseChar_sound hquote hchar
            split at h
            · cases h
            · next hfits =>
              rw [not_or, List.contains_iff_mem] at hfits
              obtain ⟨⟨v', r'⟩, hrest, hp⟩ := Option.map_eq_some_iff.mp h
              cases hp
              have hlen : s₁.length < fuel := Nat.lt_of_le_of_lt (length_le_of_item hi) (by omega)
              obtain ⟨str, rfl, rfl, hv, h0⟩ := (ih (by omega) hlen).mp hrest
              refine ⟨i :: str, by rw [hi, htext], rfl, ?_, ?_⟩
              · dsimp only at hv ⊢
                rw [List.length_append]
                omega
              · rw [List.mem_append, not_or]
                exact ⟨hfits.1, h0⟩
        · rintro ⟨str, heq, rfl, hv, h0⟩
          cases str with
          | nil => exact absurd (List.cons.inj heq).1 hquote
          | cons i str =>
            have hdecode : Str.decode (i :: str) = i.decode ++ Str.decode str := rfl
            rw [hdecode] at hv h0 ⊢
            rw [List.mem_append, not_or] at h0
            rw [List.length_append] at hv
            rw [htext] at heq
            have hlen : (Str.text str ++ 0x22 :: r).length < fuel :=
              Nat.lt_of_le_of_lt (length_le_of_item heq) (by omega)
            rw [parseChar_complete h0.1 heq]
            dsimp only
            rw [if_neg, (ih (by omega) hlen).mpr ⟨str, rfl, rfl, by omega, h0.2⟩]
            · rfl
            · rw [not_or, List.contains_iff_mem]
              exact ⟨h0.1, by omega⟩

theorem parseJsonString_eq_some {outSize : Nat} (hsize : 0 < outSize) {s v r : Bytes} :
    parseJsonString outSize s = some (v, r) ↔
      ∃ str : Str, s = str.quoted ++ r ∧ str.decode = v ∧ v.length < outSize ∧ 0 ∉ v := by
  have hquoted (str : Str) : str.quoted ++ r = 0x22 :: (str.text ++ 0x22 :: r) := by
    simp [Str.quoted]
  unfold parseJsonString
  constructor
  · intro h
    split at h
    · cases h
    · split at h
      · cases h
      · next hopen =>
        rw [not_or, not_not] at hopen
        obtain ⟨str, rfl, hrest⟩ := (parseChars_eq_some hsize (Nat.lt_succ_self _)).mp h
        exact ⟨str, by rw [hquoted, hopen.1], hrest⟩
  · rintro ⟨str, rfl, hrest⟩
    rw [hquoted]
    dsimp only
    rw [if_neg (by simp; omega)]
    exact (parseChars_eq_some hsize (Nat.lt_succ_self _)).mpr ⟨str, rfl, hrest⟩

/-! ## The values -/

def commandName : CmdType → Bytes
  | .setTarget => txt "set_target"
  | .start => txt "start"
  | .stopNormal => txt "stop"
  | .unlock => txt "unlock"
  | .estop => txt "estop"
  | .resetEstop => txt "reset_estop"
  | .recover => txt "recover"

theorem mapCommand_eq_some {command : Bytes} {type : CmdType} :
    mapCommand command = some type ↔ command = commandName type := by
  unfold mapCommand
  constructor
  · intro h
    obtain ⟨m, hm, rfl⟩ := Option.map_eq_some_iff.mp h
    have hname : m.1 = command := by simpa using List.find?_some hm
    have hmem := List.mem_of_find?_eq_some hm
    rw [← hname]
    simp only [mappings, List.mem_cons, List.not_mem_nil, or_false] at hmem
    rcases hmem with rfl | rfl | rfl | rfl | rfl | rfl | rfl <;> rfl
  · rintro rfl
    cases type <;> rfl

theorem commandName_fits (type : CmdType) : (commandName type).length < 20 ∧ 0 ∉ commandName type := by
  cases type <;> decide

theorem parseCommandValue_eq_ok {s r : Bytes} {type : CmdType} :
    parseCommandValue s = .ok (type, r) ↔
      ∃ str : Str, s = str.quoted ++ r ∧ mapCommand str.decode = some type := by
  unfold parseCommandValue
  constructor
  · intro h
    split at h
    · cases h
    · split at h
      · cases h
      · split at h
        · cases h
        · next command s₁ hs =>
          split at h
          · cases h
          · next type' hmap =>
            cases h
            obtain ⟨str, heq, rfl, -⟩ := (parseJsonString_eq_some (by decide)).mp hs
            exact ⟨str, heq, hmap⟩
  · rintro ⟨str, rfl, hmap⟩
    have hname := mapCommand_eq_some.mp hmap
    have hparse : parseJsonString 20 (str.quoted ++ r) = some (str.decode, r) :=
      (parseJsonString_eq_some (by decide)).mpr
        ⟨str, rfl, rfl, hname ▸ (commandName_fits type).1, hname ▸ (commandName_fits type).2⟩
    rw [hparse]
    dsimp only
    rw [hmap]
    exact if_neg (by simp)

theorem ends_of_isValueDelimiter {s : Bytes} (h : isValueDelimiter s = true) : Number.Ends s := by
  cases s with
  | nil =>
    intro c hc
    cases hc
  | cons ch s =>
    intro c hc
    cases hc
    simp only [isValueDelimiter, isJsonWhitespace, Bool.or_eq_true, decide_eq_true_eq] at h
    rcases h with (((((rfl | rfl) | rfl) | rfl) | rfl) | rfl) <;> decide

theorem targetDigits_sound {value w : Nat} {s r : Bytes} (h : targetDigits value s = some (w, r)) :
    ∃ ds, s = ds ++ r ∧ (∀ c ∈ ds, isDigit c = true) ∧
      ds.foldl (fun v d => v * 10 + (d.toNat - 0x30)) value = w := by
  induction s generalizing value with
  | nil =>
    cases h
    exact ⟨[], rfl, by simp, rfl⟩
  | cons ch s ih =>
    unfold targetDigits at h
    by_cases hdigit : isDigit ch = true
    · rw [if_pos hdigit] at h
      split at h
      · cases h
      · obtain ⟨ds, rfl, hds, hvalue⟩ := ih h
        refine ⟨ch :: ds, rfl, ?_, hvalue⟩
        rintro c (_ | ⟨_, hc⟩)
        · exact hdigit
        · exact hds c hc
    · rw [if_neg hdigit] at h
      cases h
      exact ⟨[], rfl, by simp, rfl⟩

theorem le_decimal_from (ds : Bytes) (value : Nat) :
    value ≤ ds.foldl (fun v d => v * 10 + (d.toNat - 0x30)) value := by
  induction ds generalizing value with
  | nil => exact Nat.le_refl _
  | cons d ds ih =>
    have hstep : value ≤ value * 10 + (d.toNat - 0x30) := by omega
    exact Nat.le_trans hstep (ih _)

/-- A value that 64 bits hold is read. -/
theorem targetDigits_complete {ds : Bytes} (hds : ∀ c ∈ ds, isDigit c = true) {value : Nat}
    (hmax : ds.foldl (fun v d => v * 10 + (d.toNat - 0x30)) value ≤ 2 ^ 64 - 1) {r : Bytes}
    (hr : Number.Ends r) :
    targetDigits value (ds ++ r) =
      some (ds.foldl (fun v d => v * 10 + (d.toNat - 0x30)) value, r) := by
  induction ds generalizing value with
  | nil =>
    cases r with
    | nil => rfl
    | cons c r =>
      have hc : ¬ isDigit c = true := by
        rw [show isDigit c = false from (hr c rfl).1]
        decide
      rw [List.nil_append, targetDigits, if_neg hc]
      rfl
  | cons d ds ih =>
    have hstep := Nat.le_trans (le_decimal_from ds (value * 10 + (d.toNat - 0x30))) hmax
    rw [List.cons_append, targetDigits, if_pos (hds d List.mem_cons_self), if_neg (by omega)]
    exact ih (fun c hc => hds c (List.mem_cons_of_mem _ hc)) hmax

theorem finishTarget_eq_ok {negative : Bool} {value : Nat} {s r : Bytes} {v : Int32} :
    finishTarget negative value s = .ok (v, r) ↔
      negative = false ∧ value ≤ maxTargetRpmMilli ∧ Int32.ofNat value = v ∧ s = r ∧
        isValueDelimiter r = true := by
  unfold finishTarget
  constructor
  · intro h
    split at h
    · cases h
    · split at h
      · cases h
      · next hdelimiter =>
        split at h
        · cases h
        · next hrange =>
          cases h
          rw [not_or, Nat.not_lt] at hrange
          exact ⟨by simpa using hrange.1, hrange.2, rfl, rfl, by simpa using hdelimiter⟩
  · rintro ⟨rfl, hmax, rfl, rfl, hdelimiter⟩
    have hends := ends_of_isValueDelimiter hdelimiter
    rw [if_neg, if_neg (by simp [hdelimiter]), if_neg (by simp; omega)]
    rintro (h | h | h)
    · exact (hends _ h).2.1 rfl
    · exact (hends _ h).2.2.1 rfl
    · exact (hends _ h).2.2.2 rfl

theorem parseTargetValue_eq_ok {s r : Bytes} {v : Int32} :
    parseTargetValue s = .ok (v, r) ↔
      ∃ n : Number, s = n.digits ++ r ∧ FlatJson.decimal n.digits ≤ maxTargetRpmMilli ∧
        Int32.ofNat (FlatJson.decimal n.digits) = v ∧ isValueDelimiter r = true := by
  unfold parseTargetValue
  dsimp only
  constructor
  · intro h
    split at h
    · cases h
    · split at h
      · cases h
      · next ch rest hs =>
        split at h
        · cases h
        · next hdigit =>
          rw [Bool.not_eq_false] at hdigit
          split at h
          · next hzero =>
            split at h
            · cases h
            · obtain ⟨hsign, hmax, rfl, rfl, hdelimiter⟩ := finishTarget_eq_ok.mp h
              rw [hsign, hzero] at hs
              exact ⟨⟨[0x30], by simp; rfl, by simp, .inl rfl⟩, hs, Nat.zero_le _, rfl, hdelimiter⟩
          · next hzero =>
            split at h
            · cases h
            · next value s₁ hdigits =>
              obtain ⟨hsign, hmax, rfl, rfl, hdelimiter⟩ := finishTarget_eq_ok.mp h
              obtain ⟨ds, hds, hall, rfl⟩ := targetDigits_sound hdigits
              rw [hsign] at hs hds
              replace hs : s = ch :: rest := hs
              replace hds : s = ds ++ s₁ := hds
              have hfirst : ds.head? = some ch := by
                cases ds with
                | nil =>
                  have hnot := (ends_of_isValueDelimiter hdelimiter ch (by rw [← List.nil_append s₁, ← hds, hs]; rfl)).1
                  exact absurd (show isDigit ch = false from hnot) (by simp [hdigit])
                | cons d ds =>
                  rw [hs] at hds
                  rw [(List.cons.inj hds).1]
                  rfl
              have hne : ds ≠ [] := by
                rintro rfl
                cases hfirst
              refine ⟨⟨ds, hall, hne, .inr ?_⟩, hds, hmax, rfl, hdelimiter⟩
              rw [hfirst]
              exact fun heq => hzero (Option.some.inj heq)
  · rintro ⟨n, rfl, hmax, rfl, hdelimiter⟩
    have hends := ends_of_isValueDelimiter hdelimiter
    obtain ⟨d, ds, hds⟩ := List.exists_cons_of_ne_nil n.ne_nil
    have hd : isDigit d = true := n.digit d (by rw [hds]; exact List.mem_cons_self)
    have hsign : decide ((n.digits ++ r).head? = some 0x2D) = false := by
      rw [hds, decide_eq_false_iff_not]
      intro hminus
      cases hminus
      exact absurd hd (by decide)
    have hvalue : FlatJson.decimal n.digits ≤ 2 ^ 64 - 1 := Nat.le_trans hmax (by decide)
    have hdigits : targetDigits 0 (n.digits ++ r) = some (FlatJson.decimal n.digits, r) :=
      targetDigits_complete n.digit hvalue hends
    rw [hsign, if_neg (by simp [n.ne_nil]), if_neg (by simp), hds, List.cons_append]
    dsimp only
    rw [if_neg (by simp [hd])]
    by_cases hzero : d = 0x30
    · have hone : ds = [] := by
        rcases n.leading with hlen | hlead
        · rw [hds] at hlen
          exact List.length_eq_zero_iff.mp (Nat.succ.inj hlen)
        · rw [hds, hzero] at hlead
          exact absurd rfl hlead
      rw [if_pos hzero, hone, List.nil_append, if_neg]
      · exact finishTarget_eq_ok.mpr ⟨rfl, Nat.zero_le _, by rw [hzero]; rfl, rfl, hdelimiter⟩
      · intro hany
        obtain ⟨c, hc, hdigit⟩ := (Option.any_eq_true _ _).mp hany
        have hnot : isDigit c = false := (hends c hc).1
        rw [hnot] at hdigit
        cases hdigit
    · rw [hds, List.cons_append] at hdigits
      rw [if_neg hzero, hdigits]
      rw [hds] at hmax
      exact finishTarget_eq_ok.mpr ⟨rfl, hmax, rfl, rfl, hdelimiter⟩

theorem parseForwardValue_eq_ok {s r : Bytes} {v : Bool} :
    parseForwardValue s = .ok (v, r) ↔ s = FlatJson.boolText v ++ r ∧ isValueDelimiter r = true := by
  have htrue : txt "true" = FlatJson.boolText true := by decide
  have hfalse : txt "false" = FlatJson.boolText false := by decide
  unfold parseForwardValue
  rw [htrue, hfalse]
  constructor
  · intro h
    split at h
    · cases h
    · split at h
      · next ht =>
        split at h
        · next hdelimiter =>
          cases h
          exact ⟨by rw [← ht, List.take_append_drop], hdelimiter⟩
        · cases h
      · split at h
        · next hf =>
          split at h
          · next hdelimiter =>
            cases h
            exact ⟨by rw [← hf, List.take_append_drop], hdelimiter⟩
          · cases h
        · cases h
  · rintro ⟨rfl, hdelimiter⟩
    cases v with
    | true =>
      rw [if_neg (by simp [FlatJson.boolText])]
      exact (if_pos rfl).trans (if_pos hdelimiter)
    | false =>
      rw [if_neg (by simp [FlatJson.boolText]), if_neg (by simp [FlatJson.boolText])]
      exact (if_pos rfl).trans (if_pos hdelimiter)

/-! ## The fields -/

def fieldName : BrowserField → Bytes
  | .command => txt "command"
  | .targetRpmMilli => txt "target_rpm_milli"
  | .forward => txt "forward"

theorem identifyField_eq_some {key : Bytes} {field : BrowserField} :
    identifyField key = some field ↔ key = fieldName field := by
  unfold identifyField
  constructor
  · intro h
    split_ifs at h with h₁ h₂ h₃
    · cases h
      exact h₁
    · cases h
      exact h₂
    · cases h
      exact h₃
  · rintro rfl
    cases field <;> rfl

theorem fieldName_fits (field : BrowserField) :
    (fieldName field).length < 24 ∧ 0 ∉ fieldName field := by
  cases field <;> decide

/-- What a field does with a value it accepts. -/
def fieldValue : BrowserField → Data → Option (Request → Request)
  | .command, .string command =>
    (mapCommand command).map fun type r => { r with commandType := some type }
  | .targetRpmMilli, .number n =>
    if n ≤ maxTargetRpmMilli then some fun r => { r with targetRpmMilli := Int32.ofNat n } else none
  | .forward, .bool b => some fun r => { r with forward := b }
  | _, _ => none

/-- What stands behind a value. -/
def Delimited : Scalar → Bytes → Prop
  | .string _, _ => True
  | .number _, r => isValueDelimiter r = true
  | .bool _, r => isValueDelimiter r = true

theorem delimited_after (x : Scalar) (b : Blank) {c : UInt8} (hc : c = 0x2C ∨ c = 0x7D) (rest : Bytes) :
    Delimited x (b.text ++ c :: rest) := by
  have hdelimiter : isValueDelimiter (b.text ++ c :: rest) = true := by
    cases hb : b.text with
    | nil => rcases hc with rfl | rfl <;> rfl
    | cons e u =>
      have hspace : FlatJson.isSpace e = true := b.space e (by rw [hb]; exact List.mem_cons_self)
      simp only [FlatJson.isSpace, Bool.or_eq_true, decide_eq_true_eq] at hspace
      rcases hspace with ((rfl | rfl) | rfl) | rfl <;> rfl
  cases x with
  | string str => trivial
  | number n => exact hdelimiter
  | bool v => exact hdelimiter

theorem parseValue_eq_ok {field : BrowserField} {candidate candidate' : Request} {s r : Bytes} :
    parseValue field candidate s = .ok (candidate', r) ↔
      ∃ (x : Scalar) (u : Request → Request), Delimited x r ∧ fieldValue field x.data = some u ∧
        u candidate = candidate' ∧ s = x.text ++ r := by
  have hmap {α β : Type} {f : α → β} {e : Except DecodeResult α} {y : β} :
      e.map f = .ok y ↔ ∃ a, e = .ok a ∧ f a = y := by
    cases e with
    | ok a => simp [Except.map]
    | error e => simp [Except.map]
  unfold parseValue
  cases field with
  | command =>
    dsimp only
    rw [hmap]
    constructor
    · rintro ⟨⟨type, r'⟩, hparse, heq⟩
      cases heq
      obtain ⟨str, rfl, hcommand⟩ := parseCommandValue_eq_ok.mp hparse
      exact ⟨.string str, _, trivial, Option.map_eq_some_iff.mpr ⟨type, hcommand, rfl⟩, rfl, rfl⟩
    · rintro ⟨x, u, -, hvalue, rfl, rfl⟩
      cases x with
      | string str =>
        obtain ⟨type, hcommand, rfl⟩ := Option.map_eq_some_iff.mp hvalue
        exact ⟨(type, r), parseCommandValue_eq_ok.mpr ⟨str, rfl, hcommand⟩, rfl⟩
      | number n => cases hvalue
      | bool v => cases hvalue
  | targetRpmMilli =>
    dsimp only
    rw [hmap]
    constructor
    · rintro ⟨⟨v, r'⟩, hparse, heq⟩
      cases heq
      obtain ⟨n, rfl, hmax, rfl, hdelimiter⟩ := parseTargetValue_eq_ok.mp hparse
      exact ⟨.number n, _, hdelimiter, if_pos hmax, rfl, rfl⟩
    · rintro ⟨x, u, hdelimiter, hvalue, rfl, rfl⟩
      cases x with
      | string str => cases hvalue
      | number n =>
        obtain ⟨hmax, hu⟩ := Option.ite_none_right_eq_some.mp hvalue
        cases hu
        exact ⟨(_, r), parseTargetValue_eq_ok.mpr ⟨n, rfl, hmax, rfl, hdelimiter⟩, rfl⟩
      | bool v => cases hvalue
  | forward =>
    dsimp only
    rw [hmap]
    constructor
    · rintro ⟨⟨v, r'⟩, hparse, heq⟩
      cases heq
      obtain ⟨rfl, hdelimiter⟩ := parseForwardValue_eq_ok.mp hparse
      exact ⟨.bool v, _, hdelimiter, rfl, rfl, rfl⟩
    · rintro ⟨x, u, hdelimiter, hvalue, rfl, rfl⟩
      cases x with
      | string str => cases hvalue
      | number n => cases hvalue
      | bool v =>
        cases hvalue
        exact ⟨(v, r), parseForwardValue_eq_ok.mpr ⟨rfl, hdelimiter⟩, rfl⟩

def browserFields : FieldTable Bytes Data Request where
  bits key := (identifyField key).map fieldBit
  set key x := (identifyField key).bind fun field => fieldValue field x

theorem browserFields_bits {key : Bytes} {b : UInt8} :
    browserFields.bits key = some b ↔ ∃ field, key = fieldName field ∧ fieldBit field = b := by
  unfold browserFields
  simp only [Option.map_eq_some_iff, identifyField_eq_some]

theorem browserFields_set (field : BrowserField) (x : Data) :
    browserFields.set (fieldName field) x = fieldValue field x := by
  unfold browserFields
  dsimp only
  rw [identifyField_eq_some.mpr rfl]
  rfl

theorem commandValue_eq_some {x : Data} {u : Request → Request} :
    fieldValue .command x = some u ↔
      ∃ type, x = .string (commandName type) ∧ (fun r => { r with commandType := some type }) = u := by
  constructor
  · intro h
    cases x with
    | string command =>
      obtain ⟨type, hcommand, rfl⟩ := Option.map_eq_some_iff.mp h
      exact ⟨type, congrArg _ (mapCommand_eq_some.mp hcommand), rfl⟩
    | number n => cases h
    | bool v => cases h
  · rintro ⟨type, rfl, rfl⟩
    exact Option.map_eq_some_iff.mpr ⟨type, mapCommand_eq_some.mpr rfl, rfl⟩

theorem targetValue_eq_some {x : Data} {u : Request → Request} :
    fieldValue .targetRpmMilli x = some u ↔
      ∃ n, x = .number n ∧ n ≤ maxTargetRpmMilli ∧
        (fun r => { r with targetRpmMilli := Int32.ofNat n }) = u := by
  constructor
  · intro h
    cases x with
    | string command => cases h
    | number n =>
      obtain ⟨hmax, hu⟩ := Option.ite_none_right_eq_some.mp h
      exact ⟨n, rfl, hmax, Option.some.inj hu⟩
    | bool v => cases h
  · rintro ⟨n, rfl, hmax, rfl⟩
    exact if_pos hmax

theorem forwardValue_eq_some {x : Data} {u : Request → Request} :
    fieldValue .forward x = some u ↔ ∃ v, x = .bool v ∧ (fun r => { r with forward := v }) = u := by
  constructor
  · intro h
    cases x with
    | string command => cases h
    | number n => cases h
    | bool v => exact ⟨v, rfl, Option.some.inj h⟩
  · rintro ⟨v, rfl, rfl⟩
    rfl

/-- A field sets its own part of the request. -/
theorem fieldValue_comm {field field' : BrowserField} (hne : field ≠ field') {x x' : Data}
    {u u' : Request → Request} (h : fieldValue field x = some u) (h' : fieldValue field' x' = some u')
    (r : Request) : u (u' r) = u' (u r) := by
  have hset {field : BrowserField} {x : Data} {u : Request → Request} (h : fieldValue field x = some u) :
      (field = .command ∧ ∃ type, (fun r => { r with commandType := some type }) = u) ∨
        (field = .targetRpmMilli ∧ ∃ v, (fun r => { r with targetRpmMilli := v }) = u) ∨
        (field = .forward ∧ ∃ v, (fun r => { r with forward := v }) = u) := by
    cases field with
    | command =>
      obtain ⟨type, -, hu⟩ := commandValue_eq_some.mp h
      exact .inl ⟨rfl, type, hu⟩
    | targetRpmMilli =>
      obtain ⟨n, -, -, hu⟩ := targetValue_eq_some.mp h
      exact .inr (.inl ⟨rfl, _, hu⟩)
    | forward =>
      obtain ⟨v, -, hu⟩ := forwardValue_eq_some.mp h
      exact .inr (.inr ⟨rfl, v, hu⟩)
  rcases hset h with ⟨rfl, _, rfl⟩ | ⟨rfl, _, rfl⟩ | ⟨rfl, _, rfl⟩ <;>
    rcases hset h' with ⟨rfl, _, rfl⟩ | ⟨rfl, _, rfl⟩ | ⟨rfl, _, rfl⟩ <;>
      first | rfl | exact absurd rfl hne

theorem browserFields_lawful : browserFields.Lawful where
  bits key key' b b' h h' := by
    obtain ⟨field, rfl, rfl⟩ := browserFields_bits.mp h
    obtain ⟨field', rfl, rfl⟩ := browserFields_bits.mp h'
    cases field <;> cases field' <;> decide
  apart key key' x x' u u' h h' hne r := by
    obtain ⟨field, hfield, hu⟩ := Option.bind_eq_some_iff.mp h
    obtain ⟨field', hfield', hu'⟩ := Option.bind_eq_some_iff.mp h'
    refine fieldValue_comm ?_ hu hu' r
    rintro rfl
    exact hne ((identifyField_eq_some.mp hfield).trans (identifyField_eq_some.mp hfield').symm)

/-! ## The loop over the members -/

theorem decodeMembers_sound {n : Nat} {seenFields seenFields' : UInt8} {candidate candidate' : Request}
    {s r : Bytes}
    (h : decodeMembers n seenFields candidate (skipWhitespace s) = .ok (seenFields', candidate', r)) :
    ∃ m ms, s = membersText Scalar.text (m :: ms) ++ 0x7D :: r ∧
      browserFields.read ((m :: ms).map Member.entry) seenFields candidate =
        some (seenFields', candidate') := by
  induction n generalizing seenFields candidate s with
  | zero => cases h
  | succ n ih =>
    unfold decodeMembers at h
    simp only [skipWhitespace_eq] at h
    obtain ⟨before, hbefore⟩ := FlatJson.exists_blank s
    split at h
    · cases h
    · next key s₁ hkey =>
      obtain ⟨name, hname, rfl, -⟩ := (parseJsonString_eq_some (by decide)).mp hkey
      split at h
      · cases h
      · next hcolon =>
        obtain ⟨beforeColon, hbeforeColon⟩ := FlatJson.exists_blank s₁
        obtain ⟨t, ht⟩ := List.head?_eq_some_iff.mp (Decidable.not_not.mp hcolon)
        rw [ht, List.tail_cons] at h
        rw [ht] at hbeforeColon
        obtain ⟨afterColon, hafterColon⟩ := FlatJson.exists_blank t
        split at h
        · cases h
        · next field hfield =>
          split at h
          · cases h
          · next hfree =>
            split at h
            · cases h
            · next candidate₁ s₂ hvalue =>
              obtain ⟨x, u, -, hu, rfl, hs₂⟩ := parseValue_eq_ok.mp hvalue
              obtain ⟨after, hafter⟩ := FlatJson.exists_blank s₂
              have hentry {es : List (Bytes × Data)}
                  (hes : browserFields.read es (seenFields ||| fieldBit field) (u candidate) =
                    some (seenFields', candidate')) :
                  browserFields.read ((name.decode, x.data) :: es) seenFields candidate =
                    some (seenFields', candidate') := by
                refine FieldTable.read_cons.mpr ⟨fieldBit field, u, ?_, ?_, Decidable.not_not.mp hfree, hes⟩
                · exact browserFields_bits.mpr ⟨field, identifyField_eq_some.mp hfield, rfl⟩
                · rw [identifyField_eq_some.mp hfield, browserFields_set, hu]
              have htext (rest : Bytes) (hrest : FlatJson.skip s₂ = rest) :
                  s = (⟨before, name, beforeColon, afterColon, x, after⟩ : Member Scalar).text Scalar.text ++
                    rest := by
                rw [Member.text_append, ← hrest, ← hafter, ← hs₂, ← hafterColon, ← hbeforeColon, ← hname,
                  ← hbefore]
              split at h
              · next hclose =>
                cases h
                obtain ⟨r, hr⟩ := List.head?_eq_some_iff.mp hclose
                rw [hr, List.tail_cons]
                exact ⟨_, [], htext _ hr, hentry rfl⟩
              · split at h
                · cases h
                · next hcomma =>
                  obtain ⟨t', ht'⟩ := List.head?_eq_some_iff.mp (Decidable.not_not.mp hcomma)
                  rw [ht', List.tail_cons, ← skipWhitespace_eq] at h
                  obtain ⟨m, ms, rfl, hread⟩ := ih h
                  refine ⟨⟨before, name, beforeColon, afterColon, x, after⟩, m :: ms, ?_, hentry hread⟩
                  rw [FlatJson.membersText_cons_append]
                  exact htext _ ht'

/-- One turn of the loop over a member: it goes on behind a comma and ends behind a brace. -/
theorem decodeMembers_member {m : Member Scalar} {field : BrowserField} {u : Request → Request}
    (hname : m.name.decode = fieldName field) (hu : fieldValue field m.value.data = some u)
    {seenFields : UInt8} (hfree : seenFields &&& fieldBit field = 0) (n : Nat) (candidate : Request)
    (t : Bytes) :
    decodeMembers (n + 1) seenFields candidate (skipWhitespace (m.text Scalar.text ++ 0x2C :: t)) =
        decodeMembers n (seenFields ||| fieldBit field) (u candidate) (skipWhitespace t) ∧
      decodeMembers (n + 1) seenFields candidate (skipWhitespace (m.text Scalar.text ++ 0x7D :: t)) =
        .ok (seenFields ||| fieldBit field, u candidate, t) := by
  have hstart (rest : Bytes) : skipWhitespace (m.text Scalar.text ++ rest) = m.name.quoted ++
      (m.beforeColon.text ++ 0x3A :: (m.afterColon.text ++ (m.value.text ++ (m.after.text ++ rest)))) := by
    rw [skipWhitespace_eq, Member.text_append, FlatJson.skip_blank]
    exact FlatJson.skip_cons (by decide) _
  have hkey (rest : Bytes) : parseJsonString 24 (m.name.quoted ++ rest) = some (m.name.decode, rest) :=
    (parseJsonString_eq_some (by decide)).mpr
      ⟨m.name, rfl, rfl, hname ▸ (fieldName_fits field).1, hname ▸ (fieldName_fits field).2⟩
  have hcolon (rest : Bytes) : skipWhitespace (m.beforeColon.text ++ 0x3A :: rest) = 0x3A :: rest := by
    rw [skipWhitespace_eq, FlatJson.skip_blank, FlatJson.skip_cons (by decide)]
  have hnext {c : UInt8} (hc : FlatJson.isSpace c = false) : skipWhitespace (m.after.text ++ c :: t) = c :: t := by
    rw [skipWhitespace_eq, FlatJson.skip_blank, FlatJson.skip_cons hc]
  have hvalue {c : UInt8} (hc : c = 0x2C ∨ c = 0x7D) :
      parseValue field candidate (m.value.text ++ (m.after.text ++ c :: t)) =
        .ok (u candidate, m.after.text ++ c :: t) :=
    parseValue_eq_ok.mpr ⟨m.value, u, delimited_after m.value m.after hc t, hu, rfl, rfl⟩
  have hskip (rest : Bytes) : skipWhitespace (m.afterColon.text ++ (m.value.text ++ rest)) = m.value.text ++ rest := by
    rw [skipWhitespace_eq, FlatJson.skip_blank, m.value.skip_text]
  constructor
  · rw [hstart, decodeMembers, hkey]
    dsimp only
    rw [hcolon, if_neg (by simp), identifyField_eq_some.mpr hname]
    dsimp only
    rw [if_neg (by simp [hfree]), List.tail_cons, hskip, hvalue (.inl rfl)]
    dsimp only
    rw [hnext (by decide), if_neg (by simp), if_neg (by simp), List.tail_cons]
  · rw [hstart, decodeMembers, hkey]
    dsimp only
    rw [hcolon, if_neg (by simp), identifyField_eq_some.mpr hname]
    dsimp only
    rw [if_neg (by simp [hfree]), List.tail_cons, hskip, hvalue (.inr rfl)]
    dsimp only
    rw [hnext (by decide), if_pos (by simp), List.tail_cons]

theorem decodeMembers_complete {m : Member Scalar} {ms : List (Member Scalar)} {n : Nat}
    {seenFields seenFields' : UInt8} {candidate candidate' : Request}
    (hread : browserFields.read ((m :: ms).map Member.entry) seenFields candidate =
      some (seenFields', candidate')) (r : Bytes) (hlen : ms.length < n) :
    decodeMembers n seenFields candidate
        (skipWhitespace (membersText Scalar.text (m :: ms) ++ 0x7D :: r)) =
      .ok (seenFields', candidate', r) := by
  induction ms generalizing m n seenFields candidate with
  | nil =>
    obtain ⟨b, u, hb, hu, hfree, hrest⟩ := FieldTable.read_cons.mp hread
    obtain ⟨field, hname, rfl⟩ := browserFields_bits.mp hb
    rw [hname, browserFields_set] at hu
    cases hrest
    obtain ⟨n, rfl⟩ : ∃ k, n = k + 1 := ⟨n - 1, by simp at hlen; omega⟩
    exact (decodeMembers_member hname hu hfree n candidate r).2
  | cons m' ms ih =>
    obtain ⟨b, u, hb, hu, hfree, hrest⟩ := FieldTable.read_cons.mp hread
    obtain ⟨field, hname, rfl⟩ := browserFields_bits.mp hb
    rw [hname, browserFields_set] at hu
    rw [List.length_cons] at hlen
    obtain ⟨n, rfl⟩ : ∃ k, n = k + 1 := ⟨n - 1, by omega⟩
    rw [FlatJson.membersText_cons_append, (decodeMembers_member hname hu hfree n candidate _).1]
    exact ih hrest (by omega)

/-- **The objects the decoder reads.** -/
theorem decodeBody_eq_ok {s r : Bytes} {seenFields : UInt8} {candidate : Request} :
    decodeBody s = .ok (seenFields, candidate, r) ↔
      ∃ (empty : Blank) (ms : List (Member Scalar)),
        s = (if ms = [] then empty.text else membersText Scalar.text ms) ++ 0x7D :: r ∧
          browserFields.read (ms.map Member.entry) 0 invalidateRequest = some (seenFields, candidate) := by
  unfold decodeBody
  constructor
  · intro h
    split at h
    · next hclose =>
      cases h
      obtain ⟨empty, hempty⟩ := FlatJson.exists_blank s
      obtain ⟨t, ht⟩ := List.head?_eq_some_iff.mp hclose
      rw [skipWhitespace_eq] at ht
      rw [ht] at hempty
      refine ⟨empty, [], ?_, rfl⟩
      rw [skipWhitespace_eq, ht]
      exact hempty
    · obtain ⟨m, ms, hs, hread⟩ := decodeMembers_sound h
      exact ⟨.none, m :: ms, hs, hread⟩
  · rintro ⟨empty, ms, rfl, hread⟩
    cases ms with
    | nil =>
      cases hread
      have hclose : skipWhitespace (empty.text ++ 0x7D :: r) = 0x7D :: r := by
        rw [skipWhitespace_eq, FlatJson.skip_blank, FlatJson.skip_cons (by decide)]
      rw [if_pos rfl, hclose]
      rfl
    | cons m ms =>
      have hlen := FlatJson.length_le_membersText Scalar.text (m :: ms)
      rw [List.length_cons] at hlen
      have hquote : (skipWhitespace (membersText Scalar.text (m :: ms) ++ 0x7D :: r)).head? = some 0x22 := by
        have hfirst : ∃ rest, membersText Scalar.text (m :: ms) ++ 0x7D :: r = m.text Scalar.text ++ rest := by
          cases ms with
          | nil => exact ⟨_, rfl⟩
          | cons m' ms => exact ⟨_, FlatJson.membersText_cons_append _ m m' ms _⟩
        obtain ⟨rest, hrest⟩ := hfirst
        rw [hrest, skipWhitespace_eq, Member.text_append, FlatJson.skip_blank]
        rfl
      rw [if_neg (List.cons_ne_nil m ms), if_neg (by rw [hquote]; decide)]
      exact decodeMembers_complete hread r (by rw [List.length_append]; omega)

/-! ## The requests -/

/-- The entries of a request for a command. -/
def Request.entries (type : CmdType) (r : Request) : List (Bytes × Data) :=
  (txt "command", .string (commandName type)) ::
    if type = .setTarget then
      [(txt "target_rpm_milli", .number r.targetRpmMilli.toNatClampNeg), (txt "forward", .bool r.forward)]
    else []

structure Request.Valid (type : CmdType) (r : Request) : Prop where
  isValid : r.isValid = true
  commandType : r.commandType = some type
  target : if type = .setTarget then 0 ≤ r.targetRpmMilli ∧ r.targetRpmMilli.toNatClampNeg ≤ maxTargetRpmMilli
    else r.targetRpmMilli = 0 ∧ r.forward = false

/-- A request read from the entries of its fields. -/
theorem read_command {x : Data} {seenFields : UInt8} {candidate : Request} :
    browserFields.read [(txt "command", x)] 0 invalidateRequest = some (seenFields, candidate) ↔
      ∃ type, x = .string (commandName type) ∧ seenFields = seenCommand ∧
        candidate = ⟨false, some type, 0, false⟩ := by
  have hcommand : browserFields.bits (txt "command") = some seenCommand := rfl
  have hset : browserFields.set (txt "command") x = fieldValue .command x := browserFields_set .command x
  constructor
  · intro hread
    obtain ⟨-, u, hu, hread⟩ := (FieldTable.read_first hcommand).mp hread
    obtain ⟨type, rfl, rfl⟩ := commandValue_eq_some.mp (hset ▸ hu)
    have hres : (seenCommand, (⟨false, some type, 0, false⟩ : Request)) = (seenFields, candidate) :=
      Option.some.inj hread
    cases hres
    exact ⟨type, rfl, rfl, rfl⟩
  · rintro ⟨type, rfl, rfl, rfl⟩
    exact (FieldTable.read_first hcommand).mpr
      ⟨rfl, _, hset.trans (commandValue_eq_some.mpr ⟨type, rfl, rfl⟩), rfl⟩

theorem read_target {x₁ x₂ x₃ : Data} {seenFields : UInt8} {candidate : Request} :
    browserFields.read [(txt "command", x₁), (txt "target_rpm_milli", x₂), (txt "forward", x₃)] 0
        invalidateRequest = some (seenFields, candidate) ↔
      ∃ type n v, x₁ = .string (commandName type) ∧ x₂ = .number n ∧ n ≤ maxTargetRpmMilli ∧
        x₃ = .bool v ∧ seenFields = 7 ∧ candidate = ⟨false, some type, Int32.ofNat n, v⟩ := by
  have hcommand : browserFields.bits (txt "command") = some seenCommand := rfl
  have htarget : browserFields.bits (txt "target_rpm_milli") = some seenTarget := rfl
  have hforward : browserFields.bits (txt "forward") = some seenForward := rfl
  have hset₁ : browserFields.set (txt "command") x₁ = fieldValue .command x₁ := browserFields_set .command x₁
  have hset₂ : browserFields.set (txt "target_rpm_milli") x₂ = fieldValue .targetRpmMilli x₂ :=
    browserFields_set .targetRpmMilli x₂
  have hset₃ : browserFields.set (txt "forward") x₃ = fieldValue .forward x₃ := browserFields_set .forward x₃
  constructor
  · intro hread
    obtain ⟨-, u₁, hu₁, hread⟩ := (FieldTable.read_first hcommand).mp hread
    obtain ⟨type, rfl, rfl⟩ := commandValue_eq_some.mp (hset₁ ▸ hu₁)
    obtain ⟨-, u₂, hu₂, hread⟩ := (FieldTable.read_first htarget).mp hread
    obtain ⟨n, rfl, hmax, rfl⟩ := targetValue_eq_some.mp (hset₂ ▸ hu₂)
    obtain ⟨-, u₃, hu₃, hread⟩ := (FieldTable.read_first hforward).mp hread
    obtain ⟨v, rfl, rfl⟩ := forwardValue_eq_some.mp (hset₃ ▸ hu₃)
    have hres : ((7 : UInt8), (⟨false, some type, Int32.ofNat n, v⟩ : Request)) = (seenFields, candidate) :=
      Option.some.inj hread
    cases hres
    exact ⟨type, n, v, rfl, rfl, hmax, rfl, rfl, rfl⟩
  · rintro ⟨type, n, v, rfl, rfl, hmax, rfl, rfl, rfl⟩
    refine (FieldTable.read_first hcommand).mpr
      ⟨rfl, _, hset₁.trans (commandValue_eq_some.mpr ⟨type, rfl, rfl⟩), ?_⟩
    refine (FieldTable.read_first htarget).mpr
      ⟨rfl, _, hset₂.trans (targetValue_eq_some.mpr ⟨n, rfl, hmax, rfl⟩), ?_⟩
    exact (FieldTable.read_first hforward).mpr
      ⟨rfl, _, hset₃.trans (forwardValue_eq_some.mpr ⟨v, rfl, rfl⟩), rfl⟩

section Candidate

variable {es : List (Bytes × Data)} {seenFields : UInt8} {candidate : Request}

/-- No field was seen that is none of the keys. -/
theorem seen_keys {keys : List Bytes} (hkeys : ∀ field, fieldName field ∉ keys → seenFields &&& fieldBit field = 0)
    (key : Bytes) (b : UInt8) (hb : browserFields.bits key = some b) (hnot : key ∉ keys)
    (_ : 0 &&& b = 0) : seenFields &&& b = 0 := by
  obtain ⟨field, rfl, rfl⟩ := browserFields_bits.mp hb
  exact hkeys field hnot

/-- A target command has all three fields. -/
theorem setTarget_entries (hread : browserFields.read es 0 invalidateRequest = some (seenFields, candidate))
    (hseen : seenFields &&& seenCommand ≠ 0)
    (hboth : seenFields &&& (seenTarget ||| seenForward) = seenTarget ||| seenForward)
    (htype : candidate.commandType = some .setTarget) :
    ({ candidate with isValid := true } : Request).Valid .setTarget ∧
      es.Perm (({ candidate with isValid := true } : Request).entries .setTarget) := by
  have hmarked {b : UInt8} (hb : (seenTarget ||| seenForward) &&& b = b) (hne : b ≠ 0) :
      seenFields &&& b ≠ 0 := by
    rw [← hb, ← UInt8.and_assoc, hboth, hb]
    exact hne
  obtain ⟨es', hperm, hkeys, hread'⟩ := FieldTable.read_keys browserFields_lawful
    (show [txt "command", txt "target_rpm_milli", txt "forward"].Nodup by decide) hread
    (by
      intro key hkey
      simp only [List.mem_cons, List.not_mem_nil, or_false] at hkey
      rcases hkey with rfl | rfl | rfl
      · exact ⟨seenCommand, rfl, rfl, hseen⟩
      · exact ⟨seenTarget, rfl, rfl, hmarked rfl (by decide)⟩
      · exact ⟨seenForward, rfl, rfl, hmarked rfl (by decide)⟩)
    (seen_keys (by
      intro field hnot
      cases field <;> simp [fieldName] at hnot))
  obtain ⟨⟨_, x₁⟩, es₁, rfl, rfl, hkeys₁⟩ := List.map_eq_cons_iff.mp hkeys
  obtain ⟨⟨_, x₂⟩, es₂, rfl, rfl, hkeys₂⟩ := List.map_eq_cons_iff.mp hkeys₁
  obtain ⟨⟨_, x₃⟩, es₃, rfl, rfl, hkeys₃⟩ := List.map_eq_cons_iff.mp hkeys₂
  obtain rfl := List.map_eq_nil_iff.mp hkeys₃
  obtain ⟨type, n, v, rfl, rfl, hmax, rfl, -, rfl⟩ := read_target.mp hread'
  obtain rfl := Option.some.inj htype
  have hvalue : (Int32.ofNat n).toNatClampNeg = n :=
    Int32.toNatClampNeg_ofNat_of_lt (Nat.lt_of_le_of_lt hmax (by decide))
  refine ⟨⟨rfl, rfl, ?_⟩, ?_⟩
  · rw [if_pos rfl]
    dsimp only
    refine ⟨?_, by rw [hvalue]; exact hmax⟩
    rw [Int32.le_iff_toInt_le, Int32.toInt_ofNat_of_lt (Nat.lt_of_le_of_lt hmax (by decide))]
    exact Int.natCast_nonneg n
  · rw [Request.entries, if_pos rfl]
    dsimp only
    rw [hvalue]
    exact hperm

/-- Another command has no other field. -/
theorem otherCommand_entries (hread : browserFields.read es 0 invalidateRequest = some (seenFields, candidate))
    (hseen : seenFields &&& seenCommand ≠ 0) (hnone : seenFields &&& (seenTarget ||| seenForward) = 0)
    (htype : candidate.commandType ≠ some .setTarget) :
    ∃ type, ({ candidate with isValid := true } : Request).Valid type ∧
      es.Perm (({ candidate with isValid := true } : Request).entries type) := by
  have hrest : seenFields &&& seenTarget = 0 ∧ seenFields &&& seenForward = 0 := by
    rw [UInt8.and_comm, FieldTable.or_and_eq_zero] at hnone
    rwa [UInt8.and_comm seenFields, UInt8.and_comm seenFields]
  obtain ⟨es', hperm, hkeys, hread'⟩ := FieldTable.read_keys browserFields_lawful
    (show [txt "command"].Nodup by decide) hread
    (by
      intro key hkey
      rw [List.mem_singleton.mp hkey]
      exact ⟨seenCommand, rfl, rfl, hseen⟩)
    (seen_keys (by
      intro field hnot
      cases field with
      | command => exact absurd (List.mem_singleton.mpr rfl) hnot
      | targetRpmMilli => exact hrest.1
      | forward => exact hrest.2))
  obtain ⟨⟨_, x₁⟩, es₁, rfl, rfl, hkeys₁⟩ := List.map_eq_cons_iff.mp hkeys
  obtain rfl := List.map_eq_nil_iff.mp hkeys₁
  obtain ⟨type, rfl, -, rfl⟩ := read_command.mp hread'
  have hne : type ≠ .setTarget := by
    rintro rfl
    exact htype rfl
  refine ⟨type, ⟨rfl, rfl, by rw [if_neg hne]; exact ⟨rfl, rfl⟩⟩, ?_⟩
  rwa [Request.entries, if_neg hne]

theorem checkCandidate_entries
    (hread : browserFields.read es 0 invalidateRequest = some (seenFields, candidate))
    (hcheck : checkCandidate seenFields candidate = .ok) :
    ∃ type, ({ candidate with isValid := true } : Request).Valid type ∧
      es.Perm (({ candidate with isValid := true } : Request).entries type) := by
  unfold checkCandidate at hcheck
  split at hcheck
  · cases hcheck
  · next hseen =>
    split at hcheck
    · next htype =>
      split at hcheck
      · cases hcheck
      · next hboth => exact ⟨.setTarget, setTarget_entries hread hseen (Decidable.not_not.mp hboth) htype⟩
    · next htype =>
      split at hcheck
      · cases hcheck
      · next hnone => exact otherCommand_entries hread hseen (Decidable.not_not.mp hnone) htype

end Candidate

theorem entries_checkCandidate {type : CmdType} {es : List (Bytes × Data)} {r : Request}
    (hvalid : r.Valid type) (hperm : es.Perm (r.entries type)) :
    ∃ seenFields candidate, browserFields.read es 0 invalidateRequest = some (seenFields, candidate) ∧
      checkCandidate seenFields candidate = .ok ∧ { candidate with isValid := true } = r := by
  obtain ⟨isValid, commandType, target, forward⟩ := r
  obtain ⟨hisValid, hcommandType, htarget⟩ := hvalid
  obtain rfl : isValid = true := hisValid
  obtain rfl : commandType = some type := hcommandType
  unfold Request.entries at hperm
  by_cases htype : type = .setTarget
  · rw [if_pos htype] at hperm htarget
    subst htype
    obtain ⟨hnonneg, hmax⟩ := htarget
    refine ⟨7, _, FieldTable.read_perm browserFields_lawful hperm.symm
      (read_target.mpr ⟨.setTarget, _, forward, rfl, rfl, hmax, rfl, rfl, rfl⟩), rfl, ?_⟩
    dsimp only
    rw [Int32.ofNat_toNatClampNeg target hnonneg]
  · rw [if_neg htype] at hperm htarget
    obtain ⟨rfl, rfl⟩ := htarget
    refine ⟨seenCommand, _, FieldTable.read_perm browserFields_lawful hperm.symm
      (read_command.mpr ⟨type, rfl, rfl, rfl⟩), ?_, rfl⟩
    unfold checkCandidate
    rw [if_neg (by decide), if_neg (by simpa using htype), if_neg (by decide)]

/-! ## The loops end -/

theorem length_skipWhitespace_le (s : Bytes) : (skipWhitespace s).length ≤ s.length :=
  (List.dropWhile_suffix isJsonWhitespace).length_le

theorem parseChars_fuel {n m room : Nat} {s : Bytes} (hn : s.length < n) (hm : s.length < m) :
    parseChars n room s = parseChars m room s := by
  induction n generalizing m room s with
  | zero => omega
  | succ n ih =>
    obtain ⟨m, rfl⟩ : ∃ k, m = k + 1 := ⟨m - 1, by omega⟩
    cases s with
    | nil => rfl
    | cons ch s =>
      rw [List.length_cons] at hn hm
      unfold parseChars
      by_cases hquote : ch = 0x22
      · rw [if_pos hquote, if_pos hquote]
      · rw [if_neg hquote, if_neg hquote]
        cases hchar : parseChar ch s with
        | none => rfl
        | some p =>
          obtain ⟨bytes, s₁⟩ := p
          obtain ⟨i, hi, -⟩ := parseChar_sound hquote hchar
          have hlen := length_le_of_item hi
          dsimp only
          rw [ih (m := m) (by omega) (by omega)]

theorem decodeMembers_fuel {n m : Nat} {seenFields : UInt8} {candidate : Request} {s : Bytes}
    (hn : s.length < n) (hm : s.length < m) :
    decodeMembers n seenFields candidate s = decodeMembers m seenFields candidate s := by
  induction n generalizing m seenFields candidate s with
  | zero => omega
  | succ n ih =>
    obtain ⟨m, rfl⟩ : ∃ k, m = k + 1 := ⟨m - 1, by omega⟩
    unfold decodeMembers
    cases hkey : parseJsonString 24 s with
    | none => rfl
    | some p =>
      obtain ⟨key, s₁⟩ := p
      obtain ⟨name, rfl, -⟩ := (parseJsonString_eq_some (by decide)).mp hkey
      have hquoted : 0 < name.quoted.length := Nat.succ_pos _
      rw [List.length_append] at hn hm
      have hlen₁ := length_skipWhitespace_le s₁
      have hlen₂ := length_skipWhitespace_le (skipWhitespace s₁).tail
      rw [List.length_tail] at hlen₂
      dsimp only
      by_cases hcolon : (skipWhitespace s₁).head? ≠ some 0x3A
      · rw [if_pos hcolon, if_pos hcolon]
      rw [if_neg hcolon, if_neg hcolon]
      cases identifyField key with
      | none => rfl
      | some field =>
        dsimp only
        by_cases hfree : seenFields &&& fieldBit field ≠ 0
        · rw [if_pos hfree, if_pos hfree]
        rw [if_neg hfree, if_neg hfree]
        cases hvalue : parseValue field candidate (skipWhitespace (skipWhitespace s₁).tail) with
        | error e => rfl
        | ok p =>
          obtain ⟨candidate₁, s₂⟩ := p
          obtain ⟨x, u, -, -, -, hx⟩ := parseValue_eq_ok.mp hvalue
          rw [hx, List.length_append] at hlen₂
          have hlen₃ := length_skipWhitespace_le s₂
          have hlen₄ := length_skipWhitespace_le (skipWhitespace s₂).tail
          rw [List.length_tail] at hlen₄
          dsimp only
          rw [ih (m := m) (by omega) (by omega)]

/-! ## No error is OK -/

theorem finishTarget_ne {negative : Bool} {value : Nat} {s : Bytes} :
    finishTarget negative value s ≠ .error .ok := by
  unfold finishTarget
  split_ifs <;> simp

theorem parseValue_ne {field : BrowserField} {candidate : Request} {s : Bytes} :
    parseValue field candidate s ≠ .error .ok := by
  have hmap {α β : Type} {f : α → β} {e : Except DecodeResult α} (h : e.map f = .error .ok) :
      e = .error .ok := by
    cases e with
    | ok a => cases h
    | error e => exact congrArg _ (Except.error.inj h)
  intro h
  cases field with
  | command =>
    have hcommand := hmap h
    unfold parseCommandValue at hcommand
    split at hcommand
    · cases hcommand
    · split at hcommand
      · cases hcommand
      · split at hcommand
        · cases hcommand
        · split at hcommand <;> cases hcommand
  | targetRpmMilli =>
    have htarget := hmap h
    unfold parseTargetValue at htarget
    dsimp only at htarget
    split at htarget
    · cases htarget
    · split at htarget
      · cases htarget
      · split at htarget
        · cases htarget
        · split at htarget
          · split at htarget
            · cases htarget
            · exact finishTarget_ne htarget
          · split at htarget
            · cases htarget
            · exact finishTarget_ne htarget
  | forward =>
    have hforward := hmap h
    unfold parseForwardValue at hforward
    split_ifs at hforward <;> cases hforward

theorem decodeMembers_ne {n : Nat} {seenFields : UInt8} {candidate : Request} {s : Bytes} :
    decodeMembers n seenFields candidate s ≠ .error .ok := by
  induction n generalizing seenFields candidate s with
  | zero => simp [decodeMembers]
  | succ n ih =>
    intro h
    unfold decodeMembers at h
    split at h
    · cases h
    · split at h
      · cases h
      · split at h
        · cases h
        · split at h
          · cases h
          · split at h
            · next hvalue =>
              cases h
              exact parseValue_ne hvalue
            · split at h
              · cases h
              · split at h
                · cases h
                · exact ih h

theorem decodeBody_ne {s : Bytes} : decodeBody s ≠ .error .ok := by
  unfold decodeBody
  split
  · simp
  · exact decodeMembers_ne

/-- **The browser commands**: the decoder answers OK exactly on the short objects that spell a valid
request, with that request, and hands out an invalid one otherwise; its loops end. -/
theorem commandDecode_strict (body : Bytes) :
    (∀ r, commandDecode body = (.ok, r) ↔ body.length ≤ maxBodyLen ∧
      ∃ (type : CmdType) (o : Object Scalar), r.Valid type ∧ o.text Scalar.text = body ∧
        o.entries.Perm (r.entries type)) ∧
    ((commandDecode body).1 ≠ .ok → (commandDecode body).2 = ⟨false, none, 0, false⟩) ∧
    (∀ n room s, s.length < n → parseChars n room s = parseChars (s.length + 1) room s) ∧
    ∀ n seenFields candidate s, s.length < n →
      decodeMembers n seenFields candidate s = decodeMembers (s.length + 1) seenFields candidate s := by
  refine ⟨fun r => ⟨?_, ?_⟩, ?_, fun n room s hn => parseChars_fuel hn (Nat.lt_succ_self _),
    fun n seenFields candidate s hn => decodeMembers_fuel hn (Nat.lt_succ_self _)⟩
  · intro h
    unfold commandDecode at h
    simp only [skipWhitespace_eq] at h
    split at h
    · cases h
    · next hlen =>
      split at h
      · cases h
      · split at h
        · cases h
        · next hopen =>
          obtain ⟨before, hbefore⟩ := FlatJson.exists_blank body
          obtain ⟨t, ht⟩ := List.head?_eq_some_iff.mp (Decidable.not_not.mp hopen)
          rw [ht, List.tail_cons] at h
          rw [ht] at hbefore
          split at h
          · next hbody =>
            cases h
            exact absurd hbody decodeBody_ne
          · next seenFields candidate rest hbody =>
            obtain ⟨empty, ms, rfl, hread⟩ := decodeBody_eq_ok.mp hbody
            split at h
            · cases h
            · next hend =>
              obtain ⟨after, rfl⟩ := FlatJson.skip_eq_nil.mp (Decidable.not_not.mp hend)
              split at h
              · next hcheck => exact absurd (congrArg Prod.fst h) hcheck
              · next hcheck =>
                cases h
                obtain ⟨type, hvalid, hperm⟩ := checkCandidate_entries hread (Decidable.not_not.mp hcheck)
                exact ⟨Nat.not_lt.mp hlen, type, ⟨before, empty, ms, after⟩, hvalid, hbefore.symm, hperm⟩
  · rintro ⟨hlen, type, o, hvalid, rfl, hperm⟩
    obtain ⟨seenFields, candidate, hread, hcheck, rfl⟩ := entries_checkCandidate hvalid hperm
    have hbody := (decodeBody_eq_ok (r := o.after.text)).mpr ⟨o.empty, o.members, rfl, hread⟩
    have hopen : skipWhitespace (o.text Scalar.text) = 0x7B ::
        ((if o.members = [] then o.empty.text else membersText Scalar.text o.members) ++
          0x7D :: o.after.text) := by
      rw [skipWhitespace_eq, Object.text, FlatJson.skip_blank, FlatJson.skip_cons (by decide)]
    have hend : skipWhitespace o.after.text = [] :=
      (skipWhitespace_eq _).trans (FlatJson.skip_eq_nil.mpr ⟨o.after, rfl⟩)
    unfold commandDecode
    rw [if_neg (Nat.not_lt.mpr hlen), hopen, if_neg (by simp), if_neg (by simp), List.tail_cons, hbody]
    dsimp only
    rw [if_neg (by simp [hend]), if_neg (by simp [hcheck])]
  · intro h
    unfold commandDecode at h ⊢
    split_ifs at h ⊢
    · rfl
    · rfl
    · rfl
    · split at h
      · rfl
      · split_ifs at h ⊢
        · rfl
        · rfl
        · exact absurd rfl h

end Browser

end Argus
