import ArgusPump.Lib.FieldTable
import ArgusPump.Lib.FlatJson
import ArgusPump.MqttDecode

/-!
# The payloads the decoders accept

The decoders of `MqttDecode` against a grammar: flat objects without escapes, as texts with
their parse.  The scanners come first, then the loop over the members, which reads the
entries of an object, and last the three tables of fields.

    what the loop accepts                                                (decodeObject_eq_ok)
    a heartbeat, a command, an authority request                         (decodeHeartbeat_iff, ..)
    the decoders with their out parameter                                (decoders_strict)
-/

namespace Argus

open Interact.FlatJson (Blank Str Number Scalar Data Member Object membersText)
open Interact

/-! ## The tokens -/

theorem isWs_eq_isSpace (c : UInt8) : isWs c = FlatJson.isSpace c := by
  unfold isWs FlatJson.isSpace
  rw [Bool.or_assoc (decide (c = 0x20) || decide (c = 0x09)), Bool.or_comm (decide (c = 0x0D)),
    ← Bool.or_assoc]

theorem skipWs_eq (s : Bytes) : skipWs s = FlatJson.skip s := by
  unfold skipWs FlatJson.skip
  rw [funext isWs_eq_isSpace]

theorem consume_eq_some {c : UInt8} (hc : FlatJson.isSpace c = false) {s r : Bytes} :
    consume c s = some r ↔ ∃ b : Blank, s = b.text ++ c :: r := by
  unfold consume
  rw [skipWs_eq]
  constructor
  · intro h
    obtain ⟨b, hb⟩ := FlatJson.exists_blank s
    split at h
    · cases h
    · next d t ht =>
      split at h
      · next hd =>
        cases h
        rw [ht, hd] at hb
        exact ⟨b, hb⟩
      · cases h
  · rintro ⟨b, rfl⟩
    rw [FlatJson.skip_blank, FlatJson.skip_cons hc]
    exact if_pos rfl

theorem scanString_eq_some {room : Nat} (hroom : 0 < room) {s v r : Bytes} :
    scanString room s = some (v, r) ↔
      s = v ++ 0x22 :: r ∧ (∀ c ∈ v, FlatJson.isPlain c = true) ∧ v.length < room := by
  induction s generalizing room v with
  | nil => simp [scanString]
  | cons c s ih =>
    unfold scanString
    by_cases hquote : c = 0x22
    · rw [if_pos hquote]
      constructor
      · intro h
        cases h
        exact ⟨by rw [hquote]; rfl, by simp, hroom⟩
      · rintro ⟨heq, hplain, -⟩
        cases v with
        | nil => rw [(List.cons.inj heq).2]
        | cons d v =>
          have hd := hplain d List.mem_cons_self
          rw [← (List.cons.inj heq).1, hquote] at hd
          exact absurd hd (by decide)
    · rw [if_neg hquote]
      by_cases hbad : c < 0x20 ∨ c = 0x5C ∨ room ≤ 1
      · rw [if_pos hbad]
        refine ⟨by simp, ?_⟩
        rintro ⟨heq, hplain, hlen⟩
        cases v with
        | nil => exact absurd (List.cons.inj heq).1 hquote
        | cons d v =>
          have hd := hplain d List.mem_cons_self
          rw [← (List.cons.inj heq).1] at hd
          simp only [FlatJson.isPlain, Bool.and_eq_true, decide_eq_true_eq] at hd
          rw [List.length_cons] at hlen
          rcases hbad with hlow | hback | hfull
          · exact absurd hd.1.1 (by simpa using hlow)
          · exact absurd hback hd.2
          · omega
      · rw [if_neg hbad]
        rw [not_or, not_or] at hbad
        have hc : FlatJson.isPlain c = true := by
          simp only [FlatJson.isPlain, Bool.and_eq_true, decide_eq_true_eq]
          exact ⟨⟨by simpa using hbad.1, hquote⟩, hbad.2.1⟩
        constructor
        · intro h
          obtain ⟨⟨v', r'⟩, hs, hp⟩ := Option.map_eq_some_iff.mp h
          cases hp
          obtain ⟨rfl, hplain, hlen⟩ := (ih (by omega)).mp hs
          refine ⟨rfl, ?_, by rw [List.length_cons]; exact Nat.add_lt_of_lt_sub hlen⟩
          rintro d (_ | ⟨_, hd⟩)
          · exact hc
          · exact hplain d hd
        · rintro ⟨heq, hplain, hlen⟩
          cases v with
          | nil => exact absurd (List.cons.inj heq).1 hquote
          | cons d v =>
            obtain ⟨rfl, hrest⟩ := List.cons.inj heq
            rw [List.length_cons] at hlen
            rw [(ih (v := v) (by omega)).mpr
              ⟨hrest, fun c hc => hplain c (List.mem_cons_of_mem _ hc), by omega⟩]
            rfl

theorem parseString_eq_some {outSize : Nat} (hsize : 0 < outSize) {s v r : Bytes} :
    parseString outSize s = some (v, r) ↔
      ∃ (b : Blank) (str : Str), str.Unescaped ∧ str.decode = v ∧ v.length < outSize ∧
        s = b.text ++ (str.quoted ++ r) := by
  have hquoted {str : Str} (h : str.Unescaped) (r : Bytes) :
      str.quoted ++ r = 0x22 :: (str.decode ++ 0x22 :: r) := by
    unfold Str.quoted
    rw [h.text_eq, List.cons_append, List.append_assoc]
    rfl
  unfold parseString
  rw [skipWs_eq]
  constructor
  · intro h
    obtain ⟨b, hb⟩ := FlatJson.exists_blank s
    split at h
    · cases h
    · next c t ht =>
      split at h
      · cases h
      · next hc =>
        rw [not_or, not_not] at hc
        obtain ⟨rfl, hplain, hlen⟩ := (scanString_eq_some hsize).mp h
        refine ⟨b, .ofPlain v hplain, Str.unescaped_ofPlain hplain, Str.decode_ofPlain hplain, hlen, ?_⟩
        rw [hquoted (Str.unescaped_ofPlain hplain), Str.decode_ofPlain, hb, ht, hc.1]
  · rintro ⟨b, str, hstr, rfl, hlen, rfl⟩
    rw [FlatJson.skip_blank, hquoted hstr, FlatJson.skip_cons (by decide)]
    dsimp only
    rw [if_neg (by simp; omega)]
    exact (scanString_eq_some hsize).mpr ⟨rfl, hstr.plain, hlen⟩

theorem parseU32_eq_some {s r : Bytes} {v : UInt32} :
    parseU32 s = some (v, r) ↔
      ∃ (b : Blank) (n : Number), FlatJson.decimal n.digits ≤ 0xFFFFFFFF ∧
        (FlatJson.decimal n.digits).toUInt32 = v ∧ s = b.text ++ (n.digits ++ r) ∧ Number.Ends r := by
  constructor
  · intro h
    obtain ⟨b, hb⟩ := FlatJson.exists_blank s
    simp only [parseU32, skipWs_eq] at h
    split at h
    · cases h
    · next hvalue =>
      split at h
      · cases h
      · next hlead =>
        split at h
        · cases h
        · next hpoint =>
          cases h
          rw [not_or] at hvalue hpoint
          have hdigit : ∀ c ∈ (FlatJson.skip s).takeWhile isDigit, FlatJson.isDigit c = true :=
            List.all_eq_true.mp List.all_takeWhile
          have hleading : ((FlatJson.skip s).takeWhile isDigit).length = 1 ∨
              ((FlatJson.skip s).takeWhile isDigit).head? ≠ some 0x30 := by
            have hpos := List.length_pos_iff.mpr hvalue.1
            by_cases hone : ((FlatJson.skip s).takeWhile isDigit).length = 1
            · exact .inl hone
            · exact .inr fun hzero => hlead ⟨by omega, hzero⟩
          refine ⟨b, ⟨_, hdigit, hvalue.1, hleading⟩, Nat.not_lt.mp hvalue.2, rfl, ?_, ?_⟩
          · rw [List.takeWhile_append_dropWhile, ← hb]
          · intro c hc
            rw [not_or] at hpoint
            refine ⟨?_, ?_, ?_, ?_⟩
            · have hnot := List.head?_dropWhile_not isDigit (FlatJson.skip s)
              rw [hc] at hnot
              exact hnot
            · rintro rfl
              exact hpoint.1 hc
            · rintro rfl
              exact hpoint.2.1 hc
            · rintro rfl
              exact hpoint.2.2 hc
  · rintro ⟨b, n, hmax, rfl, rfl, hends⟩
    have hhead : r.dropWhile isDigit = r ∧ r.takeWhile isDigit = [] := by
      cases r with
      | nil => exact ⟨rfl, rfl⟩
      | cons c r =>
        have hc : ¬ isDigit c = true := by
          rw [show isDigit c = false from (hends c rfl).1]
          decide
        exact ⟨List.dropWhile_cons_of_neg hc, List.takeWhile_cons_of_neg hc⟩
    have hdigit : ∀ c ∈ n.digits, isDigit c = true := n.digit
    simp only [parseU32, skipWs_eq]
    rw [FlatJson.skip_blank, n.skip_digits, List.takeWhile_append_of_pos hdigit, List.dropWhile_append_of_pos hdigit,
      hhead.1, hhead.2, List.append_nil, if_neg, if_neg, if_neg]
    · rfl
    · rintro (h | h | h)
      · exact (hends _ h).2.1 rfl
      · exact (hends _ h).2.2.1 rfl
      · exact (hends _ h).2.2.2 rfl
    · rintro ⟨hlong, hzero⟩
      rcases n.leading with hone | hne
      · omega
      · exact hne hzero
    · rintro (hnil | hbig)
      · exact n.ne_nil hnil
      · exact absurd hbig (Nat.not_lt.mpr hmax)

theorem parseTrue_eq_some {s r : Bytes} :
    parseTrue s = some r ↔ ∃ b : Blank, s = b.text ++ (FlatJson.boolText true ++ r) := by
  have htrue : txt "true" = FlatJson.boolText true := by decide
  unfold parseTrue
  rw [htrue, skipWs_eq]
  constructor
  · intro h
    obtain ⟨b, hb⟩ := FlatJson.exists_blank s
    split at h
    · next ht =>
      cases h
      refine ⟨b, ?_⟩
      rw [← ht, List.take_append_drop, ← hb]
    · cases h
  · rintro ⟨b, rfl⟩
    have hskip : FlatJson.skip (FlatJson.boolText true ++ r) = FlatJson.boolText true ++ r :=
      FlatJson.skip_cons (by decide) _
    rw [FlatJson.skip_blank, hskip]
    rfl

/-! ## What a field accepts -/

/-- A field reads the scalars it has a value for, and nothing else. -/
def Field.Reads {α : Type} (f : Field α) (value : Data → Option (α → α)) : Prop :=
  ∀ d s d' r, f.parse d s = some (d', r) ↔
    ∃ (b : Blank) (x : Scalar) (u : α → α), x.Unescaped ∧ x.Ends r ∧ value x.data = some u ∧
      u d = d' ∧ s = b.text ++ (x.text ++ r)

section
variable {α : Type}

def stringValue (outSize : Nat) (valid : Bytes → Bool) (set : α → Bytes → α) : Data → Option (α → α)
  | .string v => if v.length < outSize ∧ valid v = true then some (set · v) else none
  | .number _ => none
  | .bool _ => none

def u32Value (valid : UInt32 → Bool) (set : α → UInt32 → α) : Data → Option (α → α)
  | .string _ => none
  | .number n => if n ≤ 0xFFFFFFFF ∧ valid n.toUInt32 = true then some (set · n.toUInt32) else none
  | .bool _ => none

def trueValue : Data → Option (α → α)
  | .string _ => none
  | .number _ => none
  | .bool v => if v then some id else none

theorem stringField_reads {bit : UInt8} {outSize : Nat} (hsize : 0 < outSize) {valid : Bytes → Bool}
    {set : α → Bytes → α} {e : DecodeError} :
    (stringField bit outSize valid set e).Reads (stringValue outSize valid set) := by
  intro d s d' r
  unfold stringField
  dsimp only
  constructor
  · intro h
    split at h
    · next v t hp =>
      split at h
      · next hvalid =>
        cases h
        obtain ⟨b, str, hstr, rfl, hlen, rfl⟩ := (parseString_eq_some hsize).mp hp
        exact ⟨b, .string str, _, hstr, trivial, if_pos ⟨hlen, hvalid⟩, rfl, rfl⟩
      · cases h
    · cases h
  · rintro ⟨b, x, u, hx, -, hvalue, rfl, rfl⟩
    cases x with
    | string str =>
      simp only [stringValue, Scalar.data, Option.ite_none_right_eq_some, Option.some.injEq] at hvalue
      obtain ⟨⟨hlen, hvalid⟩, rfl⟩ := hvalue
      have hparse : parseString outSize (b.text ++ ((Scalar.string str).text ++ r)) = some (str.decode, r) :=
        (parseString_eq_some hsize).mpr ⟨b, str, hx, rfl, hlen, rfl⟩
      rw [hparse]
      exact if_pos hvalid
    | number n => cases hvalue
    | bool v => cases hvalue

theorem u32Field_reads {bit : UInt8} {valid : UInt32 → Bool} {set : α → UInt32 → α} {e : DecodeError} :
    (u32Field bit valid set e).Reads (u32Value valid set) := by
  intro d s d' r
  unfold u32Field
  dsimp only
  constructor
  · intro h
    split at h
    · next v t hp =>
      split at h
      · next hvalid =>
        cases h
        obtain ⟨b, n, hmax, rfl, rfl, hends⟩ := parseU32_eq_some.mp hp
        exact ⟨b, .number n, _, trivial, hends, if_pos ⟨hmax, hvalid⟩, rfl, rfl⟩
      · cases h
    · cases h
  · rintro ⟨b, x, u, -, hends, hvalue, rfl, rfl⟩
    cases x with
    | string str => cases hvalue
    | number n =>
      simp only [u32Value, Scalar.data, Option.ite_none_right_eq_some, Option.some.injEq] at hvalue
      obtain ⟨⟨hmax, hvalid⟩, rfl⟩ := hvalue
      have hparse : parseU32 (b.text ++ ((Scalar.number n).text ++ r)) =
          some ((FlatJson.decimal n.digits).toUInt32, r) :=
        parseU32_eq_some.mpr ⟨b, n, hmax, rfl, rfl, hends⟩
      rw [hparse]
      exact if_pos hvalid
    | bool v => cases hvalue

theorem trueField_reads {bit : UInt8} :
    Field.Reads { bit := bit, parse := fun (d : α) s => (parseTrue s).map fun r => (d, r) }
      trueValue := by
  intro d s d' r
  dsimp only
  constructor
  · intro h
    obtain ⟨t, ht, he⟩ := Option.map_eq_some_iff.mp h
    cases he
    obtain ⟨b, rfl⟩ := parseTrue_eq_some.mp ht
    exact ⟨b, .bool true, id, trivial, trivial, rfl, rfl, rfl⟩
  · rintro ⟨b, x, u, -, -, hvalue, rfl, rfl⟩
    cases x with
    | string str => cases hvalue
    | number n => cases hvalue
    | bool v =>
      cases v with
      | false => cases hvalue
      | true =>
        cases hvalue
        have hparse : parseTrue (b.text ++ ((Scalar.bool true).text ++ r)) = some r :=
          parseTrue_eq_some.mpr ⟨b, rfl⟩
        rw [hparse]
        rfl

/-! ## The loop over the members -/

/-- What a decoder's fields and the values they accept say about entries. -/
def tableOf (field : Bytes → Option (Field α)) (value : Bytes → Data → Option (α → α)) :
    FieldTable Bytes Data α where
  bits key := (field key).map Field.bit
  set := value

variable {field : Bytes → Option (Field α)} {value : Bytes → Data → Option (α → α)}

theorem tableOf_bits {key : Bytes} {b : UInt8} :
    (tableOf field value).bits key = some b ↔ ∃ f, field key = some f ∧ f.bit = b :=
  Option.map_eq_some_iff

theorem parseString_skip (n : Nat) (s : Bytes) : parseString n (FlatJson.skip s) = parseString n s := by
  unfold parseString
  rw [skipWs_eq, skipWs_eq, FlatJson.skip_skip]

theorem decodeFields_sound (hreads : ∀ key f, field key = some f → f.Reads (value key)) {n : Nat}
    {afterComma : Bool} {fields fields' : UInt8} {d d' : α} {s r : Bytes}
    (h : decodeFields field n afterComma fields d s = .ok (fields', d', r)) :
    (afterComma = false ∧ fields' = fields ∧ d' = d ∧ ∃ b : Blank, s = b.text ++ 0x7D :: r) ∨
      ∃ m ms, s = membersText Scalar.text (m :: ms) ++ 0x7D :: r ∧
        (∀ m' ∈ m :: ms, m'.Unescaped) ∧
        (tableOf field value).read ((m :: ms).map Member.entry) fields d = some (fields', d') := by
  induction n generalizing afterComma fields d s with
  | zero => cases h
  | succ n ih =>
    unfold decodeFields at h
    simp only [skipWs_eq, parseString_skip] at h
    split at h
    · next hclose =>
      obtain ⟨t, ht⟩ := List.head?_eq_some_iff.mp hclose
      obtain ⟨b, hb⟩ := FlatJson.exists_blank s
      split at h
      · cases h
      · next hcomma =>
        cases h
        exact .inl ⟨by simpa using hcomma, rfl, rfl, b, by rw [ht] at hb; rw [ht]; exact hb⟩
    · split at h
      · cases h
      · next key s₁ hk =>
        obtain ⟨before, name, hname, rfl, -, rfl⟩ := (parseString_eq_some (by decide)).mp hk
        split at h
        · cases h
        · next s₂ hc =>
          obtain ⟨beforeColon, rfl⟩ := (consume_eq_some (by decide)).mp hc
          split at h
          · cases h
          · next f hf =>
            split at h
            · cases h
            · next hbit =>
              split at h
              · cases h
              · next d₁ s₃ hp =>
                obtain ⟨afterColon, x, u, hx, -, hvalue, rfl, rfl⟩ := (hreads _ f hf _ _ _ _).mp hp
                obtain ⟨after, hafter⟩ := FlatJson.exists_blank s₃
                have hentry {es : List (Bytes × Data)}
                    (hes : (tableOf field value).read es (fields ||| f.bit) (u d) = some (fields', d')) :
                    (tableOf field value).read ((name.decode, x.data) :: es) fields d =
                      some (fields', d') :=
                  FieldTable.read_cons.mpr
                    ⟨f.bit, u, tableOf_bits.mpr ⟨f, hf, rfl⟩, hvalue, Decidable.not_not.mp hbit, hes⟩
                right
                split at h
                · next hcomma =>
                  obtain ⟨t, ht⟩ := List.head?_eq_some_iff.mp hcomma
                  rw [ht, List.tail_cons] at h
                  rcases ih h with ⟨habs, -⟩ | ⟨m, ms, rfl, hunescaped, hread⟩
                  · cases habs
                  · refine ⟨⟨before, name, beforeColon, afterColon, x, after⟩, m :: ms, ?_, ?_,
                      hentry hread⟩
                    · rw [FlatJson.membersText_cons_append, Member.text_append, ← ht, ← hafter]
                    · rintro m' (_ | ⟨_, hm'⟩)
                      · exact ⟨hname, hx⟩
                      · exact hunescaped m' hm'
                · split at h
                  · next hclose =>
                    obtain ⟨t, ht⟩ := List.head?_eq_some_iff.mp hclose
                    rw [ht, List.tail_cons] at h
                    cases h
                    refine ⟨⟨before, name, beforeColon, afterColon, x, after⟩, [], ?_, ?_, hentry rfl⟩
                    · rw [membersText, Member.text_append, ← ht, ← hafter]
                    · rintro m' (_ | ⟨_, hm'⟩)
                      · exact ⟨hname, hx⟩
                      · cases hm'
                  · cases h

/-- What a decoder's fields are: each reads the scalars `value` accepts, its key fits the key
buffer, and it has a bit and a part of the result of its own. -/
structure Table (field : Bytes → Option (Field α)) (value : Bytes → Data → Option (α → α)) : Prop where
  reads : ∀ key f, field key = some f → f.Reads (value key)
  keys : ∀ key f, field key = some f → key.length < 24
  lawful : (tableOf field value).Lawful

section
variable (table : Table field value)

include table

/-- One turn of the loop over a member: it goes on behind a comma and ends behind a brace. -/
theorem decodeFields_member {m : Member Scalar} (hm : m.Unescaped) {f : Field α} {u : α → α}
    (hf : field m.name.decode = some f) (hu : value m.name.decode m.value.data = some u)
    {fields : UInt8} (hbit : fields &&& f.bit = 0) (n : Nat) (afterComma : Bool) (d : α) (t : Bytes) :
    decodeFields field (n + 1) afterComma fields d (m.text Scalar.text ++ 0x2C :: t) =
        decodeFields field n true (fields ||| f.bit) (u d) t ∧
      decodeFields field (n + 1) afterComma fields d (m.text Scalar.text ++ 0x7D :: t) =
        .ok (fields ||| f.bit, u d, t) := by
  have hhead (rest : Bytes) : (skipWs (m.text Scalar.text ++ rest)).head? ≠ some 0x7D := by
    rw [skipWs_eq, Member.text_append, FlatJson.skip_blank]
    intro h
    cases h
  have hkey (rest : Bytes) : parseString 24 (skipWs (m.text Scalar.text ++ rest)) =
      some (m.name.decode, m.beforeColon.text ++ 0x3A :: (m.afterColon.text ++
        (m.value.text ++ (m.after.text ++ rest)))) := by
    rw [skipWs_eq, parseString_skip, Member.text_append]
    exact (parseString_eq_some (by decide)).mpr
      ⟨m.before, m.name, hm.1, rfl, table.keys _ f hf, rfl⟩
  have hcolon (rest : Bytes) : consume 0x3A (m.beforeColon.text ++ 0x3A :: rest) = some rest :=
    (consume_eq_some (by decide)).mpr ⟨m.beforeColon, rfl⟩
  have hparse {c : UInt8} (hc : c = 0x2C ∨ c = 0x7D) :
      f.parse d (m.afterColon.text ++ (m.value.text ++ (m.after.text ++ c :: t))) =
        some (u d, m.after.text ++ c :: t) :=
    (table.reads _ f hf _ _ _ _).mpr
      ⟨m.afterColon, m.value, u, hm.2, m.value.ends_after m.after hc t, hu, rfl, rfl⟩
  have hnext {c : UInt8} (hc : FlatJson.isSpace c = false) : skipWs (m.after.text ++ c :: t) = c :: t := by
    rw [skipWs_eq, FlatJson.skip_blank, FlatJson.skip_cons hc]
  have hcomma := hnext (show FlatJson.isSpace 0x2C = false by decide)
  have hclose := hnext (show FlatJson.isSpace 0x7D = false by decide)
  constructor
  · rw [decodeFields_comma (hhead _) (hkey _) (hcolon _) hf hbit (hparse (.inl rfl)) (by rw [hcomma]; rfl),
      hcomma, List.tail_cons]
  · rw [decodeFields_close (hhead _) (hkey _) (hcolon _) hf hbit (hparse (.inr rfl)) (by rw [hclose]; rfl),
      hclose, List.tail_cons]

theorem decodeFields_complete {m : Member Scalar} {ms : List (Member Scalar)}
    (hunescaped : ∀ m' ∈ m :: ms, m'.Unescaped) {n : Nat} {afterComma : Bool} {fields fields' : UInt8}
    {d d' : α} (hread : (tableOf field value).read ((m :: ms).map Member.entry) fields d = some (fields', d'))
    (r : Bytes) (hlen : ms.length < n) :
    decodeFields field n afterComma fields d (membersText Scalar.text (m :: ms) ++ 0x7D :: r) =
      .ok (fields', d', r) := by
  induction ms generalizing m n afterComma fields d with
  | nil =>
    obtain ⟨b, u, hb, hu, hbit, hrest⟩ := FieldTable.read_cons.mp hread
    obtain ⟨f, hf, rfl⟩ := tableOf_bits.mp hb
    cases hrest
    obtain ⟨n, rfl⟩ : ∃ k, n = k + 1 := ⟨n - 1, by simp at hlen; omega⟩
    exact (decodeFields_member table (hunescaped m List.mem_cons_self) hf hu hbit n afterComma d r).2
  | cons m' ms ih =>
    obtain ⟨b, u, hb, hu, hbit, hrest⟩ := FieldTable.read_cons.mp hread
    obtain ⟨f, hf, rfl⟩ := tableOf_bits.mp hb
    rw [List.length_cons] at hlen
    obtain ⟨n, rfl⟩ : ∃ k, n = k + 1 := ⟨n - 1, by omega⟩
    rw [FlatJson.membersText_cons_append, (decodeFields_member table (hunescaped m List.mem_cons_self) hf hu
      hbit n afterComma d _).1]
    exact ih (fun m'' hm'' => hunescaped m'' (List.mem_cons_of_mem _ hm'')) hrest (by omega)

/-- **The payloads a decoder accepts**: the texts of the unescaped objects whose entries it reads. -/
theorem decodeObject_eq_ok {payload : Bytes} {d d' : α} {fields : UInt8} :
    decodeObject field d payload = .ok (fields, d') ↔
      (0 < payload.length ∧ payload.length < mqttBrokerPayloadCap ∧ 0 ∉ payload) ∧
        ∃ o : Object Scalar, o.text Scalar.text = payload ∧ o.Unescaped ∧
          (tableOf field value).read o.entries 0 d = some (fields, d') := by
  unfold decodeObject
  constructor
  · intro h
    split at h
    · cases h
    · next hpos =>
      split at h
      · cases h
      · next hcap =>
        split at h
        · cases h
        · next hzero =>
          split at h
          · cases h
          · next s hopen =>
            obtain ⟨before, rfl⟩ := (consume_eq_some (by decide)).mp hopen
            split at h
            · cases h
            · next fields₁ d₁ rest hfields =>
              split at h
              · cases h
              · next hend =>
                cases h
                rw [skipWs_eq] at hend
                obtain ⟨after, rfl⟩ := FlatJson.skip_eq_nil.mp (Decidable.not_not.mp hend)
                refine ⟨⟨Nat.pos_of_ne_zero hpos, Nat.not_le.mp hcap, by simpa using hzero⟩, ?_⟩
                rcases decodeFields_sound table.reads hfields with
                  ⟨-, rfl, rfl, empty, rfl⟩ | ⟨m, ms, rfl, hunescaped, hread⟩
                · exact ⟨⟨before, empty, [], after⟩, rfl, by simp [Object.Unescaped], rfl⟩
                · exact ⟨⟨before, .none, m :: ms, after⟩, rfl, hunescaped, hread⟩
  · rintro ⟨⟨hpos, hcap, hzero⟩, o, rfl, hunescaped, hread⟩
    have hopen : consume 0x7B (o.text Scalar.text) = some _ :=
      (consume_eq_some (by decide)).mpr ⟨o.before, rfl⟩
    have hend : skipWs o.after.text = [] := (skipWs_eq _).trans (FlatJson.skip_eq_nil.mpr ⟨o.after, rfl⟩)
    rw [if_neg (Nat.ne_of_gt hpos), if_neg (Nat.not_le.mpr hcap), if_neg (by simpa using hzero), hopen]
    dsimp only
    cases ho : o.members with
    | nil =>
      rw [Object.entries, ho] at hread
      cases hread
      have hclose : skipWs (o.empty.text ++ 0x7D :: o.after.text) = 0x7D :: o.after.text := by
        rw [skipWs_eq, FlatJson.skip_blank, FlatJson.skip_cons (by decide)]
      have hfields (n : Nat) : decodeFields field (n + 1) false 0 d (o.empty.text ++ 0x7D :: o.after.text) =
          .ok (0, d, o.after.text) := by
        rw [decodeFields, hclose]
        rfl
      rw [if_pos rfl, hfields]
      dsimp only
      rw [hend, if_neg (by simp)]
    | cons m ms =>
      rw [Object.entries, ho] at hread
      rw [Object.Unescaped, ho] at hunescaped
      have hlen := FlatJson.length_le_membersText Scalar.text (m :: ms)
      rw [List.length_cons] at hlen
      rw [if_neg (List.cons_ne_nil m ms),
        decodeFields_complete table hunescaped hread o.after.text
          (by rw [List.length_append]; omega)]
      dsimp only
      rw [hend, if_neg (by simp)]

end

end

/-! ## The three tables -/

def heartbeatValue (key : Bytes) : Data → Option (Heartbeat → Heartbeat) :=
  if key = txt "session" then
    stringValue (mqttSessionHexLen + 1) validSession fun d v => { d with session := v }
  else if key = txt "counter" then u32Value (· ≠ 0) fun d v => { d with counter := v }
  else fun _ => none

def commandValue (action : MqttAction) (maxRpmMilli : Nat) (key : Bytes) :
    Data → Option (MqttCommand → MqttCommand) :=
  if key = txt "session" then
    stringValue (mqttSessionHexLen + 1) validSession fun d v => { d with session := v }
  else if key = txt "sequence" then u32Value (· ≠ 0) fun d v => { d with sequence := v }
  else if key = txt "command_id" then
    stringValue (mqttCommandIdMax + 1) validCommandId fun d v => { d with commandId := v }
  else if key = txt "value" then
    if action = .setTarget then
      u32Value (·.toNat ≤ maxRpmMilli) fun d v => { d with targetRpmMilli := v }
    else trueValue
  else if key = txt "authority_epoch" then
    u32Value (fun _ => true) fun d v => { d with authorityEpoch := v }
  else fun _ => none

def authorityValue (key : Bytes) : Data → Option (AuthorityRequest → AuthorityRequest) :=
  if key = txt "schema" then u32Value (· = 1) fun d v => { d with schema := v }
  else if key = txt "request_id" then
    stringValue (mqttAuthorityRequestIdMax + 1) validRequestId fun d v => { d with requestId := v }
  else if key = txt "session" then
    stringValue (mqttSessionHexLen + 1) validSession fun d v => { d with session := v }
  else if key = txt "authority_epoch" then
    u32Value (fun _ => true) fun d v => { d with authorityEpoch := v }
  else if key = txt "intent" then
    stringValue (mqttAuthorityIntentMax + 1) validIntent fun d v =>
      { d with intent := v, hasIntent := true }
  else fun _ => none

section
variable {α : Type}

theorem stringValue_some {outSize : Nat} {valid : Bytes → Bool} {set : α → Bytes → α} {x : Data}
    {u : α → α} : stringValue outSize valid set x = some u ↔
      ∃ v, x = .string v ∧ v.length < outSize ∧ valid v = true ∧ (set · v) = u := by
  cases x with
  | string v => simp [stringValue, and_assoc]
  | number n => simp [stringValue]
  | bool v => simp [stringValue]

theorem u32Value_some {valid : UInt32 → Bool} {set : α → UInt32 → α} {x : Data} {u : α → α} :
    u32Value valid set x = some u ↔
      ∃ v : UInt32, x = .number v.toNat ∧ valid v = true ∧ (set · v) = u := by
  cases x with
  | string v => simp [u32Value]
  | number n =>
    simp only [u32Value, Option.ite_none_right_eq_some, Option.some.injEq, Data.number.injEq]
    constructor
    · rintro ⟨⟨hmax, hvalid⟩, rfl⟩
      refine ⟨n.toUInt32, ?_, hvalid, rfl⟩
      exact (Nat.mod_eq_of_lt (Nat.lt_succ_of_le hmax)).symm
    · rintro ⟨v, rfl, hvalid, rfl⟩
      have hv : v.toNat.toUInt32 = v := UInt32.ofNat_toNat
      rw [hv]
      exact ⟨⟨Nat.le_of_lt_succ v.toNat_lt, hvalid⟩, rfl⟩
  | bool v => simp [u32Value]

theorem trueValue_some {x : Data} {u : α → α} : trueValue x = some u ↔ x = .bool true ∧ id = u := by
  cases x with
  | string v => simp [trueValue]
  | number n => simp [trueValue]
  | bool v => cases v <;> simp [trueValue]

end

abbrev heartbeatFields : FieldTable Bytes Data Heartbeat := tableOf heartbeatField heartbeatValue

abbrev commandFields (action : MqttAction) (maxRpmMilli : Nat) : FieldTable Bytes Data MqttCommand :=
  tableOf (commandField action maxRpmMilli) (commandValue action maxRpmMilli)

abbrev authorityFields : FieldTable Bytes Data AuthorityRequest := tableOf authorityField authorityValue

theorem heartbeat_bits {key : Bytes} {b : UInt8} (h : heartbeatFields.bits key = some b) :
    (key = txt "session" ∧ b = 1) ∨ (key = txt "counter" ∧ b = 2) := by
  obtain ⟨f, hf, rfl⟩ := tableOf_bits.mp h
  unfold heartbeatField at hf
  split_ifs at hf with h₁ h₂
  · cases hf
    exact .inl ⟨h₁, rfl⟩
  · cases hf
    exact .inr ⟨h₂, rfl⟩

theorem heartbeatValue_some {key : Bytes} {x : Data} {u : Heartbeat → Heartbeat}
    (h : heartbeatValue key x = some u) :
    (key = txt "session" ∧ ∃ v, u = fun d => { d with session := v }) ∨
      (key = txt "counter" ∧ ∃ v, u = fun d => { d with counter := v }) := by
  unfold heartbeatValue at h
  split_ifs at h with h₁ h₂
  · obtain ⟨v, -, -, -, rfl⟩ := stringValue_some.mp h
    exact .inl ⟨h₁, v, rfl⟩
  · obtain ⟨v, -, -, rfl⟩ := u32Value_some.mp h
    exact .inr ⟨h₂, v, rfl⟩

theorem heartbeatTable : Table heartbeatField heartbeatValue where
  reads key f h := by
    unfold heartbeatField at h
    unfold heartbeatValue
    split_ifs at h ⊢ <;> cases h
    · exact stringField_reads (by decide)
    · exact u32Field_reads
  keys key f h := by
    rcases heartbeat_bits (tableOf_bits.mpr ⟨f, h, rfl⟩) with ⟨rfl, -⟩ | ⟨rfl, -⟩ <;> decide
  lawful.bits key key' b b' h h' := by
    rcases heartbeat_bits h with ⟨rfl, rfl⟩ | ⟨rfl, rfl⟩ <;>
      rcases heartbeat_bits h' with ⟨rfl, rfl⟩ | ⟨rfl, rfl⟩ <;> decide
  lawful.apart key key' x x' u u' h h' hne d := by
    rcases heartbeatValue_some h with ⟨rfl, v, rfl⟩ | ⟨rfl, v, rfl⟩ <;>
      rcases heartbeatValue_some h' with ⟨rfl, v', rfl⟩ | ⟨rfl, v', rfl⟩ <;>
        first | rfl | exact absurd rfl hne

theorem command_bits {action : MqttAction} {maxRpmMilli : Nat} {key : Bytes} {b : UInt8}
    (h : (commandFields action maxRpmMilli).bits key = some b) :
    (key = txt "session" ∧ b = 1) ∨ (key = txt "sequence" ∧ b = 2) ∨
      (key = txt "command_id" ∧ b = 4) ∨ (key = txt "value" ∧ b = 8) ∨
      (key = txt "authority_epoch" ∧ b = 16) := by
  obtain ⟨f, hf, rfl⟩ := tableOf_bits.mp h
  unfold commandField at hf
  split_ifs at hf with h₁ h₂ h₃ h₄ h₅ h₆ <;> cases hf
  · exact .inl ⟨h₁, rfl⟩
  · exact .inr (.inl ⟨h₂, rfl⟩)
  · exact .inr (.inr (.inl ⟨h₃, rfl⟩))
  · exact .inr (.inr (.inr (.inl ⟨h₄, rfl⟩)))
  · exact .inr (.inr (.inr (.inl ⟨h₄, rfl⟩)))
  · exact .inr (.inr (.inr (.inr ⟨h₆, rfl⟩)))

theorem commandValue_some {action : MqttAction} {maxRpmMilli : Nat} {key : Bytes} {x : Data}
    {u : MqttCommand → MqttCommand} (h : commandValue action maxRpmMilli key x = some u) :
    (key = txt "session" ∧ ∃ v, u = fun d => { d with session := v }) ∨
      (key = txt "sequence" ∧ ∃ v, u = fun d => { d with sequence := v }) ∨
      (key = txt "command_id" ∧ ∃ v, u = fun d => { d with commandId := v }) ∨
      (key = txt "value" ∧ (u = id ∨ ∃ v, u = fun d => { d with targetRpmMilli := v })) ∨
      (key = txt "authority_epoch" ∧ ∃ v, u = fun d => { d with authorityEpoch := v }) := by
  unfold commandValue at h
  split_ifs at h with h₁ h₂ h₃ h₄ h₅ h₆
  · obtain ⟨v, -, -, -, rfl⟩ := stringValue_some.mp h
    exact .inl ⟨h₁, v, rfl⟩
  · obtain ⟨v, -, -, rfl⟩ := u32Value_some.mp h
    exact .inr (.inl ⟨h₂, v, rfl⟩)
  · obtain ⟨v, -, -, -, rfl⟩ := stringValue_some.mp h
    exact .inr (.inr (.inl ⟨h₃, v, rfl⟩))
  · obtain ⟨v, -, -, rfl⟩ := u32Value_some.mp h
    exact .inr (.inr (.inr (.inl ⟨h₄, .inr ⟨v, rfl⟩⟩)))
  · obtain ⟨-, rfl⟩ := trueValue_some.mp h
    exact .inr (.inr (.inr (.inl ⟨h₄, .inl rfl⟩)))
  · obtain ⟨v, -, -, rfl⟩ := u32Value_some.mp h
    exact .inr (.inr (.inr (.inr ⟨h₆, v, rfl⟩)))

theorem commandTable (action : MqttAction) (maxRpmMilli : Nat) :
    Table (commandField action maxRpmMilli) (commandValue action maxRpmMilli) where
  reads key f h := by
    unfold commandField at h
    unfold commandValue
    split_ifs at h ⊢ <;> cases h
    · exact stringField_reads (by decide)
    · exact u32Field_reads
    · exact stringField_reads (by decide)
    · exact u32Field_reads
    · exact trueField_reads
    · exact u32Field_reads
  keys key f h := by
    rcases command_bits (tableOf_bits.mpr ⟨f, h, rfl⟩) with
      ⟨rfl, -⟩ | ⟨rfl, -⟩ | ⟨rfl, -⟩ | ⟨rfl, -⟩ | ⟨rfl, -⟩ <;> decide
  lawful.bits key key' b b' h h' := by
    rcases command_bits h with ⟨rfl, rfl⟩ | ⟨rfl, rfl⟩ | ⟨rfl, rfl⟩ | ⟨rfl, rfl⟩ | ⟨rfl, rfl⟩ <;>
      rcases command_bits h' with ⟨rfl, rfl⟩ | ⟨rfl, rfl⟩ | ⟨rfl, rfl⟩ | ⟨rfl, rfl⟩ | ⟨rfl, rfl⟩ <;>
        decide
  lawful.apart key key' x x' u u' h h' hne d := by
    rcases commandValue_some h with ⟨rfl, v, rfl⟩ | ⟨rfl, v, rfl⟩ | ⟨rfl, v, rfl⟩ |
        ⟨rfl, rfl | ⟨v, rfl⟩⟩ | ⟨rfl, v, rfl⟩ <;>
      rcases commandValue_some h' with ⟨rfl, v', rfl⟩ | ⟨rfl, v', rfl⟩ | ⟨rfl, v', rfl⟩ |
        ⟨rfl, rfl | ⟨v', rfl⟩⟩ | ⟨rfl, v', rfl⟩ <;> first | rfl | exact absurd rfl hne

theorem authority_bits {key : Bytes} {b : UInt8} (h : authorityFields.bits key = some b) :
    (key = txt "schema" ∧ b = 1) ∨ (key = txt "request_id" ∧ b = 2) ∨
      (key = txt "session" ∧ b = 4) ∨ (key = txt "authority_epoch" ∧ b = 8) ∨
      (key = txt "intent" ∧ b = 16) := by
  obtain ⟨f, hf, rfl⟩ := tableOf_bits.mp h
  unfold authorityField at hf
  split_ifs at hf with h₁ h₂ h₃ h₄ h₅ <;> cases hf
  · exact .inl ⟨h₁, rfl⟩
  · exact .inr (.inl ⟨h₂, rfl⟩)
  · exact .inr (.inr (.inl ⟨h₃, rfl⟩))
  · exact .inr (.inr (.inr (.inl ⟨h₄, rfl⟩)))
  · exact .inr (.inr (.inr (.inr ⟨h₅, rfl⟩)))

theorem authorityValue_some {key : Bytes} {x : Data} {u : AuthorityRequest → AuthorityRequest}
    (h : authorityValue key x = some u) :
    (key = txt "schema" ∧ ∃ v, u = fun d => { d with schema := v }) ∨
      (key = txt "request_id" ∧ ∃ v, u = fun d => { d with requestId := v }) ∨
      (key = txt "session" ∧ ∃ v, u = fun d => { d with session := v }) ∨
      (key = txt "authority_epoch" ∧ ∃ v, u = fun d => { d with authorityEpoch := v }) ∨
      (key = txt "intent" ∧ ∃ v, u = fun d => { d with intent := v, hasIntent := true }) := by
  unfold authorityValue at h
  split_ifs at h with h₁ h₂ h₃ h₄ h₅
  · obtain ⟨v, -, -, rfl⟩ := u32Value_some.mp h
    exact .inl ⟨h₁, v, rfl⟩
  · obtain ⟨v, -, -, -, rfl⟩ := stringValue_some.mp h
    exact .inr (.inl ⟨h₂, v, rfl⟩)
  · obtain ⟨v, -, -, -, rfl⟩ := stringValue_some.mp h
    exact .inr (.inr (.inl ⟨h₃, v, rfl⟩))
  · obtain ⟨v, -, -, rfl⟩ := u32Value_some.mp h
    exact .inr (.inr (.inr (.inl ⟨h₄, v, rfl⟩)))
  · obtain ⟨v, -, -, -, rfl⟩ := stringValue_some.mp h
    exact .inr (.inr (.inr (.inr ⟨h₅, v, rfl⟩)))

theorem authorityTable : Table authorityField authorityValue where
  reads key f h := by
    unfold authorityField at h
    unfold authorityValue
    split_ifs at h ⊢ <;> cases h
    · exact u32Field_reads
    · exact stringField_reads (by decide)
    · exact stringField_reads (by decide)
    · exact u32Field_reads
    · exact stringField_reads (by decide)
  keys key f h := by
    rcases authority_bits (tableOf_bits.mpr ⟨f, h, rfl⟩) with
      ⟨rfl, -⟩ | ⟨rfl, -⟩ | ⟨rfl, -⟩ | ⟨rfl, -⟩ | ⟨rfl, -⟩ <;> decide
  lawful.bits key key' b b' h h' := by
    rcases authority_bits h with ⟨rfl, rfl⟩ | ⟨rfl, rfl⟩ | ⟨rfl, rfl⟩ | ⟨rfl, rfl⟩ | ⟨rfl, rfl⟩ <;>
      rcases authority_bits h' with ⟨rfl, rfl⟩ | ⟨rfl, rfl⟩ | ⟨rfl, rfl⟩ | ⟨rfl, rfl⟩ | ⟨rfl, rfl⟩ <;>
        decide
  lawful.apart key key' x x' u u' h h' hne d := by
    rcases authorityValue_some h with ⟨rfl, v, rfl⟩ | ⟨rfl, v, rfl⟩ | ⟨rfl, v, rfl⟩ | ⟨rfl, v, rfl⟩ |
        ⟨rfl, v, rfl⟩ <;>
      rcases authorityValue_some h' with ⟨rfl, v', rfl⟩ | ⟨rfl, v', rfl⟩ | ⟨rfl, v', rfl⟩ |
        ⟨rfl, v', rfl⟩ | ⟨rfl, v', rfl⟩ <;> first | rfl | exact absurd rfl hne

/-! ## What the decoders accept -/

/-- The payload is a flat object without escapes that has these entries, in any order. -/
def Spells (payload : Bytes) (entries : List (Bytes × Data)) : Prop :=
  ∃ o : Object Scalar, o.text Scalar.text = payload ∧ o.Unescaped ∧ o.entries.Perm entries

/-- Of permitted length and without NUL. -/
def Permitted (payload : Bytes) : Prop :=
  0 < payload.length ∧ payload.length < mqttBrokerPayloadCap ∧ 0 ∉ payload

/-- An object with all the fields of a table, when these entries are what they are read from. -/
theorem decodeObject_spells {α : Type} {field : Bytes → Option (Field α)}
    {value : Bytes → Data → Option (α → α)} (table : Table field value) {d d' : α} {fields : UInt8}
    {valid : Prop} {entries : List (Bytes × Data)}
    (hentries : ∀ es, (tableOf field value).read es 0 d = some (fields, d') ↔ valid ∧ es.Perm entries)
    {payload : Bytes} :
    decodeObject field d payload = .ok (fields, d') ↔ Permitted payload ∧ valid ∧ Spells payload entries := by
  rw [decodeObject_eq_ok table]
  refine and_congr_right fun _ => ?_
  constructor
  · rintro ⟨o, htext, hunescaped, hread⟩
    obtain ⟨hvalid, hperm⟩ := (hentries o.entries).mp hread
    exact ⟨hvalid, o, htext, hunescaped, hperm⟩
  · rintro ⟨hvalid, o, htext, hunescaped, hperm⟩
    exact ⟨o, htext, hunescaped, (hentries o.entries).mpr ⟨hvalid, hperm⟩⟩

def Heartbeat.entries (h : Heartbeat) : List (Bytes × Data) :=
  [(txt "session", .string h.session), (txt "counter", .number h.counter.toNat)]

def Heartbeat.Valid (h : Heartbeat) : Prop := validSession h.session = true ∧ h.counter ≠ 0

theorem length_of_validId {max : Nat} {punctuation id : Bytes} (h : validId max punctuation id = true) :
    id.length < max + 1 := by
  simp only [validId, Bool.and_eq_true, Bool.not_eq_true', Bool.or_eq_false_iff,
    decide_eq_false_iff_not] at h
  omega

theorem length_of_validSession {session : Bytes} (h : validSession session = true) :
    session.length < mqttSessionHexLen + 1 := by
  rw [(validSession_plain h).1]
  decide

theorem length_of_validIntent {intent : Bytes} (h : validIntent intent = true) :
    intent.length < mqttAuthorityIntentMax + 1 := by
  simp only [validIntent, Bool.or_eq_true, decide_eq_true_eq] at h
  rcases h with ((rfl | rfl) | rfl) | rfl <;> decide

theorem heartbeat_read {x₁ x₂ : Data} {fields : UInt8} {h : Heartbeat} :
    heartbeatFields.read [(txt "session", x₁), (txt "counter", x₂)] 0 ⟨[], 0⟩ =
        some (fields, h) ↔
      fields = 3 ∧ h.Valid ∧ [(txt "session", x₁), (txt "counter", x₂)] = h.entries := by
  have hsession : heartbeatFields.bits (txt "session") = some 1 := rfl
  have hcounter : heartbeatFields.bits (txt "counter") = some 2 := rfl
  have hstring : heartbeatFields.set (txt "session") = stringValue _ _ _ := rfl
  have hnumber : heartbeatFields.set (txt "counter") =
      u32Value (· ≠ 0) fun d v => { d with counter := v } := rfl
  constructor
  · intro hread
    obtain ⟨-, u, hu, hread⟩ := (FieldTable.read_first hsession).mp hread
    obtain ⟨session, rfl, -, hvalid, rfl⟩ := stringValue_some.mp (hstring ▸ hu)
    obtain ⟨-, u, hu, hread⟩ := (FieldTable.read_first hcounter).mp hread
    obtain ⟨counter, rfl, hne, rfl⟩ := u32Value_some.mp (hnumber ▸ hu)
    cases hread
    exact ⟨rfl, ⟨hvalid, of_decide_eq_true hne⟩, rfl⟩
  · rintro ⟨rfl, ⟨hvalid, hne⟩, heq⟩
    simp only [Heartbeat.entries, List.cons.injEq, Prod.mk.injEq] at heq
    obtain ⟨⟨-, rfl⟩, ⟨-, rfl⟩, -⟩ := heq
    refine (FieldTable.read_first hsession).mpr ⟨rfl, _, hstring ▸ stringValue_some.mpr
      ⟨_, rfl, length_of_validSession hvalid, hvalid, rfl⟩, ?_⟩
    exact (FieldTable.read_first hcounter).mpr ⟨rfl, _, hnumber ▸ u32Value_some.mpr
      ⟨_, rfl, decide_eq_true hne, rfl⟩, rfl⟩

theorem heartbeat_entries {es : List (Bytes × Data)} {h : Heartbeat} :
    heartbeatFields.read es 0 ⟨[], 0⟩ = some (3, h) ↔ h.Valid ∧ es.Perm h.entries := by
  constructor
  · intro hread
    obtain ⟨es', hperm, hkeys, hread'⟩ := FieldTable.read_keys heartbeatTable.lawful
      (show [txt "session", txt "counter"].Nodup by decide) hread
      (by
        intro key hkey
        simp only [List.mem_cons, List.not_mem_nil, or_false] at hkey
        rcases hkey with rfl | rfl
        · exact ⟨_, rfl, rfl, by decide⟩
        · exact ⟨_, rfl, rfl, by decide⟩)
      (by
        intro key b hb hnot
        rcases heartbeat_bits hb with ⟨rfl, -⟩ | ⟨rfl, -⟩ <;> simp at hnot)
    obtain ⟨⟨_, x₁⟩, es₁, rfl, rfl, hkeys₁⟩ := List.map_eq_cons_iff.mp hkeys
    obtain ⟨⟨_, x₂⟩, es₂, rfl, rfl, hkeys₂⟩ := List.map_eq_cons_iff.mp hkeys₁
    obtain rfl := List.map_eq_nil_iff.mp hkeys₂
    obtain ⟨-, hvalid, heq⟩ := heartbeat_read.mp hread'
    exact ⟨hvalid, heq ▸ hperm⟩
  · rintro ⟨hvalid, hperm⟩
    exact FieldTable.read_perm heartbeatTable.lawful hperm.symm (heartbeat_read.mpr ⟨rfl, hvalid, rfl⟩)

theorem decodeHeartbeat_iff {payload : Bytes} {h : Heartbeat} :
    decodeHeartbeat payload = .ok h ↔ Permitted payload ∧ h.Valid ∧ Spells payload h.entries := by
  rw [← decodeObject_spells heartbeatTable fun _ => heartbeat_entries]
  unfold decodeHeartbeat
  constructor
  · intro hdecode
    split at hdecode
    · cases hdecode
    · next fields d hok =>
      split at hdecode
      · cases hdecode
      · next hfields =>
        cases hdecode
        rw [hok, Decidable.not_not.mp hfields]
  · intro hobject
    rw [hobject]
    rfl

section
variable {action : MqttAction} {maxRpmMilli : Nat}

/-- The value of a command: a target speed, or `true`. -/
def MqttCommand.data (c : MqttCommand) : Data :=
  if c.action = .setTarget then .number c.targetRpmMilli.toNat else .bool true

def MqttCommand.entries (c : MqttCommand) : List (Bytes × Data) :=
  [(txt "session", .string c.session), (txt "sequence", .number c.sequence.toNat),
    (txt "command_id", .string c.commandId), (txt "value", c.data),
    (txt "authority_epoch", .number c.authorityEpoch.toNat)]

structure MqttCommand.Valid (action : MqttAction) (maxRpmMilli : Nat) (c : MqttCommand) : Prop where
  session : validSession c.session = true
  sequence : c.sequence ≠ 0
  commandId : validCommandId c.commandId = true
  action_eq : c.action = action
  target : if action = .setTarget then c.targetRpmMilli.toNat ≤ maxRpmMilli else c.targetRpmMilli = 0
  forward : c.forward = true

theorem commandField_value : (commandFields action maxRpmMilli).bits (txt "value") = some 8 := by
  have hfield : commandField action maxRpmMilli (txt "value") =
      if action = .setTarget then
        some (u32Field 8 (·.toNat ≤ maxRpmMilli) (fun d v => { d with targetRpmMilli := v }) .invalidValue)
      else some { bit := 8, parse := fun d s => (parseTrue s).map fun r => (d, r) } := rfl
  rw [tableOf_bits, hfield]
  split
  · exact ⟨_, rfl, rfl⟩
  · exact ⟨_, rfl, rfl⟩

theorem commandValue_value {x : Data} {u : MqttCommand → MqttCommand} :
    commandValue action maxRpmMilli (txt "value") x = some u ↔
      (action = .setTarget ∧ ∃ v : UInt32, x = .number v.toNat ∧ v.toNat ≤ maxRpmMilli ∧
        (fun d => { d with targetRpmMilli := v }) = u) ∨
      (action ≠ .setTarget ∧ x = .bool true ∧ id = u) := by
  have hvalue : commandValue action maxRpmMilli (txt "value") =
      if action = .setTarget then
        u32Value (·.toNat ≤ maxRpmMilli) fun d v => { d with targetRpmMilli := v }
      else trueValue := rfl
  rw [hvalue]
  by_cases haction : action = .setTarget
  · rw [if_pos haction, u32Value_some]
    simp [haction]
  · rw [if_neg haction, trueValue_some]
    simp [haction]

theorem command_read {x₁ x₂ x₃ x₄ x₅ : Data} {fields : UInt8} {c : MqttCommand} :
    (commandFields action maxRpmMilli).read
        [(txt "session", x₁), (txt "sequence", x₂), (txt "command_id", x₃), (txt "value", x₄),
          (txt "authority_epoch", x₅)] 0 ⟨[], 0, [], 0, action, 0, true⟩ = some (fields, c) ↔
      fields = 31 ∧ c.Valid action maxRpmMilli ∧
        [(txt "session", x₁), (txt "sequence", x₂), (txt "command_id", x₃), (txt "value", x₄),
          (txt "authority_epoch", x₅)] = c.entries := by
  have hsession : (commandFields action maxRpmMilli).bits (txt "session") = some 1 := rfl
  have hsequence : (commandFields action maxRpmMilli).bits (txt "sequence") = some 2 := rfl
  have hid : (commandFields action maxRpmMilli).bits (txt "command_id") = some 4 := rfl
  have hdata := @commandField_value action maxRpmMilli
  have hepoch : (commandFields action maxRpmMilli).bits (txt "authority_epoch") = some 16 := rfl
  have hsession' : (commandFields action maxRpmMilli).set (txt "session") =
      stringValue _ _ fun d v => { d with session := v } := rfl
  have hsequence' : (commandFields action maxRpmMilli).set (txt "sequence") =
      u32Value (· ≠ 0) fun d v => { d with sequence := v } := rfl
  have hid' : (commandFields action maxRpmMilli).set (txt "command_id") =
      stringValue _ _ fun d v => { d with commandId := v } := rfl
  have hepoch' : (commandFields action maxRpmMilli).set (txt "authority_epoch") =
      u32Value (fun _ => true) fun d v => { d with authorityEpoch := v } := rfl
  constructor
  · intro hread
    obtain ⟨-, u, hu, hread⟩ := (FieldTable.read_first hsession).mp hread
    obtain ⟨session, rfl, -, hvsession, rfl⟩ := stringValue_some.mp (hsession' ▸ hu)
    obtain ⟨-, u, hu, hread⟩ := (FieldTable.read_first hsequence).mp hread
    obtain ⟨sequence, rfl, hvsequence, rfl⟩ := u32Value_some.mp (hsequence' ▸ hu)
    obtain ⟨-, u, hu, hread⟩ := (FieldTable.read_first hid).mp hread
    obtain ⟨commandId, rfl, -, hvid, rfl⟩ := stringValue_some.mp (hid' ▸ hu)
    obtain ⟨-, u, hu, hread⟩ := (FieldTable.read_first hdata).mp hread
    obtain ⟨-, u', hu', hread⟩ := (FieldTable.read_first hepoch).mp hread
    obtain ⟨epoch, rfl, -, rfl⟩ := u32Value_some.mp (hepoch' ▸ hu')
    rcases commandValue_value.mp hu with ⟨haction, v, rfl, hmax, rfl⟩ | ⟨haction, rfl, rfl⟩
    · have hc : (31, (⟨session, sequence, commandId, epoch, action, v, true⟩ : MqttCommand)) = (fields, c) :=
        Option.some.inj hread
      cases hc
      refine ⟨rfl, ⟨hvsession, of_decide_eq_true hvsequence, hvid, rfl, ?_, rfl⟩, ?_⟩
      · rw [if_pos haction]
        exact hmax
      · rw [MqttCommand.entries, MqttCommand.data, if_pos haction]
    · have hc : (31, (⟨session, sequence, commandId, epoch, action, 0, true⟩ : MqttCommand)) = (fields, c) :=
        Option.some.inj hread
      cases hc
      refine ⟨rfl, ⟨hvsession, of_decide_eq_true hvsequence, hvid, rfl, ?_, rfl⟩, ?_⟩
      · rw [if_neg haction]
      · rw [MqttCommand.entries, MqttCommand.data, if_neg haction]
  · rintro ⟨rfl, hvalid, heq⟩
    simp only [MqttCommand.entries, List.cons.injEq, Prod.mk.injEq] at heq
    obtain ⟨⟨-, rfl⟩, ⟨-, rfl⟩, ⟨-, rfl⟩, ⟨-, rfl⟩, ⟨-, rfl⟩, -⟩ := heq
    obtain ⟨session, sequence, commandId, epoch, action', target, forward⟩ := c
    obtain ⟨hvsession, hvsequence, hvid, rfl, htarget, rfl⟩ := hvalid
    have hread {u : MqttCommand → MqttCommand}
        (hu : commandValue action' maxRpmMilli (txt "value")
          (MqttCommand.data ⟨session, sequence, commandId, epoch, action', target, true⟩) = some u)
        (hset : u ⟨session, sequence, commandId, 0, action', 0, true⟩ =
          ⟨session, sequence, commandId, 0, action', target, true⟩) :
        (commandFields action' maxRpmMilli).read
          (MqttCommand.entries ⟨session, sequence, commandId, epoch, action', target, true⟩) 0
          ⟨[], 0, [], 0, action', 0, true⟩ =
            some (31, ⟨session, sequence, commandId, epoch, action', target, true⟩) := by
      refine (FieldTable.read_first hsession).mpr ⟨rfl, _, hsession' ▸ stringValue_some.mpr
        ⟨_, rfl, length_of_validSession hvsession, hvsession, rfl⟩, ?_⟩
      refine (FieldTable.read_first hsequence).mpr ⟨rfl, _, hsequence' ▸ u32Value_some.mpr
        ⟨_, rfl, decide_eq_true hvsequence, rfl⟩, ?_⟩
      refine (FieldTable.read_first hid).mpr ⟨rfl, _, hid' ▸ stringValue_some.mpr
        ⟨_, rfl, length_of_validId hvid, hvid, rfl⟩, ?_⟩
      refine (FieldTable.read_first hdata).mpr ⟨rfl, u, hu, ?_⟩
      refine (FieldTable.read_first hepoch).mpr ⟨rfl, _, hepoch' ▸ u32Value_some.mpr
        ⟨_, rfl, rfl, rfl⟩, ?_⟩
      exact congrArg some (Prod.ext rfl (congrArg (fun d => { d with authorityEpoch := epoch }) hset))
    by_cases haction : action' = .setTarget
    · rw [if_pos haction] at htarget
      exact hread (commandValue_value.mpr (.inl ⟨haction, target, if_pos haction, htarget, rfl⟩)) rfl
    · rw [if_neg haction] at htarget
      obtain rfl : target = 0 := htarget
      exact hread (commandValue_value.mpr (.inr ⟨haction, if_neg haction, rfl⟩)) rfl

theorem command_entries {es : List (Bytes × Data)} {c : MqttCommand} :
    (commandFields action maxRpmMilli).read es 0
        ⟨[], 0, [], 0, action, 0, true⟩ = some (31, c) ↔
      c.Valid action maxRpmMilli ∧ es.Perm c.entries := by
  constructor
  · intro hread
    obtain ⟨es', hperm, hkeys, hread'⟩ := FieldTable.read_keys (commandTable action maxRpmMilli).lawful
      (show [txt "session", txt "sequence", txt "command_id", txt "value", txt "authority_epoch"].Nodup by
        decide) hread
      (by
        intro key hkey
        simp only [List.mem_cons, List.not_mem_nil, or_false] at hkey
        rcases hkey with rfl | rfl | rfl | rfl | rfl
        · exact ⟨_, rfl, rfl, by decide⟩
        · exact ⟨_, rfl, rfl, by decide⟩
        · exact ⟨_, rfl, rfl, by decide⟩
        · exact ⟨8, commandField_value, rfl, by decide⟩
        · exact ⟨_, rfl, rfl, by decide⟩)
      (by
        intro key b hb hnot
        rcases command_bits hb with ⟨rfl, -⟩ | ⟨rfl, -⟩ | ⟨rfl, -⟩ | ⟨rfl, -⟩ | ⟨rfl, -⟩ <;>
          simp at hnot)
    obtain ⟨⟨_, x₁⟩, es₁, rfl, rfl, hkeys₁⟩ := List.map_eq_cons_iff.mp hkeys
    obtain ⟨⟨_, x₂⟩, es₂, rfl, rfl, hkeys₂⟩ := List.map_eq_cons_iff.mp hkeys₁
    obtain ⟨⟨_, x₃⟩, es₃, rfl, rfl, hkeys₃⟩ := List.map_eq_cons_iff.mp hkeys₂
    obtain ⟨⟨_, x₄⟩, es₄, rfl, rfl, hkeys₄⟩ := List.map_eq_cons_iff.mp hkeys₃
    obtain ⟨⟨_, x₅⟩, es₅, rfl, rfl, hkeys₅⟩ := List.map_eq_cons_iff.mp hkeys₄
    obtain rfl := List.map_eq_nil_iff.mp hkeys₅
    obtain ⟨-, hvalid, heq⟩ := command_read.mp hread'
    exact ⟨hvalid, heq ▸ hperm⟩
  · rintro ⟨hvalid, hperm⟩
    exact FieldTable.read_perm (commandTable action maxRpmMilli).lawful hperm.symm
      (command_read.mpr ⟨rfl, hvalid, rfl⟩)

theorem decodeCommand_iff {payload : Bytes} {c : MqttCommand} :
    decodeCommand payload action maxRpmMilli = .ok c ↔
      Permitted payload ∧ c.Valid action maxRpmMilli ∧ Spells payload c.entries := by
  rw [← decodeObject_spells (commandTable action maxRpmMilli) fun _ => command_entries]
  unfold decodeCommand
  constructor
  · intro hdecode
    split at hdecode
    · cases hdecode
    · next fields d hok =>
      split at hdecode
      · cases hdecode
      · next hfields =>
        cases hdecode
        rw [hok, Decidable.not_not.mp hfields]
  · intro hobject
    rw [hobject]
    rfl

end

def AuthorityRequest.entries (r : AuthorityRequest) : List (Bytes × Data) :=
  [(txt "schema", .number r.schema.toNat), (txt "request_id", .string r.requestId),
    (txt "session", .string r.session), (txt "authority_epoch", .number r.authorityEpoch.toNat)] ++
      if r.hasIntent then [(txt "intent", .string r.intent)] else []

/-- The fields of a request that decodes, but for the epoch of a release. -/
structure AuthorityRequest.Checked (r : AuthorityRequest) : Prop where
  schema : r.schema = 1
  requestId : validRequestId r.requestId = true
  session : validSession r.session = true
  intent : if r.hasIntent = true then validIntent r.intent = true else r.intent = []

structure AuthorityRequest.Valid (isRelease : Bool) (r : AuthorityRequest) : Prop extends r.Checked where
  release : isRelease = true → r.authorityEpoch ≠ 0

theorem authority_read {x₁ x₂ x₃ x₄ : Data} {optional : List (Bytes × Data)}
    (hoptional : optional.map Prod.fst = [] ∨ optional.map Prod.fst = [txt "intent"]) {fields : UInt8}
    {r : AuthorityRequest} :
    authorityFields.read
        ([(txt "schema", x₁), (txt "request_id", x₂), (txt "session", x₃), (txt "authority_epoch", x₄)] ++
          optional) 0 ⟨0, [], [], 0, [], false⟩ = some (fields, r) ↔
      fields = (if r.hasIntent then 31 else 15) ∧ r.Checked ∧
        [(txt "schema", x₁), (txt "request_id", x₂), (txt "session", x₃), (txt "authority_epoch", x₄)] ++
          optional = r.entries := by
  have hschema : authorityFields.bits (txt "schema") = some 1 := rfl
  have hid : authorityFields.bits (txt "request_id") = some 2 := rfl
  have hsession : authorityFields.bits (txt "session") = some 4 := rfl
  have hepoch : authorityFields.bits (txt "authority_epoch") = some 8 := rfl
  have hintent : authorityFields.bits (txt "intent") = some 16 := rfl
  have hschema' : authorityFields.set (txt "schema") = u32Value (· = 1) fun d v => { d with schema := v } := rfl
  have hid' : authorityFields.set (txt "request_id") =
      stringValue _ _ fun d v => { d with requestId := v } := rfl
  have hsession' : authorityFields.set (txt "session") =
      stringValue _ _ fun d v => { d with session := v } := rfl
  have hepoch' : authorityFields.set (txt "authority_epoch") =
      u32Value (fun _ => true) fun d v => { d with authorityEpoch := v } := rfl
  have hintent' : authorityFields.set (txt "intent") =
      stringValue _ _ fun d v => { d with intent := v, hasIntent := true } := rfl
  constructor
  · intro hread
    obtain ⟨-, u, hu, hread⟩ := (FieldTable.read_first hschema).mp hread
    obtain ⟨schema, rfl, hvschema, rfl⟩ := u32Value_some.mp (hschema' ▸ hu)
    obtain ⟨-, u, hu, hread⟩ := (FieldTable.read_first hid).mp hread
    obtain ⟨requestId, rfl, -, hvid, rfl⟩ := stringValue_some.mp (hid' ▸ hu)
    obtain ⟨-, u, hu, hread⟩ := (FieldTable.read_first hsession).mp hread
    obtain ⟨session, rfl, -, hvsession, rfl⟩ := stringValue_some.mp (hsession' ▸ hu)
    obtain ⟨-, u, hu, hread⟩ := (FieldTable.read_first hepoch).mp hread
    obtain ⟨epoch, rfl, -, rfl⟩ := u32Value_some.mp (hepoch' ▸ hu)
    rcases hoptional with hnone | hone
    · obtain rfl := List.map_eq_nil_iff.mp hnone
      have hr : (15, (⟨schema, requestId, session, epoch, [], false⟩ : AuthorityRequest)) = (fields, r) :=
        Option.some.inj hread
      cases hr
      exact ⟨rfl, ⟨of_decide_eq_true hvschema, hvid, hvsession, rfl⟩, rfl⟩
    · obtain ⟨⟨_, x₅⟩, rest, rfl, rfl, hrest⟩ := List.map_eq_cons_iff.mp hone
      obtain rfl := List.map_eq_nil_iff.mp hrest
      obtain ⟨-, u, hu, hread⟩ := (FieldTable.read_first hintent).mp hread
      obtain ⟨intent, rfl, -, hvintent, rfl⟩ := stringValue_some.mp (hintent' ▸ hu)
      have hr : (31, (⟨schema, requestId, session, epoch, intent, true⟩ : AuthorityRequest)) = (fields, r) :=
        Option.some.inj hread
      cases hr
      exact ⟨rfl, ⟨of_decide_eq_true hvschema, hvid, hvsession, hvintent⟩, rfl⟩
  · rintro ⟨rfl, hvalid, heq⟩
    obtain ⟨schema, requestId, session, epoch, intent, hasIntent⟩ := r
    obtain ⟨hvschema, hvid, hvsession, hvintent⟩ := hvalid
    simp only [AuthorityRequest.entries, List.cons_append, List.nil_append, List.cons.injEq,
      Prod.mk.injEq] at heq
    obtain ⟨⟨-, rfl⟩, ⟨-, rfl⟩, ⟨-, rfl⟩, ⟨-, rfl⟩, rfl⟩ := heq
    refine (FieldTable.read_first hschema).mpr ⟨rfl, _, hschema' ▸ u32Value_some.mpr
      ⟨_, rfl, decide_eq_true hvschema, rfl⟩, ?_⟩
    refine (FieldTable.read_first hid).mpr ⟨rfl, _, hid' ▸ stringValue_some.mpr
      ⟨_, rfl, length_of_validId hvid, hvid, rfl⟩, ?_⟩
    refine (FieldTable.read_first hsession).mpr ⟨rfl, _, hsession' ▸ stringValue_some.mpr
      ⟨_, rfl, length_of_validSession hvsession, hvsession, rfl⟩, ?_⟩
    refine (FieldTable.read_first hepoch).mpr ⟨rfl, _, hepoch' ▸ u32Value_some.mpr ⟨_, rfl, rfl, rfl⟩, ?_⟩
    cases hasIntent with
    | false =>
      obtain rfl : intent = [] := hvintent
      rfl
    | true =>
      exact (FieldTable.read_first hintent).mpr ⟨rfl, _, hintent' ▸ stringValue_some.mpr
        ⟨_, rfl, length_of_validIntent hvintent, hvintent, rfl⟩, rfl⟩

theorem authority_entries {es : List (Bytes × Data)} {fields : UInt8} {r : AuthorityRequest}
    (hread : authorityFields.read es 0 ⟨0, [], [], 0, [], false⟩ = some (fields, r))
    (hfields : fields &&& 15 = 15) : r.Checked ∧ es.Perm r.entries := by
  have hmarked {b : UInt8} (hb : 15 &&& b = b) (hne : b ≠ 0) : fields &&& b ≠ 0 := by
    rw [← hb, ← UInt8.and_assoc, hfields, hb]
    exact hne
  have hrequired {key : Bytes}
      (hkey : key ∈ [txt "schema", txt "request_id", txt "session", txt "authority_epoch"]) :
      ∃ b, authorityFields.bits key = some b ∧ 0 &&& b = 0 ∧ fields &&& b ≠ 0 := by
    simp only [List.mem_cons, List.not_mem_nil, or_false] at hkey
    rcases hkey with rfl | rfl | rfl | rfl
    · exact ⟨_, rfl, rfl, hmarked rfl (by decide)⟩
    · exact ⟨_, rfl, rfl, hmarked rfl (by decide)⟩
    · exact ⟨_, rfl, rfl, hmarked rfl (by decide)⟩
    · exact ⟨_, rfl, rfl, hmarked rfl (by decide)⟩
  obtain ⟨names, hnames, es', hperm, hkeys, hread'⟩ : ∃ names : List Bytes,
      (names = [] ∨ names = [txt "intent"]) ∧ ∃ es' : List (Bytes × Data), es.Perm es' ∧
        es'.map Prod.fst =
          [txt "schema", txt "request_id", txt "session", txt "authority_epoch"] ++ names ∧
        authorityFields.read es' 0 ⟨0, [], [], 0, [], false⟩ = some (fields, r) := by
    by_cases hintent : fields &&& 16 = 0
    · refine ⟨[], .inl rfl, FieldTable.read_keys authorityTable.lawful (by decide) hread (fun key hkey => ?_) ?_⟩
      · exact hrequired hkey
      · intro key b hb hnot _
        rcases authority_bits hb with ⟨rfl, -⟩ | ⟨rfl, -⟩ | ⟨rfl, -⟩ | ⟨rfl, -⟩ | ⟨-, rfl⟩
        · simp at hnot
        · simp at hnot
        · simp at hnot
        · simp at hnot
        · exact hintent
    · refine ⟨[txt "intent"], .inr rfl,
        FieldTable.read_keys authorityTable.lawful (by decide) hread (fun key hkey => ?_) ?_⟩
      · rcases List.mem_append.mp hkey with hkey | hkey
        · exact hrequired hkey
        · rw [List.mem_singleton.mp hkey]
          exact ⟨_, rfl, rfl, hintent⟩
      · intro key b hb hnot
        rcases authority_bits hb with ⟨rfl, -⟩ | ⟨rfl, -⟩ | ⟨rfl, -⟩ | ⟨rfl, -⟩ | ⟨rfl, -⟩ <;>
          simp at hnot
  obtain ⟨⟨_, x₁⟩, es₁, rfl, rfl, hkeys₁⟩ := List.map_eq_cons_iff.mp hkeys
  obtain ⟨⟨_, x₂⟩, es₂, rfl, rfl, hkeys₂⟩ := List.map_eq_cons_iff.mp hkeys₁
  obtain ⟨⟨_, x₃⟩, es₃, rfl, rfl, hkeys₃⟩ := List.map_eq_cons_iff.mp hkeys₂
  obtain ⟨⟨_, x₄⟩, optional, rfl, rfl, hoptional⟩ := List.map_eq_cons_iff.mp hkeys₃
  have hnames' : optional.map Prod.fst = [] ∨ optional.map Prod.fst = [txt "intent"] := by
    rw [hoptional]
    exact hnames
  obtain ⟨-, hchecked, heq⟩ := (authority_read hnames').mp hread'
  exact ⟨hchecked, heq ▸ hperm⟩

theorem authority_entries_read {es : List (Bytes × Data)} {r : AuthorityRequest} (hchecked : r.Checked)
    (hperm : es.Perm r.entries) :
    authorityFields.read es 0 ⟨0, [], [], 0, [], false⟩ =
      some (if r.hasIntent then 31 else 15, r) := by
  refine FieldTable.read_perm authorityTable.lawful hperm.symm ((authority_read ?_).mpr ⟨rfl, hchecked, rfl⟩)
  cases r.hasIntent with
  | false => exact .inl rfl
  | true => exact .inr rfl

theorem decodeAuthorityRequest_iff {payload : Bytes} {isRelease : Bool} {r : AuthorityRequest} :
    decodeAuthorityRequest payload isRelease = .ok r ↔
      Permitted payload ∧ r.Valid isRelease ∧ Spells payload r.entries := by
  have hobject {fields : UInt8} {d : AuthorityRequest} := @decodeObject_eq_ok _ _ _
    authorityTable payload ⟨0, [], [], 0, [], false⟩ d fields
  unfold decodeAuthorityRequest
  constructor
  · intro hdecode
    split at hdecode
    · cases hdecode
    · split at hdecode
      · cases hdecode
      · next fields d hok =>
        split at hdecode
        · cases hdecode
        · next hfields =>
          split at hdecode
          · cases hdecode
          · next hrelease =>
            cases hdecode
            obtain ⟨hpermitted, o, htext, hunescaped, hread⟩ := hobject.mp hok
            obtain ⟨hchecked, hperm⟩ := authority_entries hread (Decidable.not_not.mp hfields)
            exact ⟨hpermitted, ⟨hchecked, fun hr hzero => hrelease ⟨hr, hzero⟩⟩, o, htext, hunescaped,
              hperm⟩
  · rintro ⟨hpermitted, ⟨hchecked, hrelease⟩, o, htext, hunescaped, hperm⟩
    have hlen : ¬ payload.length > mqttAuthorityPayloadMax := Nat.not_lt.mpr (Nat.le_of_lt_succ hpermitted.2.1)
    have hmask : ¬ (if r.hasIntent = true then (31 : UInt8) else 15) &&& 15 ≠ 15 := by
      cases r.hasIntent <;> decide
    rw [if_neg hlen, hobject.mpr ⟨hpermitted, o, htext, hunescaped, authority_entries_read hchecked hperm⟩]
    dsimp only
    rw [if_neg hmask, if_neg fun h => hrelease h.1 h.2]

/-- A decoder with its out parameter: the decoded structure is stored on success alone. -/
def storeDecoded {α : Type} (res : Except DecodeError α) (out : α) : Option DecodeError × α :=
  match res with
  | .ok d => (none, d)
  | .error e => (some e, out)

theorem storeDecoded_ok {α : Type} {res : Except DecodeError α} {out d : α} :
    storeDecoded res out = (none, d) ↔ res = .ok d := by
  cases res with
  | ok d' => simp [storeDecoded]
  | error e => simp [storeDecoded]

theorem storeDecoded_error {α : Type} {res : Except DecodeError α} {out : α}
    (h : (storeDecoded res out).1 ≠ none) : (storeDecoded res out).2 = out := by
  cases res with
  | ok d => exact absurd rfl h
  | error e => rfl

/-- **Strict decoding**: a decoder answers OK exactly on the permitted payloads that spell a valid
structure, stores that structure, and stores nothing otherwise. -/
theorem decoders_strict (payload : Bytes) :
    (∀ out h, storeDecoded (decodeHeartbeat payload) out = (none, h) ↔
      Permitted payload ∧ h.Valid ∧ Spells payload h.entries) ∧
    (∀ action maxRpmMilli out c, storeDecoded (decodeCommand payload action maxRpmMilli) out = (none, c) ↔
      Permitted payload ∧ c.Valid action maxRpmMilli ∧ Spells payload c.entries) ∧
    (∀ isRelease out r, storeDecoded (decodeAuthorityRequest payload isRelease) out = (none, r) ↔
      Permitted payload ∧ r.Valid isRelease ∧ Spells payload r.entries) ∧
    (∀ out, (storeDecoded (decodeHeartbeat payload) out).1 ≠ none →
      (storeDecoded (decodeHeartbeat payload) out).2 = out) ∧
    (∀ action maxRpmMilli out, (storeDecoded (decodeCommand payload action maxRpmMilli) out).1 ≠ none →
      (storeDecoded (decodeCommand payload action maxRpmMilli) out).2 = out) ∧
    ∀ isRelease out, (storeDecoded (decodeAuthorityRequest payload isRelease) out).1 ≠ none →
      (storeDecoded (decodeAuthorityRequest payload isRelease) out).2 = out :=
  ⟨fun _ _ => storeDecoded_ok.trans decodeHeartbeat_iff,
    fun _ _ _ _ => storeDecoded_ok.trans decodeCommand_iff,
    fun _ _ _ => storeDecoded_ok.trans decodeAuthorityRequest_iff,
    fun _ => storeDecoded_error, fun _ _ _ => storeDecoded_error, fun _ _ => storeDecoded_error⟩

end Argus
