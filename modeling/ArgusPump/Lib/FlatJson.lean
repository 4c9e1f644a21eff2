import Mathlib.Tactic.Common

/-!
# Flat JSON objects

An object whose values are scalars, with everything of its text that means nothing: the
blanks between its tokens and the way each character of a string is written.  A string is
its written items (`Item`), which say both the text and the bytes it stands for, so a value
of `Object` is a well-formed text with its parse.

    no text of an object has a NUL byte                                  (Object.zero_notMem_text)
-/

namespace Interact

namespace FlatJson

abbrev quote : UInt8 := 0x22
abbrev backslash : UInt8 := 0x5C
abbrev colon : UInt8 := 0x3A
abbrev comma : UInt8 := 0x2C
abbrev openBrace : UInt8 := 0x7B
abbrev closeBrace : UInt8 := 0x7D

def isSpace (c : UInt8) : Bool := c = 0x20 || c = 0x09 || c = 0x0A || c = 0x0D

/-- A byte that stands for itself in a string. -/
def isPlain (c : UInt8) : Bool := 0x20 ≤ c && c ≠ quote && c ≠ backslash

def isHex (c : UInt8) : Bool :=
  (0x30 ≤ c && c ≤ 0x39) || (0x41 ≤ c && c ≤ 0x46) || (0x61 ≤ c && c ≤ 0x66)

def hexValue (c : UInt8) : Nat :=
  if c ≤ 0x39 then c.toNat - 0x30 else if c ≤ 0x46 then c.toNat - 0x37 else c.toNat - 0x57

/-- What the character after a backslash stands for. -/
def escaped (c : UInt8) : Option UInt8 :=
  if c = quote || c = backslash || c = 0x2F then some c
  else if c = 0x62 then some 0x08
  else if c = 0x66 then some 0x0C
  else if c = 0x6E then some 0x0A
  else if c = 0x72 then some 0x0D
  else if c = 0x74 then some 0x09
  else none

/-- Four hexadecimal digits. -/
structure Quad where
  digits : List UInt8
  length_eq : digits.length = 4
  hex : ∀ c ∈ digits, isHex c = true

def Quad.value (q : Quad) : Nat := q.digits.foldl (fun v c => v * 16 + hexValue c) 0

def Quad.text (q : Quad) : List UInt8 := backslash :: 0x75 :: q.digits

/-- The UTF-8 bytes of a code point. -/
def utf8 (codepoint : Nat) : List UInt8 := String.utf8EncodeChar (Char.ofNat codepoint)

/-- One written character of a string.  A surrogate that has no partner stands for no
character, so it is no item. -/
inductive Item
  | plain (c : UInt8) (h : isPlain c = true)
  | short (c d : UInt8) (h : escaped c = some d)
  | unicode (q : Quad) (h : q.value < 0xD800 ∨ 0xDFFF < q.value)
  | pair (high low : Quad) (hhigh : 0xD800 ≤ high.value ∧ high.value ≤ 0xDBFF)
      (hlow : 0xDC00 ≤ low.value ∧ low.value ≤ 0xDFFF)

namespace Item

def text : Item → List UInt8
  | plain c _ => [c]
  | short c _ _ => [backslash, c]
  | unicode q _ => q.text
  | pair high low _ _ => high.text ++ low.text

def decode : Item → List UInt8
  | plain c _ => [c]
  | short _ d _ => [d]
  | unicode q _ => utf8 q.value
  | pair high low _ _ => utf8 (0x10000 + (high.value - 0xD800) * 0x400 + (low.value - 0xDC00))

end Item

/-- The inside of a string. -/
abbrev Str := List Item

namespace Str

def text (s : Str) : List UInt8 := s.flatMap Item.text

def decode (s : Str) : List UInt8 := s.flatMap Item.decode

/-- The string with its quotes. -/
def quoted (s : Str) : List UInt8 := quote :: (text s ++ [quote])

/-- A string written without escapes. -/
def ofPlain (cs : List UInt8) (h : ∀ c ∈ cs, isPlain c = true) : Str :=
  cs.attach.map fun c => .plain c.1 (h c.1 c.2)

end Str

structure Blank where
  text : List UInt8
  space : ∀ c ∈ text, isSpace c = true

def Blank.none : Blank := ⟨[], by simp⟩

/-- A member with the blanks around its tokens. -/
structure Member (α : Type) where
  before : Blank
  name : Str
  beforeColon : Blank
  afterColon : Blank
  value : α
  after : Blank

/-- An object; `empty` stands between the braces of one without members. -/
structure Object (α : Type) where
  before : Blank
  empty : Blank
  members : List (Member α)
  after : Blank

variable {α : Type} (valueText : α → List UInt8)

def Member.text (m : Member α) : List UInt8 :=
  m.before.text ++ (Str.quoted m.name ++ (m.beforeColon.text ++
    colon :: (m.afterColon.text ++ (valueText m.value ++ m.after.text))))

def membersText : List (Member α) → List UInt8
  | [] => []
  | [m] => m.text valueText
  | m :: ms => m.text valueText ++ comma :: membersText ms

def Object.text (o : Object α) : List UInt8 :=
  o.before.text ++ openBrace ::
    ((if o.members = [] then o.empty.text else membersText valueText o.members) ++
      closeBrace :: o.after.text)

/-! ## No NUL byte -/

theorem zero_notMem_space {b : List UInt8} (h : ∀ c ∈ b, isSpace c = true) : 0 ∉ b := by
  intro h0
  exact absurd (h 0 h0) (by decide)

theorem Quad.zero_notMem_text (q : Quad) : 0 ∉ q.text := by
  unfold Quad.text
  rw [List.mem_cons, List.mem_cons]
  rintro (h | h | h)
  · exact absurd h (by decide)
  · exact absurd h (by decide)
  · exact absurd (q.hex 0 h) (by decide)

theorem Quad.quote_notMem_text (q : Quad) : quote ∉ q.text := by
  unfold Quad.text
  rw [List.mem_cons, List.mem_cons]
  rintro (h | h | h)
  · exact absurd h (by decide)
  · exact absurd h (by decide)
  · exact absurd (q.hex quote h) (by decide)

theorem Item.zero_notMem_text : ∀ i : Item, 0 ∉ i.text
  | .plain c h => by
    intro h0
    rw [← List.mem_singleton.mp h0] at h
    exact absurd h (by decide)
  | .short c d h => by
    intro h0
    rcases List.mem_cons.mp h0 with h0 | h0
    · exact absurd h0 (by decide)
    · rw [← List.mem_singleton.mp h0] at h
      rw [show escaped 0 = none by decide] at h
      cases h
  | .unicode q _ => q.zero_notMem_text
  | .pair high low _ _ => by
    intro h0
    rcases List.mem_append.mp h0 with h0 | h0
    · exact high.zero_notMem_text h0
    · exact low.zero_notMem_text h0

/-- A quote in a string is an escaped one. -/
theorem Item.text_of_quote_mem : ∀ i : Item, quote ∈ i.text → i.text = [backslash, quote]
  | .plain c h, hq => by
    rw [← List.mem_singleton.mp hq] at h
    exact absurd h (by decide)
  | .short c d h, hq => by
    rcases List.mem_cons.mp hq with hq | hq
    · exact absurd hq (by decide)
    · exact congrArg (fun c => [backslash, c]) (List.mem_singleton.mp hq).symm
  | .unicode q _, hq => absurd hq q.quote_notMem_text
  | .pair high low _ _, hq => by
    rcases List.mem_append.mp hq with hq | hq
    · exact absurd hq high.quote_notMem_text
    · exact absurd hq low.quote_notMem_text

theorem Item.exists_cons (i : Item) : ∃ c t, i.text = c :: t ∧ c ≠ quote := by
  obtain ⟨c, t, ht⟩ : ∃ c t, i.text = c :: t := by
    cases i with
    | plain c h => exact ⟨_, _, rfl⟩
    | short c d h => exact ⟨_, _, rfl⟩
    | unicode q h => exact ⟨_, _, rfl⟩
    | pair high low hhigh hlow => exact ⟨_, _, rfl⟩
  refine ⟨c, t, ht, ?_⟩
  rintro rfl
  have hquote := i.text_of_quote_mem (by rw [ht]; exact List.mem_cons_self)
  rw [ht] at hquote
  exact absurd (List.cons.inj hquote).1 (by decide)

theorem Str.zero_notMem_quoted (s : Str) : 0 ∉ s.quoted := by
  unfold Str.quoted Str.text
  rw [List.mem_cons, List.mem_append, List.mem_singleton, List.mem_flatMap]
  rintro (h | ⟨i, -, h⟩ | h)
  · exact absurd h (by decide)
  · exact i.zero_notMem_text h
  · exact absurd h (by decide)

section
variable {valueText} (hvalue : ∀ v, 0 ∉ valueText v)

include hvalue

theorem Member.zero_notMem_text (m : Member α) : 0 ∉ m.text valueText := by
  unfold Member.text
  simp only [List.mem_append, List.mem_cons]
  rintro (h | h | h | h | h | h | h)
  · exact zero_notMem_space m.before.space h
  · exact m.name.zero_notMem_quoted h
  · exact zero_notMem_space m.beforeColon.space h
  · exact absurd h (by decide)
  · exact zero_notMem_space m.afterColon.space h
  · exact hvalue m.value h
  · exact zero_notMem_space m.after.space h

theorem zero_notMem_membersText (ms : List (Member α)) : 0 ∉ membersText valueText ms := by
  fun_induction membersText valueText ms with
  | case1 => exact List.not_mem_nil
  | case2 m => exact m.zero_notMem_text hvalue
  | case3 m ms _ ih =>
    rw [List.mem_append, List.mem_cons]
    rintro (h | h | h)
    · exact m.zero_notMem_text hvalue h
    · exact absurd h (by decide)
    · exact ih h

theorem Object.zero_notMem_text (o : Object α) : 0 ∉ o.text valueText := by
  unfold Object.text
  simp only [List.mem_append, List.mem_cons]
  rintro (h | h | h | h | h)
  · exact zero_notMem_space o.before.space h
  · exact absurd h (by decide)
  · split at h
    · exact zero_notMem_space o.empty.space h
    · exact zero_notMem_membersText hvalue o.members h
  · exact absurd h (by decide)
  · exact zero_notMem_space o.after.space h

end

/-! ## Blanks -/

def skip (s : List UInt8) : List UInt8 := s.dropWhile isSpace

theorem skip_blank (b : Blank) (s : List UInt8) : skip (b.text ++ s) = skip s :=
  List.dropWhile_append_of_pos b.space

theorem exists_blank (s : List UInt8) : ∃ b : Blank, s = b.text ++ skip s :=
  ⟨⟨s.takeWhile isSpace, List.all_eq_true.mp List.all_takeWhile⟩, List.takeWhile_append_dropWhile.symm⟩

theorem skip_cons {c : UInt8} (hc : isSpace c = false) (s : List UInt8) : skip (c :: s) = c :: s :=
  List.dropWhile_cons_of_neg (by simp [hc])

theorem skip_eq_nil {s : List UInt8} : skip s = [] ↔ ∃ b : Blank, s = b.text := by
  constructor
  · intro h
    obtain ⟨b, hb⟩ := exists_blank s
    rw [h, List.append_nil] at hb
    exact ⟨b, hb⟩
  · rintro ⟨b, rfl⟩
    rw [← List.append_nil b.text, skip_blank]
    rfl

theorem skip_skip (s : List UInt8) : skip (skip s) = skip s := by
  obtain ⟨b, hb⟩ := exists_blank s
  rw [← skip_blank b, ← hb]

/-! ## Scalars -/

def isDigit (c : UInt8) : Bool := 0x30 ≤ c && c ≤ 0x39

def decimal (ds : List UInt8) : Nat := ds.foldl (fun v d => v * 10 + (d.toNat - 0x30)) 0

/-- An integer without sign, leading zero, fraction and exponent. -/
structure Number where
  digits : List UInt8
  digit : ∀ c ∈ digits, isDigit c = true
  ne_nil : digits ≠ []
  leading : digits.length = 1 ∨ digits.head? ≠ some 0x30

/-- A value as it is written. -/
inductive Scalar
  | string (s : Str)
  | number (n : Number)
  | bool (b : Bool)

/-- What a value is. -/
inductive Data
  | string (s : List UInt8)
  | number (n : Nat)
  | bool (b : Bool)
deriving DecidableEq

def boolText : Bool → List UInt8
  | true => [0x74, 0x72, 0x75, 0x65]
  | false => [0x66, 0x61, 0x6C, 0x73, 0x65]

namespace Scalar

def text : Scalar → List UInt8
  | string s => s.quoted
  | number n => n.digits
  | bool b => boolText b

def data : Scalar → Data
  | string s => .string s.decode
  | number n => .number (decimal n.digits)
  | bool b => .bool b

end Scalar

theorem Number.skip_digits (n : Number) (rest : List UInt8) :
    skip (n.digits ++ rest) = n.digits ++ rest := by
  obtain ⟨d, ds, hds⟩ := List.exists_cons_of_ne_nil n.ne_nil
  have hd := n.digit d (by rw [hds]; exact List.mem_cons_self)
  have hspace : isSpace d = false := by
    simp only [isDigit, Bool.and_eq_true, decide_eq_true_eq] at hd
    simp only [isSpace, Bool.or_eq_false_iff, decide_eq_false_iff_not]
    refine ⟨⟨⟨?_, ?_⟩, ?_⟩, ?_⟩ <;> rintro rfl <;> exact absurd hd.1 (by decide)
  rw [hds, List.cons_append, skip_cons hspace]

/-- A value starts with no blank. -/
theorem Scalar.skip_text (x : Scalar) (rest : List UInt8) : skip (x.text ++ rest) = x.text ++ rest := by
  cases x with
  | string s => exact skip_cons (by decide) _
  | number n => exact n.skip_digits rest
  | bool b =>
    cases b with
    | true => exact skip_cons (by decide) _
    | false => exact skip_cons (by decide) _

/-- What follows an integer is no further part of a number. -/
def Number.Ends (rest : List UInt8) : Prop :=
  ∀ c, rest.head? = some c → isDigit c = false ∧ c ≠ 0x2E ∧ c ≠ 0x65 ∧ c ≠ 0x45

def Scalar.Ends : Scalar → List UInt8 → Prop
  | .string _, _ => True
  | .number _, rest => Number.Ends rest
  | .bool _, _ => True

/-- No character is written as an escape. -/
def Str.Unescaped (s : Str) : Prop := ∀ i ∈ s, ∃ c h, i = .plain c h

theorem Str.Unescaped.text_eq {s : Str} (h : s.Unescaped) : s.text = s.decode := by
  induction s with
  | nil => rfl
  | cons i s ih =>
    obtain ⟨c, hc, rfl⟩ := h i List.mem_cons_self
    exact congrArg (c :: ·) (ih fun j hj => h j (List.mem_cons_of_mem _ hj))

theorem Str.Unescaped.plain {s : Str} (h : s.Unescaped) : ∀ c ∈ s.decode, isPlain c = true := by
  intro c hc
  obtain ⟨i, hi, hci⟩ := List.mem_flatMap.mp hc
  obtain ⟨d, hd, rfl⟩ := h i hi
  rwa [List.mem_singleton.mp hci]

theorem Str.unescaped_ofPlain {cs : List UInt8} (h : ∀ c ∈ cs, isPlain c = true) :
    (Str.ofPlain cs h).Unescaped := by
  intro i hi
  obtain ⟨c, -, rfl⟩ := List.mem_map.mp hi
  exact ⟨_, _, rfl⟩

theorem Str.decode_ofPlain {cs : List UInt8} (h : ∀ c ∈ cs, isPlain c = true) :
    (Str.ofPlain cs h).decode = cs := by
  unfold Str.decode Str.ofPlain
  rw [List.flatMap_map]
  have hone : cs.attach.flatMap (fun c => Item.decode (.plain c.1 (h c.1 c.2))) =
      cs.attach.map Subtype.val := List.map_eq_flatMap.symm
  rw [hone, List.attach_map_subtype_val]

def Scalar.Unescaped : Scalar → Prop
  | .string s => s.Unescaped
  | .number _ => True
  | .bool _ => True

def Member.Unescaped (m : Member Scalar) : Prop := m.name.Unescaped ∧ m.value.Unescaped

def Object.Unescaped (o : Object Scalar) : Prop :=
  ∀ m ∈ o.members, m.Unescaped

def Member.entry (m : Member Scalar) : List UInt8 × Data := (m.name.decode, m.value.data)

/-- What an object says: its names and values, in order. -/
def Object.entries (o : Object Scalar) : List (List UInt8 × Data) := o.members.map Member.entry

theorem length_le_membersText {α : Type} (valueText : α → List UInt8) (ms : List (Member α)) :
    ms.length ≤ (membersText valueText ms).length := by
  fun_induction membersText valueText ms with
  | case1 => exact Nat.le_refl _
  | case2 m =>
    unfold Member.text
    simp only [List.length_append, List.length_cons, List.length_nil]
    omega
  | case3 m ms _ ih =>
    simp only [List.length_append, List.length_cons]
    omega

theorem membersText_cons_append {α : Type} (valueText : α → List UInt8) (m m' : Member α)
    (ms : List (Member α)) (rest : List UInt8) :
    membersText valueText (m :: m' :: ms) ++ rest =
      m.text valueText ++ comma :: (membersText valueText (m' :: ms) ++ rest) :=
  List.append_assoc _ _ _

theorem Member.text_append {α : Type} (valueText : α → List UInt8) (m : Member α) (rest : List UInt8) :
    m.text valueText ++ rest = m.before.text ++ (m.name.quoted ++ (m.beforeColon.text ++
      colon :: (m.afterColon.text ++ (valueText m.value ++ (m.after.text ++ rest))))) := by
  simp [Member.text]

theorem Scalar.ends_after (x : Scalar) (b : Blank) {c : UInt8} (hc : c = comma ∨ c = closeBrace)
    (rest : List UInt8) : x.Ends (b.text ++ c :: rest) := by
  have hends : Number.Ends (b.text ++ c :: rest) := by
    intro e he
    have hor : isSpace e = true ∨ e = comma ∨ e = closeBrace := by
      cases hb : b.text with
      | nil =>
        rw [hb] at he
        cases he
        exact .inr hc
      | cons e' u =>
        rw [hb] at he
        cases he
        exact .inl (b.space _ (by rw [hb]; exact List.mem_cons_self))
    rcases hor with hspace | rfl | rfl
    · simp only [isSpace, Bool.or_eq_true, decide_eq_true_eq] at hspace
      rcases hspace with ((rfl | rfl) | rfl) | rfl <;> decide
    · decide
    · decide
  cases x with
  | string s => trivial
  | number n => exact hends
  | bool v => trivial

end FlatJson

end Interact
