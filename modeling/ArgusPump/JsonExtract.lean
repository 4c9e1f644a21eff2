import ArgusPump.Lib.FlatJson
import ArgusPump.NvsConfig

/-!
# Extraction of configuration strings

`main/argus_json.c`: the search for a quoted key in the raw text of a body, and the string
behind it.  A C string is its bytes before the NUL; a position in one is the rest of it.
The bodies are the texts of flat objects with string values.

    on which objects the header's promise is kept                     (extracts_iff)
    a key written as itself and in no other string                    (extracts_of_spelled)
    a value that is the key hides the member                          (value_hides_member)

Left out: NULL arguments.
-/

namespace Argus

open Interact.FlatJson

/-- `argus_json_result_t`. -/
inductive JsonResult
  | ok | keyAbsent | typeMismatch | unterminated | overflow
deriving DecidableEq, Repr

/-- `search`, 80 bytes with the NUL. -/
def searchPattern (key : List UInt8) : List UInt8 := (quote :: (key ++ [quote])).take 79

def strstr (needle : List UInt8) : List UInt8 → Option (List UInt8)
  | [] => if needle = [] then some [] else none
  | c :: s => if needle <+: c :: s then some (c :: s) else strstr needle s

/-- The first walk over a value, `i` characters into it: where it stops, or `OVERFLOW`. -/
def measureValue (outSize : Nat) : Nat → List UInt8 → Option (List UInt8)
  | _, [] => some []
  | i, [c] =>
    if c = quote then some [c] else if outSize - 1 ≤ i then none else some []
  | i, c :: d :: s =>
    if c = quote then some (c :: d :: s)
    else if outSize - 1 ≤ i then none
    else if c = backslash then measureValue outSize (i + 1) s
    else measureValue outSize (i + 1) (d :: s)

/-- The second walk: the bytes it stores. -/
def copyValue : List UInt8 → List UInt8
  | [] => []
  | [c] => if c = quote then [] else [c]
  | c :: d :: s =>
    if c = quote then []
    else if c = backslash then d :: copyValue s
    else c :: copyValue (d :: s)

/-- Behind the opening quote of the value, once the first walk has seen colon and quote. -/
def valueStart (search p : List UInt8) : List UInt8 :=
  (skip (skip (p.drop search.length)).tail).tail

/-- `argus_json_extract_string`. -/
def jsonExtractString {n : Nat} (json key : List UInt8) (out : Vector UInt8 n) :
    JsonResult × Vector UInt8 n :=
  if n = 0 then (.keyAbsent, out)
  else
    match strstr (searchPattern key) json with
    | none => (.keyAbsent, out)
    | some p =>
      if (skip (p.drop (searchPattern key).length)).head? ≠ some colon then
        (.typeMismatch, out)
      else if (skip (skip (p.drop (searchPattern key).length)).tail).head? ≠
          some quote then
        (.typeMismatch, out)
      else
        match measureValue n 0 (valueStart (searchPattern key) p) with
        | none => (.overflow, out)
        | some rest =>
          if rest.head? ≠ some quote then (.unterminated, out)
          else (.ok, putString out (copyValue (valueStart (searchPattern key) p)))

/-- `argus_json_has_key`. -/
def jsonHasKey (json key : List UInt8) : Bool := (strstr (searchPattern key) json).isSome

/-! ## The search -/

theorem strstr_eq_none {needle text : List UInt8} : strstr needle text = none ↔ ¬ needle <:+: text := by
  induction text with
  | nil =>
    unfold strstr
    rw [List.infix_nil]
    by_cases hn : needle = []
    · simp [hn]
    · simp [hn]
  | cons c s ih =>
    unfold strstr
    rw [List.infix_cons_iff]
    split
    · next h => simp [h]
    · next h => simp [h, ih]

/-- The search returns the first position at which the text goes on with the needle. -/
theorem strstr_eq_some {needle text p : List UInt8} :
    strstr needle text = some p ↔ ∃ before, text = before ++ p ∧ needle <+: p ∧
      ∀ b r, text = b ++ r → needle <+: r → before.length ≤ b.length := by
  induction text generalizing p with
  | nil =>
    unfold strstr
    constructor
    · intro h
      split at h
      · next hn =>
        cases h
        exact ⟨[], rfl, hn ▸ List.nil_prefix, fun b r _ _ => Nat.zero_le _⟩
      · cases h
    · rintro ⟨before, heq, hpre, -⟩
      obtain ⟨-, rfl⟩ := List.append_eq_nil_iff.mp heq.symm
      rw [if_pos (List.prefix_nil.mp hpre)]
  | cons c s ih =>
    unfold strstr
    by_cases hpre : needle <+: c :: s
    · rw [if_pos hpre]
      constructor
      · intro h
        cases h
        exact ⟨[], rfl, hpre, fun b r _ _ => Nat.zero_le _⟩
      · rintro ⟨before, heq, -, hfirst⟩
        have hnil := List.length_eq_zero_iff.mp (Nat.le_zero.mp (hfirst [] (c :: s) rfl hpre))
        rw [hnil] at heq
        rw [heq, List.nil_append]
    · rw [if_neg hpre, ih]
      constructor
      · rintro ⟨before, rfl, hp, hfirst⟩
        refine ⟨c :: before, rfl, hp, ?_⟩
        intro b r heq hr
        cases b with
        | nil =>
          rw [heq, List.nil_append] at hpre
          exact absurd hr hpre
        | cons d b =>
          rw [List.cons_append] at heq
          exact Nat.succ_le_succ (hfirst b r (List.cons.inj heq).2 hr)
      · rintro ⟨before, heq, hp, hfirst⟩
        cases before with
        | nil =>
          rw [heq] at hpre
          exact absurd hp hpre
        | cons d before =>
          rw [List.cons_append] at heq
          obtain ⟨rfl, rfl⟩ := List.cons.inj heq
          refine ⟨before, rfl, hp, ?_⟩
          intro b r heq' hr
          exact Nat.le_of_succ_le_succ (hfirst (c :: b) r (by rw [heq', List.cons_append]) hr)

theorem strstr_of_start {needle text : List UInt8} (h : needle <+: text) :
    strstr needle text = some text :=
  strstr_eq_some.mpr ⟨[], rfl, h, fun _ _ _ _ => Nat.zero_le _⟩

theorem searchPattern_eq {key : List UInt8} (hkey : key.length ≤ 77) :
    searchPattern key = quote :: (key ++ [quote]) := by
  unfold searchPattern
  apply List.take_of_length_le
  simp only [List.length_cons, List.length_append, List.length_nil]
  omega

/-! ## The value -/

/-- The text of a value as the function reads it: a backslash stands for nothing. -/
inductive Reads : List UInt8 → List UInt8 → Prop
  | nil : Reads [] []
  | plain {c : UInt8} {raw v : List UInt8} (hquote : c ≠ quote) (hback : c ≠ backslash)
      (h : Reads raw v) : Reads (c :: raw) (c :: v)
  | skipped {c : UInt8} {raw v : List UInt8} (h : Reads raw v) : Reads (backslash :: c :: raw) (c :: v)

theorem exists_cons_append (raw rest : List UInt8) :
    ∃ d s, raw ++ quote :: rest = d :: s := by
  cases raw with
  | nil => exact ⟨_, _, rfl⟩
  | cons d s => exact ⟨_, _, rfl⟩

theorem copyValue_append {raw v : List UInt8} (h : Reads raw v) (rest : List UInt8) :
    copyValue (raw ++ quote :: rest) = v := by
  induction h with
  | nil => cases rest <;> simp [copyValue]
  | @plain c raw v hquote hback _ ih =>
    obtain ⟨d, s, hs⟩ := exists_cons_append raw rest
    rw [List.cons_append, hs, copyValue, if_neg hquote, if_neg hback, ← hs, ih]
  | skipped _ ih =>
    rw [List.cons_append, List.cons_append, copyValue, if_neg (by decide), if_pos rfl, ih]

theorem measureValue_append {raw v : List UInt8} (h : Reads raw v) (rest : List UInt8) {n i : Nat}
    (hroom : i + v.length < n) : measureValue n i (raw ++ quote :: rest) = some (quote :: rest) := by
  induction h generalizing i with
  | nil => cases rest <;> simp [measureValue]
  | @plain c raw v hquote hback _ ih =>
    rw [List.length_cons] at hroom
    obtain ⟨d, s, hs⟩ := exists_cons_append raw rest
    rw [List.cons_append, hs, measureValue, if_neg hquote, if_neg (by omega), if_neg hback, ← hs]
    exact ih (by omega)
  | skipped _ ih =>
    rw [List.length_cons] at hroom
    rw [List.cons_append, List.cons_append, measureValue, if_neg (by decide), if_neg (by omega),
      if_pos rfl]
    exact ih (by omega)

/-- The first walk ends at a quote behind a value that leaves room for the NUL. -/
theorem measureValue_some {n i : Nat} {p rest : List UInt8} (hi : i < n)
    (h : measureValue n i p = some (quote :: rest)) :
    ∃ raw v, p = raw ++ quote :: rest ∧ Reads raw v ∧ i + v.length < n := by
  fun_induction measureValue n i p with
  | case1 i => cases h
  | case2 i =>
    cases h
    exact ⟨[], [], rfl, .nil, hi⟩
  | case3 i c hc hroom => cases h
  | case4 i c hc hroom => cases h
  | case5 i d s =>
    cases h
    exact ⟨[], [], rfl, .nil, hi⟩
  | case6 i c d s hc hroom => cases h
  | case7 i d s hroom _ ih =>
    obtain ⟨raw, v, rfl, hreads, hlen⟩ := ih (by omega) h
    refine ⟨_, _, rfl, .skipped (c := d) hreads, ?_⟩
    rw [List.length_cons]
    omega
  | case8 i c d s hc hroom hback ih =>
    obtain ⟨raw, v, heq, hreads, hlen⟩ := ih (by omega) h
    refine ⟨c :: raw, c :: v, by rw [heq, List.cons_append], .plain hc hback hreads, ?_⟩
    rw [List.length_cons]
    omega

theorem Reads.subset {raw v : List UInt8} (h : Reads raw v) : v ⊆ raw := by
  induction h with
  | nil => exact List.Subset.refl _
  | plain _ _ _ ih => exact List.cons_subset_cons _ ih
  | skipped _ ih => exact List.subset_cons_of_subset _ (List.cons_subset_cons _ ih)

/-! ## What a call returns -/

/-- The quoted key stands in the text, at its first place followed by a colon and a string
that reads as `v`. -/
def FirstReads (text key v : List UInt8) : Prop :=
  ∃ (before : List UInt8) (b₁ b₂ : Blank) (raw rest : List UInt8),
    text = before ++ (quote :: (key ++ [quote]) ++
      (b₁.text ++ colon :: (b₂.text ++ quote :: (raw ++ quote :: rest)))) ∧
    (∀ b r, text = b ++ r → quote :: (key ++ [quote]) <+: r → before.length ≤ b.length) ∧ Reads raw v

theorem FirstReads.zero_notMem {text key v : List UInt8} (h : FirstReads text key v)
    (h0 : 0 ∉ text) : 0 ∉ v := by
  obtain ⟨before, b₁, b₂, raw, rest, rfl, -, hreads⟩ := h
  intro hv
  have := hreads.subset hv
  simp [this] at h0

section
variable {n : Nat} {text key : List UInt8} (hkey : key.length ≤ 77)

include hkey

/-- All a call can do. -/
theorem jsonExtractString_cases (out : Vector UInt8 n) :
    ((n = 0 ∨ ¬ quote :: (key ++ [quote]) <:+: text) ∧
      jsonExtractString text key out = (.keyAbsent, out)) ∨
    (0 < n ∧ quote :: (key ++ [quote]) <:+: text ∧
      ((∃ r, r ≠ .ok ∧ r ≠ .keyAbsent ∧ jsonExtractString text key out = (r, out)) ∨
        ∃ v, FirstReads text key v ∧ v.length < n ∧
          jsonExtractString text key out = (.ok, putString out v))) := by
  unfold jsonExtractString
  rw [searchPattern_eq hkey]
  by_cases hn : n = 0
  · rw [if_pos hn]
    exact .inl ⟨.inl hn, rfl⟩
  rw [if_neg hn]
  cases hp : strstr (quote :: (key ++ [quote])) text with
  | none => exact .inl ⟨.inr (strstr_eq_none.mp hp), rfl⟩
  | some p =>
    obtain ⟨before, htext, ⟨s, rfl⟩, hfirst⟩ := strstr_eq_some.mp hp
    refine .inr ⟨by omega, ⟨before, s, by rw [htext, List.append_assoc]⟩, ?_⟩
    unfold valueStart
    dsimp only
    rw [List.drop_left]
    by_cases hcolon : (skip s).head? = some colon
    · obtain ⟨s₁, hs₁⟩ := List.head?_eq_some_iff.mp hcolon
      obtain ⟨b₁, hb₁⟩ := exists_blank s
      rw [if_neg (not_not.mpr hcolon), hs₁, List.tail_cons]
      by_cases hquote : (skip s₁).head? = some quote
      · obtain ⟨s₂, hs₂⟩ := List.head?_eq_some_iff.mp hquote
        obtain ⟨b₂, hb₂⟩ := exists_blank s₁
        rw [if_neg (not_not.mpr hquote), hs₂, List.tail_cons]
        cases hq : measureValue n 0 s₂ with
        | none => exact .inl ⟨.overflow, by decide, by decide, rfl⟩
        | some q =>
          dsimp only
          by_cases hend : q.head? = some quote
          · obtain ⟨rest, rfl⟩ := List.head?_eq_some_iff.mp hend
            obtain ⟨raw, v, rfl, hreads, hlen⟩ := measureValue_some (by omega) hq
            rw [if_neg (not_not.mpr hend), copyValue_append hreads]
            exact .inr ⟨v, ⟨before, b₁, b₂, raw, rest, by rw [htext, hb₁, hs₁, hb₂, hs₂], hfirst, hreads⟩,
              by omega, rfl⟩
          · rw [if_pos hend]
            exact .inl ⟨.unterminated, by decide, by decide, rfl⟩
      · rw [if_pos hquote]
        exact .inl ⟨.typeMismatch, by decide, by decide, rfl⟩
    · rw [if_pos hcolon]
      exact .inl ⟨.typeMismatch, by decide, by decide, rfl⟩

theorem jsonExtractString_of_firstReads {v : List UInt8} (h : FirstReads text key v)
    (hlen : v.length < n) (out : Vector UInt8 n) :
    jsonExtractString text key out = (.ok, putString out v) := by
  obtain ⟨before, b₁, b₂, raw, rest, htext, hfirst, hreads⟩ := h
  have hp : strstr (quote :: (key ++ [quote])) text = some _ :=
    strstr_eq_some.mpr ⟨before, htext, List.prefix_append _ _, hfirst⟩
  unfold jsonExtractString
  rw [if_neg (by omega), searchPattern_eq hkey, hp]
  unfold valueStart
  simp only [List.drop_left, skip_blank, skip_cons (show isSpace colon = false by decide),
    skip_cons (show isSpace quote = false by decide), List.tail_cons,
    List.head?_cons, ne_eq, not_true_eq_false, if_false,
    measureValue_append hreads rest (show 0 + v.length < n by omega), copyValue_append hreads rest]

theorem jsonExtractString_absent (out : Vector UInt8 n) :
    (jsonExtractString text key out).1 = .keyAbsent ↔
      ¬ (0 < n ∧ quote :: (key ++ [quote]) <:+: text) := by
  rcases jsonExtractString_cases hkey out with ⟨hor, h⟩ | ⟨hn, hin, ⟨r, -, hr, h⟩ | ⟨v, -, -, h⟩⟩
  · rw [h]
    refine ⟨fun _ hand => ?_, fun _ => rfl⟩
    rcases hor with hzero | hnot
    · omega
    · exact hnot hand.2
  · rw [h]
    exact ⟨fun habs => absurd habs hr, fun hnot => absurd ⟨hn, hin⟩ hnot⟩
  · rw [h]
    exact ⟨fun habs => absurd habs (by simp), fun hnot => absurd ⟨hn, hin⟩ hnot⟩

theorem jsonHasKey_iff (hn : 0 < n) (out : Vector UInt8 n) :
    jsonHasKey text key = true ↔ (jsonExtractString text key out).1 ≠ .keyAbsent := by
  unfold jsonHasKey
  rw [searchPattern_eq hkey, ne_eq, jsonExtractString_absent hkey, not_not, Option.isSome_iff_ne_none,
    ne_eq, strstr_eq_none, not_not]
  exact ⟨fun h => ⟨hn, h⟩, fun h => h.2⟩

theorem jsonExtractString_unchanged (out : Vector UInt8 n)
    (h : (jsonExtractString text key out).1 ≠ .ok) : (jsonExtractString text key out).2 = out := by
  rcases jsonExtractString_cases hkey out with ⟨-, heq⟩ | ⟨-, -, ⟨r, -, -, heq⟩ | ⟨v, -, -, heq⟩⟩
  · rw [heq]
  · rw [heq]
  · rw [heq] at h
    exact absurd rfl h

end

/-! ## Extraction from well-formed objects -/

def objectText (o : Object Str) : List UInt8 := o.text Str.quoted

theorem zero_notMem_objectText (o : Object Str) : 0 ∉ objectText o :=
  o.zero_notMem_text Str.zero_notMem_quoted

/-- What the header promises of a call on an object's text: the decoded value of the member
with the name, if there is one and the value fits with its NUL, and `KEY_ABSENT` exactly if
there is none. -/
structure Extracts {n : Nat} (o : Object Str) (key : List UInt8) (out : Vector UInt8 n) : Prop where
  value : ∀ m, o.members.filter (fun m => m.name.decode = key) = [m] → m.value.decode.length < n →
    (jsonExtractString (objectText o) key out).1 = .ok ∧
      cString (jsonExtractString (objectText o) key out).2 = m.value.decode
  absent : (jsonExtractString (objectText o) key out).1 = .keyAbsent ↔
    ∀ m ∈ o.members, m.name.decode ≠ key
  unchanged : (jsonExtractString (objectText o) key out).1 ≠ .ok →
    (jsonExtractString (objectText o) key out).2 = out

/-- A call keeps the promise exactly on these texts: the quoted key stands in the text just
when a member has the name, and its first place is in front of the member's value, written so
that dropping the backslashes decodes it. -/
theorem extracts_iff {n : Nat} (o : Object Str) (key : List UInt8) (hkey : key.length ≤ 77)
    (out : Vector UInt8 n) :
    Extracts o key out ↔
      ((∃ m ∈ o.members, m.name.decode = key) ↔
        0 < n ∧ quote :: (key ++ [quote]) <:+: objectText o) ∧
      ∀ m, o.members.filter (fun m => m.name.decode = key) = [m] → m.value.decode.length < n →
        FirstReads (objectText o) key m.value.decode := by
  have habsent := @jsonExtractString_absent n (objectText o) key hkey out
  constructor
  · rintro ⟨hvalue, habs, -⟩
    refine ⟨?_, fun m hm hlen => ?_⟩
    · rw [← not_iff_not, ← habsent, habs]
      simp
    · obtain ⟨hok, hstring⟩ := hvalue m hm hlen
      rcases @jsonExtractString_cases n (objectText o) key hkey out with
        ⟨-, h⟩ | ⟨-, -, ⟨r, hr, -, h⟩ | ⟨v, hv, hlen', h⟩⟩
      · rw [h] at hok
        cases hok
      · rw [h] at hok
        exact absurd hok hr
      · rw [h] at hstring
        rw [← hstring, cString_putString out hlen' (hv.zero_notMem (zero_notMem_objectText o))]
        exact hv
  · rintro ⟨hfound, hreads⟩
    refine ⟨fun m hm hlen => ?_, ?_, jsonExtractString_unchanged hkey out⟩
    · have hv := hreads m hm hlen
      rw [jsonExtractString_of_firstReads hkey hv hlen out]
      exact ⟨rfl, cString_putString out hlen (hv.zero_notMem (zero_notMem_objectText o))⟩
    · rw [habsent, ← hfound]
      simp

/-- `"ssid":"net"`. -/
def ssidMember : Member Str :=
  ⟨.none, .ofPlain (asciiBytes "ssid") (List.all_eq_true.mp rfl), .none, .none,
    .ofPlain (asciiBytes "net") (List.all_eq_true.mp rfl), .none⟩

/-- `"note":"ssid"`. -/
def noteMember : Member Str :=
  ⟨.none, .ofPlain (asciiBytes "note") (List.all_eq_true.mp rfl), .none, .none,
    .ofPlain (asciiBytes "ssid") (List.all_eq_true.mp rfl), .none⟩

/-- The member is found where no other string of the object is the key. -/
theorem extracts_iff_ssid :
    (asciiBytes "ssid").length ≤ 77 ∧
      Extracts ⟨.none, .none, [ssidMember], .none⟩ (asciiBytes "ssid") (Vector.replicate 33 0xFF) := by
  refine ⟨by decide, (extracts_iff _ _ (by decide) _).mpr ⟨?_, fun m hm _ => ?_⟩⟩
  · exact ⟨fun _ => ⟨by decide, [openBrace], _, rfl⟩,
      fun _ => ⟨ssidMember, List.mem_singleton.mpr rfl, rfl⟩⟩
  · obtain rfl : ssidMember = m := by
      have h : [ssidMember] = [m] := hm
      exact (List.cons.inj h).1
    refine ⟨[openBrace], .none, .none, asciiBytes "net", [closeBrace], rfl, ?_, ?_⟩
    · intro b r heq hpre
      cases b with
      | nil =>
        rw [← List.nil_append r, ← heq] at hpre
        exact absurd hpre (by decide)
      | cons c b => exact Nat.succ_le_succ (Nat.zero_le _)
    · exact .plain (by decide) (by decide) (.plain (by decide) (by decide)
        (.plain (by decide) (by decide) .nil))

/-- In `{"note":"ssid","ssid":"net"}` the value `"ssid"` is taken for the key. -/
theorem value_hides_member :
    ¬ ∀ (n : Nat) (o : Object Str) (key : List UInt8) (out : Vector UInt8 n), key.length ≤ 77 →
      (∀ c ∈ key, isPlain c = true) → Extracts o key out := by
  intro h
  have hvalue := (h 33 ⟨.none, .none, [noteMember, ssidMember], .none⟩ (asciiBytes "ssid")
    (Vector.replicate 33 0xFF) (by decide) (List.all_eq_true.mp rfl)).value ssidMember rfl (by decide)
  exact absurd hvalue.1 (by decide)

/-! ## Where a quoted key can stand -/

/-- The key is the string, or ends it behind an escaped quote. -/
def EndsIn (key : List UInt8) (s : Str) : Prop := quote :: key <:+ quote :: s.text

/-- What stands between two strings of an object. -/
def Separator (s : List UInt8) : Prop :=
  ∃ (b₁ b₂ : Blank) (c : UInt8), s = b₁.text ++ c :: b₂.text ∧ (c = colon ∨ c = comma)

theorem Separator.quote_notMem {s : List UInt8} (h : Separator s) : quote ∉ s := by
  obtain ⟨b₁, b₂, c, rfl, hc⟩ := h
  rw [List.mem_append, List.mem_cons]
  rintro (h | h | h)
  · exact absurd (b₁.space _ h) (by decide)
  · rcases hc with rfl | rfl
    · exact absurd h (by decide)
    · exact absurd h (by decide)
  · exact absurd (b₂.space _ h) (by decide)

/-- A member from its name on. -/
def fromName (m : Member Str) : List UInt8 :=
  m.name.quoted ++ (m.beforeColon.text ++ colon :: (m.afterColon.text ++ (m.value.quoted ++ m.after.text)))

/-- The members from the first name on. -/
def fromFirst : List (Member Str) → List UInt8
  | [] => []
  | [m] => fromName m
  | m :: ms => fromName m ++ comma :: membersText Str.quoted ms

theorem membersText_eq (m : Member Str) (ms : List (Member Str)) :
    membersText Str.quoted (m :: ms) = m.before.text ++ fromFirst (m :: ms) := by
  cases ms with
  | nil => rfl
  | cons m' ms => exact List.append_assoc _ _ _

theorem fromFirst_eq_quote (m : Member Str) (ms : List (Member Str)) :
    ∃ u, fromFirst (m :: ms) = quote :: u := by
  cases ms with
  | nil => exact ⟨_, rfl⟩
  | cons m' ms => exact ⟨_, rfl⟩

section
variable {key : List UInt8} (hplain : ∀ c ∈ key, isPlain c = true)

theorem strstr_skip {s : List UInt8} (hs : quote ∉ s) (rest : List UInt8) :
    strstr (quote :: (key ++ [quote])) (s ++ rest) = strstr (quote :: (key ++ [quote])) rest := by
  induction s with
  | nil => rfl
  | cons c s ih =>
    rw [List.mem_cons, not_or] at hs
    rw [List.cons_append, strstr, if_neg, ih hs.2]
    rw [List.cons_prefix_cons]
    exact fun h => hs.1 h.1

theorem strstr_last {s : List UInt8} (hs : quote ∉ s) :
    strstr (quote :: (key ++ [quote])) (quote :: s) = none := by
  have hend : strstr (quote :: (key ++ [quote])) s = none := by
    rw [← List.append_nil s, strstr_skip hs]
    rfl
  rw [strstr, if_neg, hend]
  rw [List.cons_prefix_cons]
  rintro ⟨-, t, ht⟩
  apply hs
  rw [← ht]
  simp

theorem strstr_objectText {o : Object Str} {m : Member Str} {ms : List (Member Str)}
    (ho : o.members = m :: ms) :
    strstr (quote :: (key ++ [quote])) (objectText o) =
      strstr (quote :: (key ++ [quote])) (fromFirst (m :: ms) ++ closeBrace :: o.after.text) := by
  have hlead : quote ∉ o.before.text ++ openBrace :: m.before.text := by
    rw [List.mem_append, List.mem_cons]
    rintro (h | h | h)
    · exact absurd (o.before.space _ h) (by decide)
    · exact absurd h (by decide)
    · exact absurd (m.before.space _ h) (by decide)
  have hsplit : objectText o = (o.before.text ++ openBrace :: m.before.text) ++
      (fromFirst (m :: ms) ++ closeBrace :: o.after.text) := by
    unfold objectText Object.text
    rw [ho, if_neg (List.cons_ne_nil m ms), membersText_eq]
    simp
  rw [hsplit, strstr_skip hlead]

include hplain

theorem quote_notMem_key : quote ∉ key := by
  intro h
  exact absurd (hplain _ h) (by decide)

theorem eq_of_prefix_word {s rest : List UInt8} (hs : quote ∉ s)
    (h : key ++ [quote] <+: s ++ quote :: rest) : s = key := by
  obtain ⟨t, ht⟩ := h
  have hkeep {w : List UInt8} (hw : quote ∉ w) (u : List UInt8) :
      (w ++ quote :: u).takeWhile (· ≠ quote) = w := by
    rw [List.takeWhile_append_of_pos, List.takeWhile_cons_of_neg (by simp), List.append_nil]
    intro c hc
    have hne : c ≠ quote := by
      rintro rfl
      exact hw hc
    simpa using hne
  rw [List.append_assoc, List.singleton_append] at ht
  rw [← hkeep hs rest, ← ht, hkeep (quote_notMem_key hplain)]

/-- Between two quotes the search finds nothing but the key itself. -/
theorem strstr_word {s : List UInt8} (hs : quote ∉ s) (hne : s ≠ key) (rest : List UInt8) :
    strstr (quote :: (key ++ [quote])) (quote :: (s ++ quote :: rest)) =
      strstr (quote :: (key ++ [quote])) (quote :: rest) := by
  rw [strstr, if_neg, strstr_skip hs]
  rw [List.cons_prefix_cons]
  exact fun h => hne (eq_of_prefix_word hplain hs h.2)

theorem strstr_string (s : Str) {done : List UInt8} (hdone : quote ∉ done)
    (h : ¬ quote :: key <:+ quote :: (done ++ s.text)) (rest : List UInt8) :
    strstr (quote :: (key ++ [quote])) (quote :: (done ++ s.text ++ quote :: rest)) =
      strstr (quote :: (key ++ [quote])) (quote :: rest) := by
  induction s generalizing done with
  | nil =>
    have hnil : Str.text [] = [] := rfl
    rw [hnil, List.append_nil] at h ⊢
    refine strstr_word hplain hdone ?_ rest
    rintro rfl
    exact h (List.suffix_refl _)
  | cons i s ih =>
    have hcons : Str.text (i :: s) = i.text ++ Str.text s := rfl
    rw [hcons] at h ⊢
    by_cases hq : quote ∈ i.text
    · rw [i.text_of_quote_mem hq] at h ⊢
      have hword : quote ∉ done ++ [backslash] := by
        rw [List.mem_append, List.mem_singleton]
        rintro (hd | hd)
        · exact hdone hd
        · exact absurd hd (by decide)
      have hne : done ++ [backslash] ≠ key := by
        rintro rfl
        exact absurd (hplain backslash (by simp)) (by decide)
      have hsplit : done ++ ([backslash, quote] ++ Str.text s) ++ quote :: rest =
          done ++ [backslash] ++ quote :: ([] ++ Str.text s ++ quote :: rest) := by simp
      rw [hsplit, strstr_word hplain hword hne]
      refine ih List.not_mem_nil fun hsuffix => h ?_
      refine hsuffix.trans ⟨quote :: (done ++ [backslash]), ?_⟩
      simp
    · rw [← List.append_assoc] at h ⊢
      refine ih ?_ h
      rw [List.mem_append]
      rintro (hd | hd)
      · exact hdone hd
      · exact hq hd

/-- The search runs over a member without the key to its last quote. -/
theorem strstr_member {m : Member Str} (hname : ¬ EndsIn key m.name) (hvalue : ¬ EndsIn key m.value)
    (hsep : ¬ Separator key) (rest : List UInt8) :
    strstr (quote :: (key ++ [quote])) (fromName m ++ rest) =
      strstr (quote :: (key ++ [quote])) (quote :: (m.after.text ++ rest)) := by
  have hcolon : Separator (m.beforeColon.text ++ colon :: m.afterColon.text) :=
    ⟨_, _, _, rfl, .inl rfl⟩
  have hne : m.beforeColon.text ++ colon :: m.afterColon.text ≠ key := by
    rintro rfl
    exact hsep hcolon
  have hsplit : fromName m ++ rest =
      quote :: ([] ++ m.name.text ++ quote :: ((m.beforeColon.text ++ colon :: m.afterColon.text) ++
        quote :: ([] ++ m.value.text ++ quote :: (m.after.text ++ rest)))) := by
    simp [fromName, Str.quoted]
  rw [hsplit, strstr_string hplain _ List.not_mem_nil hname,
    strstr_word hplain hcolon.quote_notMem hne, strstr_string hplain _ List.not_mem_nil hvalue]

theorem strstr_members {pre : List (Member Str)}
    (hpre : ∀ p ∈ pre, ¬ EndsIn key p.name ∧ ¬ EndsIn key p.value) (hsep : ¬ Separator key)
    (m : Member Str) (post : List (Member Str)) (rest : List UInt8) :
    strstr (quote :: (key ++ [quote])) (fromFirst (pre ++ m :: post) ++ rest) =
      strstr (quote :: (key ++ [quote])) (fromFirst (m :: post) ++ rest) := by
  induction pre with
  | nil => rfl
  | cons p ps ih =>
    obtain ⟨q, qs, hq⟩ : ∃ q qs, ps ++ m :: post = q :: qs := by
      cases ps with
      | nil => exact ⟨_, _, rfl⟩
      | cons q qs => exact ⟨_, _, rfl⟩
    have hp := hpre p List.mem_cons_self
    have hcomma : Separator (p.after.text ++ comma :: q.before.text) :=
      ⟨_, _, _, rfl, .inr rfl⟩
    have hne : p.after.text ++ comma :: q.before.text ≠ key := by
      rintro rfl
      exact hsep hcomma
    obtain ⟨u, hu⟩ := fromFirst_eq_quote q qs
    have hsplit : fromFirst (p :: q :: qs) ++ rest = fromName p ++
        (comma :: (q.before.text ++ fromFirst (q :: qs)) ++ rest) := by
      rw [← membersText_eq]
      exact List.append_assoc _ _ _
    have hgap : p.after.text ++ (comma :: (q.before.text ++ fromFirst (q :: qs)) ++ rest) =
        (p.after.text ++ comma :: q.before.text) ++ quote :: (u ++ rest) := by
      rw [hu]
      simp
    rw [← ih fun p' hp' => hpre p' (List.mem_cons_of_mem _ hp'), List.cons_append, hq, hsplit,
      strstr_member hplain hp.1 hp.2 hsep, hgap, strstr_word hplain hcomma.quote_notMem hne, hu,
      List.cons_append]

/-- Without a string that ends in the key, the search fails. -/
theorem strstr_objectText_none {o : Object Str} (hsep : ¬ Separator key)
    (hends : ∀ m ∈ o.members, ¬ EndsIn key m.name ∧ ¬ EndsIn key m.value) :
    strstr (quote :: (key ++ [quote])) (objectText o) = none := by
  rcases List.eq_nil_or_concat o.members with ho | ⟨pre, last, ho⟩
  · have hs : quote ∉ objectText o := by
      unfold objectText Object.text
      rw [ho, if_pos rfl]
      simp only [List.mem_append, List.mem_cons]
      rintro (h | h | h | h | h)
      · exact absurd (o.before.space _ h) (by decide)
      · exact absurd h (by decide)
      · exact absurd (o.empty.space _ h) (by decide)
      · exact absurd h (by decide)
      · exact absurd (o.after.space _ h) (by decide)
    rw [← List.append_nil (objectText o), strstr_skip hs]
    rfl
  · rw [List.concat_eq_append] at ho
    have hlast := hends last (by rw [ho]; simp)
    have htail : quote ∉ last.after.text ++ closeBrace :: o.after.text := by
      rw [List.mem_append, List.mem_cons]
      rintro (h | h | h)
      · exact absurd (last.after.space _ h) (by decide)
      · exact absurd h (by decide)
      · exact absurd (o.after.space _ h) (by decide)
    obtain ⟨m, ms, hm⟩ := List.exists_cons_of_ne_nil (show o.members ≠ [] by rw [ho]; simp)
    rw [strstr_objectText hm, ← hm, ho,
      strstr_members hplain (fun p hp => hends p (by rw [ho]; exact List.mem_append_left _ hp)) hsep,
      fromFirst, strstr_member hplain hlast.1 hlast.2 hsep, strstr_last htail]

/-- A name that is the key, behind members that do not end in it, is what the search finds. -/
theorem firstReads_of_spelled {o : Object Str} (hsep : ¬ Separator key) {pre post : List (Member Str)}
    {m : Member Str} (ho : o.members = pre ++ m :: post)
    (hpre : ∀ p ∈ pre, ¬ EndsIn key p.name ∧ ¬ EndsIn key p.value) (hname : m.name.text = key)
    {v : List UInt8} (hreads : Reads m.value.text v) : FirstReads (objectText o) key v := by
  obtain ⟨q, qs, hq⟩ := List.exists_cons_of_ne_nil (show o.members ≠ [] by rw [ho]; simp)
  obtain ⟨u, hu⟩ : ∃ u, fromFirst (m :: post) ++ closeBrace :: o.after.text =
      quote :: (key ++ [quote]) ++ (m.beforeColon.text ++ colon :: (m.afterColon.text ++
        quote :: (m.value.text ++ quote :: u))) := by
    rw [← hname]
    cases post with
    | nil => exact ⟨_, by simp [fromFirst, fromName, Str.quoted]; rfl⟩
    | cons m' ms => exact ⟨_, by simp [fromFirst, fromName, Str.quoted]; rfl⟩
  have hfound : strstr (quote :: (key ++ [quote])) (objectText o) =
      some (fromFirst (m :: post) ++ closeBrace :: o.after.text) := by
    rw [strstr_objectText hq, ← hq, ho, strstr_members hplain hpre hsep, hu,
      strstr_of_start (List.prefix_append _ _)]
  obtain ⟨before, htext, -, hfirst⟩ := strstr_eq_some.mp hfound
  exact ⟨before, m.beforeColon, m.afterColon, _, u, by rw [htext, hu], hfirst, hreads⟩

end

/-- An escape that dropping the backslash decodes. -/
def Literal : Item → Prop
  | .plain _ _ => True
  | .short c d _ => c = d
  | .unicode _ _ => False
  | .pair _ _ _ _ => False

theorem reads_of_literal {s : Str} (h : ∀ i ∈ s, Literal i) : Reads s.text s.decode := by
  induction s with
  | nil => exact .nil
  | cons i s ih =>
    have htail := ih fun j hj => h j (List.mem_cons_of_mem _ hj)
    cases i with
    | plain c hc =>
      simp only [isPlain, Bool.and_eq_true, decide_eq_true_eq] at hc
      exact .plain hc.1.2 hc.2 htail
    | short c d hcd =>
      obtain rfl : c = d := h _ List.mem_cons_self
      exact .skipped htail
    | unicode q hq => exact absurd (h _ List.mem_cons_self) id
    | pair high low hh hl => exact absurd (h _ List.mem_cons_self) id

theorem extracts_of_firstReads {n : Nat} {o : Object Str} {key : List UInt8} (hkey : key.length ≤ 77)
    {out : Vector UInt8 n}
    (hfound : (∃ m ∈ o.members, m.name.decode = key) ↔ 0 < n ∧ quote :: (key ++ [quote]) <:+: objectText o)
    (hreads : ∀ m, o.members.filter (fun m => m.name.decode = key) = [m] →
      FirstReads (objectText o) key m.value.decode) : Extracts o key out where
  value m hm hlen := by
    have hv := hreads m hm
    rw [jsonExtractString_of_firstReads hkey hv hlen out]
    exact ⟨rfl, cString_putString out hlen (hv.zero_notMem (zero_notMem_objectText o))⟩
  absent := by
    rw [jsonExtractString_absent hkey, ← hfound]
    simp
  unchanged := jsonExtractString_unchanged hkey out

/-- The promise is kept where the key is written as itself, in no other string and as no
separator, and its value has no escape but those of quote, backslash and slash. -/
theorem extracts_of_spelled {n : Nat} (hn : 0 < n) {o : Object Str} {key : List UInt8}
    (hkey : key.length ≤ 77) (hplain : ∀ c ∈ key, isPlain c = true) (hsep : ¬ Separator key)
    (hspelled : ∀ m ∈ o.members, m.name.decode = key →
      m.name.text = key ∧ ∀ i ∈ m.value, Literal i)
    (hends : ∀ m ∈ o.members, ¬ EndsIn key m.value ∧ (EndsIn key m.name → m.name.decode = key))
    (out : Vector UInt8 n) : Extracts o key out := by
  have hreads {pre post : List (Member Str)} {m : Member Str} (ho : o.members = pre ++ m :: post)
      (hpre : ∀ p ∈ pre, p.name.decode ≠ key) (hm : m.name.decode = key) :
      FirstReads (objectText o) key m.value.decode := by
    have hmem : m ∈ o.members := by
      rw [ho]
      simp
    obtain ⟨hname, hliteral⟩ := hspelled m hmem hm
    refine firstReads_of_spelled hplain hsep ho (fun p hp => ?_) hname (reads_of_literal hliteral)
    have hp' : p ∈ o.members := by
      rw [ho]
      exact List.mem_append_left _ hp
    exact ⟨fun h => hpre p hp ((hends p hp').2 h), (hends p hp').1⟩
  refine extracts_of_firstReads hkey ⟨?_, ?_⟩ fun m hm => ?_
  · rintro ⟨m, hm, hname⟩
    have hfind : (o.members.find? fun m => decide (m.name.decode = key)).isSome :=
      List.find?_isSome.mpr ⟨m, hm, decide_eq_true hname⟩
    obtain ⟨p, hp⟩ := Option.isSome_iff_exists.mp hfind
    obtain ⟨hpname, pre, post, ho, hpre⟩ := List.find?_eq_some_iff_append.mp hp
    obtain ⟨before, b₁, b₂, raw, rest, htext, -⟩ :=
      hreads ho (fun q hq => by simpa using hpre q hq) (of_decide_eq_true hpname)
    exact ⟨hn, before, _, by rw [htext, List.append_assoc]⟩
  · rintro ⟨-, hin⟩
    by_contra hnone
    refine absurd hin (strstr_eq_none.mp (strstr_objectText_none hplain hsep fun m hm => ?_))
    exact ⟨fun h => hnone ⟨m, hm, (hends m hm).2 h⟩, (hends m hm).1⟩
  · obtain ⟨pre, post, ho, hpre, hname, -⟩ := List.filter_eq_cons_iff.mp hm
    exact hreads ho (fun q hq => by simpa using hpre q hq) (of_decide_eq_true hname)

end Argus
