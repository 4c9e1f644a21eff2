import ArgusPump.SessionTable
import Mathlib.Data.List.TakeWhile

/-!
# The session cookie

`header_exact`, `parse_cookie_header` and `argus_http_security_cookie` of
`main/argus_http_security.c`.  The parser cuts the header in place at each `;` and `=`.

    a header is accepted → it is a list of cookies, one of them the session's, and conversely
                                                                        (parseCookieLoop_iff)
    the token that comes out is the one the login set, whatever stands around it
                                                                        (cookie_exact)
-/

namespace Argus

/-! ## Headers -/

/-- What the server's `httpd_req_get_hdr_value_len` and `httpd_req_get_hdr_value_str` answer of
one header: its length, and the string in the buffer. -/
structure HeaderRead where
  length : Nat
  err : EspErr
  text : Bytes
  terminated : 0 ∉ text

/-- A header read whole. -/
def HeaderRead.whole (text : Bytes) (h : 0 ∉ text) : HeaderRead where
  length := text.length
  err := espOk
  text := text
  terminated := h

/-- `header_exact`. -/
def headerExact (header : HeaderRead) (capacity : Nat) : Option Bytes :=
  if header.length > 0 ∧ header.length < capacity ∧ header.err = espOk ∧
      header.text.length = header.length then some header.text
  else none

theorem headerExact_eq_some {header : HeaderRead} {capacity : Nat} {text : Bytes} :
    headerExact header capacity = some text ↔
      header.err = espOk ∧ header.text = text ∧ header.length = text.length ∧
        0 < text.length ∧ text.length < capacity := by
  unfold headerExact
  split
  · next h =>
    obtain ⟨hpos, hlt, herr, hlen⟩ := h
    rw [Option.some.injEq]
    constructor
    · rintro rfl
      exact ⟨herr, rfl, hlen.symm, hlen ▸ hpos, hlen ▸ hlt⟩
    · exact fun h => h.2.1
  · next h =>
    refine ⟨fun hnone => (Option.some_ne_none _ hnone.symm).elim, ?_⟩
    rintro ⟨herr, rfl, hlen, hpos, hlt⟩
    exact absurd ⟨hlen ▸ hpos, hlen ▸ hlt, herr, hlen.symm⟩ h

/-! ## Cutting at a character -/

/-- `strchr`, and the string ended there: what stands before the first `c`, and behind it. -/
def cutAt (c : UInt8) : Bytes → Bytes × Option Bytes
  | [] => ([], none)
  | d :: s => if d = c then ([], some s) else (d :: (cutAt c s).1, (cutAt c s).2)

theorem cutAt_some {c : UInt8} {s l r : Bytes} :
    cutAt c s = (l, some r) ↔ s = l ++ c :: r ∧ c ∉ l := by
  induction s generalizing l with
  | nil => simp [cutAt]
  | cons d s ih =>
    unfold cutAt
    split
    · next h =>
      subst h
      cases l with
      | nil => simp
      | cons e l =>
        simp only [List.cons_append, List.cons.injEq, List.mem_cons, Prod.mk.injEq]
        constructor
        · exact fun h => absurd h.1 (by simp)
        · rintro ⟨⟨rfl, -⟩, hnot⟩
          exact absurd (Or.inl rfl) hnot
    · next h =>
      cases l with
      | nil =>
        simp only [List.nil_append, List.cons.injEq, Prod.mk.injEq]
        exact ⟨fun hl => absurd hl.1 (by simp), fun hl => absurd hl.1.1 h⟩
      | cons e l =>
        simp only [List.cons_append, List.cons.injEq, List.mem_cons, Prod.mk.injEq, not_or]
        have hcut := ih (l := l)
        rw [Prod.ext_iff] at hcut
        constructor
        · rintro ⟨⟨rfl, hl⟩, hr⟩
          obtain ⟨hs, hnot⟩ := hcut.mp ⟨hl, hr⟩
          exact ⟨⟨rfl, hs⟩, fun heq => h heq.symm, hnot⟩
        · rintro ⟨⟨rfl, hs⟩, -, hnot⟩
          exact ⟨⟨rfl, (hcut.mpr ⟨hs, hnot⟩).1⟩, (hcut.mpr ⟨hs, hnot⟩).2⟩

theorem cutAt_none {c : UInt8} {s l : Bytes} : cutAt c s = (l, none) ↔ s = l ∧ c ∉ l := by
  induction s generalizing l with
  | nil =>
    rw [cutAt, Prod.mk.injEq]
    constructor
    · rintro ⟨rfl, -⟩
      exact ⟨rfl, List.not_mem_nil⟩
    · rintro ⟨rfl, -⟩
      exact ⟨rfl, rfl⟩
  | cons d s ih =>
    unfold cutAt
    split
    · next h =>
      subst h
      constructor
      · exact fun h => absurd (congrArg Prod.snd h) (by simp)
      · rintro ⟨rfl, hnot⟩
        exact absurd List.mem_cons_self hnot
    · next h =>
      have hcut := ih (l := (cutAt c s).1)
      rw [Prod.ext_iff] at hcut
      rw [Prod.mk.injEq]
      constructor
      · rintro ⟨rfl, hr⟩
        obtain ⟨hs, hnot⟩ := hcut.mp ⟨rfl, hr⟩
        refine ⟨congrArg (d :: ·) hs, ?_⟩
        rw [List.mem_cons, not_or]
        exact ⟨fun heq => h heq.symm, hnot⟩
      · rintro ⟨rfl, hnot⟩
        rw [List.mem_cons, not_or] at hnot
        have hs := (ih (l := s)).mpr ⟨rfl, hnot.2⟩
        rw [hs]
        exact ⟨rfl, rfl⟩

/-! ## The header's cookies -/

def sessionCookieName : Bytes := asciiBytes "argus_session"

def sessionTokenHexLen : Nat := 64

/-- What the parser skips before a cookie. -/
def cookieSkip (c : UInt8) : Bool := c = 0x20 || c = 0x3B

/-- The loop of `parse_cookie_header`, with the token found so far. -/
def parseCookieLoop (found : Option Bytes) (cursor : Bytes) : Option Bytes :=
  if cursor = [] then found
  else
    match _cookie : cutAt 0x3B (cursor.dropWhile cookieSkip) with
    | (cookie, more) =>
      match cutAt 0x3D cookie with
      | (_, none) => none
      | (name, some value) =>
        if name = sessionCookieName ∧ (found.isSome ∨ value.length ≠ sessionTokenHexLen) then none
        else
          let found := if name = sessionCookieName then some value else found
          match _more : more with
          | none => found
          | some rest => parseCookieLoop found rest
termination_by cursor.length
decreasing_by
  have hcut := (cutAt_some.mp _cookie).1
  have hle : (cursor.dropWhile cookieSkip).length ≤ cursor.length :=
    (List.dropWhile_sublist cookieSkip).length_le
  rw [hcut, List.length_append, List.length_cons] at hle
  omega

/-- `parse_cookie_header`. -/
def parseCookieHeader (header : Bytes) : Option Bytes := parseCookieLoop none header

/-- `argus_http_security_cookie`. -/
def httpSecurityCookie (header : HeaderRead) : Option Bytes :=
  (headerExact header 256).bind parseCookieHeader

/-- One cookie, and what is skipped before it. -/
structure Cookie where
  skipped : Bytes
  name : Bytes
  value : Bytes
  skips : ∀ c ∈ skipped, cookieSkip c = true
  starts : ∀ c ∈ name.head?, cookieSkip c = false
  named : 0x3D ∉ name ∧ 0x3B ∉ name
  ended : 0x3B ∉ value

namespace Cookie

variable {h : Bytes} {cs : List Cookie}

/-- The cookie without what is skipped. -/
def body (c : Cookie) : Bytes := c.name ++ 0x3D :: c.value

def text (c : Cookie) : Bytes := c.skipped ++ c.body

/-- The header `h` is the cookies `cs`, each ended by a `;` but the last, which need not be. -/
inductive IsHeader : Bytes → List Cookie → Prop
  | nil : IsHeader [] []
  | last (c : Cookie) : IsHeader c.text [c]
  | cons (c : Cookie) {rest : Bytes} {cs : List Cookie} :
      IsHeader rest cs → IsHeader (c.text ++ 0x3B :: rest) (c :: cs)

/-- The values of the session's cookie. -/
def sessionValues (cs : List Cookie) : List Bytes :=
  (cs.filter fun c => c.name = sessionCookieName).map value

theorem text_ne_nil (c : Cookie) : c.text ≠ [] := by
  unfold text body
  simp

theorem isHeader_nil (hcs : IsHeader [] cs) : cs = [] := by
  generalize hnil : ([] : Bytes) = h at hcs
  cases hcs with
  | nil => rfl
  | last c => exact absurd hnil.symm c.text_ne_nil
  | cons c _ => exact absurd hnil.symm (by simp)

/-- What is skipped goes, and nothing else. -/
theorem dropWhile_text (c : Cookie) (rest : Bytes) :
    (c.text ++ rest).dropWhile cookieSkip = c.body ++ rest := by
  unfold text
  rw [List.append_assoc, List.dropWhile_append_of_pos c.skips]
  unfold body
  cases hname : c.name with
  | nil => rfl
  | cons d name =>
    have hd : cookieSkip d = false := c.starts d (by rw [hname]; rfl)
    exact List.dropWhile_cons_of_neg (by rw [hd]; exact Bool.false_ne_true)

theorem not_mem_body (c : Cookie) : 0x3B ∉ c.body := by
  unfold body
  rw [List.mem_append, List.mem_cons, not_or, not_or]
  exact ⟨c.named.2, by decide, c.ended⟩

theorem cutAt_body (c : Cookie) : cutAt 0x3D c.body = (c.name, some c.value) :=
  cutAt_some.mpr ⟨rfl, c.named.1⟩

/-- The first cookie of a header, as the parser cuts it out. -/
theorem IsHeader.cut (hcs : IsHeader h cs) (hne : h ≠ []) :
    ∃ c more cs', cs = c :: cs' ∧ cutAt 0x3B (h.dropWhile cookieSkip) = (c.body, more) ∧
      ((more = none ∧ cs' = []) ∨ ∃ rest, more = some rest ∧ IsHeader rest cs') := by
  cases hcs with
  | nil => exact absurd rfl hne
  | last c =>
    refine ⟨c, none, [], rfl, ?_, .inl ⟨rfl, rfl⟩⟩
    have hdrop := c.dropWhile_text []
    rw [List.append_nil, List.append_nil] at hdrop
    rw [hdrop]
    exact cutAt_none.mpr ⟨rfl, c.not_mem_body⟩
  | @cons c rest cs hrest =>
    refine ⟨c, some rest, cs, rfl, ?_, .inr ⟨rest, rfl, hrest⟩⟩
    rw [c.dropWhile_text]
    exact cutAt_some.mpr ⟨rfl, c.not_mem_body⟩

/-- What the parser cuts out of a header is its first cookie. -/
theorem isHeader_of_cut {cookie name value : Bytes} {more : Option Bytes}
    (hskip : cutAt 0x3B (h.dropWhile cookieSkip) = (cookie, more))
    (hcut : cutAt 0x3D cookie = (name, some value)) :
    ∃ c : Cookie, c.name = name ∧ c.value = value ∧ c.body = cookie ∧
      (more = none → IsHeader h [c]) ∧ ∀ rest, more = some rest → IsHeader rest cs → IsHeader h (c :: cs) := by
  have hmem : 0x3B ∉ cookie := by
    cases more with
    | none => exact (cutAt_none.mp hskip).2
    | some rest => exact (cutAt_some.mp hskip).2
  have hhead : ∀ d ∈ cookie.head?, cookieSkip d = false := by
    have hdrop : cookie.head? = none ∨ (h.dropWhile cookieSkip).head? = cookie.head? := by
      cases cookie with
      | nil => exact .inl rfl
      | cons d cookie =>
        right
        cases more with
        | none => rw [(cutAt_none.mp hskip).1]
        | some rest => rw [(cutAt_some.mp hskip).1]; rfl
    intro d hd
    rcases hdrop with hnone | hsame
    · rw [hnone] at hd
      cases hd
    · rw [← hsame] at hd
      exact Bool.eq_false_iff.mpr fun hskips => by
        have hnot := List.head?_dropWhile_not cookieSkip h
        rw [hd] at hnot
        exact absurd hskips (by simpa using hnot)
  obtain ⟨rfl, hnot⟩ := cutAt_some.mp hcut
  rw [List.mem_append, List.mem_cons, not_or, not_or] at hmem
  have hstarts : ∀ d ∈ name.head?, cookieSkip d = false := by
    intro d hd
    refine hhead d ?_
    cases name with
    | nil => cases hd
    | cons e name => exact hd
  have hskips : ∀ d ∈ h.takeWhile cookieSkip, cookieSkip d = true := fun _ => List.mem_takeWhile_imp
  have htext : h.takeWhile cookieSkip ++ h.dropWhile cookieSkip = h := List.takeWhile_append_dropWhile
  generalize h.takeWhile cookieSkip = skipped at hskips htext
  let c : Cookie := ⟨skipped, name, value, hskips, hstarts, ⟨hnot, hmem.1⟩, hmem.2.2⟩
  refine ⟨c, rfl, rfl, rfl, ?_, ?_⟩
  · rintro rfl
    rw [(cutAt_none.mp hskip).1] at htext
    subst htext
    exact .last c
  · rintro rest rfl hrest
    rw [(cutAt_some.mp hskip).1, ← List.append_assoc] at htext
    subst htext
    exact .cons c hrest

theorem sessionValues_cons (c : Cookie) (cs : List Cookie) :
    sessionValues (c :: cs) =
      if c.name = sessionCookieName then c.value :: sessionValues cs else sessionValues cs := by
  unfold sessionValues
  split
  · next hname => rw [List.filter_cons_of_pos (by simpa using hname), List.map_cons]
  · next hname => rw [List.filter_cons_of_neg (by simpa using hname)]

/-- The tokens of the session's cookie, after those found before. -/
def Finds (found : Option Bytes) (cs : List Cookie) (token : Bytes) : Prop :=
  found.toList ++ sessionValues cs = [token] ∧ ∀ value ∈ sessionValues cs, value.length = sessionTokenHexLen

/-- The parser's step: the first cookie is found, or passed over, or refused. -/
theorem finds_cons {found : Option Bytes} {c : Cookie} {token : Bytes} :
    Finds found (c :: cs) token ↔
      ¬(c.name = sessionCookieName ∧ (found.isSome ∨ c.value.length ≠ sessionTokenHexLen)) ∧
        Finds (if c.name = sessionCookieName then some c.value else found) cs token := by
  unfold Finds
  rw [sessionValues_cons]
  by_cases hname : c.name = sessionCookieName
  · rw [if_pos hname, if_pos hname]
    cases found with
    | none => simp [hname, and_assoc, and_left_comm]
    | some before => simp [hname]
  · rw [if_neg hname, if_neg hname]
    simp [hname]

theorem finds_nil {found : Option Bytes} {token : Bytes} : Finds found [] token ↔ found = some token := by
  unfold Finds sessionValues
  cases found <;> simp

/-- **The parser**, from the token found so far: a token comes out if what is left is a list of
cookies, and the session's is among them, or was found, once. -/
theorem parseCookieLoop_iff {found : Option Bytes} {cursor token : Bytes} :
    parseCookieLoop found cursor = some token ↔ ∃ cs, IsHeader cursor cs ∧ Finds found cs token := by
  fun_induction parseCookieLoop found cursor with
  | case1 found =>
    constructor
    · exact fun hfound => ⟨[], .nil, finds_nil.mpr hfound⟩
    · rintro ⟨cs, hcs, hfinds⟩
      rw [isHeader_nil hcs] at hfinds
      exact finds_nil.mp hfinds
  | case2 found cursor hne cookie more hskip name hcut =>
    refine ⟨fun hnone => (Option.some_ne_none _ hnone.symm).elim, ?_⟩
    rintro ⟨cs, hcs, -⟩
    obtain ⟨c, more', cs', rfl, hbody, -⟩ := hcs.cut hne
    cases hbody.symm.trans hskip
    exact absurd (c.cutAt_body.symm.trans hcut) (by simp)
  | case3 found cursor hne cookie more hskip name value hcut hrefused =>
    refine ⟨fun hnone => (Option.some_ne_none _ hnone.symm).elim, ?_⟩
    rintro ⟨cs, hcs, hfinds⟩
    obtain ⟨c, more', cs', rfl, hbody, -⟩ := hcs.cut hne
    cases hbody.symm.trans hskip
    cases c.cutAt_body.symm.trans hcut
    exact absurd hrefused (finds_cons.mp hfinds).1
  | case4 found cursor hne cookie name value hcut hpassed found' _ hskip =>
    constructor
    · intro hfound
      obtain ⟨c, rfl, rfl, -, hlast, -⟩ := @isHeader_of_cut _ [] _ _ _ _ hskip hcut
      exact ⟨[c], hlast rfl, finds_cons.mpr ⟨hpassed, finds_nil.mpr hfound⟩⟩
    · rintro ⟨cs, hcs, hfinds⟩
      obtain ⟨c, more', cs', rfl, hbody, hmore⟩ := hcs.cut hne
      cases hbody.symm.trans hskip
      cases c.cutAt_body.symm.trans hcut
      rcases hmore with ⟨-, rfl⟩ | ⟨rest, hrest, -⟩
      · exact finds_nil.mp (finds_cons.mp hfinds).2
      · cases hrest
  | case5 found cursor hne cookie name value hcut hpassed found' rest _ hskip ih =>
    rw [ih]
    constructor
    · rintro ⟨cs, hcs, hfinds⟩
      obtain ⟨c, rfl, rfl, -, -, hcons⟩ := isHeader_of_cut hskip hcut
      exact ⟨c :: cs, hcons rest rfl hcs, finds_cons.mpr ⟨hpassed, hfinds⟩⟩
    · rintro ⟨cs, hcs, hfinds⟩
      obtain ⟨c, more', cs', rfl, hbody, hmore⟩ := hcs.cut hne
      cases hbody.symm.trans hskip
      cases c.cutAt_body.symm.trans hcut
      rcases hmore with ⟨hnone, -⟩ | ⟨rest', hrest, hcs'⟩
      · cases hnone
      · cases hrest
        exact ⟨cs', hcs', (finds_cons.mp hfinds).2⟩

end Cookie

open Cookie in
theorem httpSecurityCookie_of_isHeader {header : HeaderRead} {cs : List Cookie} {token : Bytes}
    (herr : header.err = espOk) (hlen : header.length = header.text.length)
    (hlt : header.text.length < 256) (hcs : IsHeader header.text cs)
    (hvalues : sessionValues cs = [token]) (htoken : token.length = sessionTokenHexLen) :
    httpSecurityCookie header = some token := by
  unfold httpSecurityCookie parseCookieHeader
  refine Option.bind_eq_some_iff.mpr
    ⟨header.text, headerExact_eq_some.mpr ⟨herr, rfl, hlen, ?_, hlt⟩, ?_⟩
  · refine List.length_pos_iff.mpr fun hnil => ?_
    rw [hnil] at hcs
    rw [isHeader_nil hcs] at hvalues
    cases hvalues
  · refine parseCookieLoop_iff.mpr ⟨cs, hcs, hvalues, fun value hvalue => ?_⟩
    rw [hvalues] at hvalue
    rw [List.mem_singleton.mp hvalue]
    exact htoken

open Cookie in
/-- **The session cookie is exact**: a request carries a token if its header is read whole, is
a list of cookies with one named for the session, and that has the length of a token. -/
theorem cookie_exact (header : HeaderRead) (token : Bytes) :
    httpSecurityCookie header = some token ↔
      header.err = espOk ∧ header.length = header.text.length ∧ header.text.length < 256 ∧
        ∃ cs, IsHeader header.text cs ∧ sessionValues cs = [token] ∧ token.length = sessionTokenHexLen := by
  constructor
  · unfold httpSecurityCookie parseCookieHeader
    rw [Option.bind_eq_some_iff]
    rintro ⟨text, hread, hparse⟩
    obtain ⟨herr, rfl, hlen, -, hlt⟩ := headerExact_eq_some.mp hread
    obtain ⟨cs, hcs, hvalues, hlengths⟩ := parseCookieLoop_iff.mp hparse
    refine ⟨herr, hlen, hlt, cs, hcs, hvalues, hlengths token ?_⟩
    rw [show sessionValues cs = [token] from hvalues]
    exact List.mem_singleton_self token
  · rintro ⟨herr, hlen, hlt, cs, hcs, hvalues, htoken⟩
    exact httpSecurityCookie_of_isHeader herr hlen hlt hcs hvalues htoken

end Argus
