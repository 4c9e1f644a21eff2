import ArgusPump.MqttSession
import ArgusPump.Lib.Fence

/-!
# The invalidation journal

`main/argus_mqtt_invalidation.c`: a generation that counts the records and skips 0 when it
wraps, and the last thirty-two of them.

    fewer than 2⁶⁴ - 1 records since the capture, `since` false
      → the identifier is not one of them                               (since_false)
    at most thirty-two, short of the last generation
      → `since` true exactly for the identifiers among them             (since_exact)

At the last generation, 2⁶⁴ - 1, the loop's own counter wraps.
-/

namespace Argus

open Interact

def mqttInvalidationHistoryCapacity : Nat := 32

structure InvalidationEvent where
  generation : UInt64
  identifier : Bytes
deriving DecidableEq

structure InvalidationJournal where
  generation : UInt64
  events : Vector InvalidationEvent mqttInvalidationHistoryCapacity
deriving DecidableEq

namespace InvalidationJournal

def identifierValid (identifier : Bytes) : Bool :=
  0 < identifier.length && identifier.length ≤ 36

def noEvents : Vector InvalidationEvent mqttInvalidationHistoryCapacity := .replicate _ ⟨0, []⟩

def init : InvalidationJournal := ⟨0, noEvents⟩

def index (generation : UInt64) : Fin mqttInvalidationHistoryCapacity :=
  ⟨(generation - 1).toNat % mqttInvalidationHistoryCapacity, Nat.mod_lt _ (by decide)⟩

/-- The next generation; on a wrap the history is cleared. -/
def advance (journal : InvalidationJournal) : InvalidationJournal :=
  if journal.generation + 1 = 0 then ⟨1, noEvents⟩
  else { journal with generation := journal.generation + 1 }

def store (journal : InvalidationJournal) (identifier : Bytes) : InvalidationJournal :=
  { journal with
    events := journal.events.set (index journal.generation) ⟨journal.generation, identifier⟩ }

def record (journal : InvalidationJournal) (identifier : Bytes) : Bool × InvalidationJournal :=
  if ¬ identifierValid identifier then (false, journal)
  else (true, journal.advance.store identifier)

/-- The loop over the generations up to the current one.  It is left after at most
thirty-three rounds, see `since`. -/
def sinceLoop (journal : InvalidationJournal) (identifier : Bytes) : Nat → UInt64 → Bool
  | 0, _ => true
  | fuel + 1, generation =>
    if generation ≤ journal.generation then
      let event := journal.events.get (index generation)
      if event.generation ≠ generation then true
      else if event.identifier = identifier then true
      else sinceLoop journal identifier fuel (generation + 1)
    else false

def since (journal : InvalidationJournal) (identifier : Bytes) (captured : UInt64) : Bool :=
  if ¬ identifierValid identifier then true
  else if journal.generation = captured then false
  else if journal.generation < captured ∨
      (journal.generation - captured).toNat > mqttInvalidationHistoryCapacity then true
  else sinceLoop journal identifier (mqttInvalidationHistoryCapacity + 2) (captured + 1)

/-- The journal after a list of records. -/
def recordAll (journal : InvalidationJournal) (identifiers : List Bytes) : InvalidationJournal :=
  identifiers.foldl (fun j identifier => (j.record identifier).2) journal

theorem recordAll_append (journal : InvalidationJournal) (is js : List Bytes) :
    journal.recordAll (is ++ js) = (journal.recordAll is).recordAll js :=
  List.foldl_append

theorem recordAll_singleton (journal : InvalidationJournal) (i : Bytes) :
    journal.recordAll [i] = (journal.record i).2 := rfl

/-- What is recorded is what has the form of an identifier. -/
theorem record_fst (journal : InvalidationJournal) (identifier : Bytes) :
    (journal.record identifier).1 = identifierValid identifier := by
  unfold record
  by_cases hvalid : identifierValid identifier = true
  · rw [if_neg (not_not.mpr hvalid)]
    exact hvalid.symm
  · rw [if_pos hvalid]
    exact (Bool.eq_false_iff.mpr hvalid).symm

/-! ## The generation -/

theorem record_generation {journal : InvalidationJournal} {identifier : Bytes}
    (hvalid : identifierValid identifier = true) :
    (journal.record identifier).2.generation.toNat =
      Epoch.next (2 ^ 64) journal.generation.toNat := by
  unfold record
  rw [if_neg (not_not.mpr hvalid)]
  show journal.advance.generation.toNat = _
  unfold advance Epoch.next
  have hlt := journal.generation.toNat_lt
  have hadd : (journal.generation + 1).toNat = (journal.generation.toNat + 1) % 2 ^ 64 :=
    UInt64.toNat_add _ _
  split
  · next hwrap =>
    rw [hwrap] at hadd
    have hadd : 0 = (journal.generation.toNat + 1) % 2 ^ 64 := hadd
    rw [if_pos (by omega)]
    rfl
  · next hno =>
    have hne : (journal.generation + 1).toNat ≠ 0 := fun h => hno (UInt64.toNat_inj.mp h)
    rw [if_neg (by omega)]
    show (journal.generation + 1).toNat = _
    rw [hadd, Nat.mod_eq_of_lt (by omega)]

theorem recordAll_generation (journal : InvalidationJournal) {is : List Bytes}
    (hvalid : ∀ i ∈ is, identifierValid i = true) :
    (journal.recordAll is).generation.toNat =
      (Epoch.next (2 ^ 64))^[is.length] journal.generation.toNat := by
  induction is using List.reverseRecOn with
  | nil => rfl
  | append_singleton is i ih =>
    rw [recordAll_append, recordAll_singleton, record_generation (hvalid i (by simp)),
      ih fun j hj => hvalid j (List.mem_append_left _ hj), List.length_append,
      List.length_singleton, Function.iterate_succ_apply']

/-- Short of the wrap the generation counts the records. -/
theorem recordAll_count {journal : InvalidationJournal} {is : List Bytes}
    (hvalid : ∀ i ∈ is, identifierValid i = true)
    (hlt : journal.generation.toNat + is.length < 2 ^ 64) :
    (journal.recordAll is).generation.toNat = journal.generation.toNat + is.length := by
  have hgen := recordAll_generation journal hvalid
  by_cases hzero : journal.generation.toNat = 0
  · rw [hgen, hzero, Epoch.iterate_zero (by omega), Nat.zero_add]
  · rw [hgen, Epoch.iterate_eq (by omega) (by omega), Nat.mod_eq_of_lt (by omega)]
    omega

/-- A distance of `d` that is short of a whole round is the number of records. -/
theorem recordAll_distance {journal : InvalidationJournal} {is : List Bytes}
    (hvalid : ∀ i ∈ is, identifierValid i = true) (hlen : is.length < 2 ^ 64 - 1)
    (hle : journal.generation ≤ (journal.recordAll is).generation) :
    (journal.recordAll is).generation.toNat = journal.generation.toNat + is.length := by
  have hgen := recordAll_generation journal hvalid
  have hle : journal.generation.toNat ≤ (journal.recordAll is).generation.toNat :=
    UInt64.le_iff_toNat_le.mp hle
  have hlt := journal.generation.toNat_lt
  by_cases hzero : journal.generation.toNat = 0
  · rw [hgen, hzero, Epoch.iterate_zero (by omega), Nat.zero_add]
  · rw [Epoch.iterate_eq (by omega) hlt] at hgen
    rw [hgen] at hle ⊢
    by_cases hshort : journal.generation.toNat - 1 + is.length < 2 ^ 64 - 1
    · rw [Nat.mod_eq_of_lt hshort]
      omega
    · rw [Nat.mod_eq_sub_mod (by omega), Nat.mod_eq_of_lt (by omega)] at hle
      omega

/-! ## The events -/

theorem index_val {generation : UInt64} {x : Nat} (h : generation.toNat = x + 1) :
    (index generation).val = x % mqttInvalidationHistoryCapacity := by
  have hle : (1 : UInt64) ≤ generation := by
    rw [UInt64.le_iff_toNat_le, h]
    exact Nat.le_add_left 1 x
  show (generation - 1).toNat % _ = _
  rw [UInt64.toNat_sub_of_le _ _ hle, h]
  rfl

theorem record_events {journal : InvalidationJournal} {identifier : Bytes} {generation : UInt64}
    (hvalid : identifierValid identifier = true)
    (hgen : generation.toNat = journal.generation.toNat + 1) :
    (journal.record identifier).2.events =
      journal.events.set (index generation) ⟨generation, identifier⟩ := by
  have hlt := generation.toNat_lt
  have hsucc : journal.generation + 1 = generation := by
    refine UInt64.toNat_inj.mp ?_
    rw [hgen] at hlt
    rw [UInt64.toNat_add, hgen]
    exact Nat.mod_eq_of_lt hlt
  have hno : journal.generation + 1 ≠ 0 := by
    rw [hsucc]
    rintro rfl
    exact absurd hgen (Nat.succ_ne_zero _).symm
  have hadvance : journal.advance = { journal with generation := generation } := by
    unfold advance
    rw [if_neg hno, hsucc]
  unfold record
  rw [if_neg (not_not.mpr hvalid), hadvance]
  rfl

/-- The last records are in the slots of their generations. -/
theorem recordAll_events {journal : InvalidationJournal} {is : List Bytes}
    (hvalid : ∀ i ∈ is, identifierValid i = true)
    (hroom : is.length ≤ mqttInvalidationHistoryCapacity)
    (hlt : journal.generation.toNat + is.length < 2 ^ 64) {generation : UInt64} {k : Nat}
    (hk : k < is.length) (hgen : generation.toNat = journal.generation.toNat + k + 1) :
    (journal.recordAll is).events.get (index generation) = ⟨generation, is[k]⟩ := by
  induction is using List.reverseRecOn with
  | nil => cases hk
  | append_singleton is i ih =>
    have hvalid' : ∀ j ∈ is, identifierValid j = true :=
      fun j hj => hvalid j (List.mem_append_left _ hj)
    rw [List.length_append, List.length_singleton] at hroom hlt hk
    obtain ⟨last, hlast⟩ : ∃ last : UInt64,
        last.toNat = journal.generation.toNat + is.length + 1 :=
      ⟨UInt64.ofNat (journal.generation.toNat + is.length + 1), by
        rw [UInt64.toNat_ofNat']
        exact Nat.mod_eq_of_lt (by omega)⟩
    have hbefore : (journal.recordAll is).generation.toNat =
        journal.generation.toNat + is.length := recordAll_count hvalid' (by omega)
    have hnext : last.toNat = (journal.recordAll is).generation.toNat + 1 := by
      rw [hbefore]
      exact hlast
    rw [recordAll_append, recordAll_singleton, record_events (hvalid i (by simp)) hnext]
    by_cases hnew : k = is.length
    · -- the record just made
      subst hnew
      obtain rfl : generation = last := UInt64.toNat_inj.mp (hgen.trans hlast.symm)
      rw [List.getElem_concat_length rfl]
      exact Vector.getElem_set_self _
    · -- an earlier one, whose slot is another
      have hk : k < is.length := by omega
      have hne : (index last).val ≠ (index generation).val := by
        rw [index_val hlast, index_val hgen]
        unfold mqttInvalidationHistoryCapacity at hroom ⊢
        omega
      rw [List.getElem_append_left hk, ← ih hvalid' (by omega) (by omega) hk]
      exact Vector.getElem_set_ne _ _ hne

/-- The loop does not get past a record of the identifier. -/
theorem sinceLoop_found {journal : InvalidationJournal} {is : List Bytes}
    (hvalid : ∀ i ∈ is, identifierValid i = true)
    (hroom : is.length ≤ mqttInvalidationHistoryCapacity)
    (hlen : (journal.recordAll is).generation.toNat = journal.generation.toNat + is.length)
    {m : Nat} (hm : m < is.length) {fuel k : Nat} {generation : UInt64}
    (hk : k ≤ m) (hgen : generation.toNat = journal.generation.toNat + k + 1)
    (hfuel : m - k < fuel) : (journal.recordAll is).sinceLoop is[m] fuel generation = true := by
  have hlt := (journal.recordAll is).generation.toNat_lt
  induction fuel generalizing k generation with
  | zero => cases hfuel
  | succ fuel ih =>
    unfold sinceLoop
    have hle : generation ≤ (journal.recordAll is).generation := by
      rw [UInt64.le_iff_toNat_le]
      omega
    rw [if_pos hle, recordAll_events hvalid hroom (by omega) (show k < is.length by omega) hgen]
    dsimp only
    rw [if_neg (not_not.mpr rfl)]
    split
    · rfl
    · next hother =>
      have hkm : k ≠ m := by
        rintro rfl
        exact hother rfl
      refine ih (k := k + 1) (by omega) ?_ (by omega)
      rw [UInt64.toNat_add, hgen]
      show (journal.generation.toNat + k + 1 + 1) % 2 ^ 64 = _
      exact Nat.mod_eq_of_lt (by omega)

/-- **`since` overlooks no record**, before the generation comes round. -/
theorem since_false {journal : InvalidationJournal} {is : List Bytes} {identifier : Bytes}
    (hvalid : ∀ i ∈ is, identifierValid i = true) (hlen : is.length < 2 ^ 64 - 1)
    (h : (journal.recordAll is).since identifier journal.generation = false) :
    identifier ∉ is := by
  intro hmem
  unfold since at h
  rw [if_neg (not_not.mpr (hvalid identifier hmem))] at h
  have hpos : 0 < is.length := List.length_pos_of_mem hmem
  split at h
  · -- back at the generation captured
    next hsame =>
    have hgen := recordAll_generation journal hvalid
    rw [hsame] at hgen
    exact Epoch.iterate_ne journal.generation.toNat_lt hpos hlen hgen.symm
  · split at h
    · cases h
    · next hrange =>
      push Not at hrange
      obtain ⟨hge, hdist⟩ := hrange
      have hge : journal.generation ≤ (journal.recordAll is).generation :=
        UInt64.not_lt.mp hge
      have hcount := recordAll_distance hvalid hlen hge
      rw [UInt64.toNat_sub_of_le _ _ hge, hcount, Nat.add_sub_cancel_left] at hdist
      obtain ⟨m, hm, rfl⟩ := List.getElem_of_mem hmem
      have hlt := (journal.recordAll is).generation.toNat_lt
      have hnext : (journal.generation + 1).toNat = journal.generation.toNat + 0 + 1 := by
        rw [UInt64.toNat_add]
        show (journal.generation.toNat + 1) % 2 ^ 64 = _
        exact Nat.mod_eq_of_lt (by omega)
      have hfound : (journal.recordAll is).sinceLoop is[m] (mqttInvalidationHistoryCapacity + 2)
          (journal.generation + 1) = true :=
        sinceLoop_found hvalid hdist hcount hm (Nat.zero_le m) hnext (by omega)
      rw [hfound] at h
      cases h

/-- Where no record is the identifier's, the loop gets past all of them. -/
theorem sinceLoop_missed {journal : InvalidationJournal} {is : List Bytes} {identifier : Bytes}
    (hvalid : ∀ i ∈ is, identifierValid i = true)
    (hroom : is.length ≤ mqttInvalidationHistoryCapacity)
    (hlen : (journal.recordAll is).generation.toNat = journal.generation.toNat + is.length)
    (hlt : journal.generation.toNat + is.length + 1 < 2 ^ 64) (hmiss : identifier ∉ is)
    {fuel k : Nat} {generation : UInt64} (hk : k ≤ is.length)
    (hgen : generation.toNat = journal.generation.toNat + k + 1) (hfuel : is.length - k < fuel) :
    (journal.recordAll is).sinceLoop identifier fuel generation = false := by
  induction fuel generalizing k generation with
  | zero => cases hfuel
  | succ fuel ih =>
    unfold sinceLoop
    by_cases hlast : k = is.length
    · have hle : ¬ generation ≤ (journal.recordAll is).generation := by
        rw [UInt64.le_iff_toNat_le]
        omega
      rw [if_neg hle]
    · have hle : generation ≤ (journal.recordAll is).generation := by
        rw [UInt64.le_iff_toNat_le]
        omega
      have hk : k < is.length := by omega
      rw [if_pos hle, recordAll_events hvalid hroom (by omega) hk hgen]
      dsimp only
      rw [if_neg (not_not.mpr rfl), if_neg fun heq : is[k] = identifier =>
        hmiss (heq ▸ List.getElem_mem hk)]
      refine ih (k := k + 1) (by omega) ?_ (by omega)
      rw [UInt64.toNat_add, hgen]
      show (journal.generation.toNat + k + 1 + 1) % 2 ^ 64 = _
      exact Nat.mod_eq_of_lt (by omega)

/-- While the history holds every record since the capture, `since` is exact. -/
theorem since_exact {journal : InvalidationJournal} {is : List Bytes} {identifier : Bytes}
    (hvalid : ∀ i ∈ is, identifierValid i = true) (hid : identifierValid identifier = true)
    (hroom : is.length ≤ mqttInvalidationHistoryCapacity)
    (hlt : journal.generation.toNat + is.length + 1 < 2 ^ 64) :
    (journal.recordAll is).since identifier journal.generation = true ↔ identifier ∈ is := by
  have hlen : (journal.recordAll is).generation.toNat =
      journal.generation.toNat + is.length := recordAll_count hvalid (by omega)
  constructor
  · intro htrue
    by_contra hmiss
    have hnext : (journal.generation + 1).toNat = journal.generation.toNat + 0 + 1 := by
      rw [UInt64.toNat_add]
      show (journal.generation.toNat + 1) % 2 ^ 64 = _
      exact Nat.mod_eq_of_lt (by omega)
    have hge : journal.generation ≤ (journal.recordAll is).generation := by
      rw [UInt64.le_iff_toNat_le]
      omega
    unfold since at htrue
    rw [if_neg (not_not.mpr hid)] at htrue
    split at htrue
    · cases htrue
    · rw [if_neg] at htrue
      · rw [sinceLoop_missed hvalid hroom hlen hlt hmiss (Nat.zero_le _) hnext (by omega)] at htrue
        cases htrue
      · rw [UInt64.toNat_sub_of_le _ _ hge, hlen, Nat.add_sub_cancel_left]
        rintro (hbefore | hover)
        · exact UInt64.not_lt.mpr hge hbefore
        · omega
  · intro hmem
    by_contra hfalse
    exact since_false hvalid (by omega) (Bool.eq_false_iff.mpr hfalse) hmem

end InvalidationJournal

/-! ## Histories -/

open InvalidationJournal

/-- **The invalidation journal**, captured after `hs` and asked after `is` more records. -/
theorem invalidation_journal {hs is : List Bytes} (identifier : Bytes)
    (hvalid : ∀ i ∈ hs ++ is, identifierValid i = true) :
    (is.length < 2 ^ 64 - 1 →
      (init.recordAll (hs ++ is)).since identifier (init.recordAll hs).generation = false →
        identifier ∉ is) ∧
    (identifierValid identifier = true → is.length ≤ mqttInvalidationHistoryCapacity →
      (init.recordAll hs).generation.toNat + is.length < 2 ^ 64 - 1 →
        ((init.recordAll (hs ++ is)).since identifier (init.recordAll hs).generation = true ↔
          identifier ∈ is)) := by
  have hnew : ∀ i ∈ is, identifierValid i = true :=
    fun i hi => hvalid i (List.mem_append_right _ hi)
  rw [recordAll_append]
  constructor
  · intro hlen hfalse
    exact since_false hnew hlen hfalse
  · intro hid hroom hlt
    exact since_exact hnew hid hroom (by omega)

theorem invalidation_journal_two :
    (init.recordAll [txt "core-01", txt "panel-02"]).since (txt "panel-02") 1 = true ∧
      txt "core-01" ∉ [txt "panel-02"] := by
  have hvalid : ∀ i ∈ [txt "core-01"] ++ [txt "panel-02"], identifierValid i = true := by
    decide
  exact ⟨((invalidation_journal (txt "panel-02") hvalid).2 (by decide) (by decide)
      (by decide)).mpr (List.mem_singleton_self _),
    (invalidation_journal (txt "core-01") hvalid).1 (by decide) (by decide)⟩

/-- A whole round of records: the generation is the captured one again. -/
theorem since_overrun {journal : InvalidationJournal} {is : List Bytes} {identifier : Bytes}
    (hvalid : ∀ i ∈ is, identifierValid i = true) (hid : identifierValid identifier = true)
    (hpos : 0 < journal.generation.toNat) (hlen : is.length = 2 ^ 64 - 1) :
    (journal.recordAll is).since identifier journal.generation = false := by
  have hlt := journal.generation.toNat_lt
  have hgen := recordAll_generation journal hvalid
  rw [hlen, Epoch.iterate_eq hpos hlt, Nat.add_mod_right, Nat.mod_eq_of_lt (by omega)] at hgen
  have hsame : (journal.recordAll is).generation = journal.generation :=
    UInt64.toNat_inj.mp (by omega)
  unfold since
  rw [if_neg (not_not.mpr hid), if_pos hsame]

/-- At the last generation the loop's counter wraps to 0 and meets an older event. -/
theorem since_last {journal : InvalidationJournal} {is : List Bytes} {identifier last : Bytes}
    (hvalid : ∀ i ∈ is ++ [last], identifierValid i = true)
    (hid : identifierValid identifier = true) (hne : last ≠ identifier)
    (hlen : is.length + 1 = mqttInvalidationHistoryCapacity)
    (hgen : journal.generation.toNat + mqttInvalidationHistoryCapacity = 2 ^ 64 - 1) :
    (journal.recordAll (is ++ [last])).since identifier
      (journal.recordAll is).generation = true := by
  have hcap : mqttInvalidationHistoryCapacity = 32 := rfl
  have hlen' : (is ++ [last]).length = mqttInvalidationHistoryCapacity := by
    rw [List.length_append, List.length_singleton, hlen]
  have hbefore : (journal.recordAll is).generation.toNat =
      journal.generation.toNat + is.length :=
    recordAll_count (fun i hi => hvalid i (List.mem_append_left _ hi)) (by omega)
  have hafter : (journal.recordAll (is ++ [last])).generation.toNat =
      journal.generation.toNat + (is ++ [last]).length := recordAll_count hvalid (by omega)
  obtain ⟨first, hfirst⟩ : ∃ first : UInt64, first.toNat = journal.generation.toNat + 0 + 1 :=
    ⟨UInt64.ofNat (journal.generation.toNat + 1), by
      rw [UInt64.toNat_ofNat']
      exact Nat.mod_eq_of_lt (by omega)⟩
  have hnext : ((journal.recordAll is).generation + 1).toNat =
      journal.generation.toNat + is.length + 1 := by
    rw [UInt64.toNat_add, hbefore]
    show (journal.generation.toNat + is.length + 1) % 2 ^ 64 = _
    exact Nat.mod_eq_of_lt (by omega)
  have hwrap : (journal.recordAll is).generation + 1 + 1 = 0 := by
    refine UInt64.toNat_inj.mp ?_
    rw [UInt64.toNat_add, hnext]
    show (journal.generation.toNat + is.length + 1 + 1) % 2 ^ 64 = 0
    rw [show journal.generation.toNat + is.length + 1 + 1 = 2 ^ 64 by omega]
    rfl
  have hge : (journal.recordAll is).generation ≤
      (journal.recordAll (is ++ [last])).generation := by
    rw [UInt64.le_iff_toNat_le]
    omega
  have hslot : index 0 = index first := by
    refine Fin.ext ?_
    rw [index_val hfirst]
    show 31 = (journal.generation.toNat + 0) % 32
    omega
  unfold since
  rw [if_neg (not_not.mpr hid), if_neg fun heq => by
    have := congrArg UInt64.toNat heq
    omega]
  split
  · rfl
  · -- the last record, which is another's
    unfold sinceLoop
    rw [if_pos (by rw [UInt64.le_iff_toNat_le]; omega),
      recordAll_events hvalid (by omega) (by omega) (show is.length < _ by omega) hnext]
    dsimp only
    rw [if_neg (not_not.mpr rfl), List.getElem_concat_length rfl, if_neg hne, hwrap]
    -- generation 0, whose slot is that of the oldest record
    unfold sinceLoop
    rw [if_pos (by rw [UInt64.le_iff_toNat_le]; exact Nat.zero_le _), hslot,
      recordAll_events hvalid (by omega) (by omega) (show 0 < _ by omega) hfirst]
    dsimp only
    rw [if_pos]
    rintro rfl
    have hzero : (0 : UInt64).toNat = 0 := rfl
    omega

theorem replicate_valid (n : Nat) : ∀ i ∈ List.replicate n (txt "core-01"),
    identifierValid i = true := by
  intro i hi
  rw [List.eq_of_mem_replicate hi]
  decide

/-- **Not every history**: a whole round of records is overlooked, what is no identifier
counts as recorded, and so does everything at the last generation. -/
theorem invalidation_journal_fails :
    ((init.recordAll (.replicate (1 + (2 ^ 64 - 1)) (txt "core-01"))).since (txt "core-01")
        (init.recordAll (.replicate 1 (txt "core-01"))).generation = false ∧
      txt "core-01" ∈ List.replicate (2 ^ 64 - 1) (txt "core-01")) ∧
    (init.recordAll []).since [] init.generation = true ∧
    (init.recordAll (.replicate (2 ^ 64 - 33) (txt "core-01") ++
        (.replicate 31 (txt "core-01") ++ [txt "core-01"]))).since (txt "panel-02")
      (init.recordAll (.replicate (2 ^ 64 - 33) (txt "core-01") ++
        .replicate 31 (txt "core-01"))).generation = true := by
  refine ⟨⟨?_, List.mem_replicate.mpr ⟨by decide, rfl⟩⟩, rfl, ?_⟩
  · rw [List.replicate_add, recordAll_append]
    exact since_overrun (replicate_valid _) (by decide) (by decide) List.length_replicate
  · rw [recordAll_append _ _ (_ ++ _), recordAll_append _ _ (.replicate 31 _)]
    refine since_last ?_ (by decide) (by decide) (by rw [List.length_replicate]; rfl) ?_
    · intro i hi
      rw [← List.replicate_succ'] at hi
      exact replicate_valid _ i hi
    · rw [recordAll_count (replicate_valid _) (by rw [List.length_replicate]; decide),
        List.length_replicate]
      rfl

end Argus
