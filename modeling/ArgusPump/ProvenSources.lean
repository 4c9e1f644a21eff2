import ArgusPump.KdfBudget

/-!
# The share of proven sources

One counter serves two allowances, and a table of two entries decides who gets the larger one.
An entry is written by a success only; it is lost when it is older than the TTL or when both
entries are live and this one is the older, and then two other sources succeeded later.

    calls one after another → a source enters the table by a success of its own, stays proven
      until two others succeeded, and is refused by the budget only after proven sources took
      their share of the window                                       (proven_sources)
-/

namespace Argus

open Interact

/-- `ARGUS_MACHINE_AUTH_PROVEN_SOURCES`. -/
def machineAuthProvenSources : Nat := 2

/-- When the move starts a call. -/
def startsAt (m : MachineAuthMove) : Option UInt64 :=
  match m.ev with
  | .admission _ nowUs _ => some nowUs
  | .record .. => none

/-- A call starts when the one before it is over, and later than it did. -/
def StartsAfter (l : List MachineAuthMove) (m : MachineAuthMove) : Prop :=
  ∀ t ∈ startsAt m, m.pre.inflight = [] ∧ ∀ n ∈ l, ∀ u ∈ startsAt n, u < t

-- by the members of the options: times are finitely many, but not to be gone through
instance (l : List MachineAuthMove) (m : MachineAuthMove) : Decidable (StartsAfter l m) :=
  haveI (t : UInt64) : DecidablePred fun n => ∀ u ∈ startsAt n, u < t :=
    fun _ => Option.decidableForallMem _
  haveI : DecidablePred fun t => m.pre.inflight = [] ∧ ∀ n ∈ l, ∀ u ∈ startsAt n, u < t :=
    fun _ => inferInstance
  Option.decidableForallMem _

/-- A call of the source that started at `startUs` was recorded as a success. -/
def SucceededAt (key : UInt32) (startUs : UInt64) (ms : List MachineAuthMove) : Prop :=
  ∃ m ∈ ms, m.ev = .record key startUs true

/-- The source has an entry in the proven table, live or not. -/
def InProvenTable (s : MachineAuth) (key : UInt32) : Prop :=
  ∃ i, (s.throttle.proven i).inUse = true ∧ (s.throttle.proven i).peerKey = key

/-- As many other sources as the table holds succeeded after `startUs`. -/
def Displaced (key : UInt32) (startUs : UInt64) (ms : List MachineAuthMove) : Prop :=
  ∃ others : List UInt32, others.Nodup ∧ others.length = machineAuthProvenSources ∧
    ∀ other ∈ others, other ≠ key ∧ ∃ u, startUs < u ∧ SucceededAt other u ms

/-- A source that was proven was admitted in the window that starts at `windowUs`. -/
def provenIn (windowUs : UInt64) (m : MachineAuthMove) : Bool :=
  (derivesAt m).isSome && (unprovenAt m).isNone && m.post.throttle.kdfGlobalWindowUs = windowUs

/-- A source that was not proven was admitted in the window that starts at `windowUs`. -/
def unprovenIn (windowUs : UInt64) (m : MachineAuthMove) : Bool :=
  (unprovenAt m).isSome && m.post.throttle.kdfGlobalWindowUs = windowUs

/-- What the table and the share of the budget are for. -/
structure ProvenShare (ms : List MachineAuthMove) : Prop where
  earned : ∀ m ∈ ms, ∀ key, InProvenTable m.post key →
    InProvenTable m.pre key ∨ ∃ startUs, m.ev = .record key startUs true
  kept : ∀ l r, ms = l ++ r → ∀ key startUs nowUs, SucceededAt key startUs l →
    (final MachineAuth.boot l).clockUs ≤ nowUs →
    nowUs.toNat < startUs.toNat + machineAuthProvenTtlUs.toNat →
    sourceIsProven (final MachineAuth.boot l).throttle.proven key nowUs = true ∨ Displaced key startUs l
  served : ∀ l m r, ms = l ++ m :: r → ∀ key nowUs retry, m.ev = .admission key nowUs (.overBudget retry) →
    sourceIsProven m.pre.throttle.proven key nowUs = true →
    m.post.throttle.kdfGlobalWindowUs ≤ nowUs ∧
    nowUs.toNat < m.post.throttle.kdfGlobalWindowUs.toNat + machineAuthKdfGlobalWindowUs.toNat ∧
    machineAuthKdfGlobalBurst.toNat - machineAuthKdfUnprovenBurst.toNat ≤
      l.countP (provenIn m.post.throttle.kdfGlobalWindowUs)

/-! ## The table -/

/-- The source of an entry in use. -/
def ProvenSource.key (entry : ProvenSource) : Option UInt32 :=
  if entry.inUse then some entry.peerKey else none

theorem ProvenSource.key_eq_some {entry : ProvenSource} {k : UInt32} :
    entry.key = some k ↔ entry.inUse = true ∧ entry.peerKey = k := by
  unfold key
  split
  · next h => simp [h]
  · next h => simp [h]

theorem ProvenSource.live_iff {entry : ProvenSource} {nowUs : UInt64} (h : entry.lastSuccessUs ≤ nowUs) :
    entry.live nowUs = true ↔
      entry.inUse = true ∧ nowUs.toNat < entry.lastSuccessUs.toNat + machineAuthProvenTtlUs.toNat := by
  have hle := UInt64.le_iff_toNat_le.mp h
  have hsub := UInt64.toNat_sub_of_le _ _ h
  unfold live
  rw [Bool.and_eq_true, decide_eq_true_eq, UInt64.lt_iff_toNat_lt, hsub]
  exact and_congr_right fun _ => by omega

/-- What `mark_source_proven_locked` writes over: the source's own entry, an entry that is not
live, or the older of two that are. -/
theorem provenTarget_spec (proven : Fin 2 → ProvenSource) (key : UInt32) (nowUs : UInt64) :
    (proven (provenTarget proven key nowUs)).key = some key ∨
    (∀ j, (proven j).key ≠ some key) ∧
      ((proven (provenTarget proven key nowUs)).live nowUs = false ∨
        (∀ j, (proven j).live nowUs = true) ∧
          ∀ j, (proven (provenTarget proven key nowUs)).lastSuccessUs ≤ (proven j).lastSuccessUs) := by
  unfold provenTarget
  cases hown : (List.finRange 2).find? fun i => (proven i).inUse && (proven i).peerKey = key with
  | some i =>
    have hi := List.find?_some hown
    rw [Bool.and_eq_true, decide_eq_true_eq] at hi
    exact .inl (ProvenSource.key_eq_some.mpr hi)
  | none =>
    refine .inr ⟨fun j hj => ?_, ?_⟩
    · have hno := List.find?_eq_none.mp hown j (List.mem_finRange j)
      obtain ⟨hj, hkey⟩ := ProvenSource.key_eq_some.mp hj
      simp [hj, hkey] at hno
    · dsimp only
      unfold provenVictim
      cases hlive : (List.finRange 2).find? fun i => !(proven i).live nowUs with
      | some i =>
        have hi := List.find?_some hlive
        rw [Bool.not_eq_true'] at hi
        exact .inl hi
      | none =>
        refine .inr ⟨fun j => ?_, fun j => ?_⟩
        · have hj := List.find?_eq_none.mp hlive j (List.mem_finRange j)
          simpa using hj
        · dsimp only
          split
          · next hlt =>
            match j with
            | 0 => exact UInt64.le_of_lt hlt
            | 1 => exact UInt64.le_refl _
          · next hlt =>
            match j with
            | 0 => exact UInt64.le_refl _
            | 1 => exact UInt64.not_lt.mp hlt

theorem sourceIsProven_iff {proven : Fin 2 → ProvenSource} {key : UInt32} {nowUs : UInt64} :
    sourceIsProven proven key nowUs = true ↔ ∃ i, (proven i).peerKey = key ∧ (proven i).live nowUs = true := by
  unfold sourceIsProven
  rw [List.any_eq_true]
  simp

theorem succeededAt_snoc {key : UInt32} {startUs : UInt64} {ms : List MachineAuthMove}
    {m : MachineAuthMove} :
    SucceededAt key startUs (ms ++ [m]) ↔
      SucceededAt key startUs ms ∨ m.ev = .record key startUs true := by
  unfold SucceededAt
  constructor
  · rintro ⟨n, hn, hev⟩
    rcases List.mem_append.mp hn with hn | hn
    · exact .inl ⟨n, hn, hev⟩
    · cases List.mem_singleton.mp hn
      exact .inr hev
  · rintro (⟨n, hn, hev⟩ | hev)
    · exact ⟨n, List.mem_append_left _ hn, hev⟩
    · exact ⟨m, List.mem_append_right _ List.mem_cons_self, hev⟩

theorem Displaced.snoc {key : UInt32} {startUs : UInt64} {ms : List MachineAuthMove}
    (h : Displaced key startUs ms) (m : MachineAuthMove) : Displaced key startUs (ms ++ [m]) := by
  obtain ⟨others, hnodup, hlen, hall⟩ := h
  refine ⟨others, hnodup, hlen, fun other hother => ?_⟩
  obtain ⟨hne, u, hlt, hsucceeded⟩ := hall other hother
  exact ⟨hne, u, hlt, succeededAt_snoc.mpr (.inl hsucceeded)⟩

/-! ## Calls one after another -/

/-- At most one call derives, and it is the latest. -/
structure SequentialInv (ms : List MachineAuthMove) (s : MachineAuth) : Prop where
  admitted : s.inflight.length = s.throttle.kdfAdmitted
  one : s.inflight.length ≤ 1
  starts : ∀ n ∈ ms, ∀ u ∈ startsAt n, u ≤ s.clockUs
  started : ∀ key startUs, SucceededAt key startUs ms → ∃ n ∈ ms, startsAt n = some startUs
  inflight : ∀ c ∈ s.inflight, c.2 = s.clockUs ∧ (∃ n ∈ ms, startsAt n = some c.2) ∧
    ∀ key startUs, SucceededAt key startUs ms → startUs < c.2

namespace SequentialInv

variable {ms : List MachineAuthMove} {s t : MachineAuth}

theorem start : SequentialInv [] .boot where
  admitted := rfl
  one := Nat.zero_le _
  starts n hn := absurd hn List.not_mem_nil
  started key startUs h := by
    obtain ⟨m, hm, -⟩ := h
    exact absurd hm List.not_mem_nil
  inflight c hc := absurd hc List.not_mem_nil

theorem step (h : SequentialInv ms s) {ev : MachineAuthAct} (hstep : MachineAuthStep s ev t)
    (hafter : StartsAfter ms ⟨s, ev, t⟩) : SequentialInv (ms ++ [⟨s, ev, t⟩]) t := by
  cases hstep with
  | @admission key nowUs answer throttle hle hlt hanswer =>
    have hone := (MachineThrottle.admit_cases hanswer).kdfAdmitted_eq
    obtain ⟨hidle, hlater⟩ := hafter nowUs rfl
    dsimp only at hidle
    let m : MachineAuthMove := ⟨s, .admission key nowUs answer, ⟨throttle, nowUs,
      if answer = .admitted then (key, nowUs) :: s.inflight else s.inflight⟩⟩
    have hself : m ∈ ms ++ [m] := List.mem_append_right _ List.mem_cons_self
    have hold {k : UInt32} {u : UInt64} (hs : SucceededAt k u (ms ++ [m])) : SucceededAt k u ms :=
      (succeededAt_snoc.mp hs).resolve_right MachineAuthAct.noConfusion
    have hadmitted := h.admitted
    refine ⟨?_, ?_, fun n hn u hu => ?_, fun k u hs => ?_, fun c hc => ?_⟩
    · dsimp only
      rw [hone.1, hidle]
      rw [hidle] at hadmitted
      split
      · exact congrArg (· + 1) hadmitted
      · exact hadmitted
    · dsimp only
      rw [hidle]
      split
      · exact Nat.le_refl _
      · exact Nat.zero_le _
    · rcases List.mem_append.mp hn with hn | hn
      · exact UInt64.le_of_lt (hlater n hn u hu)
      · cases List.mem_singleton.mp hn
        cases hu
        exact UInt64.le_refl _
    · obtain ⟨n, hn, hstart⟩ := h.started k u (hold hs)
      exact ⟨n, List.mem_append_left _ hn, hstart⟩
    · dsimp only at hc
      rw [hidle] at hc
      split at hc
      · cases List.mem_singleton.mp hc
        refine ⟨rfl, ⟨m, hself, rfl⟩, fun k u hs => ?_⟩
        obtain ⟨n, hn, hstart⟩ := h.started k u (hold hs)
        exact hlater n hn u hstart
      · exact absurd hc List.not_mem_nil
  | @record key startUs success hmem =>
    have hlength := List.length_erase_of_mem hmem
    have hone := h.one
    have hadmitted := h.admitted
    have hidle : (s.inflight.erase (key, startUs)).length = 0 := by omega
    refine ⟨?_, ?_, fun n hn u hu => ?_, fun k u hs => ?_, fun c hc => ?_⟩
    · show (s.inflight.erase (key, startUs)).length = s.throttle.kdfAdmitted - 1
      omega
    · dsimp only
      omega
    · rcases List.mem_append.mp hn with hn | hn
      · exact h.starts n hn u hu
      · cases List.mem_singleton.mp hn
        cases hu
    · rcases succeededAt_snoc.mp hs with hs | hev
      · obtain ⟨n, hn, hstart⟩ := h.started k u hs
        exact ⟨n, List.mem_append_left _ hn, hstart⟩
      · cases hev
        obtain ⟨-, ⟨n, hn, hstart⟩, -⟩ := h.inflight _ hmem
        exact ⟨n, List.mem_append_left _ hn, hstart⟩
    · dsimp only at hc
      rw [List.length_eq_zero_iff.mp hidle] at hc
      exact absurd hc List.not_mem_nil

end SequentialInv

/-! ## What the table keeps -/

/-- The table after the calls of `ms`. -/
structure ProvenInv (ms : List MachineAuthMove) (proven : Fin 2 → ProvenSource) (clockUs : UInt64) :
    Prop where
  keyed : Slots.Keyed ProvenSource.key proven
  earned : ∀ i key, (proven i).key = some key → SucceededAt key (proven i).lastSuccessUs ms
  apart : ∀ key other startUs, SucceededAt key startUs ms → SucceededAt other startUs ms → key = other
  past : ∀ key startUs, SucceededAt key startUs ms → startUs ≤ clockUs
  kept : ∀ key startUs, SucceededAt key startUs ms →
    (∃ i, (proven i).key = some key ∧ startUs ≤ (proven i).lastSuccessUs) ∨
    startUs.toNat + machineAuthProvenTtlUs.toNat ≤ clockUs.toNat ∨ Displaced key startUs ms

namespace ProvenInv

variable {ms : List MachineAuthMove} {proven : Fin 2 → ProvenSource} {clockUs nowUs : UInt64}
  {m : MachineAuthMove}

theorem start : ProvenInv [] MachineThrottle.boot.proven 0 where
  keyed := Slots.keyed_of_free fun _ => rfl
  earned i key h := by cases h
  apart key other startUs h := by
    obtain ⟨m, hm, -⟩ := h
    exact absurd hm List.not_mem_nil
  past key startUs h := by
    obtain ⟨m, hm, -⟩ := h
    exact absurd hm List.not_mem_nil
  kept key startUs h := by
    obtain ⟨m, hm, -⟩ := h
    exact absurd hm List.not_mem_nil

/-- A move that records no success. -/
theorem quiet (h : ProvenInv ms proven clockUs) (hle : clockUs ≤ nowUs)
    (hm : ∀ key startUs, m.ev ≠ .record key startUs true) : ProvenInv (ms ++ [m]) proven nowUs := by
  have hiff {k : UInt32} {u : UInt64} : SucceededAt k u (ms ++ [m]) ↔ SucceededAt k u ms := by
    rw [succeededAt_snoc]
    exact ⟨fun hs => hs.resolve_right (hm k u), .inl⟩
  have hclock := UInt64.le_iff_toNat_le.mp hle
  refine ⟨h.keyed, fun i k hi => hiff.mpr (h.earned i k hi),
    fun k o u hk ho => h.apart k o u (hiff.mp hk) (hiff.mp ho),
    fun k u hs => UInt64.le_trans (h.past k u (hiff.mp hs)) hle, fun k u hs => ?_⟩
  rcases h.kept k u (hiff.mp hs) with hentry | hold | hdisplaced
  · exact .inl hentry
  · exact .inr (.inl (Nat.le_trans hold hclock))
  · exact .inr (.inr (hdisplaced.snoc m))

/-- The entry of another source that a success writes over has expired, or is the older. -/
theorem displaces (h : ProvenInv ms proven clockUs) {key other : UInt32} {startUs : UInt64}
    (hs : SucceededAt other startUs ms) (hne : other ≠ key)
    (hlater : ∀ k u, SucceededAt k u ms → u < clockUs) (hev : m.ev = .record key clockUs true)
    (hi : (proven (provenTarget proven key clockUs)).key = some other)
    (hle : startUs ≤ (proven (provenTarget proven key clockUs)).lastSuccessUs) :
    startUs.toNat + machineAuthProvenTtlUs.toNat ≤ clockUs.toNat ∨ Displaced other startUs (ms ++ [m]) := by
  have hearned := h.earned _ _ hi
  have hle' := UInt64.le_iff_toNat_le.mp hle
  rcases provenTarget_spec proven key clockUs with hown | ⟨hnone, hexpired | ⟨hlive, holdest⟩⟩
  · exact absurd (Option.some.inj (hi.symm.trans hown)) hne
  · rw [← Bool.not_eq_true, ProvenSource.live_iff (h.past _ _ hearned)] at hexpired
    have hinUse := (ProvenSource.key_eq_some.mp hi).1
    refine .inl (by_contra fun hyoung => hexpired ⟨hinUse, by omega⟩)
  · -- the other entry is live too, and its success is the later one
    generalize provenTarget proven key clockUs = i at *
    obtain ⟨j, hji⟩ : ∃ j : Fin 2, j ≠ i := by
      match i with
      | 0 => exact ⟨1, by decide⟩
      | 1 => exact ⟨0, by decide⟩
    have hjlive := hlive j
    unfold ProvenSource.live at hjlive
    rw [Bool.and_eq_true] at hjlive
    have hj : (proven j).key = some (proven j).peerKey := ProvenSource.key_eq_some.mpr ⟨hjlive.1, rfl⟩
    have hjearned := h.earned j _ hj
    have hjother : (proven j).peerKey ≠ other := fun heq => by
      rw [heq] at hj
      exact hji (h.keyed j i other hj hi)
    have hjkey : (proven j).peerKey ≠ key := fun heq => by
      rw [heq] at hj
      exact hnone j hj
    have hlt : (proven i).lastSuccessUs < (proven j).lastSuccessUs := by
      refine UInt64.lt_of_le_of_ne (holdest j) fun heq => hjother ?_
      rw [heq] at hearned
      exact h.apart _ _ _ hjearned hearned
    refine .inr ⟨[(proven j).peerKey, key], ?_, rfl, fun k hk => ?_⟩
    · simpa using hjkey
    · rcases List.mem_cons.mp hk with rfl | hk
      · exact ⟨hjother, _, UInt64.lt_of_le_of_lt hle hlt, succeededAt_snoc.mpr (.inl hjearned)⟩
      · cases List.mem_singleton.mp hk
        exact ⟨hne.symm, clockUs, hlater _ _ hs, succeededAt_snoc.mpr (.inr hev)⟩

/-- A success of the latest call. -/
theorem mark (h : ProvenInv ms proven clockUs) {key : UInt32} (hev : m.ev = .record key clockUs true)
    (hlater : ∀ k u, SucceededAt k u ms → u < clockUs) :
    ProvenInv (ms ++ [m]) (markSourceProven proven key clockUs) clockUs := by
  have hcases {k : UInt32} {u : UInt64} (hs : SucceededAt k u (ms ++ [m])) :
      SucceededAt k u ms ∨ k = key ∧ u = clockUs := by
    refine (succeededAt_snoc.mp hs).imp id fun hsame => ?_
    rw [hev] at hsame
    cases hsame
    exact ⟨rfl, rfl⟩
  have hnew : SucceededAt key clockUs (ms ++ [m]) := succeededAt_snoc.mpr (.inr hev)
  have hwritten : (⟨key, clockUs, true⟩ : ProvenSource).key = some key := rfl
  unfold markSourceProven
  refine ⟨h.keyed.update fun j k hk hj => ?_, fun i k hi => ?_, fun k o u hk ho => ?_,
    fun k u hs => ?_, fun k u hs => ?_⟩
  · cases Option.some.inj (hwritten.symm.trans hk)
    rcases provenTarget_spec proven key clockUs with hown | ⟨hnone, -⟩
    · exact h.keyed j _ key hj hown
    · exact absurd hj (hnone j)
  · by_cases hit : i = provenTarget proven key clockUs
    · rw [hit, Function.update_self] at hi ⊢
      cases Option.some.inj (hwritten.symm.trans hi)
      exact hnew
    · rw [Function.update_of_ne hit] at hi ⊢
      exact succeededAt_snoc.mpr (.inl (h.earned i k hi))
  · rcases hcases hk with hk | ⟨rfl, rfl⟩
    · rcases hcases ho with ho | ⟨rfl, rfl⟩
      · exact h.apart k o u hk ho
      · exact absurd (hlater k _ hk) (UInt64.lt_irrefl _)
    · rcases hcases ho with ho | ⟨rfl, -⟩
      · exact absurd (hlater o _ ho) (UInt64.lt_irrefl _)
      · rfl
  · rcases hcases hs with hs | ⟨-, rfl⟩
    · exact h.past k u hs
    · exact UInt64.le_refl _
  · by_cases hk : k = key
    · refine .inl ⟨provenTarget proven key clockUs, ?_, ?_⟩
      · rw [Function.update_self, hk]
        exact hwritten
      · rw [Function.update_self]
        rcases hcases hs with hs | ⟨-, rfl⟩
        · exact UInt64.le_of_lt (hlater k u hs)
        · exact UInt64.le_refl _
    · have hs := (hcases hs).resolve_right fun hsame => hk hsame.1
      rcases h.kept k u hs with ⟨i, hi, hle⟩ | hold | hdisplaced
      · by_cases hit : i = provenTarget proven key clockUs
        · rw [hit] at hi hle
          exact .inr (h.displaces hs hk hlater hev hi hle)
        · refine .inl ⟨i, ?_, ?_⟩
          · rw [Function.update_of_ne hit]
            exact hi
          · rw [Function.update_of_ne hit]
            exact hle
      · exact .inr (.inl hold)
      · exact .inr (.inr (hdisplaced.snoc m))

theorem step {s t : MachineAuth} {ev : MachineAuthAct} (h : ProvenInv ms s.throttle.proven s.clockUs)
    (hseq : SequentialInv ms s) (hstep : MachineAuthStep s ev t) :
    ProvenInv (ms ++ [⟨s, ev, t⟩]) t.throttle.proven t.clockUs := by
  cases hstep with
  | @admission key nowUs answer throttle hle hlt hanswer =>
    dsimp only
    rw [(MachineThrottle.admit_cases hanswer).proven_eq]
    exact h.quiet hle fun _ _ => MachineAuthAct.noConfusion
  | @record key startUs success hmem =>
    obtain ⟨hclock, -, hlater⟩ := hseq.inflight _ hmem
    dsimp only at hclock hlater
    cases success with
    | false => exact h.quiet (UInt64.le_refl _) fun _ _ hev => by cases hev
    | true =>
      rw [hclock] at hlater ⊢
      exact h.mark rfl hlater

end ProvenInv

/-! ## What the budget counts -/

/-- The window of the budget after the calls of `ms`, by the sources that were proven and those
that were not. -/
structure ShareInv (ms : List MachineAuthMove) (throttle : MachineThrottle) (clockUs : UInt64) :
    Prop where
  window : ∀ n ∈ ms, ∀ t ∈ derivesAt n, n.post.throttle.kdfGlobalWindowUs.toNat ≤ t
  current : throttle.kdfGlobalWindowUs ≤ clockUs
  spent : throttle.kdfGlobalSpent.toNat =
    ms.countP (provenIn throttle.kdfGlobalWindowUs) + ms.countP (unprovenIn throttle.kdfGlobalWindowUs)
  few : ms.countP (unprovenIn throttle.kdfGlobalWindowUs) ≤ machineAuthKdfUnprovenBurst.toNat

theorem derivesAt_of_provenIn {windowUs : UInt64} {m : MachineAuthMove} (h : provenIn windowUs m = true) :
    ∃ t, derivesAt m = some t ∧ m.post.throttle.kdfGlobalWindowUs = windowUs := by
  unfold provenIn at h
  rw [Bool.and_eq_true, Bool.and_eq_true, Option.isSome_iff_exists, decide_eq_true_eq] at h
  obtain ⟨⟨⟨t, ht⟩, -⟩, hwindow⟩ := h
  exact ⟨t, ht, hwindow⟩

theorem derivesAt_of_unprovenIn {windowUs : UInt64} {m : MachineAuthMove}
    (h : unprovenIn windowUs m = true) :
    ∃ t, derivesAt m = some t ∧ m.post.throttle.kdfGlobalWindowUs = windowUs := by
  unfold unprovenIn at h
  rw [Bool.and_eq_true, Option.isSome_iff_exists, decide_eq_true_eq] at h
  obtain ⟨⟨t, ht⟩, hwindow⟩ := h
  exact ⟨t, derivesAt_of_unprovenAt ht, hwindow⟩

theorem startsAt_of_derivesAt {m : MachineAuthMove} {t : Nat} (h : derivesAt m = some t) :
    ∃ u ∈ startsAt m, u.toNat = t := by
  unfold derivesAt at h
  unfold startsAt
  split at h
  · next heq =>
    rw [heq]
    cases h
    exact ⟨_, rfl, rfl⟩
  · cases h

namespace ShareInv

variable {ms : List MachineAuthMove} {throttle next : MachineThrottle} {clockUs nowUs : UInt64}
  {m : MachineAuthMove}

theorem start : ShareInv [] .boot 0 where
  window _ hn := absurd hn List.not_mem_nil
  current := UInt64.le_refl _
  spent := rfl
  few := Nat.zero_le _

/-- A window that opens holds none of the derivations before it. -/
theorem roll (h : ShareInv ms throttle clockUs) (hle : clockUs ≤ nowUs)
    (hlater : ∀ n ∈ ms, ∀ u ∈ startsAt n, u < nowUs) : ShareInv ms (throttle.rollWindow nowUs) nowUs := by
  unfold MachineThrottle.rollWindow
  split
  · have hnone (n : MachineAuthMove) (hn : n ∈ ms)
        (hderives : ∃ t, derivesAt n = some t ∧ n.post.throttle.kdfGlobalWindowUs = nowUs) : False := by
      obtain ⟨t, ht, hwindow⟩ := hderives
      obtain ⟨u, hu, rfl⟩ := startsAt_of_derivesAt ht
      have hlt := UInt64.lt_iff_toNat_lt.mp (hlater n hn u hu)
      have hle := h.window n hn _ ht
      rw [hwindow] at hle
      omega
    have hproven : ms.countP (provenIn nowUs) = 0 :=
      List.countP_eq_zero.mpr fun n hn hin => hnone n hn (derivesAt_of_provenIn hin)
    have hunproven : ms.countP (unprovenIn nowUs) = 0 :=
      List.countP_eq_zero.mpr fun n hn hin => hnone n hn (derivesAt_of_unprovenIn hin)
    refine ⟨h.window, UInt64.le_refl _, ?_, ?_⟩
    · dsimp only
      rw [hproven, hunproven]
      rfl
    · dsimp only
      rw [hunproven]
      exact Nat.zero_le _
  · exact ⟨h.window, UInt64.le_trans h.current hle, h.spent, h.few⟩

/-- A move that does not derive. -/
theorem quiet (h : ShareInv ms throttle clockUs) (hm : derivesAt m = none)
    (hwindow : next.kdfGlobalWindowUs = throttle.kdfGlobalWindowUs)
    (hspent : next.kdfGlobalSpent = throttle.kdfGlobalSpent) : ShareInv (ms ++ [m]) next clockUs := by
  have hno {windowUs : UInt64} (hin : ∃ t, derivesAt m = some t ∧
      m.post.throttle.kdfGlobalWindowUs = windowUs) : False := by
    obtain ⟨t, ht, -⟩ := hin
    rw [hm] at ht
    cases ht
  have hproven (windowUs : UInt64) : (ms ++ [m]).countP (provenIn windowUs) = ms.countP (provenIn windowUs) := by
    rw [List.countP_append, List.countP_singleton, if_neg fun hin => hno (derivesAt_of_provenIn hin)]
    rfl
  have hunproven (windowUs : UInt64) :
      (ms ++ [m]).countP (unprovenIn windowUs) = ms.countP (unprovenIn windowUs) := by
    rw [List.countP_append, List.countP_singleton, if_neg fun hin => hno (derivesAt_of_unprovenIn hin)]
    rfl
  refine ⟨fun n hn t ht => ?_, ?_, ?_, ?_⟩
  · rcases List.mem_append.mp hn with hn | hn
    · exact h.window n hn t ht
    · cases List.mem_singleton.mp hn
      rw [hm] at ht
      cases ht
  · rw [hwindow]
    exact h.current
  · rw [hwindow, hspent, hproven, hunproven]
    exact h.spent
  · rw [hwindow, hunproven]
    exact h.few

/-- A call that derives takes one of the budget, of the unproven share if it is not proven. -/
theorem derive (h : ShareInv ms throttle nowUs) {proven : Bool}
    (hlt : throttle.kdfGlobalSpent <
      if proven then machineAuthKdfGlobalBurst else machineAuthKdfUnprovenBurst)
    (hm : derivesAt m = some nowUs.toNat) (hunproven : (unprovenAt m).isNone = proven)
    (hpost : m.post.throttle.kdfGlobalWindowUs = throttle.kdfGlobalWindowUs)
    (hwindow : next.kdfGlobalWindowUs = throttle.kdfGlobalWindowUs)
    (hspent : next.kdfGlobalSpent = throttle.kdfGlobalSpent + 1) : ShareInv (ms ++ [m]) next nowUs := by
  have hpin : provenIn throttle.kdfGlobalWindowUs m = proven := by
    unfold provenIn
    rw [hm, hpost, hunproven]
    simp
  have huin : unprovenIn throttle.kdfGlobalWindowUs m = !proven := by
    unfold unprovenIn
    rw [hpost, ← hunproven]
    cases unprovenAt m <;> simp
  have hlt' := UInt32.lt_iff_toNat_lt.mp hlt
  have hburst : machineAuthKdfGlobalBurst.toNat = 8 := rfl
  have hshare : machineAuthKdfUnprovenBurst.toNat = 5 := rfl
  have hspent' := h.spent
  have hfew := h.few
  have hsmall : throttle.kdfGlobalSpent.toNat < 8 := by
    cases proven with
    | true => exact hlt'
    | false => exact Nat.lt_trans hlt' (by decide)
  have hsucc : (throttle.kdfGlobalSpent + 1).toNat = throttle.kdfGlobalSpent.toNat + 1 := by
    rw [UInt32.toNat_add]
    exact Nat.mod_eq_of_lt (by show throttle.kdfGlobalSpent.toNat + 1 < 2 ^ 32; omega)
  have hproven : (ms ++ [m]).countP (provenIn throttle.kdfGlobalWindowUs) =
      ms.countP (provenIn throttle.kdfGlobalWindowUs) + if proven then 1 else 0 := by
    rw [List.countP_append, List.countP_singleton, hpin]
  have hother : (ms ++ [m]).countP (unprovenIn throttle.kdfGlobalWindowUs) =
      ms.countP (unprovenIn throttle.kdfGlobalWindowUs) + if proven then 0 else 1 := by
    rw [List.countP_append, List.countP_singleton, huin]
    cases proven <;> rfl
  refine ⟨fun n hn t ht => ?_, ?_, ?_, ?_⟩
  · rcases List.mem_append.mp hn with hn | hn
    · exact h.window n hn t ht
    · cases List.mem_singleton.mp hn
      rw [hm] at ht
      cases ht
      rw [hpost]
      exact UInt64.le_iff_toNat_le.mp h.current
  · rw [hwindow]
    exact h.current
  · rw [hwindow, hspent, hsucc, hproven, hother]
    cases proven with
    | true =>
      simp only [if_pos]
      omega
    | false =>
      simp only [Bool.false_eq_true, if_false]
      omega
  · rw [hwindow, hother]
    cases proven with
    | true => exact hfew
    | false =>
      -- below the share of the unproven sources there is room for one of them
      simp only [Bool.false_eq_true, if_false] at hlt' ⊢
      omega

theorem step {s t : MachineAuth} {ev : MachineAuthAct} (h : ShareInv ms s.throttle s.clockUs)
    (hseq : SequentialInv ms s) (hstep : MachineAuthStep s ev t) (hafter : StartsAfter ms ⟨s, ev, t⟩) :
    ShareInv (ms ++ [⟨s, ev, t⟩]) t.throttle t.clockUs := by
  cases hstep with
  | record hmem => exact h.quiet rfl rfl rfl
  | @admission key nowUs answer throttle hle hlt hanswer =>
    obtain ⟨hidle, hlater⟩ := hafter nowUs rfl
    have hroll := h.roll hle hlater
    cases MachineThrottle.admit_cases hanswer with
    | lockedOut _ =>
      have hlater : ShareInv ms s.throttle nowUs :=
        ⟨h.window, UInt64.le_trans h.current hle, h.spent, h.few⟩
      exact hlater.quiet rfl rfl rfl
    | overBudget _ _ => exact hroll.quiet rfl rfl rfl
    | busy _ _ hfull =>
      -- no call derives when one starts
      have hadmitted := hseq.admitted
      dsimp only at hidle
      rw [hidle] at hadmitted
      rw [← hadmitted] at hfull
      exact absurd hfull (by decide)
    | admitted _ hlt _ =>
      refine hroll.derive hlt rfl ?_ rfl rfl rfl
      unfold unprovenAt
      dsimp only
      cases sourceIsProven s.throttle.proven key nowUs <;> rfl

end ShareInv

/-- The window that `kdf_global_admit` works in holds the call. -/
theorem rollWindow_current {throttle : MachineThrottle} {nowUs : UInt64}
    (h : throttle.kdfGlobalWindowUs ≤ nowUs) :
    (throttle.rollWindow nowUs).kdfGlobalWindowUs ≤ nowUs ∧
      nowUs.toNat < (throttle.rollWindow nowUs).kdfGlobalWindowUs.toNat + machineAuthKdfGlobalWindowUs.toNat := by
  have hwidth : machineAuthKdfGlobalWindowUs.toNat = 10000000 := rfl
  unfold MachineThrottle.rollWindow
  split
  · exact ⟨UInt64.le_refl _, by dsimp only; omega⟩
  · next hover =>
    unfold MachineThrottle.windowOver at hover
    rw [Bool.not_eq_true, Bool.or_eq_false_iff, decide_eq_false_iff_not, decide_eq_false_iff_not] at hover
    have hlt := UInt64.lt_iff_toNat_lt.mp (UInt64.not_le.mp hover.2)
    rw [UInt64.toNat_sub_of_le _ _ h] at hlt
    have hle := UInt64.le_iff_toNat_le.mp h
    exact ⟨h, by omega⟩

/-- A call of a proven source that the budget refuses. -/
theorem ShareInv.refused {ms : List MachineAuthMove} {s t : MachineAuth} {key retry : UInt32}
    {nowUs : UInt64} (h : ShareInv ms s.throttle s.clockUs)
    (hstep : MachineAuthStep s (.admission key nowUs (.overBudget retry)) t)
    (hlater : ∀ n ∈ ms, ∀ u ∈ startsAt n, u < nowUs)
    (hproven : sourceIsProven s.throttle.proven key nowUs = true) :
    t.throttle.kdfGlobalWindowUs ≤ nowUs ∧
    nowUs.toNat < t.throttle.kdfGlobalWindowUs.toNat + machineAuthKdfGlobalWindowUs.toNat ∧
    machineAuthKdfGlobalBurst.toNat - machineAuthKdfUnprovenBurst.toNat ≤
      ms.countP (provenIn t.throttle.kdfGlobalWindowUs) := by
  cases hstep with
  | @admission key nowUs _ throttle hle hlt hanswer =>
    have hroll := h.roll hle hlater
    have hcurrent := rollWindow_current (UInt64.le_trans h.current hle)
    cases MachineThrottle.admit_cases hanswer with
    | overBudget _ hover =>
      unfold MachineThrottle.allowance at hover
      rw [if_pos hproven] at hover
      have hover' := UInt32.le_iff_toNat_le.mp hover
      have hspent := hroll.spent
      have hfew := hroll.few
      refine ⟨hcurrent.1, hcurrent.2, ?_⟩
      dsimp only
      omega

/-! ## Runs -/

theorem sequential_run {ms : List MachineAuthMove} (h : IsRun MachineAuthStep .boot ms)
    (hseq : ∀ l m r, ms = l ++ m :: r → StartsAfter l m) :
    SequentialInv ms (final .boot ms) ∧
      ProvenInv ms (final MachineAuth.boot ms).throttle.proven (final MachineAuth.boot ms).clockUs ∧
      ShareInv ms (final MachineAuth.boot ms).throttle (final MachineAuth.boot ms).clockUs := by
  refine h.inv_past_of (I := fun s ms => SequentialInv ms s ∧
    ProvenInv ms s.throttle.proven s.clockUs ∧ ShareInv ms s.throttle s.clockUs)
    ⟨.start, .start, .start⟩ hseq fun ns m hinv hstep hafter => ?_
  obtain ⟨hsequential, hproven, hshare⟩ := hinv
  exact ⟨hsequential.step hstep hafter, hproven.step hsequential hstep,
    hshare.step hsequential hstep hafter⟩

/-- Only a success of the source writes its entry. -/
theorem inProvenTable_step {s t : MachineAuth} {ev : MachineAuthAct} (h : MachineAuthStep s ev t)
    {key : UInt32} (hin : InProvenTable t key) :
    InProvenTable s key ∨ ∃ startUs, ev = .record key startUs true := by
  obtain ⟨i, hinUse, hkey⟩ := hin
  cases h with
  | @admission peerKey nowUs answer throttle hle hlt hanswer =>
    dsimp only at hinUse hkey
    rw [(MachineThrottle.admit_cases hanswer).proven_eq] at hinUse hkey
    exact .inl ⟨i, hinUse, hkey⟩
  | @record peerKey nowUs success hmem =>
    cases success with
    | false => exact .inl ⟨i, hinUse, hkey⟩
    | true =>
      dsimp only [MachineThrottle.record] at hinUse hkey
      rw [if_pos rfl] at hinUse hkey
      unfold markSourceProven at hinUse hkey
      by_cases hi : i = provenTarget s.throttle.proven peerKey nowUs
      · rw [hi, Function.update_self] at hkey
        cases hkey
        exact .inr ⟨nowUs, rfl⟩
      · rw [Function.update_of_ne hi] at hinUse hkey
        exact .inl ⟨i, hinUse, hkey⟩

/-- **The share of proven sources.** -/
theorem proven_sources {ms : List MachineAuthMove} (h : IsRun MachineAuthStep .boot ms)
    (hseq : ∀ l m r, ms = l ++ m :: r → StartsAfter l m) : ProvenShare ms where
  earned m hm key hin := inProvenTable_step (h.step_of_mem m hm) hin
  kept l r hms key startUs nowUs hs hclock hyoung := by
    rw [hms, isRun_append] at h
    obtain ⟨-, hproven, -⟩ := sequential_run h.1 fun l' m r' hl => hseq l' m (r' ++ r) (by
      rw [hms, hl, List.append_assoc, List.cons_append])
    have hle := UInt64.le_iff_toNat_le.mp hclock
    rcases hproven.kept key startUs hs with ⟨i, hi, hlast⟩ | hold | hdisplaced
    · have hpast := UInt64.le_trans (hproven.past _ _ (hproven.earned i key hi)) hclock
      have hlast' := UInt64.le_iff_toNat_le.mp hlast
      obtain ⟨hinUse, hkey⟩ := ProvenSource.key_eq_some.mp hi
      exact .inl (sourceIsProven_iff.mpr ⟨i, hkey, (ProvenSource.live_iff hpast).mpr ⟨hinUse, by omega⟩⟩)
    · omega
    · exact .inr hdisplaced
  served l m r hms key nowUs retry hev hproven := by
    rw [hms, isRun_append, isRun_cons] at h
    obtain ⟨hrun, hpre, hstep, -⟩ := h
    obtain ⟨-, -, hshare⟩ := sequential_run hrun fun l' n r' hl => hseq l' n (r' ++ m :: r) (by
      rw [hms, hl, List.append_assoc, List.cons_append])
    have hafter := hseq l m r hms
    obtain ⟨pre, ev, post⟩ := m
    cases hpre
    cases hev
    obtain ⟨-, hlater⟩ := hafter nowUs rfl
    exact hshare.refused hstep hlater hproven

/-- Source 1 succeeds; five calls of sources that never did, and then it fails three times:
the ninth call of the window is its own, and refused. -/
theorem proven_sources_flood :
    ProvenShare (machineAuthTrace (wholeCall 1 1 true ++ wholeCall 2 10000001 false ++
      wholeCall 3 10000002 false ++ wholeCall 4 10000003 false ++ wholeCall 5 10000004 false ++
      wholeCall 6 10000005 false ++ [.enter 7 10000006] ++ wholeCall 1 10000007 false ++
      wholeCall 1 10000008 false ++ wholeCall 1 10000009 false ++ [.enter 1 10000010])) ∧
    ∃ m ∈ machineAuthTrace (wholeCall 1 1 true ++ wholeCall 2 10000001 false ++
      wholeCall 3 10000002 false ++ wholeCall 4 10000003 false ++ wholeCall 5 10000004 false ++
      wholeCall 6 10000005 false ++ [.enter 7 10000006] ++ wholeCall 1 10000007 false ++
      wholeCall 1 10000008 false ++ wholeCall 1 10000009 false ++ [.enter 1 10000010]),
      m.ev = .admission 1 10000010 (.overBudget 10) := by
  refine ⟨proven_sources (isRun_machineAuthTrace _) ?_, ?_⟩
  · rw [forall_split_iff]
    decide +kernel
  · decide +kernel

end Argus
