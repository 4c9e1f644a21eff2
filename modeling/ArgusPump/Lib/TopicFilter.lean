import Mathlib.Tactic.Common

/-!
# Topic filters, level by level

A filter and a topic are cut into levels at `sep`.  A level `plus` of the filter stands
for one level of the topic, a last level `hash` for any number of them, none included.

    no wildcard in the filter → it matches itself alone                (matches_literal)
    the filter is stem / hash → it matches the stem and all below it   (matches_subtree)
-/

namespace Interact

namespace TopicFilter

variable {α : Type} [DecidableEq α]

def matchLevels (plus hash : α) : List (List α) → List (List α) → Bool
  | [], ts => ts.isEmpty
  | f :: fs, ts =>
    (f = [hash] && fs.isEmpty) ||
      match ts with
      | [] => false
      | t :: us => (f = [plus] || f = t) && matchLevels plus hash fs us

def Matches (sep plus hash : α) (filter topic : List α) : Bool :=
  matchLevels plus hash (filter.splitOn sep) (topic.splitOn sep)

/-- Levels without a wildcard. -/
def Literal (plus hash : α) (levels : List (List α)) : Prop :=
  ∀ l ∈ levels, l ≠ [plus] ∧ l ≠ [hash]

variable {sep plus hash : α}

theorem matchLevels_append {ls : List (List α)} (h : Literal plus hash ls)
    (fs ts : List (List α)) :
    matchLevels plus hash (ls ++ fs) ts = true ↔
      ∃ us, ts = ls ++ us ∧ matchLevels plus hash fs us = true := by
  induction ls generalizing ts with
  | nil => simp
  | cons l ls ih =>
    obtain ⟨hplus, hhash⟩ := h l List.mem_cons_self
    have hls : Literal plus hash ls := fun k hk => h k (List.mem_cons_of_mem _ hk)
    cases ts with
    | nil => simp [matchLevels, hhash]
    | cons t us =>
      have hstep : matchLevels plus hash (l :: ls ++ fs) (t :: us) = true ↔
          l = t ∧ matchLevels plus hash (ls ++ fs) us = true := by
        simp [matchLevels, hplus, hhash]
      rw [hstep, ih hls us]
      constructor
      · rintro ⟨rfl, vs, rfl, hv⟩
        exact ⟨vs, rfl, hv⟩
      · rintro ⟨vs, heq, hv⟩
        obtain ⟨rfl, rfl⟩ := List.cons.inj heq
        exact ⟨rfl, vs, rfl, hv⟩

theorem matchLevels_nil (ts : List (List α)) : matchLevels plus hash [] ts = true ↔ ts = [] := by
  unfold matchLevels
  exact List.isEmpty_iff

theorem matchLevels_hash (ts : List (List α)) : matchLevels plus hash [[hash]] ts = true := by
  simp [matchLevels]

/-- A level is made of elements of the list. -/
theorem mem_of_mem_splitOn {xs l : List α} {c : α} (hl : l ∈ xs.splitOn sep) (hc : c ∈ l) :
    c ∈ xs := by
  induction xs generalizing l with
  | nil =>
    rw [List.splitOn_nil, List.mem_singleton] at hl
    subst hl
    cases hc
  | cons x xs ih =>
    rw [List.splitOn_cons_eq_if_modifyHead] at hl
    split at hl
    · rcases List.mem_cons.mp hl with rfl | hl
      · cases hc
      · exact List.mem_cons_of_mem _ (ih hl hc)
    · cases hls : xs.splitOn sep with
      | nil => exact absurd hls (List.splitOn_ne_nil sep xs)
      | cons k ks =>
        rw [hls, List.modifyHead_cons] at hl
        rcases List.mem_cons.mp hl with rfl | hl
        · rcases List.mem_cons.mp hc with rfl | hc
          · exact List.mem_cons_self
          · exact List.mem_cons_of_mem _ (ih (hls ▸ List.mem_cons_self) hc)
        · exact List.mem_cons_of_mem _ (ih (hls ▸ List.mem_cons_of_mem _ hl) hc)

theorem literal_splitOn {xs : List α} (hplus : plus ∉ xs) (hhash : hash ∉ xs) :
    Literal plus hash (xs.splitOn sep) := by
  intro l hl
  constructor
  · rintro rfl
    exact hplus (mem_of_mem_splitOn hl List.mem_cons_self)
  · rintro rfl
    exact hhash (mem_of_mem_splitOn hl List.mem_cons_self)

theorem splitOn_inj {xs ys : List α} : xs.splitOn sep = ys.splitOn sep ↔ xs = ys := by
  constructor
  · intro h
    have hback := congrArg [sep].intercalate h
    rwa [List.intercalate_splitOn, List.intercalate_splitOn] at hback
  · exact congrArg _

omit [DecidableEq α] in
theorem intercalate_append {s : List α} {ls us : List (List α)} (hls : ls ≠ []) (hus : us ≠ []) :
    s.intercalate (ls ++ us) = s.intercalate ls ++ s ++ s.intercalate us := by
  induction ls with
  | nil => exact absurd rfl hls
  | cons l ls ih =>
    rw [List.cons_append,
      List.intercalate_cons_of_ne_nil fun h => hus (List.append_eq_nil_iff.mp h).2]
    cases ls with
    | nil => rw [List.nil_append, List.intercalate_singleton]
    | cons k ks =>
      rw [ih (List.cons_ne_nil k ks), List.intercalate_cons_of_ne_nil (List.cons_ne_nil k ks)]
      simp only [List.append_assoc]

/-- The levels of a list start with those of another one: it is that one or goes on after it
with a separator. -/
theorem splitOn_eq_append {xs ys : List α} :
    (∃ us, ys.splitOn sep = xs.splitOn sep ++ us) ↔ ys = xs ∨ xs ++ [sep] <+: ys := by
  constructor
  · rintro ⟨us, h⟩
    have hback := congrArg [sep].intercalate h
    rw [List.intercalate_splitOn] at hback
    cases us with
    | nil =>
      rw [List.append_nil, List.intercalate_splitOn] at hback
      exact .inl hback
    | cons u us =>
      rw [intercalate_append (List.splitOn_ne_nil sep xs) (List.cons_ne_nil u us),
        List.intercalate_splitOn] at hback
      exact .inr ⟨_, hback.symm⟩
  · rintro (rfl | ⟨rest, rfl⟩)
    · exact ⟨[], (List.append_nil _).symm⟩
    · refine ⟨rest.splitOn sep, ?_⟩
      rw [List.append_assoc, List.singleton_append, List.splitOn_append_cons_self]

/-- The first level ends at the first separator. -/
theorem eq_of_append_sep {a b x y : List α} (ha : sep ∉ a) (hb : sep ∉ b)
    (h : a ++ sep :: x = b ++ sep :: y) : a = b ∧ x = y := by
  have hlevels := congrArg (List.splitOn sep) h
  rw [List.splitOn_append_cons_self_of_not_mem ha, List.splitOn_append_cons_self_of_not_mem hb]
    at hlevels
  obtain ⟨hfirst, hrest⟩ := List.cons.inj hlevels
  exact ⟨hfirst, splitOn_inj.mp hrest⟩

theorem matches_literal {filter : List α} (hplus : plus ∉ filter) (hhash : hash ∉ filter)
    (topic : List α) : Matches sep plus hash filter topic = true ↔ topic = filter := by
  have hlevels : Literal plus hash (filter.splitOn sep) := literal_splitOn hplus hhash
  have happend := matchLevels_append hlevels [] (topic.splitOn sep)
  rw [List.append_nil] at happend
  unfold Matches
  rw [happend]
  simp only [matchLevels_nil, exists_eq_right, List.append_nil, splitOn_inj]

theorem matches_subtree {stem : List α} (hplus : plus ∉ stem) (hhash : hash ∉ stem)
    (hsep : sep ≠ hash) (topic : List α) :
    Matches sep plus hash (stem ++ [sep, hash]) topic = true ↔
      topic = stem ∨ stem ++ [sep] <+: topic := by
  have hlevels : (stem ++ [sep, hash]).splitOn sep = stem.splitOn sep ++ [[hash]] := by
    have hlast : [hash].splitOn sep = [[hash]] :=
      List.splitOn_eq_singleton fun h => hsep (List.mem_singleton.mp h)
    rw [List.splitOn_append_cons_self, hlast]
  unfold Matches
  rw [hlevels, matchLevels_append (literal_splitOn hplus hhash), ← splitOn_eq_append]
  simp only [matchLevels_hash, and_true]

end TopicFilter

end Interact
