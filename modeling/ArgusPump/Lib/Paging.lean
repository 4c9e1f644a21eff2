import Mathlib.Data.List.Perm.Subperm

/-!
# Pages of a list that changes between them

A list is read newest first, its keys descending.  A page is the first `limit` elements
below a boundary (`page`), and the next boundary is the key of the last of them, if there is
an element below it (`next`).  Between two pages the list may gain elements at or above the
first boundary and lose any (`Walk.change`).

    a walk from l₀ → its elements descend and are of l₀                 (Walk.descending, Walk.mem_first)
    no next boundary → what is left of l₀ is in the pages               (Walk.complete)
    at most one page more than l₀ has elements                          (Walk.length_le)
-/

namespace Interact

namespace Paging

variable {α : Type} {key : α → Nat}

def Descending (key : α → Nat) (l : List α) : Prop := l.Pairwise fun a b => key b < key a

/-- The elements below a boundary. -/
def below (key : α → Nat) (l : List α) (before : Nat) : List α := l.filter fun x => key x < before

def page (key : α → Nat) (limit : Nat) (l : List α) (before : Nat) : List α :=
  (below key l before).take limit

/-- The boundary of the next page, if there is an element left for it. -/
def next (key : α → Nat) (limit : Nat) (l : List α) (before : Nat) : Option Nat :=
  if limit < (below key l before).length then ((page key limit l before).getLast?).map key else none

theorem mem_below {l : List α} {before : Nat} {x : α} :
    x ∈ below key l before ↔ x ∈ l ∧ key x < before := by
  unfold below
  rw [List.mem_filter, decide_eq_true_eq]

theorem Descending.below {l : List α} (h : Descending key l) (before : Nat) :
    Descending key (below key l before) := h.filter _

/-- An element below the boundary is in the page, or below the next boundary. -/
theorem mem_page_or {limit before : Nat} {l : List α} (hlimit : 0 < limit) (h : Descending key l)
    {x : α} (hx : x ∈ l) (hlt : key x < before) :
    x ∈ page key limit l before ∨ ∃ b, next key limit l before = some b ∧ key x < b := by
  have hmem := mem_below.mpr ⟨hx, hlt⟩
  rw [← List.take_append_drop limit (below key l before), List.mem_append] at hmem
  rcases hmem with htake | hdrop
  · exact .inl htake
  · have hlong : limit < (below key l before).length := by
      by_contra hshort
      rw [List.drop_of_length_le (Nat.le_of_not_lt hshort)] at hdrop
      cases hdrop
    have hne : page key limit l before ≠ [] := by
      intro hnil
      have := congrArg List.length hnil
      unfold page at this
      rw [List.length_take, List.length_nil] at this
      omega
    have hsplit := h.below before
    rw [Descending, ← List.take_append_drop limit (below key l before), List.pairwise_append] at hsplit
    refine .inr ⟨key ((page key limit l before).getLast hne), ?_, ?_⟩
    · unfold next
      rw [if_pos hlong, List.getLast?_eq_some_getLast hne, Option.map_some]
    · exact hsplit.2.2 _ (List.getLast_mem hne) x hdrop

/-- The next boundary is the lowest key of the page. -/
theorem next_le {limit before b : Nat} {l : List α} (h : Descending key l)
    (hb : next key limit l before = some b) {x : α} (hx : x ∈ page key limit l before) : b ≤ key x := by
  unfold next at hb
  split at hb
  · obtain ⟨last, hlast, rfl⟩ := Option.map_eq_some_iff.mp hb
    obtain ⟨front, hfront⟩ := List.getLast?_eq_some_iff.mp hlast
    have hpage : Descending key (page key limit l before) := (h.below before).take
    rw [Descending, hfront, List.pairwise_append] at hpage
    rw [hfront, List.mem_append, List.mem_singleton] at hx
    rcases hx with hx | rfl
    · exact Nat.le_of_lt (hpage.2.2 x hx last (List.mem_singleton.mpr rfl))
    · exact Nat.le_refl _
  · cases hb

/-- The next boundary is a key of the page. -/
theorem next_mem {limit before n : Nat} {l : List α} (h : next key limit l before = some n) :
    ∃ x ∈ page key limit l before, key x = n := by
  unfold next at h
  split at h
  · obtain ⟨last, hlast, rfl⟩ := Option.map_eq_some_iff.mp h
    exact ⟨last, List.mem_of_getLast? hlast, rfl⟩
  · cases h

/-- There is a next boundary exactly when an element below those of the page is left. -/
theorem next_ne_none_iff {limit before : Nat} {l : List α} (hlimit : 0 < limit) (h : Descending key l) :
    next key limit l before ≠ none ↔
      ∃ x ∈ l, key x < before ∧ ∀ y ∈ page key limit l before, key x < key y := by
  constructor
  · intro hne
    have hlong : limit < (below key l before).length := by
      by_contra hshort
      exact hne (if_neg hshort)
    have hdrop : (below key l before)[limit] ∈ (below key l before).drop limit := by
      rw [List.drop_eq_getElem_cons hlong]
      exact List.mem_cons_self
    have hsplit := h.below before
    rw [Descending, ← List.take_append_drop limit (below key l before), List.pairwise_append] at hsplit
    obtain ⟨hl, hlt⟩ := mem_below.mp (List.mem_of_mem_drop hdrop)
    exact ⟨_, hl, hlt, fun y hy => hsplit.2.2 y hy _ hdrop⟩
  · rintro ⟨x, hl, hlt, hlow⟩
    rcases mem_page_or hlimit h hl hlt with hpage | ⟨b, hb, -⟩
    · exact absurd (hlow x hpage) (Nat.lt_irrefl _)
    · rw [hb]
      exact Option.some_ne_none b

/-- Pages of `l₀` and of what it becomes, from the boundary `top` on: the list now, the
pages so far and the next boundary. -/
inductive Walk (key : α → Nat) (limit : Nat) (l₀ : List α) (top : Nat) :
    List α → List (List α) → Option Nat → Prop
  | first : Walk key limit l₀ top l₀ [page key limit l₀ top] (next key limit l₀ top)
  | change {l l' : List α} {pages : List (List α)} {b : Option Nat} :
      Walk key limit l₀ top l pages b → Descending key l' → (∀ x ∈ l', key x < top → x ∈ l) →
      Walk key limit l₀ top l' pages b
  | next {l : List α} {pages : List (List α)} {b : Nat} : Walk key limit l₀ top l pages (some b) →
      Walk key limit l₀ top l (pages ++ [page key limit l b]) (next key limit l b)

namespace Walk

variable {limit top : Nat} {l₀ l : List α} {pages : List (List α)} {b : Option Nat}

/-- What a walk keeps: the list descends, what it holds below the first boundary was there
from the start and is in the pages or below the next boundary, and the pages descend to it. -/
structure Kept (key : α → Nat) (l₀ : List α) (top : Nat) (l seen : List α) (b : Option Nat) : Prop where
  list : Descending key l
  old : ∀ x ∈ l, key x < top → x ∈ l₀
  left : ∀ x ∈ l, key x < top → x ∈ seen ∨ ∃ n, b = some n ∧ key x < n
  pages : Descending key seen
  first : ∀ x ∈ seen, x ∈ l₀ ∧ key x < top
  next : ∀ n, b = some n → n ≤ top ∧ ∀ x ∈ seen, n ≤ key x

theorem mem_page {before : Nat} {x : α} (h : x ∈ page key limit l before) : x ∈ l ∧ key x < before :=
  mem_below.mp (List.mem_of_mem_take h)

theorem next_le_top {before n : Nat} (h : Paging.next key limit l before = some n) : n ≤ before := by
  obtain ⟨x, hx, rfl⟩ := next_mem h
  exact Nat.le_of_lt (mem_page hx).2

theorem kept (h : Walk key limit l₀ top l pages b) (hlimit : 0 < limit) (h₀ : Descending key l₀) :
    Kept key l₀ top l pages.flatten b := by
  induction h with
  | first =>
    rw [List.flatten_singleton]
    refine ⟨h₀, fun x hx _ => hx, fun x hx hlt => ?_, (h₀.below top).take, fun x hx => mem_page hx,
      fun n hn => ⟨next_le_top hn, fun x hx => next_le h₀ hn hx⟩⟩
    exact mem_page_or hlimit h₀ hx hlt
  | change _ hdescending hsub ih =>
    refine ⟨hdescending, fun x hx hlt => ih.old x (hsub x hx hlt) hlt, fun x hx hlt => ?_, ih.pages,
      ih.first, ih.next⟩
    exact ih.left x (hsub x hx hlt) hlt
  | @next l pages b _ ih =>
    obtain ⟨hle, hlow⟩ := ih.next b rfl
    rw [List.flatten_append, List.flatten_singleton]
    refine ⟨ih.list, ih.old, fun x hx hlt => ?_, ?_, fun x hx => ?_, fun n hn => ⟨?_, fun x hx => ?_⟩⟩
    · rcases ih.left x hx hlt with hseen | ⟨n, hn, hbelow⟩
      · exact .inl (List.mem_append_left _ hseen)
      · obtain rfl := Option.some.inj hn
        exact (mem_page_or hlimit ih.list hx hbelow).imp_left (List.mem_append_right _)
    · refine List.pairwise_append.mpr ⟨ih.pages, (ih.list.below b).take, fun x hx y hy => ?_⟩
      exact Nat.lt_of_lt_of_le (mem_page hy).2 (hlow x hx)
    · rcases List.mem_append.mp hx with hx | hx
      · exact ih.first x hx
      · obtain ⟨hl, hbelow⟩ := mem_page hx
        have hlt := Nat.lt_of_lt_of_le hbelow hle
        exact ⟨ih.old x hl hlt, hlt⟩
    · exact Nat.le_trans (next_le_top hn) hle
    · rcases List.mem_append.mp hx with hx | hx
      · exact Nat.le_trans (next_le_top hn) (hlow x hx)
      · exact next_le ih.list hn hx

/-- **Order.**  The pages descend, so no element comes twice. -/
theorem descending (h : Walk key limit l₀ top l pages b) (hlimit : 0 < limit)
    (h₀ : Descending key l₀) : Descending key pages.flatten := (h.kept hlimit h₀).pages

/-- **No newcomers.** -/
theorem mem_first (h : Walk key limit l₀ top l pages b) (hlimit : 0 < limit) (h₀ : Descending key l₀)
    {x : α} (hx : x ∈ pages.flatten) : x ∈ l₀ ∧ key x < top := (h.kept hlimit h₀).first x hx

theorem next_mem {n : Nat} (h : Walk key limit l₀ top l pages (some n)) : ∃ x ∈ pages.flatten, key x = n := by
  generalize hb : some n = b at h
  induction h with
  | first =>
    rw [List.flatten_singleton]
    exact Paging.next_mem hb.symm
  | change _ _ _ ih => exact ih hb
  | next _ _ =>
    obtain ⟨x, hx, heq⟩ := Paging.next_mem hb.symm
    refine ⟨x, ?_, heq⟩
    rw [List.flatten_append, List.flatten_singleton]
    exact List.mem_append_right _ hx

/-- **Completeness.** -/
theorem complete (h : Walk key limit l₀ top l pages none) (hlimit : 0 < limit) (h₀ : Descending key l₀)
    {x : α} (hx : x ∈ l) (hlt : key x < top) : x ∈ pages.flatten := by
  rcases (h.kept hlimit h₀).left x hx hlt with hseen | ⟨n, hn, -⟩
  · exact hseen
  · cases hn

theorem page_full {before n : Nat} (h : Paging.next key limit l before = some n) :
    (page key limit l before).length = limit := by
  unfold Paging.next at h
  split at h
  · next hlong =>
    unfold page
    rw [List.length_take]
    omega
  · cases h

/-- All pages are full while there is a next boundary. -/
theorem full (h : Walk key limit l₀ top l pages b) :
    pages ≠ [] ∧ (pages.length - 1) * limit ≤ pages.flatten.length ∧
      (b ≠ none → pages.flatten.length = pages.length * limit) := by
  induction h with
  | first =>
    refine ⟨List.cons_ne_nil _ _, by simp, fun hb => ?_⟩
    obtain ⟨n, hn⟩ := Option.ne_none_iff_exists'.mp hb
    rw [List.flatten_singleton, page_full hn, List.length_singleton, Nat.one_mul]
  | change _ _ _ ih => exact ih
  | next _ ih =>
    have hfull := ih.2.2 (Option.some_ne_none _)
    rw [List.flatten_append, List.flatten_singleton, List.length_append, List.length_append,
      List.length_singleton, Nat.add_sub_cancel, hfull, Nat.add_mul, Nat.one_mul]
    refine ⟨by simp, Nat.le_add_right _ _, fun hb => ?_⟩
    obtain ⟨n, hn⟩ := Option.ne_none_iff_exists'.mp hb
    rw [page_full hn]

/-- **End.**  The first list bounds the pages. -/
theorem length_le (h : Walk key limit l₀ top l pages b) (hlimit : 0 < limit) (h₀ : Descending key l₀) :
    pages.length ≤ l₀.length + 1 := by
  have hnodup : pages.flatten.Nodup := by
    refine (h.descending hlimit h₀).imp fun hlt heq => ?_
    rw [heq] at hlt
    exact Nat.lt_irrefl _ hlt
  have hsub : pages.flatten.length ≤ l₀.length :=
    (List.subperm_of_subset hnodup fun x hx => (h.mem_first hlimit h₀ hx).1).length_le
  have hpages : pages.length - 1 ≤ (pages.length - 1) * limit := Nat.le_mul_of_pos_right _ hlimit
  have hfull := h.full.2.1
  omega

end Walk

end Paging

end Interact
