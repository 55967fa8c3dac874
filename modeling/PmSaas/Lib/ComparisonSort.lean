import PmSaas.Lib.SortBy
import Mathlib.Logic.Equiv.Basic

/-!
# Comparison sorts

A stable sort that knows its elements only by comparing different ones of them.  Where the
comparison is that of a key, the list is sorted by it.  Where it is not, all that is known of the
result is that renamed elements which compare alike are sorted alike (`compares`).

With a comparison that never calls two elements equal, the order of the input shows in the result
exactly when two elements have equal keys (`forall_perm_iff`).
-/

namespace SortBy

variable {α κ : Type*} [LinearOrder κ] {key : α → κ}

/-- `cmp` compares the keys of different elements. -/
def Compares (key : α → κ) (cmp : α → α → ℤ) (l : List α) : Prop :=
  ∀ a ∈ l, ∀ b ∈ l, a ≠ b → (cmp a b < 0 ↔ key a < key b) ∧ (0 < cmp a b ↔ key b < key a)

/-- A stable comparison sort; `sortBy` is stable. -/
structure ComparisonSort (κ : Type*) [LinearOrder κ] (sort : (α → α → ℤ) → List α → List α) :
    Prop where
  perm : ∀ cmp l, (sort cmp l).Perm l
  compares : ∀ (f : α → α) cmp cmp' l, (∀ a ∈ l, ∀ b ∈ l, cmp' (f a) (f b) = cmp a b) →
    sort cmp' (l.map f) = (sort cmp l).map f
  sorts : ∀ (key : α → κ) cmp l, l.Nodup → Compares key cmp l → sort cmp l = sortBy key l

/-- A comparison that never calls two elements equal. -/
def before (key : α → κ) (a b : α) : ℤ := if key a < key b then -1 else 1

theorem compares_before {l : List α} (h : (l.map key).Nodup) : Compares key (before key) l := by
  intro a ha b hb hne
  have hkey : key a ≠ key b := fun heq => hne (List.inj_on_of_nodup_map h ha hb heq)
  rcases lt_or_gt_of_ne hkey with hlt | hgt
  · rw [before, if_pos hlt]
    exact ⟨iff_of_true (by decide) hlt, iff_of_false (by decide) hlt.asymm⟩
  · rw [before, if_neg hgt.asymm]
    exact ⟨iff_of_false (by decide) hgt.asymm, iff_of_true (by decide) hgt⟩

section Swap

variable [DecidableEq α] {a b : α} {l : List α}

theorem map_swap_perm (hl : l.Nodup) (ha : a ∈ l) (hb : b ∈ l) :
    (l.map (Equiv.swap a b)).Perm l := by
  have hsub : l.map (Equiv.swap a b) ⊆ l := by
    intro y hy
    obtain ⟨x, hx, rfl⟩ := List.mem_map.1 hy
    rw [Equiv.swap_apply_def]
    split_ifs
    · exact hb
    · exact ha
    · exact hx
  have hnodup : (l.map (Equiv.swap a b)).Nodup := hl.map (Equiv.injective _)
  refine (List.subperm_of_subset hnodup hsub).perm_of_length_le ?_
  rw [List.length_map]

theorem eq_of_map_swap_eq (h : l.map (Equiv.swap a b) = l) (ha : a ∈ l) : a = b := by
  have hfixed : Equiv.swap a b a = id a :=
    List.map_inj_left.1 (h.trans (List.map_id l).symm) a ha
  rw [Equiv.swap_apply_left] at hfixed
  exact hfixed.symm

end Swap

namespace ComparisonSort

variable {sort : (α → α → ℤ) → List α → List α} {l : List α}

theorem sort_before (hsort : ComparisonSort κ sort) (h : (l.map key).Nodup) :
    sort (before key) l = sortBy key l :=
  hsort.sorts key (before key) l (h.of_map key) (compares_before h)

/-- Two elements with equal keys that change places before the sort have changed them after it. -/
theorem sort_swap [DecidableEq α] (hsort : ComparisonSort κ sort) {a b : α}
    (hkey : key a = key b) :
    sort (before key) (l.map (Equiv.swap a b)) = (sort (before key) l).map (Equiv.swap a b) := by
  have hsame : ∀ x, key (Equiv.swap a b x) = key x := Equiv.apply_swap_eq_self hkey
  refine hsort.compares _ _ _ l fun x _ y _ => ?_
  rw [before, before, hsame, hsame]

/-- **The order of the input shows exactly where keys are equal.** -/
theorem forall_perm_iff (hsort : ComparisonSort κ sort) (hl : l.Nodup) :
    (∀ l', l'.Perm l → sort (before key) l' = sort (before key) l) ↔ (l.map key).Nodup := by
  classical
  constructor
  · intro h
    refine hl.map_on fun a ha b hb hkey => ?_
    have hfixed : (sort (before key) l).map (Equiv.swap a b) = sort (before key) l := by
      rw [← hsort.sort_swap hkey]
      exact h _ (map_swap_perm hl ha hb)
    exact eq_of_map_swap_eq hfixed ((hsort.perm _ _).mem_iff.2 ha)
  · intro h l' hp
    rw [hsort.sort_before h, hsort.sort_before ((hp.map key).nodup_iff.2 h)]
    exact sortBy_congr_perm h hp

end ComparisonSort

/-! ### Insertion sort -/

theorem orderedInsert_congr {r s : α → α → Prop} [DecidableRel r] [DecidableRel s] {a : α}
    {l : List α} (h : ∀ b ∈ l, (r a b ↔ s a b)) : l.orderedInsert r a = l.orderedInsert s a := by
  induction l with
  | nil => rfl
  | cons b l ih =>
      obtain ⟨hb, hl⟩ := List.forall_mem_cons.1 h
      rw [List.orderedInsert, List.orderedInsert, ih hl, if_congr hb rfl rfl]

/-- Only different positions are compared. -/
theorem insertionSort_congr {r s : α → α → Prop} [DecidableRel r] [DecidableRel s] {l : List α}
    (h : l.Pairwise fun a b => (r a b ↔ s a b)) : l.insertionSort r = l.insertionSort s := by
  induction h with
  | nil => rfl
  | @cons a l ha hl ih =>
      rw [List.insertionSort_cons, List.insertionSort_cons, ih]
      exact orderedInsert_congr fun b hb => ha b ((List.mem_insertionSort s).1 hb)

def insertionSortBy (cmp : α → α → ℤ) (l : List α) : List α :=
  l.insertionSort fun a b => cmp a b ≤ 0

theorem insertionSortBy_comparisonSort : ComparisonSort κ (insertionSortBy (α := α)) where
  perm cmp l := List.perm_insertionSort _ l
  compares f cmp cmp' l h := by
    refine (List.map_insertionSort _ _ f l fun a ha b hb => ?_).symm
    rw [h a ha b hb]
  sorts key cmp l hl h := by
    refine insertionSort_congr (hl.imp_of_mem fun ha hb hne => ?_)
    rw [← not_lt, (h _ ha _ hb hne).2, not_lt]

end SortBy
