import Mathlib.Data.List.Sort

/-!
# Lists ordered by a key

`sortBy key l` lists the rows of `l` by ascending `key`.  When the keys are pairwise distinct the
listing is the only strictly increasing arrangement of the rows (`sortBy_eq`), and every later
change of one row can be computed on the listing itself: removing rows filters it, a row with the
largest key goes to its end, and a row whose key lies between two neighbours goes between them.
-/

namespace SortBy

variable {α κ : Type*} [LinearOrder κ]

/-- The rows of `l` by ascending key. -/
def sortBy (key : α → κ) (l : List α) : List α :=
  l.insertionSort fun a b => key a ≤ key b

/-- Strictly increasing keys. -/
abbrev Increasing (key : α → κ) (l : List α) : Prop := l.Pairwise fun a b => key a < key b

variable {key : α → κ}

theorem sortBy_perm (l : List α) : (sortBy key l).Perm l := List.perm_insertionSort _ l

@[simp] theorem mem_sortBy {l : List α} {x : α} : x ∈ sortBy key l ↔ x ∈ l :=
  (sortBy_perm l).mem_iff

theorem sortBy_pairwise (l : List α) : (sortBy key l).Pairwise fun a b => key a ≤ key b := by
  have : Std.Total fun a b : α => key a ≤ key b := ⟨fun a b => le_total (key a) (key b)⟩
  have : IsTrans α fun a b => key a ≤ key b := ⟨fun _ _ _ h h' => le_trans h h'⟩
  exact List.pairwise_insertionSort _ l

theorem Increasing.eq_of_key_eq {l : List α} (h : Increasing key l) {a b : α} (ha : a ∈ l)
    (hb : b ∈ l) (hk : key a = key b) : a = b := by
  induction l with
  | nil => cases ha
  | cons x l ih =>
      obtain ⟨hx, hl⟩ := List.pairwise_cons.1 h
      rcases List.mem_cons.1 ha with rfl | hal
      · rcases List.mem_cons.1 hb with rfl | hbl
        · rfl
        · exact absurd hk (ne_of_lt (hx b hbl))
      · rcases List.mem_cons.1 hb with rfl | hbl
        · exact absurd hk.symm (ne_of_lt (hx a hal))
        · exact ih hl hal hbl

/-- A strictly increasing arrangement of the rows is their listing. -/
theorem sortBy_eq {l m : List α} (hm : Increasing key m) (hp : m.Perm l) : sortBy key l = m := by
  have hle : m.Pairwise fun a b => key a ≤ key b := hm.imp fun h => le_of_lt h
  refine List.Perm.eq_of_pairwise ?_ (sortBy_pairwise l) hle
    ((sortBy_perm l).trans hp.symm)
  intro a b ha hb hab hba
  refine hm.eq_of_key_eq ?_ hb (le_antisymm hab hba)
  exact hp.mem_iff.2 (mem_sortBy.1 ha)

/-- Distinct keys increase in the listing. -/
theorem increasing_sortBy {l : List α} (h : (l.map key).Nodup) : Increasing key (sortBy key l) := by
  have hnodup : ((sortBy key l).map key).Nodup := ((sortBy_perm l).map key).nodup_iff.2 h
  have hne : (sortBy key l).Pairwise fun a b => key a ≠ key b := List.pairwise_map.1 hnodup
  exact (sortBy_pairwise l).imp₂ (fun _ _ hle hne => lt_of_le_of_ne hle hne) hne

/-- Distinct keys have one listing, however the rows are ordered. -/
theorem sortBy_congr_perm {l l' : List α} (h : (l.map key).Nodup) (hp : l'.Perm l) :
    sortBy key l' = sortBy key l :=
  sortBy_eq (increasing_sortBy h) ((sortBy_perm l).trans hp.symm)

/-- The first row of the listing has the least key. -/
theorem head?_sortBy_le {l : List α} {x : α} (hx : x ∈ (sortBy key l).head?) :
    x ∈ l ∧ ∀ y ∈ l, key x ≤ key y := by
  have hp : (sortBy key l).Pairwise fun a b => key a ≤ key b := sortBy_pairwise l
  refine ⟨mem_sortBy.1 (List.mem_of_mem_head? hx), fun y hy => ?_⟩
  have hy' : y ∈ sortBy key l := mem_sortBy.2 hy
  revert hx hp hy'
  cases sortBy key l with
  | nil => simp
  | cons z m =>
      intro hx hp hy'
      obtain rfl : z = x := by simpa using hx
      rcases List.mem_cons.1 hy' with rfl | hym
      · exact le_rfl
      · exact (List.pairwise_cons.1 hp).1 y hym

theorem head?_sortBy_eq_none {l : List α} : (sortBy key l).head? = none ↔ l = [] := by
  rw [List.head?_eq_none_iff]
  constructor
  · intro h
    have hp : (sortBy key l).Perm l := sortBy_perm l
    rw [h] at hp
    exact hp.symm.eq_nil
  · rintro rfl
    rfl

/-- Dropping rows drops them from the listing. -/
theorem sortBy_filter {l : List α} (hl : Increasing key (sortBy key l)) (p : α → Bool) :
    sortBy key (l.filter p) = (sortBy key l).filter p :=
  sortBy_eq (hl.sublist List.filter_sublist) ((sortBy_perm l).filter p)

theorem increasing_insert {pre post : List α} {x : α} (h : Increasing key (pre ++ post))
    (hpre : ∀ y ∈ pre, key y < key x) (hpost : ∀ y ∈ post, key x < key y) :
    Increasing key (pre ++ x :: post) := by
  obtain ⟨h₁, h₂, h₁₂⟩ := List.pairwise_append.1 h
  refine List.pairwise_append.2 ⟨h₁, List.pairwise_cons.2 ⟨hpost, h₂⟩, ?_⟩
  intro y hy z hz
  rcases List.mem_cons.1 hz with rfl | hz
  · exact hpre y hy
  · exact h₁₂ y hy z hz

/-- In a strictly increasing list it is enough to lie above the last row before the gap. -/
theorem lt_of_getLast? {pre : List α} {k : κ} (h : Increasing key pre)
    (hlast : ∀ y ∈ pre.getLast?, key y < k) : ∀ y ∈ pre, key y < k := by
  intro y hy
  obtain ⟨init, z, rfl⟩ := (List.eq_nil_or_concat pre).resolve_left (List.ne_nil_of_mem hy)
  have hz : key z < k := hlast z (by simp)
  rw [List.concat_eq_append] at h hy
  rcases List.mem_append.1 hy with hy | hy
  · exact ((List.pairwise_append.1 h).2.2 y hy z (by simp)).trans hz
  · rw [List.mem_singleton.1 hy]
    exact hz

/-- In a strictly increasing list it is enough to lie below the first row after the gap. -/
theorem lt_of_head? {post : List α} {k : κ} (h : Increasing key post)
    (hhead : ∀ y ∈ post.head?, k < key y) : ∀ y ∈ post, k < key y := by
  intro y hy
  cases post with
  | nil => cases hy
  | cons z post =>
      have hz : k < key z := hhead z (by simp)
      rcases List.mem_cons.1 hy with rfl | hy
      · exact hz
      · exact hz.trans ((List.pairwise_cons.1 h).1 y hy)

/-- The bounds on the two sides of a gap are in order. -/
theorem lt_across_gap {pre post : List α} (h : Increasing key (pre ++ post)) {x y : α}
    (hx : x ∈ pre.getLast?) (hy : y ∈ post.head?) : key x < key y :=
  (List.pairwise_append.1 h).2.2 x (List.mem_of_getLast? hx) y (List.mem_of_mem_head? hy)

end SortBy
