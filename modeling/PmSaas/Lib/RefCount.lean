import Mathlib.Data.Int.Order.Basic
import PmSaas.Lib.Table

/-!
# Reference counts by key

A roster is a table with one row for each key in use, and each row counts the references to its
key.  `acquire` adds a reference and `release` gives one back; the last one to go takes the row
with it.  `Exact t n` says that the rows of `t` are exactly the keys `k` with `n k` positive, each
with the count `n k`.

* `Exact.acquire`, `Exact.release` — both operations keep the roster exact, with the reference
  added or taken away;
* `mem_acquire`, `unique_acquire` — the keys in use, whatever the counts are.
-/

namespace RefCount

open Table

variable {α κ : Type*} {key : α → κ} {count : α → ℤ}

section Operations

variable [BEq κ]

/-- One more reference to the key of `new`, which is the first row of that key if there is none. -/
def acquire (key : α → κ) (inc : α → α) (new : α) (t : List α) : List α :=
  if t.any (key · == key new) then updateWhere (key · == key new) inc t else t ++ [new]

/-- One reference to `k` less. -/
def release (key : α → κ) (count : α → ℤ) (dec : α → α) (k : κ) (t : List α) : List α :=
  match t.find? (key · == k) with
  | none => t
  | some row =>
      if count row - 1 ≤ 0 then deleteWhere (key · == k) t else updateWhere (key · == k) dec t

end Operations

/-- A row for each key with references, counting them. -/
structure Exact (key : α → κ) (count : α → ℤ) (t : List α) (n : κ → ℕ) : Prop where
  unique : UniqueKey key t
  counts : ∀ row ∈ t, count row = n (key row) ∧ 0 < n (key row)
  used : ∀ k, 0 < n k → ∃ row ∈ t, key row = k

theorem exact_nil : Exact key count [] fun _ => 0 :=
  ⟨List.nodup_nil, fun _ h => absurd h List.not_mem_nil, fun _ h => absurd h (Nat.lt_irrefl 0)⟩

variable {t : List α} {n : κ → ℕ} {k : κ}

theorem Exact.mem_iff (h : Exact key count t n) : (∃ row ∈ t, key row = k) ↔ 0 < n k := by
  constructor
  · rintro ⟨row, hrow, rfl⟩
    exact (h.counts row hrow).2
  · exact h.used k

/-- A rewrite that leaves keys and counts alone. -/
theorem Exact.touch (h : Exact key count t n) {p : α → Bool} {f : α → α}
    (hkey : ∀ row, key (f row) = key row) (hcount : ∀ row, count (f row) = count row) :
    Exact key count (updateWhere p f t) n := by
  refine ⟨h.unique.update fun row _ _ => hkey row, fun row hrow => ?_, fun k hk => ?_⟩
  · obtain ⟨old, hold, rfl⟩ := mem_updateWhere.1 hrow
    split
    · rw [hkey, hcount]
      exact h.counts old hold
    · exact h.counts old hold
  · obtain ⟨row, hrow, rfl⟩ := h.used k hk
    refine ⟨_, mem_updateWhere.2 ⟨row, hrow, rfl⟩, ?_⟩
    split
    · exact hkey row
    · rfl

variable [BEq κ] [LawfulBEq κ] {inc dec : α → α}

/-- The count found under a key. -/
theorem Exact.find?_count (h : Exact key count t n) (k : κ) :
    ((t.find? (key · == k)).elim 0 count) = (n k : ℤ) := by
  cases hfind : t.find? (key · == k) with
  | none =>
      have hzero : ¬0 < n k := by
        intro hpos
        obtain ⟨row, hrow, hk⟩ := h.used k hpos
        exact absurd (beq_iff_eq.2 hk) (List.find?_eq_none.1 hfind row hrow)
      show (0 : ℤ) = n k
      omega
  | some row =>
      obtain ⟨hrow, rfl⟩ := h.unique.find?_iff.1 hfind
      exact (h.counts row hrow).1

variable [DecidableEq κ]

/-- Rewriting the row of one key to a new count. -/
theorem Exact.recount (h : Exact key count t n) {f : α → α} {m : ℕ} (hm : 0 < m)
    (hkey : ∀ row, key (f row) = key row) (hk : 0 < n k)
    (hcount : ∀ row ∈ t, key row = k → count (f row) = m) :
    Exact key count (updateWhere (key · == k) f t) (Function.update n k m) := by
  refine ⟨h.unique.update fun row _ _ => hkey row, fun row hrow => ?_, fun k' hk' => ?_⟩
  · obtain ⟨old, hold, rfl⟩ := mem_updateWhere.1 hrow
    by_cases hok : key old = k
    · rw [if_pos (beq_iff_eq.2 hok), hkey, hok, Function.update_self]
      exact ⟨hcount old hold hok, hm⟩
    · rw [if_neg (by simpa using hok), Function.update_of_ne hok]
      exact h.counts old hold
  · have hpos : 0 < n k' := by
      by_cases hkk : k' = k
      · rwa [hkk]
      · rwa [Function.update_of_ne hkk] at hk'
    obtain ⟨row, hrow, rfl⟩ := h.used k' hpos
    refine ⟨_, mem_updateWhere.2 ⟨row, hrow, rfl⟩, ?_⟩
    split
    · exact hkey row
    · rfl

theorem Exact.acquire (h : Exact key count t n) (new : α) (hnew : count new = 1)
    (hkey : ∀ row, key (inc row) = key row) (hinc : ∀ row, count (inc row) = count row + 1) :
    Exact key count (acquire key inc new t)
      (Function.update n (key new) (n (key new) + 1)) := by
  unfold RefCount.acquire
  split
  · rename_i hany
    obtain ⟨row, hrow, hk⟩ := List.any_eq_true.1 hany
    have hpos : 0 < n (key new) := h.mem_iff.1 ⟨row, hrow, beq_iff_eq.1 hk⟩
    refine h.recount (Nat.succ_pos _) hkey hpos fun row hrow hk => ?_
    rw [hinc, (h.counts row hrow).1, hk]
    rfl
  · rename_i hany
    have habsent : ∀ row ∈ t, key row ≠ key new := fun row hrow hk =>
      hany (List.any_eq_true.2 ⟨row, hrow, beq_iff_eq.2 hk⟩)
    have hzero : n (key new) = 0 := by
      by_contra hne
      obtain ⟨row, hrow, hk⟩ := h.used (key new) (Nat.pos_of_ne_zero hne)
      exact habsent row hrow hk
    refine ⟨h.unique.insert habsent, fun row hrow => ?_, fun k' hk' => ?_⟩
    · rcases List.mem_append.1 hrow with hrow | hrow
      · rw [Function.update_of_ne (habsent row hrow)]
        exact h.counts row hrow
      · rw [List.mem_singleton.1 hrow, Function.update_self, hnew, hzero]
        exact ⟨rfl, Nat.one_pos⟩
    · by_cases hkk : k' = key new
      · exact ⟨new, List.mem_append_right _ (List.mem_singleton_self new), hkk.symm⟩
      · rw [Function.update_of_ne hkk] at hk'
        obtain ⟨row, hrow, hk⟩ := h.used k' hk'
        exact ⟨row, List.mem_append_left _ hrow, hk⟩

theorem Exact.release (h : Exact key count t n) (hk : 0 < n k)
    (hkey : ∀ row, key (dec row) = key row) (hdec : ∀ row, count (dec row) = count row - 1) :
    Exact key count (release key count dec k t) (Function.update n k (n k - 1)) := by
  obtain ⟨row, hrow, hrk⟩ := h.used k hk
  have hfind : t.find? (key · == k) = some row := h.unique.find?_iff.2 ⟨hrow, hrk⟩
  have hcount : count row = n k := hrk ▸ (h.counts row hrow).1
  simp only [RefCount.release, hfind]
  split
  · have hone : n k - 1 = 0 := by omega
    rw [hone]
    refine ⟨h.unique.delete _, fun row hrow => ?_, fun k' hk' => ?_⟩
    · obtain ⟨hrow, hne⟩ := mem_deleteWhere.1 hrow
      rw [Function.update_of_ne (by simpa using hne)]
      exact h.counts row hrow
    · have hkk : k' ≠ k := by
        rintro rfl
        rw [Function.update_self] at hk'
        exact Nat.lt_irrefl 0 hk'
      rw [Function.update_of_ne hkk] at hk'
      obtain ⟨row, hrow, hk⟩ := h.used k' hk'
      exact ⟨row, mem_deleteWhere.2 ⟨hrow, by simpa [hk] using hkk⟩, hk⟩
  · refine h.recount (by omega) hkey hk fun row' hrow' hrk' => ?_
    rw [hdec, (h.counts row' hrow').1, hrk']
    omega

/-! ### The keys in use -/

omit [DecidableEq κ] in
theorem mem_acquire {new : α} (hkey : ∀ row, key (inc row) = key row) :
    k ∈ (acquire key inc new t).map key ↔ k ∈ t.map key ∨ k = key new := by
  unfold acquire
  split
  · rename_i hany
    obtain ⟨row, hrow, hk⟩ := List.any_eq_true.1 hany
    rw [map_updateWhere fun row _ _ => hkey row, iff_self_or]
    rintro rfl
    exact beq_iff_eq.1 hk ▸ List.mem_map_of_mem hrow
  · simp

omit [DecidableEq κ] in
theorem unique_acquire {new : α} (h : UniqueKey key t) (hkey : ∀ row, key (inc row) = key row) :
    UniqueKey key (acquire key inc new t) := by
  unfold acquire
  split
  · exact h.update fun row _ _ => hkey row
  · rename_i hany
    refine h.insert fun row hrow hk => hany ?_
    exact List.any_eq_true.2 ⟨row, hrow, beq_iff_eq.2 hk⟩

end RefCount
