import Mathlib.Data.Set.Insert
import PmSaas.Lib.Table

/-!
# Objects and the references to them

A store holds objects under keys; some keys are `known`, and a table refers to keys.  The two are in
step when the objects under known keys are exactly those referred to: none is lost while it is
referred to, and none is left over.

Each of the four things that happen to the two keeps them in step under one condition, which is
also necessary.
-/

namespace References

open Table

/-! ### The keys of a table -/

section Keys

variable {α κ : Type*} {key : α → κ} {t : List α}

/-- The keys of the rows of a table. -/
def keysOf (key : α → κ) (t : List α) : Set κ := fun k => ∃ x ∈ t, key x = k

theorem mem_keysOf {k : κ} : k ∈ keysOf key t ↔ ∃ x ∈ t, key x = k := Iff.rfl

theorem keysOf_insert (x : α) : keysOf key (t ++ [x]) = insert (key x) (keysOf key t) := by
  refine Set.ext fun k => ?_
  rw [mem_keysOf, Set.mem_insert_iff, mem_keysOf]
  constructor
  · rintro ⟨y, hy, rfl⟩
    rcases List.mem_append.1 hy with hy | hy
    · exact .inr ⟨y, hy, rfl⟩
    · exact .inl (congrArg key (List.mem_singleton.1 hy))
  · rintro (rfl | ⟨y, hy, rfl⟩)
    · exact ⟨x, List.mem_append_right t (List.mem_singleton_self x), rfl⟩
    · exact ⟨y, List.mem_append_left [x] hy, rfl⟩

theorem keysOf_deleteWhere_subset (p : α → Bool) : keysOf key (deleteWhere p t) ⊆ keysOf key t := by
  rintro k ⟨x, hx, rfl⟩
  exact ⟨x, (mem_deleteWhere.1 hx).1, rfl⟩

/-- Deleting the rows of one key. -/
theorem keysOf_deleteWhere [BEq κ] [LawfulBEq κ] (k : κ) :
    keysOf key (deleteWhere (fun x => key x == k) t) = keysOf key t \ {k} := by
  refine Set.ext fun j => ?_
  constructor
  · rintro ⟨x, hx, rfl⟩
    obtain ⟨hmem, hne⟩ := mem_deleteWhere.1 hx
    exact ⟨⟨x, hmem, rfl⟩, fun heq => by simp [Set.mem_singleton_iff.1 heq] at hne⟩
  · rintro ⟨⟨x, hx, rfl⟩, hne⟩
    exact ⟨x, mem_deleteWhere.2 ⟨hx, beq_eq_false_iff_ne.2 hne⟩, rfl⟩

end Keys

/-! ### In step -/

variable {κ : Type*} {present known referred referred' : Set κ} {k : κ}

/-- The objects under known keys are exactly those that are referred to. -/
def InStep (present known referred : Set κ) : Prop := present ∩ known = referred

theorem InStep.isKnown (h : InStep present known referred) (hk : k ∈ referred) : k ∈ known :=
  (h.symm ▸ hk : k ∈ present ∩ known).2

theorem InStep.isPresent (h : InStep present known referred) (hk : k ∈ referred) : k ∈ present :=
  (h.symm ▸ hk : k ∈ present ∩ known).1

theorem InStep.isReferred (h : InStep present known referred) (hp : k ∈ present) (hk : k ∈ known) :
    k ∈ referred := h ▸ ⟨hp, hk⟩

/-- An object may be put under a key that is not known, or is referred to. -/
theorem InStep.put_iff (h : InStep present known referred) :
    InStep (insert k present) known referred ↔ (k ∈ known → k ∈ referred) := by
  constructor
  · intro h' hk
    exact h'.isReferred (Set.mem_insert k present) hk
  · intro hk
    refine Set.Subset.antisymm ?_ fun j hj => ⟨Set.mem_insert_of_mem k (h.isPresent hj), h.isKnown hj⟩
    rintro j ⟨rfl | hj, hknown⟩
    · exact hk hknown
    · exact h.isReferred hj hknown

/-- A reference may be added to an object that is there. -/
theorem InStep.refer_iff (h : InStep present known referred) :
    InStep present (insert k known) (insert k referred) ↔ k ∈ present := by
  constructor
  · intro h'
    exact h'.isPresent (Set.mem_insert k referred)
  · intro hk
    refine Set.Subset.antisymm ?_ ?_
    · rintro j ⟨hj, rfl | hknown⟩
      · exact Set.mem_insert j referred
      · exact Set.mem_insert_of_mem k (h.isReferred hj hknown)
    · rintro j (rfl | hj)
      · exact ⟨hk, Set.mem_insert j known⟩
      · exact ⟨h.isPresent hj, Set.mem_insert_of_mem k (h.isKnown hj)⟩

/-- An object may be deleted with its last reference. -/
theorem InStep.release_iff (h : InStep present known referred) (hsub : referred' ⊆ referred)
    (hrest : ∀ j ∈ referred, j ≠ k → j ∈ referred') :
    InStep (present \ {k}) known referred' ↔ k ∉ referred' := by
  constructor
  · intro h' hk
    exact (h'.isPresent hk).2 rfl
  · intro hk
    refine Set.Subset.antisymm ?_ fun j hj => ?_
    · rintro j ⟨⟨hj, hne⟩, hknown⟩
      exact hrest j (h.isReferred hj hknown) hne
    · refine ⟨⟨h.isPresent (hsub hj), ?_⟩, h.isKnown (hsub hj)⟩
      rintro rfl
      exact hk hj

/-- References may be dropped, and the objects left alone, as long as others remain. -/
theorem InStep.drop_iff (h : InStep present known referred) (hsub : referred' ⊆ referred) :
    InStep present known referred' ↔ referred ⊆ referred' := by
  constructor
  · intro h'
    exact le_of_eq (h.symm.trans h')
  · intro hsup
    exact h.trans (Set.Subset.antisymm hsup hsub)

end References
