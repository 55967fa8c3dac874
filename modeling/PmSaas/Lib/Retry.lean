import Mathlib.Algebra.Order.Ring.Nat
import Mathlib.Data.List.Basic

/-!
# A task that is run again when it fails

A task gets at most `n` attempts, and another one only after one that failed.  `made` lists the
attempts that are made of a tape that says how each of them would go, and `flatMap_made` says when
an effect of which each attempt has one at most happens twice.
-/

namespace Retry

variable {α β : Type*} (fails : α → Prop) [DecidablePred fails]

/-- The attempts that are made. -/
def made : ℕ → (ℕ → α) → List α
  | 0, _ => []
  | n + 1, tape => tape 0 :: if fails (tape 0) then made n fun k => tape (k + 1) else []

/-- An attempt is made when all the attempts before it fail. -/
theorem getElem?_made {n i : ℕ} {tape : ℕ → α} {a : α} :
    (made fails n tape)[i]? = some a ↔ i < n ∧ (∀ k < i, fails (tape k)) ∧ tape i = a := by
  induction n generalizing i tape with
  | zero => simp [made]
  | succ n ih =>
      cases i with
      | zero => simp [made]
      | succ i =>
          by_cases hfirst : fails (tape 0)
          · simp only [made, if_pos hfirst, List.getElem?_cons_succ, ih, Nat.add_lt_add_iff_right]
            refine and_congr_right fun _ => and_congr_left fun _ =>
              ⟨fun h k hk => ?_, fun h k hk => ?_⟩
            · cases k with
              | zero => exact hfirst
              | succ k => exact h k (by omega)
            · exact h (k + 1) (by omega)
          · simp only [made, if_neg hfirst, List.getElem?_cons_succ, List.getElem?_nil]
            exact iff_of_false nofun fun h => hfirst (h.2.1 0 (by omega))

/-- A list of which each member has at most one effect has at most one, unless two members have. -/
theorem length_flatMap_le_one {f : α → List β} (hf : ∀ a, (f a).length ≤ 1) (l : List α) :
    (l.flatMap f).length ≤ 1 ↔ l.Pairwise fun a b => f a = [] ∨ f b = [] := by
  induction l with
  | nil => simp
  | cons a l ih =>
      rw [List.flatMap_cons, List.length_append, List.pairwise_cons, ← ih]
      cases ha : f a with
      | nil => simp
      | cons x xs =>
          have hone : xs = [] := by simpa [ha] using hf a
          subst hone
          have hnil : (l.flatMap f).length = 0 ↔ ∀ b ∈ l, f b = [] := by
            rw [List.length_eq_zero_iff, List.flatMap_eq_nil_iff]
          simp only [List.length_singleton, reduceCtorEq, false_or, ← hnil]
          omega

/-- **An effect happens twice** exactly when two attempts have it, the second one after failures
only. -/
theorem flatMap_made {f : α → List β} (hf : ∀ a, (f a).length ≤ 1) (n : ℕ) (tape : ℕ → α) :
    ((made fails n tape).flatMap f).length ≤ 1 ↔
      ¬∃ i j, i < j ∧ j < n ∧ f (tape i) ≠ [] ∧ f (tape j) ≠ [] ∧ ∀ k < j, fails (tape k) := by
  rw [length_flatMap_le_one hf, List.pairwise_iff_getElem]
  constructor
  · rintro h ⟨i, j, hij, hj, hfi, hfj, hfails⟩
    obtain ⟨hi', hi⟩ := List.getElem?_eq_some_iff.1 ((getElem?_made fails).2
      ⟨hij.trans hj, fun k hk => hfails k (hk.trans hij), rfl⟩)
    obtain ⟨hj', hj⟩ := List.getElem?_eq_some_iff.1 ((getElem?_made fails).2 ⟨hj, hfails, rfl⟩)
    have hpair := h i j hi' hj' hij
    rw [hi, hj] at hpair
    exact hpair.elim hfi hfj
  · intro h i j hi hj hij
    by_contra hboth
    obtain ⟨hfi, hfj⟩ := not_or.1 hboth
    obtain ⟨hjn, hfails, hj'⟩ := (getElem?_made fails).1 (List.getElem?_eq_getElem hj)
    obtain ⟨-, -, hi'⟩ := (getElem?_made fails).1 (List.getElem?_eq_getElem hi)
    exact h ⟨i, j, hij, hjn, hi' ▸ hfi, hj' ▸ hfj, hfails⟩

end Retry
