import Mathlib.Data.Finset.Card
import Mathlib.Data.Nat.Find

/-!
# Numbered candidates until a free one

`Probe` looks the candidates up one after the other and ends at the first that is not taken.  When
the candidates are distinct it ends, after at most one lookup more than there are taken values
(`probe_ends`).
-/

namespace Probing

variable {α : Type*} (candidate : ℕ → α) (taken : Finset α)

/-- From the `i`-th candidate on, so many lookups end at a free one. -/
inductive Probe : ℕ → ℕ → α → Prop
  | free {i : ℕ} (free : candidate i ∉ taken) : Probe i 1 (candidate i)
  | taken {i lookups : ℕ} {a : α} (taken : candidate i ∈ taken) (rest : Probe (i + 1) lookups a) :
      Probe i (lookups + 1) a

variable {candidate taken} {i lookups lookups' : ℕ} {a a' : α}

theorem Probe.unique (h : Probe candidate taken i lookups a)
    (h' : Probe candidate taken i lookups' a') : lookups = lookups' ∧ a = a' := by
  induction h generalizing lookups' a' with
  | free hfree =>
      cases h' with
      | free => exact ⟨rfl, rfl⟩
      | taken htaken => exact absurd htaken hfree
  | taken htaken _ ih =>
      cases h' with
      | free hfree => exact absurd htaken hfree
      | taken _ hrest =>
          obtain ⟨rfl, rfl⟩ := ih hrest
          exact ⟨rfl, rfl⟩

/-- The candidates before the one it ends at are taken. -/
theorem Probe.eq_candidate (h : Probe candidate taken i lookups a) :
    ∃ k, lookups = k + 1 ∧ a = candidate (i + k) ∧ a ∉ taken ∧
      ∀ j < k, candidate (i + j) ∈ taken := by
  induction h with
  | free hfree => exact ⟨0, rfl, rfl, hfree, nofun⟩
  | @taken i _ _ htaken _ ih =>
      obtain ⟨k, rfl, rfl, hfree, hbefore⟩ := ih
      refine ⟨k + 1, rfl, by rw [Nat.add_right_comm, Nat.add_assoc], hfree, fun j hj => ?_⟩
      cases j with
      | zero => exact htaken
      | succ j =>
          rw [← Nat.add_assoc, Nat.add_right_comm]
          exact hbefore j (by omega)

/-- A free candidate after taken ones is found. -/
theorem Probe.of_taken {k : ℕ} (hfree : candidate (i + k) ∉ taken)
    (hbefore : ∀ j < k, candidate (i + j) ∈ taken) :
    Probe candidate taken i (k + 1) (candidate (i + k)) := by
  induction k generalizing i with
  | zero => exact .free hfree
  | succ k ih =>
      have hshift : ∀ j, i + (j + 1) = i + 1 + j := by omega
      rw [hshift] at hfree ⊢
      refine .taken (hbefore 0 (by omega)) (ih hfree fun j hj => ?_)
      rw [← hshift]
      exact hbefore (j + 1) (by omega)

/-- Of distinct candidates one more than there are taken values, one is free. -/
theorem exists_free (hdistinct : Function.Injective candidate) (taken : Finset α) :
    ∃ k ≤ taken.card, candidate k ∉ taken := by
  by_contra hnone
  have hall : ∀ k ≤ taken.card, candidate k ∈ taken := fun k hk =>
    Classical.byContradiction fun hfree => hnone ⟨k, hk, hfree⟩
  have hsubset : (Finset.range (taken.card + 1)).map ⟨candidate, hdistinct⟩ ⊆ taken := by
    intro b hb
    obtain ⟨k, hk, rfl⟩ := Finset.mem_map.1 hb
    exact hall k (Nat.lt_succ_iff.1 (Finset.mem_range.1 hk))
  have hcard := Finset.card_le_card hsubset
  rw [Finset.card_map, Finset.card_range] at hcard
  omega

/-- **Probing distinct candidates ends.** -/
theorem probe_ends (hdistinct : Function.Injective candidate) (taken : Finset α) :
    ∃ lookups a, Probe candidate taken 0 lookups a ∧ lookups ≤ taken.card + 1 ∧ a ∉ taken := by
  classical
  have hfree : ∃ k, candidate k ∉ taken := by
    obtain ⟨k, -, hk⟩ := exists_free hdistinct taken
    exact ⟨k, hk⟩
  have hfirst : ∀ j < Nat.find hfree, candidate (0 + j) ∈ taken := by
    intro j hj
    rw [Nat.zero_add]
    exact not_not.1 (Nat.find_min hfree hj)
  have hspec : candidate (0 + Nat.find hfree) ∉ taken := by
    rw [Nat.zero_add]
    exact Nat.find_spec hfree
  refine ⟨_, _, .of_taken hspec hfirst, ?_, hspec⟩
  obtain ⟨k, hk, hkfree⟩ := exists_free hdistinct taken
  exact Nat.succ_le_succ ((Nat.find_min' hfree hkfree).trans hk)

end Probing
