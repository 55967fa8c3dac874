import Mathlib.Data.List.Lex
import Mathlib.Tactic.Linarith

/-!
# Fractional indexing: a digit string strictly between two digit strings

A digit string `[d₀, d₁, …]` over a base `B` is read as the fraction `0.d₀d₁…`, and strings are
compared lexicographically (a proper prefix is smaller).  Two strings may name the same fraction
only through trailing zeros, so `Trimmed` strings — those whose last digit is not `0` — are the
normal forms, and between two of them there is always a third.

`between` computes one: it walks both bounds digit by digit, reading an exhausted lower bound as
`0` and an absent or exhausted upper bound as `B`, and stops at the first position with a gap.
Once the upper bound was strictly greater at a position it no longer limits anything and is dropped.

* `between_ne_nil`, `between_trimmed` — the result is not empty and never ends in `0`;
* `lt_between`, `between_lt` — it lies strictly between its bounds;
* `between_digits` — its digits stay below the base;
* `map_lt_map` — an increasing encoding of digits carries the order over to encoded strings.
-/

namespace FractionalIndex

/-- The leading digit of a lower bound; an exhausted bound reads as `0`. -/
def loDigit : List ℕ → ℕ
  | [] => 0
  | x :: _ => x

/-- The leading digit of an upper bound; an absent or exhausted bound reads as the base. -/
def hiDigit (B : ℕ) : Option (List ℕ) → ℕ
  | some (y :: _) => y
  | _ => B

@[simp] theorem loDigit_nil : loDigit [] = 0 := rfl
@[simp] theorem loDigit_cons (x : ℕ) (xs : List ℕ) : loDigit (x :: xs) = x := rfl
@[simp] theorem hiDigit_none (B : ℕ) : hiDigit B none = B := rfl
@[simp] theorem hiDigit_nil (B : ℕ) : hiDigit B (some []) = B := rfl
@[simp] theorem hiDigit_cons (B y : ℕ) (ys : List ℕ) : hiDigit B (some (y :: ys)) = y := rfl

/-- What remains of the upper bound below the digit `d`: nothing once the bound was greater. -/
def hiTail (B d : ℕ) (b : Option (List ℕ)) : Option (List ℕ) :=
  if d < hiDigit B b then none else b.map List.tail

theorem hiTail_of_lt {B d : ℕ} {b : Option (List ℕ)} (h : d < hiDigit B b) :
    hiTail B d b = none := if_pos h

theorem hiTail_of_not_lt {B d : ℕ} {b : Option (List ℕ)} (h : ¬ d < hiDigit B b) :
    hiTail B d b = b.map List.tail := if_neg h

theorem hiTail_length_le (B d : ℕ) (b : Option (List ℕ)) :
    ((hiTail B d b).getD []).length ≤ (b.getD []).length := by
  unfold hiTail
  split
  · simp
  · cases b <;> simp

/-- A string strictly between the lower bound `a` and the upper bound `b` (`none`: no bound). -/
def between (B : ℕ) (hB : 2 ≤ B) (a : List ℕ) (b : Option (List ℕ)) : List ℕ :=
  if loDigit a < (loDigit a + hiDigit B b) / 2 then
    [(loDigit a + hiDigit B b) / 2]
  else
    loDigit a :: between B hB a.tail (hiTail B (loDigit a) b)
termination_by a.length + (b.getD []).length
decreasing_by
  have hle := hiTail_length_le B (loDigit a) b
  match a, b with
  | [], none => simp only [loDigit_nil, hiDigit_none] at *; omega
  | [], some [] => simp only [loDigit_nil, hiDigit_nil] at *; omega
  | [], some (y :: ys) => by_cases h : 0 < y <;> simp [hiTail, h]
  | x :: xs, b => simp only [List.tail_cons, List.length_cons] at *; omega

/-- A string without trailing zeros. -/
def Trimmed (l : List ℕ) : Prop := l.getLast? ≠ some 0

theorem trimmed_singleton {d : ℕ} : Trimmed [d] ↔ d ≠ 0 := by simp [Trimmed]

/-- Trailing zeros live in the tail once the tail is non-empty. -/
theorem trimmed_cons {d : ℕ} {l : List ℕ} (h : l ≠ []) : Trimmed (d :: l) ↔ Trimmed l := by
  obtain ⟨e, l, rfl⟩ := List.exists_cons_of_ne_nil h
  simp only [Trimmed, List.getLast?_cons_cons]

theorem between_ne_nil (B : ℕ) (hB : 2 ≤ B) (a : List ℕ) (b : Option (List ℕ)) :
    between B hB a b ≠ [] := by
  rw [between]
  split <;> simp

/-- The result never ends in `0`, whatever the bounds are. -/
theorem between_trimmed (B : ℕ) (hB : 2 ≤ B) (a : List ℕ) (b : Option (List ℕ)) :
    Trimmed (between B hB a b) := by
  fun_induction between B hB a b with
  | case1 a b hgap => exact trimmed_singleton.2 (by omega)
  | case2 a b hgap ih => exact (trimmed_cons (between_ne_nil B hB _ _)).2 ih

/-- The result is above the lower bound, whatever the upper bound is. -/
theorem lt_between (B : ℕ) (hB : 2 ≤ B) (a : List ℕ) (b : Option (List ℕ)) :
    a < between B hB a b := by
  fun_induction between B hB a b with
  | case1 a b hgap =>
      cases a with
      | nil => exact List.nil_lt_cons _ _
      | cons x xs => exact List.Lex.rel hgap
  | case2 a b hgap ih =>
      cases a with
      | nil => exact List.nil_lt_cons _ _
      | cons x xs => exact List.Lex.cons ih

/-- Below a trimmed bound a common leading digit leaves a non-trivial tail. -/
theorem tail_bounds {a : List ℕ} {y : ℕ} {ys : List ℕ} (hb : Trimmed (y :: ys))
    (hlt : a < y :: ys) (hy : ¬ loDigit a < y) : loDigit a = y ∧ Trimmed ys ∧ a.tail < ys := by
  cases a with
  | nil =>
      have hy0 : y = 0 := by simpa using hy
      have hys : ys ≠ [] := by
        rintro rfl
        exact trimmed_singleton.1 hb hy0
      refine ⟨by simp [hy0], (trimmed_cons hys).1 hb, ?_⟩
      obtain ⟨e, l, rfl⟩ := List.exists_cons_of_ne_nil hys
      exact List.nil_lt_cons _ _
  | cons x xs =>
      cases hlt with
      | rel hxy => exact absurd hxy hy
      | cons htail =>
          have hys : ys ≠ [] := by rintro rfl; cases htail
          exact ⟨rfl, (trimmed_cons hys).1 hb, htail⟩

/-- The result is below a trimmed upper bound that lies above the lower bound. -/
theorem between_lt (B : ℕ) (hB : 2 ≤ B) (a : List ℕ) (b : Option (List ℕ)) :
    ∀ u ∈ b, Trimmed u → a < u → between B hB a b < u := by
  fun_induction between B hB a b with
  | case1 a b hgap =>
      rintro u rfl hu hlt
      cases u with
      | nil => cases hlt
      | cons y ys =>
          simp only [hiDigit_cons] at hgap ⊢
          exact List.Lex.rel (by omega)
  | case2 a b hgap ih =>
      rintro u rfl hu hlt
      cases u with
      | nil => cases hlt
      | cons y ys =>
          by_cases hy : loDigit a < y
          · exact List.Lex.rel hy
          · obtain ⟨heq, htr, htail⟩ := tail_bounds hu hlt hy
            have hmem : ys ∈ hiTail B (loDigit a) (some (y :: ys)) := by simp [hiTail, hy]
            have hrec := ih ys hmem htr htail
            rw [heq] at hrec ⊢
            exact List.Lex.cons hrec

/-- Digits of the result stay below the base when those of the bounds do. -/
theorem between_digits (B : ℕ) (hB : 2 ≤ B) (a : List ℕ) (b : Option (List ℕ)) :
    (∀ d ∈ a, d < B) → (∀ u ∈ b, ∀ d ∈ u, d < B) → ∀ d ∈ between B hB a b, d < B := by
  have hlo : ∀ a : List ℕ, (∀ d ∈ a, d < B) → loDigit a < B := by
    intro a ha
    cases a with
    | nil => simp only [loDigit_nil]; omega
    | cons x xs => exact ha x (by simp)
  have hhi : ∀ b : Option (List ℕ), (∀ u ∈ b, ∀ d ∈ u, d < B) → hiDigit B b ≤ B := by
    intro b hb
    match b with
    | none => exact le_refl B
    | some [] => exact le_refl B
    | some (y :: ys) => exact le_of_lt (hb _ rfl y (by simp))
  fun_induction between B hB a b with
  | case1 a b hgap =>
      intro ha hb d hd
      have h1 := hlo a ha
      have h2 := hhi b hb
      simp only [List.mem_singleton] at hd
      omega
  | case2 a b hgap ih =>
      intro ha hb d hd
      rcases List.mem_cons.1 hd with rfl | hd
      · exact hlo a ha
      · refine ih (fun e he => ha e (List.mem_of_mem_tail he)) ?_ d hd
        intro u hu e he
        unfold hiTail at hu
        split at hu
        · cases hu
        · obtain ⟨v, hv, rfl⟩ := Option.mem_map.1 hu
          exact hb v hv e (List.mem_of_mem_tail he)

/-- An encoding that is increasing on the entries of both strings preserves their order. -/
theorem map_lt_map {α β : Type*} [LinearOrder α] [LinearOrder β] (f : α → β) {l m : List α}
    (hf : ∀ x ∈ l, ∀ y ∈ m, x < y → f x < f y) (h : l < m) : l.map f < m.map f := by
  induction h with
  | nil => exact List.nil_lt_cons _ _
  | rel hxy => exact List.Lex.rel (hf _ (by simp) _ (by simp) hxy)
  | cons _ ih =>
      refine List.Lex.cons (ih fun x hx y hy => hf x ?_ y ?_)
      · exact List.mem_cons_of_mem _ hx
      · exact List.mem_cons_of_mem _ hy

end FractionalIndex
