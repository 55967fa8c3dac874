import PmSaas.Types.Rank

/-!
# `rankBetween` always ends

`rankLoop` is the loop of `rankBetween` with a budget.  `RankLoop` is the `for (;;)` itself: an
iteration returns, or the loop goes on at the next position.

`rankBetween_ends`: whatever the two bounds are, the call throws because they are in the wrong
order, or the loop returns after one iteration more than the longer bound has characters.
-/

namespace PmSaas

/-- `for (;;)` from position `i` on: so many iterations, and what it returns. -/
inductive RankLoop (a b : Option JsString) : ℕ → Bool → JsString → ℕ → JsString → Prop
  | gap {i : ℕ} {upperOpen : Bool} {result : JsString}
      (gap : (lowerDigit a i + upperDigit b upperOpen i) >>> 1 > lowerDigit a i) :
      RankLoop a b i upperOpen result 1
        (result ++ [digitAt ((lowerDigit a i + upperDigit b upperOpen i) >>> 1)])
  | descend {i : ℕ} {upperOpen : Bool} {result r : JsString} {iterations : ℕ}
      (noGap : ¬(lowerDigit a i + upperDigit b upperOpen i) >>> 1 > lowerDigit a i)
      (rest : RankLoop a b (i + 1)
        (upperOpen || decide (upperDigit b upperOpen i > lowerDigit a i))
        (result ++ [digitAt (lowerDigit a i)]) iterations r) :
      RankLoop a b i upperOpen result (iterations + 1) r

section Loop

variable {a b : Option JsString} {i iterations : ℕ} {upperOpen : Bool} {result r : JsString}

/-- The loop runs in one way only. -/
theorem RankLoop.unique (h : RankLoop a b i upperOpen result iterations r) {iterations' : ℕ}
    {r' : JsString} (h' : RankLoop a b i upperOpen result iterations' r') :
    iterations' = iterations ∧ r' = r := by
  induction h generalizing iterations' r' with
  | gap hgap =>
      cases h' with
      | gap => exact ⟨rfl, rfl⟩
      | descend hno => exact absurd hgap hno
  | descend hno _ ih =>
      cases h' with
      | gap hgap => exact absurd hgap hno
      | descend _ hrest =>
          obtain ⟨hcount, hsame⟩ := ih hrest
          exact ⟨congrArg (· + 1) hcount, hsame⟩

/-- Every iteration writes one character. -/
theorem RankLoop.length_eq (h : RankLoop a b i upperOpen result iterations r) :
    r.length = result.length + iterations := by
  induction h with
  | gap => simp
  | descend _ _ ih =>
      rw [ih, List.length_append, List.length_singleton]
      omega

/-- A budget that is enough is no budget. -/
theorem RankLoop.of_rankLoop {fuel : ℕ} (h : rankLoop a b fuel i upperOpen result = some r) :
    ∃ iterations ≤ fuel, RankLoop a b i upperOpen result iterations r := by
  induction fuel generalizing i upperOpen result with
  | zero => cases h
  | succ fuel ih =>
      rw [rankLoop] at h
      split at h
      · rename_i hgap
        obtain rfl := Option.some.inj h
        exact ⟨1, by omega, .gap hgap⟩
      · rename_i hno
        obtain ⟨iterations, hle, hrest⟩ := ih h
        exact ⟨iterations + 1, by omega, .descend hno hrest⟩

end Loop

/-- The loop as `rankBetween` starts it. -/
theorem rankMid_loop (a b : Option JsString) :
    ∃ iterations ≤ maxLen a b + 1, RankLoop a b 0 b.isNone [] iterations (rankMid a b) := by
  refine RankLoop.of_rankLoop ?_
  rw [rankLoop_eq a b _ 0 _ _ (Nat.zero_le _) (by omega)]
  rfl

/-- **`rankBetween` throws or returns, and never loops.**  For any two bounds, each `null` or any
string at all: either both are strings with the lower one not before the upper one, and the call
throws; or the loop returns within one iteration more than the longer bound has characters, in one
way only, and what it returns is no longer than that and a rank, so that its last character is no
`0`. -/
theorem rankBetween_ends (a b : Option JsString) :
    (∃ lo hi, a = some lo ∧ b = some hi ∧ hi ≤ lo ∧ rankBetween a b = .error (.inverted lo hi)) ∨
    ∃ iterations r, RankLoop a b 0 b.isNone [] iterations r ∧
      (∀ iterations' r', RankLoop a b 0 b.isNone [] iterations' r' →
        iterations' = iterations ∧ r' = r) ∧
      rankBetween a b = .ok r ∧ iterations ≤ maxLen a b + 1 ∧ r.length ≤ maxLen a b + 1 ∧
      WellFormedRank r := by
  by_cases hsorted : ∀ lo ∈ a, ∀ hi ∈ b, lo < hi
  · right
    obtain ⟨iterations, hle, hloop⟩ := rankMid_loop a b
    have hlength : (rankMid a b).length = 0 + iterations := hloop.length_eq
    exact ⟨iterations, rankMid a b, hloop, fun _ _ h => hloop.unique h, rankBetween_ok hsorted, hle,
      by omega, rankMid_wellFormed⟩
  · left
    push Not at hsorted
    obtain ⟨lo, rfl, hi, rfl, hle⟩ := hsorted
    refine ⟨lo, hi, rfl, rfl, hle, ?_⟩
    rw [rankBetween_eq]
    exact if_neg (not_lt.2 hle)

/-- A character outside `DIGITS` counts as `0`. -/
example : rankBetween (some (js "z!")) (some (js "~")) = .ok (js "zV") := by decide

end PmSaas
