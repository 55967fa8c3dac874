import PmSaas.Types.JsString
import PmSaas.Lib.FractionalIndex

/-!
# `rank.ts`: LexoRank-lite

`rankBetween` walks its two bounds position by position.  `rankLoop` is that loop with an iteration
budget; `rankLoop_eq` identifies it with the digit-list recursion `FractionalIndex.between` on the
digits not yet read, and shows that the budget `maxLen a b + 1` is never exhausted.  The order of
rank strings is the order of their digits because `DIGITS` is increasing.
-/

namespace PmSaas

open FractionalIndex

/-- The alphabet `0-9A-Za-z`, as the three ASCII ranges it consists of. -/
def DIGITS : JsString :=
  (List.range' 48 10 ++ List.range' 65 26 ++ List.range' 97 26).map (Fin.ofNat _)

theorem DIGITS_eq :
    DIGITS = js "0123456789ABCDEFGHIJKLMNOPQRSTUVWXYZabcdefghijklmnopqrstuvwxyz" := by
  decide

def BASE : ℕ := DIGITS.length

theorem BASE_eq : BASE = 62 := by decide

/-- `DIGITS.indexOf(c)`, with `0` for a character that is not a digit. -/
def digit (c : CodeUnit) : ℕ :=
  if c ∈ DIGITS then DIGITS.idxOf c else 0

/-- `DIGITS[i]`; every index the loop uses is below `BASE`. -/
def digitAt (i : ℕ) : CodeUnit := DIGITS.getD i 0

/-- The `Error` that `rankBetween` throws. -/
inductive RankError where
  /-- `rankBetween: lower "a" must sort before upper "b"` -/
  | inverted (a b : JsString)
  /-- The loop ran out of its iteration budget; `rankBetween_ne_diverged` excludes it. -/
  | diverged
  deriving DecidableEq, Repr

/-- `da` in iteration `i`: the digit of `a`, or `0` past its end. -/
def lowerDigit (a : Option JsString) (i : ℕ) : ℕ :=
  match a with
  | some a => if h : i < a.length then digit a[i] else 0
  | none => 0

/-- `db` in iteration `i`: the digit of `b`, or `BASE` past its end or once the ceiling is open. -/
def upperDigit (b : Option JsString) (upperOpen : Bool) (i : ℕ) : ℕ :=
  match b with
  | some b => if h : upperOpen = false ∧ i < b.length then digit b[i] else BASE
  | none => BASE

/-- The `for (;;)` loop of `rankBetween`, from position `i` with the prefix `result` emitted. -/
def rankLoop (a b : Option JsString) : ℕ → ℕ → Bool → JsString → Option JsString
  | 0, _, _, _ => none
  | fuel + 1, i, upperOpen, result =>
      let da := lowerDigit a i
      let db := upperDigit b upperOpen i
      let mid := (da + db) >>> 1
      if mid > da then some (result ++ [digitAt mid])
      else rankLoop a b fuel (i + 1) (upperOpen || decide (db > da)) (result ++ [digitAt da])

/-- The longer bound's length, `null` counting as empty. -/
def maxLen (a b : Option JsString) : ℕ := max (a.getD []).length (b.getD []).length

def rankBetween (a b : Option JsString) : Except RankError JsString :=
  match a, b with
  | some lo, some hi => if lo < hi then run a b else .error (.inverted lo hi)
  | _, _ => run a b
where
  /-- The loop from the start; `upperOpen = b === null`. -/
  run (a b : Option JsString) : Except RankError JsString :=
    match rankLoop a b (maxLen a b + 1) 0 b.isNone [] with
    | some r => .ok r
    | none => .error .diverged

/-- Initial rank for the first item in an empty column. -/
def firstRank : JsString := [digitAt (BASE / 2)]

/-! ### Digits and their encoding -/

theorem DIGITS_sorted : DIGITS.Pairwise (· < ·) := by decide

theorem digitAt_eq {i : ℕ} (h : i < BASE) : digitAt i = DIGITS.get ⟨i, h⟩ := by
  have hlen : i < DIGITS.length := h
  simp [digitAt, List.getD_eq_getElem?_getD, hlen]

theorem digitAt_mem {i : ℕ} (h : i < BASE) : digitAt i ∈ DIGITS := by
  rw [digitAt_eq h]
  exact List.get_mem _ _

theorem digitAt_lt {i j : ℕ} (hj : j < BASE) (hij : i < j) : digitAt i < digitAt j := by
  rw [digitAt_eq (hij.trans hj), digitAt_eq hj]
  exact List.pairwise_iff_getElem.1 DIGITS_sorted i j _ _ hij

theorem digitAt_inj {i j : ℕ} (hi : i < BASE) (hj : j < BASE) (h : digitAt i = digitAt j) :
    i = j := by
  rcases lt_trichotomy i j with hlt | rfl | hlt
  · exact absurd h (ne_of_lt (digitAt_lt hj hlt))
  · rfl
  · exact absurd h.symm (ne_of_lt (digitAt_lt hi hlt))

theorem digit_lt (c : CodeUnit) : digit c < BASE := by
  unfold digit
  split
  · exact List.idxOf_lt_length_iff.2 ‹_›
  · exact (by decide : 0 < BASE)

theorem digitAt_digit {c : CodeUnit} (h : c ∈ DIGITS) : digitAt (digit c) = c := by
  have hlt : DIGITS.idxOf c < BASE := List.idxOf_lt_length_iff.2 h
  rw [digit, if_pos h, digitAt_eq hlt]
  exact List.getElem_idxOf hlt

/-- Digits are numbered in string order. -/
theorem digit_lt_digit {c d : CodeUnit} (hc : c ∈ DIGITS) (hd : d ∈ DIGITS) (h : c < d) :
    digit c < digit d := by
  by_contra hge
  rcases lt_or_eq_of_le (not_lt.1 hge) with hlt | heq
  · have := digitAt_lt (digit_lt c) hlt
    rw [digitAt_digit hc, digitAt_digit hd] at this
    exact lt_asymm h this
  · rw [← digitAt_digit hc, ← digitAt_digit hd, heq] at h
    exact lt_irrefl _ h

/-! ### The loop is the digit recursion -/

/-- The digits of a bound from position `i` on, `null` counting as empty. -/
def digitsFrom (a : Option JsString) (i : ℕ) : List ℕ := ((a.getD []).drop i).map digit

/-- What still limits the result from above at position `i`. -/
def ceilingFrom (b : Option JsString) (upperOpen : Bool) (i : ℕ) : Option (List ℕ) :=
  if upperOpen then none else some (digitsFrom b i)

theorem digitsFrom_tail (a : Option JsString) (i : ℕ) :
    (digitsFrom a i).tail = digitsFrom a (i + 1) := by
  simp [digitsFrom, List.tail_drop]

theorem lowerDigit_eq (a : Option JsString) (i : ℕ) : lowerDigit a i = loDigit (digitsFrom a i) := by
  cases a with
  | none => simp [lowerDigit, digitsFrom]
  | some a =>
      by_cases h : i < a.length
      · simp only [lowerDigit, dif_pos h, digitsFrom, Option.getD_some,
          List.drop_eq_getElem_cons h, List.map_cons, loDigit_cons]
      · simp only [lowerDigit, dif_neg h, digitsFrom, Option.getD_some,
          List.drop_eq_nil_of_le (not_lt.1 h), List.map_nil, loDigit_nil]

theorem upperDigit_eq (b : Option JsString) (upperOpen : Bool) (i : ℕ) :
    upperDigit b upperOpen i = hiDigit BASE (ceilingFrom b upperOpen i) := by
  cases b with
  | none => cases upperOpen <;> simp [upperDigit, ceilingFrom, digitsFrom]
  | some b =>
      cases upperOpen with
      | true => simp [upperDigit, ceilingFrom]
      | false =>
          by_cases h : i < b.length
          · simp only [upperDigit, h, and_self, dite_true, ceilingFrom, Bool.false_eq_true,
              if_false, digitsFrom, Option.getD_some, List.drop_eq_getElem_cons h, List.map_cons,
              hiDigit_cons]
          · simp only [upperDigit, h, and_false, dite_false, ceilingFrom, Bool.false_eq_true,
              if_false, digitsFrom, Option.getD_some, List.drop_eq_nil_of_le (not_lt.1 h),
              List.map_nil, hiDigit_nil]

theorem hiTail_ceilingFrom (b : Option JsString) (upperOpen : Bool) (d i : ℕ) :
    hiTail BASE d (ceilingFrom b upperOpen i) =
      ceilingFrom b (upperOpen || decide (upperDigit b upperOpen i > d)) (i + 1) := by
  rw [upperDigit_eq]
  by_cases h : d < hiDigit BASE (ceilingFrom b upperOpen i)
  · rw [hiTail_of_lt h, decide_eq_true h, Bool.or_true]
    rfl
  · rw [hiTail_of_not_lt h, decide_eq_false h, Bool.or_false]
    cases upperOpen <;> simp [ceilingFrom, digitsFrom_tail]

/-- Past the end of both bounds there is a gap. -/
theorem gap_at_end {a b : Option JsString} {upperOpen : Bool} {i : ℕ} (h : maxLen a b ≤ i) :
    lowerDigit a i < (lowerDigit a i + upperDigit b upperOpen i) >>> 1 := by
  have ha : digitsFrom a i = [] := by
    simp only [digitsFrom, List.map_eq_nil_iff, List.drop_eq_nil_iff]
    exact (le_max_left _ _).trans h
  have hb : digitsFrom b i = [] := by
    simp only [digitsFrom, List.map_eq_nil_iff, List.drop_eq_nil_iff]
    exact (le_max_right _ _).trans h
  have hup : upperDigit b upperOpen i = BASE := by
    rw [upperDigit_eq]
    cases upperOpen <;> simp [ceilingFrom, hb]
  rw [lowerDigit_eq, ha, hup, BASE_eq]
  decide

theorem two_le_BASE : 2 ≤ BASE := by decide

/-- **The loop computes `between`.**  From position `i` with a budget that reaches past the end of
both bounds, the loop appends to `result` the encoding of `between` on the digits left to read. -/
theorem rankLoop_eq (a b : Option JsString) :
    ∀ (fuel i : ℕ) (upperOpen : Bool) (result : JsString), i ≤ maxLen a b → maxLen a b < fuel + i →
      rankLoop a b fuel i upperOpen result = some (result ++
        (between BASE two_le_BASE (digitsFrom a i) (ceilingFrom b upperOpen i)).map digitAt) := by
  intro fuel
  induction fuel with
  | zero => intro i upperOpen result hi hfuel; omega
  | succ fuel ih =>
      intro i upperOpen result hi hfuel
      rw [between, rankLoop]
      simp only [← lowerDigit_eq, ← upperDigit_eq, ← Nat.shiftRight_one, gt_iff_lt]
      by_cases hgap : lowerDigit a i < (lowerDigit a i + upperDigit b upperOpen i) >>> 1
      · simp [hgap]
      · have hlt : i < maxLen a b := by
          by_contra hge
          exact hgap (gap_at_end (not_lt.1 hge))
        rw [if_neg hgap, if_neg hgap, ih (i + 1) _ _ (by omega) (by omega), digitsFrom_tail,
          hiTail_ceilingFrom]
        simp

/-- The result of the loop as started by `rankBetween`. -/
def rankMid (a b : Option JsString) : JsString :=
  (between BASE two_le_BASE (digitsFrom a 0) (ceilingFrom b b.isNone 0)).map digitAt

theorem rankBetween_run (a b : Option JsString) : rankBetween.run a b = .ok (rankMid a b) := by
  rw [rankBetween.run, rankLoop_eq a b _ 0 _ _ (Nat.zero_le _) (by omega)]
  simp [rankMid]

/-- `rankBetween` throws exactly on inverted bounds and otherwise returns `rankMid`. -/
theorem rankBetween_eq (a b : Option JsString) :
    rankBetween a b =
      match a, b with
      | some lo, some hi => if lo < hi then .ok (rankMid a b) else .error (.inverted lo hi)
      | _, _ => .ok (rankMid a b) := by
  cases a <;> cases b <;> simp [rankBetween, rankBetween_run]

theorem rankBetween_ne_diverged (a b : Option JsString) : rankBetween a b ≠ .error .diverged := by
  rw [rankBetween_eq]
  split
  · split <;> simp
  · simp

/-! ### Ranks -/

/-- A rank as the service stores it: a non-empty string of digits that does not end in `0`. -/
structure WellFormedRank (r : JsString) : Prop where
  ne_nil : r ≠ []
  digits : ∀ c ∈ r, c ∈ DIGITS
  last : r.getLast? ≠ some (digitAt 0)

instance (r : JsString) : Decidable (WellFormedRank r) :=
  decidable_of_iff
    (r ≠ [] ∧ r.all (fun c => DIGITS.contains c) = true ∧ r.getLast? ≠ some (digitAt 0))
    ⟨fun h => ⟨h.1, by simpa using h.2.1, h.2.2⟩,
      fun h => ⟨h.ne_nil, by simpa using h.digits, h.last⟩⟩

theorem map_digit_digitAt {r : JsString} (h : ∀ c ∈ r, c ∈ DIGITS) :
    (r.map digit).map digitAt = r := by
  rw [List.map_map]
  exact (List.map_congr_left fun c hc => digitAt_digit (h c hc)).trans (List.map_id r)

theorem map_digit_lt {r s : JsString} (hr : ∀ c ∈ r, c ∈ DIGITS) (hs : ∀ c ∈ s, c ∈ DIGITS)
    (h : r < s) : r.map digit < s.map digit :=
  map_lt_map digit (fun c hc d hd => digit_lt_digit (hr c hc) (hs d hd)) h

theorem map_digitAt_lt {l m : List ℕ} (hm : ∀ d ∈ m, d < BASE) (h : l < m) :
    l.map digitAt < m.map digitAt :=
  map_lt_map digitAt (fun _ _ y hy hxy => digitAt_lt (hm y hy) hxy) h

theorem WellFormedRank.trimmed {r : JsString} (h : WellFormedRank r) : Trimmed (r.map digit) := by
  intro hz
  rw [List.getLast?_map, Option.map_eq_some_iff] at hz
  obtain ⟨c, hc, hz⟩ := hz
  have hcd : c ∈ DIGITS := h.digits c (List.mem_of_getLast? hc)
  exact h.last (by rw [hc, ← hz, digitAt_digit hcd])

/-- Encoded trimmed digit strings are well-formed ranks. -/
theorem wellFormedRank_map {l : List ℕ} (hne : l ≠ []) (htr : Trimmed l) (hd : ∀ d ∈ l, d < BASE) :
    WellFormedRank (l.map digitAt) := by
  refine ⟨by simpa using hne, ?_, ?_⟩
  · intro c hc
    obtain ⟨d, hdl, rfl⟩ := List.mem_map.1 hc
    exact digitAt_mem (hd d hdl)
  · intro hz
    rw [List.getLast?_map, Option.map_eq_some_iff] at hz
    obtain ⟨d, hdl, hz⟩ := hz
    have hd0 : d = 0 := digitAt_inj (hd d (List.mem_of_getLast? hdl)) (by decide) hz
    exact htr (by rw [hdl, hd0])

theorem digitsFrom_zero (a : Option JsString) : digitsFrom a 0 = (a.getD []).map digit := by
  simp [digitsFrom]

theorem digitsFrom_lt (a : Option JsString) (i : ℕ) : ∀ d ∈ digitsFrom a i, d < BASE := by
  intro d hd
  obtain ⟨c, _, rfl⟩ := List.mem_map.1 hd
  exact digit_lt c

theorem firstRank_wellFormed : WellFormedRank firstRank := by decide

/-- The bounds a caller may pass: well-formed ranks, the lower before the upper. -/
structure Bounds (a b : Option JsString) : Prop where
  lower : ∀ x ∈ a, WellFormedRank x
  upper : ∀ y ∈ b, WellFormedRank y
  sorted : ∀ x ∈ a, ∀ y ∈ b, x < y

theorem Bounds.ceiling {a b : Option JsString} (h : Bounds a b) :
    ∀ u ∈ ceilingFrom b b.isNone 0, Trimmed u ∧ digitsFrom a 0 < u := by
  cases b with
  | none => simp [ceilingFrom]
  | some y =>
      intro u hu
      have hu : u = y.map digit := by simpa [ceilingFrom, digitsFrom_zero, eq_comm] using hu
      subst hu
      refine ⟨(h.upper y rfl).trimmed, ?_⟩
      cases a with
      | none =>
          obtain ⟨c, cs, hy⟩ := List.exists_cons_of_ne_nil (h.upper y rfl).ne_nil
          simp [digitsFrom_zero, hy]
      | some x =>
          simpa [digitsFrom_zero] using
            map_digit_lt (h.lower x rfl).digits (h.upper y rfl).digits (h.sorted x rfl y rfl)

theorem rankMid_wellFormed {a b : Option JsString} : WellFormedRank (rankMid a b) := by
  refine wellFormedRank_map (between_ne_nil _ _ _ _) (between_trimmed _ _ _ _) ?_
  refine between_digits _ _ _ _ (digitsFrom_lt a 0) ?_
  intro u hu d hd
  simp only [ceilingFrom] at hu
  split at hu
  · cases hu
  · cases hu
    exact digitsFrom_lt b 0 d hd

/-- On bounds in order, `rankBetween` returns its `rankMid`. -/
theorem rankBetween_ok {a b : Option JsString} (h : ∀ x ∈ a, ∀ y ∈ b, x < y) :
    rankBetween a b = .ok (rankMid a b) := by
  rw [rankBetween_eq]
  cases a with
  | none => rfl
  | some x =>
      cases b with
      | none => rfl
      | some y => simp [h x rfl y rfl]

theorem lt_rankMid {a b : Option JsString} (ha : ∀ x ∈ a, WellFormedRank x) :
    ∀ x ∈ a, x < rankMid a b := by
  rintro x rfl
  have hbelow := lt_between BASE two_le_BASE (digitsFrom (some x) 0) (ceilingFrom b b.isNone 0)
  have hd : ∀ d ∈ between BASE two_le_BASE (digitsFrom (some x) 0) (ceilingFrom b b.isNone 0),
      d < BASE := by
    refine between_digits _ _ _ _ (digitsFrom_lt _ 0) ?_
    intro u hu d hd
    simp only [ceilingFrom] at hu
    split at hu
    · cases hu
    · cases hu
      exact digitsFrom_lt b 0 d hd
  have henc := map_digitAt_lt hd hbelow
  rwa [digitsFrom_zero, Option.getD_some, map_digit_digitAt (ha x rfl).digits] at henc

theorem rankMid_lt {a b : Option JsString} (h : Bounds a b) : ∀ y ∈ b, rankMid a b < y := by
  rintro y rfl
  have hmem : y.map digit ∈ ceilingFrom (some y) false 0 := by simp [ceilingFrom, digitsFrom_zero]
  have hspec := h.ceiling (y.map digit) hmem
  have habove := between_lt BASE two_le_BASE (digitsFrom a 0) _ _ hmem hspec.1 hspec.2
  have hd : ∀ d ∈ y.map digit, d < BASE := by
    intro d hd
    obtain ⟨c, _, rfl⟩ := List.mem_map.1 hd
    exact digit_lt c
  have henc := map_digitAt_lt hd habove
  rwa [map_digit_digitAt (h.upper y rfl).digits] at henc

/-- **A rank strictly between its bounds.**  For well-formed bounds in order, each possibly absent,
`rankBetween` returns a well-formed rank strictly between them. -/
theorem rankBetween_strictly_between (a b : Option JsString) (h : Bounds a b) :
    ∃ r, rankBetween a b = .ok r ∧ WellFormedRank r ∧ (∀ x ∈ a, x < r) ∧ ∀ y ∈ b, r < y :=
  ⟨rankMid a b, rankBetween_ok h.sorted, rankMid_wellFormed, lt_rankMid h.lower, rankMid_lt h⟩

/-- Adjacent digits force a descent: between `A` and `B` lies `AV`. -/
theorem rankBetween_adjacent_digits :
    ∃ r, rankBetween (some (js "A")) (some (js "B")) = .ok r ∧ WellFormedRank r ∧
      (∀ x ∈ some (js "A"), x < r) ∧ ∀ y ∈ some (js "B"), r < y :=
  rankBetween_strictly_between _ _
    ⟨by rintro _ ⟨⟩; decide, by rintro _ ⟨⟩; decide,
      by rintro _ ⟨⟩ _ ⟨⟩; decide⟩

example : rankBetween (some (js "A")) (some (js "B")) = .ok (js "AV") := by decide

end PmSaas
