import PmSaas.Lib.FractionalIndex
import Mathlib.Data.Finset.Card
import Mathlib.Data.Nat.Log

/-!
# How long fractional indices get

Two questions about the length of `between a b`.

Is it as short as a string between `a` and `b` can be?  The walk keeps the lower bound's digit as
soon as the first differing digits are adjacent, so it misses the strings that begin with the upper
bound's digit.  `Roomy a u` says that the bounds part in a way that leaves nothing to miss.

How long can an index be after `n` insertions?  Below each prefix the digits in use are the nodes of
a halving search tree on `(0, B)`, and the walk goes below a digit only when its upper neighbour is
taken too.  So a level opens only after `Nat.log 2 B` digits of the level above it.

* `between_inner`, `between_last` — what the bounds look like at each digit of the result;
* `shortest_none`, `shortest_some_iff` — no string between the bounds is shorter exactly when they
  are `Roomy`;
* `Grown.spread`, `Grown.deep` — the two invariants of a set of indices grown by insertions;
* `Grown.length_le` — an index of length `L` needs more than `Nat.log 2 B * (L - 1)` insertions;
* `between_descent`, `between_ascent` — the indices that insertions at one end give.
-/

namespace FractionalIndex

variable {B : ℕ} {hB : 2 ≤ B}

/-- Bounds to insert between: digits below the base, the upper one trimmed and above the lower. -/
structure InOrder (B : ℕ) (a : List ℕ) (b : Option (List ℕ)) : Prop where
  lower : ∀ d ∈ a, d < B
  upper : ∀ u ∈ b, ∀ d ∈ u, d < B
  trimmed : ∀ u ∈ b, Trimmed u
  lt : ∀ u ∈ b, a < u

theorem InOrder.loDigit_lt {a : List ℕ} {b : Option (List ℕ)} (h : InOrder B a b) (hB : 2 ≤ B) :
    loDigit a < B := by
  cases a with
  | nil => simp only [loDigit_nil]; omega
  | cons x xs => exact h.lower x (by simp)

theorem InOrder.hiDigit_le {a : List ℕ} {b : Option (List ℕ)} (h : InOrder B a b) :
    hiDigit B b ≤ B := by
  match b with
  | none => exact le_refl B
  | some [] => exact le_refl B
  | some (y :: ys) => exact le_of_lt (h.upper _ rfl y (by simp))

/-- The upper bound still limits the walk only while it agrees with the lower one. -/
theorem mem_hiTail {a : List ℕ} {b : Option (List ℕ)} (h : InOrder B a b) {u : List ℕ}
    (hu : u ∈ hiTail B (loDigit a) b) :
    b = some (loDigit a :: u) ∧ Trimmed u ∧ a.tail < u := by
  unfold hiTail at hu
  split at hu
  · cases hu
  case isFalse hle =>
    obtain ⟨v, hv, rfl⟩ := Option.mem_map.1 hu
    obtain rfl : b = some v := hv
    cases v with
    | nil => exact absurd (h.lt [] rfl) (List.not_lt_nil a)
    | cons y ys =>
        obtain ⟨heq, htr, htail⟩ := tail_bounds (h.trimmed _ rfl) (h.lt _ rfl) hle
        exact ⟨by rw [heq]; rfl, htr, htail⟩

theorem InOrder.tail {a : List ℕ} {b : Option (List ℕ)} (h : InOrder B a b) :
    InOrder B a.tail (hiTail B (loDigit a) b) where
  lower := fun d hd => h.lower d (List.mem_of_mem_tail hd)
  upper := by
    intro u hu d hd
    obtain ⟨hb, _, _⟩ := mem_hiTail h hu
    exact h.upper _ hb d (List.mem_cons_of_mem _ hd)
  trimmed := fun u hu => (mem_hiTail h hu).2.1
  lt := fun u hu => (mem_hiTail h hu).2.2

/-! ### What the walk reads at each digit of its result -/

/-- After the prefix `p` the lower bound reads as the digit `d`: its own, or `0` past its end. -/
def LowerAt (a p : List ℕ) (d : ℕ) : Prop :=
  (∃ t, a = p ++ d :: t) ∨ (a <+: p ∧ d = 0)

/-- After the prefix `p` the upper bound reads as the digit `d`, or as the base once it is open. -/
def UpperAt (B : ℕ) (b : Option (List ℕ)) (p : List ℕ) (d : ℕ) : Prop :=
  (d = B ∧ ∀ u ∈ b, ∀ s, p ++ s < u) ∨ ∃ t, b = some (p ++ d :: t)

theorem lowerAt_nil (a : List ℕ) : LowerAt a [] (loDigit a) := by
  cases a with
  | nil => exact Or.inr ⟨List.nil_prefix, rfl⟩
  | cons x xs => exact Or.inl ⟨xs, rfl⟩

theorem upperAt_nil {a : List ℕ} {b : Option (List ℕ)} (h : InOrder B a b) :
    UpperAt B b [] (hiDigit B b) := by
  match b with
  | none => exact Or.inl ⟨rfl, by simp⟩
  | some [] => exact absurd (h.lt [] rfl) (List.not_lt_nil a)
  | some (y :: ys) => exact Or.inr ⟨ys, rfl⟩

theorem LowerAt.cons {a p : List ℕ} {d : ℕ} (h : LowerAt a.tail p d) :
    LowerAt a (loDigit a :: p) d := by
  cases a with
  | nil =>
      obtain ⟨t, ht⟩ | ⟨_, hd⟩ := h
      · simp at ht
      · exact Or.inr ⟨List.nil_prefix, hd⟩
  | cons x xs =>
      obtain ⟨t, ht⟩ | ⟨hp, hd⟩ := h
      · exact Or.inl ⟨t, congrArg (x :: ·) ht⟩
      · exact Or.inr ⟨List.cons_prefix_cons.2 ⟨rfl, hp⟩, hd⟩

theorem UpperAt.cons {a p : List ℕ} {b : Option (List ℕ)} {d : ℕ} (hin : InOrder B a b)
    (h : UpperAt B (hiTail B (loDigit a) b) p d) : UpperAt B b (loDigit a :: p) d := by
  obtain ⟨hd, hopen⟩ | ⟨t, ht⟩ := h
  · refine Or.inl ⟨hd, ?_⟩
    intro u hu s
    obtain rfl : b = some u := hu
    by_cases hlt : loDigit a < hiDigit B (some u)
    · cases u with
      | nil => exact absurd (hin.lt [] rfl) (List.not_lt_nil a)
      | cons y ys => exact List.Lex.rel hlt
    · have htail := hiTail_of_not_lt hlt
      obtain ⟨hu, -, -⟩ := mem_hiTail hin htail
      rw [Option.some.inj hu]
      exact List.Lex.cons (hopen _ htail s)
  · exact Or.inr ⟨t, (mem_hiTail hin ht).1⟩

theorem loDigit_le_hiDigit {a : List ℕ} {b : Option (List ℕ)} (h : InOrder B a b) (hB : 2 ≤ B) :
    loDigit a ≤ hiDigit B b := by
  match a, b with
  | a, none => exact (h.loDigit_lt hB).le
  | a, some [] => exact (h.loDigit_lt hB).le
  | [], some (y :: ys) => exact Nat.zero_le y
  | x :: xs, some (y :: ys) =>
      have hlt := h.lt _ rfl
      cases hlt with
      | rel hxy => exact le_of_lt hxy
      | cons _ => exact le_refl x

/-- A digit of the result that is not its last: the bounds leave no gap there. -/
theorem between_inner {a : List ℕ} {b : Option (List ℕ)} {d : ℕ} {t : List ℕ} (ht : t ≠ []) :
    ∀ p : List ℕ, InOrder B a b → between B hB a b = p ++ d :: t →
      LowerAt a p d ∧ ∃ y, UpperAt B b p y ∧ d ≤ y ∧ y ≤ d + 1 := by
  fun_induction between B hB a b with
  | case1 a b hgap =>
      intro p _ heq
      have hlen := congrArg List.length heq
      have := List.length_pos_iff.2 ht
      simp only [List.length_append, List.length_cons, List.length_nil] at hlen
      omega
  | case2 a b hgap ih =>
      intro p hin heq
      cases p with
      | nil =>
          obtain ⟨rfl, -⟩ := List.cons.inj heq
          have hle := loDigit_le_hiDigit hin hB
          exact ⟨lowerAt_nil a, _, upperAt_nil hin, hle, by omega⟩
      | cons c p =>
          obtain ⟨rfl, hrest⟩ := List.cons.inj heq
          obtain ⟨hlo, y, hup, hy⟩ := ih p hin.tail hrest
          exact ⟨hlo.cons, y, hup.cons hin, hy⟩

/-- The last digit of the result is the middle of a gap. -/
theorem between_last {a : List ℕ} {b : Option (List ℕ)} {m : ℕ} :
    ∀ p : List ℕ, InOrder B a b → between B hB a b = p ++ [m] →
      ∃ x y, LowerAt a p x ∧ UpperAt B b p y ∧ m = (x + y) / 2 ∧ x < m ∧ m < y ∧ y ≤ B := by
  fun_induction between B hB a b with
  | case1 a b hgap =>
      intro p hin heq
      obtain rfl : p = [] := by
        have hlen := congrArg List.length heq
        simpa using hlen
      obtain ⟨rfl, -⟩ := List.cons.inj heq
      have hhi := hin.hiDigit_le
      exact ⟨_, _, lowerAt_nil a, upperAt_nil hin, rfl, hgap, by omega, hhi⟩
  | case2 a b hgap ih =>
      intro p hin heq
      cases p with
      | nil =>
          obtain ⟨-, hrest⟩ := List.cons.inj heq
          exact absurd hrest (between_ne_nil B hB _ _)
      | cons c p =>
          obtain ⟨rfl, hrest⟩ := List.cons.inj heq
          obtain ⟨x, y, hlo, hup, hm⟩ := ih p hin.tail hrest
          exact ⟨x, y, hlo.cons, hup.cons hin, hm⟩

theorem LowerAt.lt {a p : List ℕ} {x z : ℕ} (h : LowerAt a p x) (hz : x < z) : a < p ++ [z] := by
  obtain ⟨t, rfl⟩ | ⟨⟨t, rfl⟩, -⟩ := h
  · exact List.Lex.append_left _ (List.Lex.rel hz) p
  · rw [List.append_assoc]
    conv_lhs => rw [← List.append_nil a]
    refine List.Lex.append_left _ ?_ a
    obtain ⟨c, l, hl⟩ := List.exists_cons_of_ne_nil (l := t ++ [z]) (by simp)
    rw [hl]
    exact List.Lex.nil

theorem UpperAt.lt {b : Option (List ℕ)} {p : List ℕ} {y z : ℕ} (h : UpperAt B b p y) (hz : z < y) :
    ∀ u ∈ b, p ++ [z] < u := by
  intro u hu
  obtain ⟨-, hopen⟩ | ⟨t, rfl⟩ := h
  · exact hopen u hu [z]
  · obtain rfl := Option.some.inj hu
    exact List.Lex.append_left _ (List.Lex.rel hz) p

/-! ### The shortest string between two bounds -/

/-- No string of digits strictly between the bounds is shorter than `between`. -/
def Shortest (B : ℕ) (hB : 2 ≤ B) (a : List ℕ) (b : Option (List ℕ)) : Prop :=
  ∀ s : List ℕ, (∀ d ∈ s, d < B) → a < s → (∀ u ∈ b, s < u) →
    (between B hB a b).length ≤ s.length

/-- The bounds part with room for one more digit: a lower bound that ends there needs a next digit
of at least `2`; of two different digits the upper one is not the successor, or it is the last. -/
def Roomy : List ℕ → List ℕ → Prop
  | _, [] => False
  | [], y :: _ => 2 ≤ y
  | x :: xs, y :: ys => if x = y then Roomy xs ys else x + 2 ≤ y ∨ ys = []

theorem length_pos_of_lt {a s : List ℕ} (h : a < s) : 0 < s.length := by
  cases s with
  | nil => exact absurd h (List.not_lt_nil a)
  | cons _ _ => simp

/-- A gap at the first digit: one digit is enough, and less than one is not a bound. -/
theorem shortest_of_gap {a : List ℕ} {b : Option (List ℕ)}
    (hgap : loDigit a < (loDigit a + hiDigit B b) / 2) : Shortest B hB a b := by
  intro s _ hlt _
  rw [between, if_pos hgap]
  exact length_pos_of_lt hlt

/-- When every string between the bounds starts with the lower bound's digit, the walk loses nothing
by keeping it. -/
theorem shortest_step {a : List ℕ} {b : Option (List ℕ)}
    (hgap : ¬ loDigit a < (loDigit a + hiDigit B b) / 2)
    (hstart : ∀ s : List ℕ, (∀ d ∈ s, d < B) → a < s → (∀ u ∈ b, s < u) →
      ∃ t, s = loDigit a :: t ∧ a.tail < t ∧ ∀ u ∈ hiTail B (loDigit a) b, t < u)
    (hrest : Shortest B hB a.tail (hiTail B (loDigit a) b)) : Shortest B hB a b := by
  intro s hs hlt hup
  obtain ⟨t, rfl, hlo, hhi⟩ := hstart s hs hlt hup
  rw [between, if_neg hgap]
  simp only [List.length_cons]
  have hle := hrest t (fun d hd => hs d (List.mem_cons_of_mem _ hd)) hlo hhi
  omega

/-- Without an upper bound the result is always shortest. -/
theorem shortest_none {a : List ℕ} (ha : ∀ d ∈ a, d < B) : Shortest B hB a none := by
  induction a with
  | nil => exact shortest_of_gap (by simp only [loDigit_nil, hiDigit_none]; omega)
  | cons x xs ih =>
      by_cases hgap : x < (x + B) / 2
      · exact shortest_of_gap hgap
      · have hx := ha x (by simp)
        have htail : hiTail B x none = none := hiTail_of_lt hx
        refine shortest_step hgap ?_ ?_
        · intro s hs hlt _
          cases s with
          | nil => cases hlt
          | cons y ys =>
              have hy := hs y (by simp)
              cases hlt with
              | rel hxy => omega
              | cons hxs => exact ⟨ys, rfl, hxs, by simp [htail]⟩
        · simp only [loDigit_cons, List.tail_cons, htail]
          exact ih fun d hd => ha d (List.mem_cons_of_mem _ hd)

/-- Strings between two bounds with a common first digit start with that digit. -/
theorem cons_between {x : ℕ} {xs ys s : List ℕ} (hlo : x :: xs < s) (hhi : s < x :: ys) :
    ∃ t, s = x :: t ∧ xs < t ∧ t < ys := by
  cases hlo with
  | rel hxz =>
      cases hhi with
      | rel hzx => exact absurd hzx (lt_asymm hxz)
      | cons _ => exact absurd hxz (lt_irrefl x)
  | cons hxs =>
      cases hhi with
      | rel hxx => exact absurd hxx (lt_irrefl x)
      | cons hys => exact ⟨_, rfl, hxs, hys⟩

/-- A common first digit changes nothing about the rest. -/
theorem shortest_cons_iff {x : ℕ} {xs ys : List ℕ} (hx : x < B) :
    Shortest B hB (x :: xs) (some (x :: ys)) ↔ Shortest B hB xs (some ys) := by
  have hgap : ¬ x < (x + hiDigit B (some (x :: ys))) / 2 := by
    simp only [hiDigit_cons]
    omega
  have htail : hiTail B x (some (x :: ys)) = some ys := by simp [hiTail]
  constructor
  · intro h s hs hlo hhi
    have hle := h (x :: s) (by simpa [hx] using hs) (List.Lex.cons hlo) (by
      intro u hu
      obtain rfl := Option.some.inj hu
      exact List.Lex.cons (hhi ys rfl))
    rw [between] at hle
    simp only [loDigit_cons, List.tail_cons, if_neg hgap, htail, List.length_cons] at hle
    exact Nat.le_of_succ_le_succ hle
  · intro h
    refine shortest_step hgap ?_ (by simpa [htail] using h)
    intro s _ hlo hhi
    obtain ⟨t, rfl, ht, hu⟩ := cons_between hlo (hhi _ rfl)
    exact ⟨t, rfl, ht, by simpa [htail] using hu⟩

/-- The single digit `[d]` beats every result of two digits and more. -/
theorem not_shortest_of_digit {a : List ℕ} {b : Option (List ℕ)} {d : ℕ}
    (hgap : ¬ loDigit a < (loDigit a + hiDigit B b) / 2) (hd : d < B) (hlo : a < [d])
    (hhi : ∀ u ∈ b, [d] < u) : ¬ Shortest B hB a b := by
  intro h
  have hle := h [d] (by simpa using hd) hlo hhi
  have hpos := List.length_pos_iff.2 (between_ne_nil B hB a.tail (hiTail B (loDigit a) b))
  rw [between, if_neg hgap] at hle
  simp only [List.length_cons, List.length_nil] at hle
  omega

/-- Below a trimmed bound one digit is enough when its first digit is at least `2`.  Otherwise `[0]`
lies below it too. -/
theorem shortest_nil_iff {y : ℕ} {ys : List ℕ} (hy : y < B) (htrimmed : Trimmed (y :: ys)) :
    Shortest B hB [] (some (y :: ys)) ↔ 2 ≤ y := by
  by_cases hy2 : 2 ≤ y
  · refine iff_of_true (shortest_of_gap ?_) hy2
    simp only [loDigit_nil, hiDigit_cons]
    omega
  · refine iff_of_false (not_shortest_of_digit (d := 0) ?_ (by omega) ?_ ?_) hy2
    · simp only [loDigit_nil, hiDigit_cons]
      omega
    · exact List.nil_lt_cons _ _
    · intro v hv
      obtain rfl := Option.some.inj hv
      obtain rfl | hpos := Nat.eq_zero_or_pos y
      · -- `[0]` is a proper prefix of the trimmed bound
        cases ys with
        | nil => exact absurd rfl (trimmed_singleton.1 htrimmed)
        | cons z zs => exact List.Lex.cons (List.nil_lt_cons _ _)
      · exact List.Lex.rel hpos

/-- A string above `x :: xs` and below `[x + 1]` starts with `x`. -/
theorem cons_between_succ {x : ℕ} {xs s : List ℕ} (hlo : x :: xs < s) (hhi : s < [x + 1]) :
    ∃ t, s = x :: t ∧ xs < t := by
  cases hlo with
  | rel hxz =>
      cases hhi with
      | rel hzy => omega
      | cons hnil => exact absurd hnil (List.not_lt_nil _)
  | cons hxs => exact ⟨_, rfl, hxs⟩

/-- Bounds that part at the first digit: one digit between them is enough, and if there is none, the
walk is right to keep the lower one exactly when the upper bound ends there. -/
theorem shortest_parted_iff {x y : ℕ} {xs ys : List ℕ} (hxs : ∀ d ∈ xs, d < B) (hy : y < B)
    (hxy : x < y) : Shortest B hB (x :: xs) (some (y :: ys)) ↔ x + 2 ≤ y ∨ ys = [] := by
  by_cases hy2 : x + 2 ≤ y
  · refine iff_of_true (shortest_of_gap ?_) (Or.inl hy2)
    simp only [loDigit_cons, hiDigit_cons]
    omega
  · obtain rfl : y = x + 1 := by omega
    have hgap : ¬ x < (x + hiDigit B (some ((x + 1) :: ys))) / 2 := by
      simp only [hiDigit_cons]
      omega
    have htail : hiTail B x (some ((x + 1) :: ys)) = none := hiTail_of_lt hxy
    by_cases hys : ys = []
    · subst hys
      refine iff_of_true (shortest_step hgap ?_ ?_) (Or.inr rfl)
      · intro s _ hlo hhi
        obtain ⟨t, rfl, ht⟩ := cons_between_succ hlo (hhi _ rfl)
        exact ⟨t, rfl, ht, by simp [htail]⟩
      · simp only [loDigit_cons, List.tail_cons, htail]
        exact shortest_none hxs
    · -- `[x + 1]` lies between the bounds
      refine iff_of_false (not_shortest_of_digit hgap hy (List.Lex.rel hxy) ?_) (by simp [hys])
      intro v hv
      obtain rfl := Option.some.inj hv
      obtain ⟨z, zs, rfl⟩ := List.exists_cons_of_ne_nil hys
      exact List.Lex.cons (List.nil_lt_cons _ _)

/-- **When the midpoint is shortest.**  Between a lower bound and a greater trimmed upper bound the
result is as short as possible exactly when they are `Roomy`. -/
theorem shortest_some_iff {a u : List ℕ} (h : InOrder B a (some u)) :
    Shortest B hB a (some u) ↔ Roomy a u := by
  induction a generalizing u with
  | nil =>
      cases u with
      | nil => exact absurd (h.lt _ rfl) (List.not_lt_nil _)
      | cons y ys => exact shortest_nil_iff (h.upper _ rfl y (by simp)) (h.trimmed _ rfl)
  | cons x xs ih =>
      cases u with
      | nil => exact absurd (h.lt _ rfl) (List.not_lt_nil _)
      | cons y ys =>
          have hx := h.lower x (by simp)
          obtain hxy | rfl | hyx := lt_trichotomy x y
          · have hxs : ∀ d ∈ xs, d < B := fun d hd => h.lower d (List.mem_cons_of_mem _ hd)
            rw [shortest_parted_iff hxs (h.upper _ rfl y (by simp)) hxy, Roomy, if_neg hxy.ne]
          · have htail : InOrder B xs (some ys) := by
              have hstep := h.tail
              simpa [hiTail] using hstep
            rw [shortest_cons_iff hx, ih htail, Roomy, if_pos rfl]
          · have hlt := h.lt _ rfl
            cases hlt with
            | rel hxy => exact absurd hyx (lt_asymm hxy)
            | cons _ => exact absurd hyx (lt_irrefl x)

/-! ### Growth under insertions -/

/-- Two bounds with nothing of `S` between them, each in `S` or absent (`[]` below, `none` above).
-/
structure AdjacentIn (S : Finset (List ℕ)) (a : List ℕ) (b : Option (List ℕ)) : Prop where
  lower : a = [] ∨ a ∈ S
  upper : ∀ u ∈ b, u ∈ S
  lt : ∀ u ∈ b, a < u
  gap : ∀ c ∈ S, a < c → ¬ ∀ u ∈ b, c < u

/-- The sets of indices that insertions between adjacent bounds produce. -/
inductive Grown (B : ℕ) (hB : 2 ≤ B) : Finset (List ℕ) → Prop
  | empty : Grown B hB ∅
  | insert {S : Finset (List ℕ)} {a : List ℕ} {b : Option (List ℕ)} :
      Grown B hB S → AdjacentIn S a b → Grown B hB (insert (between B hB a b) S)

/-- The digits `d` with `p ++ [d]` in `S`. -/
def level (B : ℕ) (S : Finset (List ℕ)) (p : List ℕ) : Finset ℕ :=
  (Finset.range B).filter fun d => p ++ [d] ∈ S

theorem mem_level {S : Finset (List ℕ)} {p : List ℕ} {d : ℕ} :
    d ∈ level B S p ↔ d < B ∧ p ++ [d] ∈ S := by
  simp [level]

/-- What insertions keep.  An index passes through a digit only when both sides of the gap above
that digit are taken, and the taken digits of a level are spread as in a halving search tree. -/
structure Spread (B : ℕ) (S : Finset (List ℕ)) : Prop where
  trimmed : ∀ c ∈ S, Trimmed c
  digits : ∀ c ∈ S, ∀ d ∈ c, d < B
  inner : ∀ p d t, p ++ d :: t ∈ S → t ≠ [] →
    (d = 0 ∨ d ∈ level B S p) ∧ (d + 1 = B ∨ d + 1 ∈ level B S p)
  spread : ∀ p x y, (x = 0 ∨ x ∈ level B S p) → (y = B ∨ y ∈ level B S p) → x < y →
    B / 2 ^ (level B S p).card ≤ y - x

theorem AdjacentIn.inOrder {S : Finset (List ℕ)} {a : List ℕ} {b : Option (List ℕ)}
    (h : AdjacentIn S a b) (hS : Spread B S) : InOrder B a b where
  lower := by
    intro d hd
    obtain rfl | ha := h.lower
    · cases hd
    · exact hS.digits a ha d hd
  upper := fun u hu => hS.digits u (h.upper u hu)
  trimmed := fun u hu => hS.trimmed u (h.upper u hu)
  lt := h.lt

/-- A digit the lower bound reads as is `0` or taken. -/
theorem LowerAt.taken {S : Finset (List ℕ)} {a p : List ℕ} {x : ℕ} (h : LowerAt a p x)
    (hS : Spread B S) (ha : a = [] ∨ a ∈ S) : x = 0 ∨ x ∈ level B S p := by
  obtain ⟨t, rfl⟩ | ⟨-, hx⟩ := h
  · have hmem : p ++ x :: t ∈ S := by
      obtain hnil | hmem := ha
      · simp at hnil
      · exact hmem
    by_cases ht : t = []
    · subst ht
      exact Or.inr (mem_level.2 ⟨hS.digits _ hmem x (by simp), hmem⟩)
    · exact (hS.inner p x t hmem ht).1
  · exact Or.inl hx

/-- A non-zero digit the upper bound reads as is the base or taken. -/
theorem UpperAt.taken {S : Finset (List ℕ)} {b : Option (List ℕ)} {p : List ℕ} {y : ℕ}
    (h : UpperAt B b p y) (hS : Spread B S) (hb : ∀ u ∈ b, u ∈ S) (hy : y ≠ 0) :
    y = B ∨ y ∈ level B S p := by
  obtain ⟨hy, -⟩ | ⟨t, rfl⟩ := h
  · exact Or.inl hy
  · have hmem := hb _ rfl
    by_cases ht : t = []
    · subst ht
      exact Or.inr (mem_level.2 ⟨hS.digits _ hmem y (by simp), hmem⟩)
    · exact Or.inr ((hS.inner p y t hmem ht).1.resolve_left hy)

theorem level_mono {S T : Finset (List ℕ)} (h : S ⊆ T) (p : List ℕ) :
    level B S p ⊆ level B T p := by
  intro d hd
  obtain ⟨hd, hmem⟩ := mem_level.1 hd
  exact mem_level.2 ⟨hd, h hmem⟩

theorem level_insert_of_ne {S : Finset (List ℕ)} {r p : List ℕ} (h : ∀ m, r ≠ p ++ [m]) :
    level B (insert r S) p = level B S p := by
  ext d
  have hne : p ++ [d] ≠ r := fun heq => h d heq.symm
  simp [mem_level, hne]

theorem level_insert {S : Finset (List ℕ)} {p : List ℕ} {m : ℕ} (hm : m < B) :
    level B (insert (p ++ [m]) S) p = insert m (level B S p) := by
  ext d
  simp only [mem_level, Finset.mem_insert, List.append_cancel_left_eq, List.cons.injEq, and_true]
  constructor
  · intro h
    obtain ⟨hd, rfl | hmem⟩ := h
    · exact Or.inl rfl
    · exact Or.inr ⟨hd, hmem⟩
  · intro h
    obtain rfl | ⟨hd, hmem⟩ := h
    · exact ⟨hm, Or.inl rfl⟩
    · exact ⟨hd, Or.inr hmem⟩

/-- A new index passes through taken digits only. -/
theorem inner_between {S : Finset (List ℕ)} {a : List ℕ} {b : Option (List ℕ)} (hS : Spread B S)
    (h : AdjacentIn S a b) {p t : List ℕ} {d : ℕ} (heq : between B hB a b = p ++ d :: t)
    (ht : t ≠ []) : (d = 0 ∨ d ∈ level B S p) ∧ (d + 1 = B ∨ d + 1 ∈ level B S p) := by
  have hin := h.inOrder hS
  obtain ⟨hlo, y, hup, hdy, hyd⟩ := between_inner ht p hin heq
  refine ⟨hlo.taken hS h.lower, ?_⟩
  obtain rfl | hlt := eq_or_lt_of_le hyd
  · exact hup.taken hS h.upper (by omega)
  · obtain rfl : y = d := by omega
    have hd : y < B := by
      refine between_digits B hB a b hin.lower hin.upper y ?_
      rw [heq]
      simp
    obtain ⟨hy, -⟩ | ⟨t', rfl⟩ := hup
    · omega
    · -- the upper bound goes on below the same digit, since the result is below it
      have ht' : t' ≠ [] := by
        intro hnil
        subst hnil
        have hbelow := between_lt B hB a _ _ rfl (hin.trimmed _ rfl) (hin.lt _ rfl)
        rw [heq] at hbelow
        refine lt_asymm hbelow (List.Lex.append_left _ (List.Lex.cons ?_) p)
        obtain ⟨c, l, rfl⟩ := List.exists_cons_of_ne_nil ht
        exact List.Lex.nil
      exact (hS.inner p y t' (h.upper _ rfl) ht').2

/-- A new last digit halves the gap it falls into. -/
theorem spread_between {S : Finset (List ℕ)} {a : List ℕ} {b : Option (List ℕ)} (hS : Spread B S)
    (h : AdjacentIn S a b) {p : List ℕ} {m : ℕ} (heq : between B hB a b = p ++ [m]) :
    m < B ∧ m ∉ level B S p ∧
      (∀ x, (x = 0 ∨ x ∈ level B S p) → x < m → B / 2 ^ ((level B S p).card + 1) ≤ m - x) ∧
      ∀ y, (y = B ∨ y ∈ level B S p) → m < y → B / 2 ^ ((level B S p).card + 1) ≤ y - m := by
  have hin := h.inOrder hS
  obtain ⟨x₀, y₀, hlo, hup, hm, hx, hy, hyB⟩ := between_last p hin heq
  have hgap : ∀ z ∈ level B S p, z ≤ x₀ ∨ y₀ ≤ z := by
    intro z hz
    by_contra hc
    rw [not_or, not_le, not_le] at hc
    exact h.gap _ (mem_level.1 hz).2 (hlo.lt hc.1) (hup.lt hc.2)
  have hw := hS.spread p x₀ y₀ (hlo.taken hS h.lower) (hup.taken hS h.upper (by omega)) (by omega)
  have hhalf : B / 2 ^ ((level B S p).card + 1) = B / 2 ^ (level B S p).card / 2 := by
    rw [pow_succ, Nat.div_div_eq_div_mul]
  rw [hhalf]
  refine ⟨by omega, ?_, ?_, ?_⟩
  · intro hmem
    have hz := hgap m hmem
    omega
  · intro x hxs hxm
    have hx₀ : x ≤ x₀ := by
      obtain rfl | hmem := hxs
      · exact Nat.zero_le x₀
      · have hz := hgap x hmem
        omega
    omega
  · intro y hys hym
    have hy₀ : y₀ ≤ y := by
      obtain rfl | hmem := hys
      · exact hyB
      · have hz := hgap y hmem
        omega
    omega

theorem spread_empty : Spread B ∅ where
  trimmed := by simp
  digits := by simp
  inner := by simp
  spread := by
    intro p x y hx hy _
    simp only [mem_level, Finset.notMem_empty, and_false, or_false] at hx hy
    subst hx hy
    simp [level]

theorem Spread.insert {S : Finset (List ℕ)} {a : List ℕ} {b : Option (List ℕ)} (hS : Spread B S)
    (h : AdjacentIn S a b) : Spread B (insert (between B hB a b) S) where
  trimmed := by
    intro c hc
    obtain rfl | hc := Finset.mem_insert.1 hc
    · exact between_trimmed B hB a b
    · exact hS.trimmed c hc
  digits := by
    intro c hc
    have hin := h.inOrder hS
    obtain rfl | hc := Finset.mem_insert.1 hc
    · exact between_digits B hB a b hin.lower hin.upper
    · exact hS.digits c hc
  inner := by
    intro p d t hmem ht
    have hsub := level_mono (B := B) (Finset.subset_insert (between B hB a b) S) p
    have hold : (d = 0 ∨ d ∈ level B S p) ∧ (d + 1 = B ∨ d + 1 ∈ level B S p) := by
      obtain heq | hmem := Finset.mem_insert.1 hmem
      · exact inner_between hS h heq.symm ht
      · exact hS.inner p d t hmem ht
    exact ⟨hold.1.imp_right (hsub ·), hold.2.imp_right (hsub ·)⟩
  spread := by
    intro p x y hx hy hxy
    by_cases hlast : ∃ m, between B hB a b = p ++ [m]
    · obtain ⟨m, heq⟩ := hlast
      obtain ⟨hmB, hnew, hbelow, habove⟩ := spread_between hS h heq
      rw [heq, level_insert hmB] at hx hy ⊢
      rw [Finset.card_insert_of_notMem hnew]
      have hx' : x = m ∨ x = 0 ∨ x ∈ level B S p := by
        rw [Finset.mem_insert] at hx
        tauto
      have hy' : y = m ∨ y = B ∨ y ∈ level B S p := by
        rw [Finset.mem_insert] at hy
        tauto
      obtain rfl | hx' := hx'
      · exact habove y (hy'.resolve_left (ne_of_gt hxy)) hxy
      · obtain rfl | hy' := hy'
        · exact hbelow x hx' hxy
        · -- the gap was there before, and its bound has only become weaker
          refine le_trans (Nat.div_le_div_left ?_ (by positivity)) (hS.spread p x y hx' hy' hxy)
          exact Nat.pow_le_pow_right (by omega) (Nat.le_succ _)
    · rw [level_insert_of_ne (not_exists.1 hlast)] at hx hy ⊢
      exact hS.spread p x y hx hy hxy

/-- Every grown set is spread. -/
theorem Grown.spread {S : Finset (List ℕ)} (h : Grown B hB S) : Spread B S := by
  induction h with
  | empty => exact spread_empty
  | insert _ hadj ih => exact ih.insert hadj

/-- A level is complete before an index passes through it. -/
theorem Spread.deep {S : Finset (List ℕ)} (hS : Spread B S) (hB : 2 ≤ B) {p t : List ℕ} {d : ℕ}
    (hmem : p ++ d :: t ∈ S) (ht : t ≠ []) : Nat.log 2 B ≤ (level B S p).card := by
  obtain ⟨hd, hd'⟩ := hS.inner p d t hmem ht
  have hone := hS.spread p d (d + 1) hd hd' (Nat.lt_succ_self d)
  have hpow : B < 2 ^ ((level B S p).card + 1) := by
    rw [Nat.add_sub_cancel_left] at hone
    have hlt := Nat.lt_mul_of_div_lt (Nat.lt_succ_of_le hone) (by positivity)
    rw [pow_succ]
    omega
  exact Nat.lt_succ_iff.1 (Nat.log_lt_of_lt_pow (by omega) hpow)

/-- Below an index every shorter length has a complete level. -/
theorem Spread.card_le {S : Finset (List ℕ)} (hS : Spread B S) (hB : 2 ≤ B) {e : List ℕ}
    (he : e ∈ S) : ∀ j, j < e.length →
      Nat.log 2 B * j ≤ (S.filter fun d => d.length ≤ j).card := by
  intro j
  induction j with
  | zero => intro _; simp
  | succ j ih =>
      intro hj
      have hsplit : e = e.take j ++ e[j] :: e.drop (j + 1) := by
        rw [List.cons_getElem_drop_succ, List.take_append_drop]
      have hlevel : Nat.log 2 B ≤ (level B S (e.take j)).card := by
        rw [hsplit] at he
        refine hS.deep hB he ?_
        rw [← List.length_pos_iff, List.length_drop]
        omega
      have hnew : (level B S (e.take j)).card ≤ (S.filter fun d => d.length = j + 1).card := by
        refine Finset.card_le_card_of_injOn (fun d => e.take j ++ [d]) ?_ ?_
        · intro d hd
          have hlen : min j e.length + 1 = j + 1 := by omega
          simpa [hlen] using (mem_level.1 hd).2
        · intro x _ y _ heq
          simpa using heq
      have hdisj : Disjoint (S.filter fun d => d.length ≤ j)
          (S.filter fun d => d.length = j + 1) := by
        refine Finset.disjoint_filter.2 fun d _ h₁ h₂ => ?_
        omega
      have hunion : (S.filter fun d => d.length ≤ j) ∪ (S.filter fun d => d.length = j + 1) =
          S.filter fun d => d.length ≤ j + 1 := by
        rw [← Finset.filter_or]
        refine Finset.filter_congr fun d _ => ?_
        omega
      have hcard := Finset.card_union_of_disjoint hdisj
      rw [hunion] at hcard
      have hold := ih (by omega)
      rw [Nat.mul_succ]
      omega

/-- **Growth.**  An index of length `L` takes more than `Nat.log 2 B * (L - 1)` insertions. -/
theorem Grown.length_le {S : Finset (List ℕ)} (h : Grown B hB S) {c : List ℕ} (hc : c ∈ S) :
    Nat.log 2 B * (c.length - 1) + 1 ≤ S.card := by
  by_cases hlen : c.length = 0
  · have hpos := Finset.card_pos.2 ⟨c, hc⟩
    simp only [hlen, Nat.zero_sub, Nat.mul_zero]
    omega
  · have hshort := h.spread.card_le hB hc (c.length - 1) (by omega)
    have hlt : (S.filter fun e => e.length ≤ c.length - 1).card < S.card := by
      refine Finset.card_lt_card ⟨Finset.filter_subset _ _, fun hsub => ?_⟩
      have hle := (Finset.mem_filter.1 (hsub hc)).2
      omega
    omega

/-! ### Insertions at the bottom end of the order -/

/-- The `n`-th index below all others: `Nat.log 2 B` halvings at each depth. -/
def descent (B n : ℕ) : List ℕ :=
  List.replicate (n / Nat.log 2 B) 0 ++ [B / 2 ^ (n % Nat.log 2 B + 1)]

theorem between_zeros {d : ℕ} (hd : 2 ≤ d) (q : ℕ) :
    between B hB [] (some (List.replicate q 0 ++ [d])) = List.replicate q 0 ++ [d / 2] := by
  induction q with
  | zero =>
      have hgap : 0 < d / 2 := by omega
      rw [List.replicate_zero, List.nil_append, between]
      simp only [loDigit_nil, hiDigit_cons, Nat.zero_add, if_pos hgap, List.nil_append]
  | succ q ih =>
      rw [List.replicate_succ, List.cons_append, between]
      simp [hiTail, ih]

theorem between_zeros_one (q : ℕ) :
    between B hB [] (some (List.replicate q 0 ++ [1])) = List.replicate (q + 1) 0 ++ [B / 2] := by
  induction q with
  | zero =>
      have hgap : 0 < B / 2 := by omega
      rw [List.replicate_zero, List.nil_append, between]
      simp only [loDigit_nil, hiDigit_cons, List.tail_nil, hiTail, Nat.zero_lt_one, if_true]
      rw [between]
      simp [hgap]
  | succ q ih =>
      rw [List.replicate_succ, List.cons_append, between]
      simp [hiTail, ih, List.replicate_succ]

theorem log_pos (hB : 2 ≤ B) : 0 < Nat.log 2 B := Nat.log_pos (by omega) hB

theorem descent_zero (hB : 2 ≤ B) : descent B 0 = [B / 2] := by
  simp [descent, Nat.mod_eq_of_lt (log_pos hB)]

theorem descent_length (n : ℕ) : (descent B n).length = n / Nat.log 2 B + 1 := by
  simp [descent]

theorem descent_lt (hB : 2 ≤ B) (n : ℕ) : ∀ d ∈ descent B n, d < B := by
  intro d hd
  obtain hd | hd := List.mem_append.1 hd
  · rw [List.eq_of_mem_replicate hd]
    omega
  · rw [List.mem_singleton.1 hd]
    refine Nat.div_lt_self (by omega) ?_
    exact Nat.one_lt_pow (Nat.succ_ne_zero _) (by omega)

/-- The next index below all others. -/
theorem between_descent (n : ℕ) :
    between B hB [] (some (descent B n)) = descent B (n + 1) := by
  have hk := log_pos hB
  have hlt := Nat.mod_lt n hk
  have hpow : 2 ^ Nat.log 2 B ≤ B := Nat.pow_log_le_self 2 (by omega)
  have hn := Nat.mod_add_div n (Nat.log 2 B)
  unfold descent
  by_cases hlast : n % Nat.log 2 B + 1 = Nat.log 2 B
  · -- the level is complete: its last digit is `1`, and the walk goes one deeper
    have hone : B / 2 ^ (n % Nat.log 2 B + 1) = 1 := by
      rw [hlast]
      have hup : B < 2 ^ (Nat.log 2 B + 1) := Nat.lt_pow_succ_log_self (by omega) B
      rw [pow_succ] at hup
      exact Nat.div_eq_of_lt_le (by omega) (by omega)
    obtain ⟨hdiv, hmod⟩ := (Nat.div_mod_unique hk (a := n + 1) (c := 0)
      (d := n / Nat.log 2 B + 1)).2 ⟨by rw [Nat.mul_succ]; omega, hk⟩
    rw [hone, between_zeros_one, hdiv, hmod, Nat.zero_add, pow_one]
  · obtain ⟨hdiv, hmod⟩ := (Nat.div_mod_unique hk (a := n + 1) (c := n % Nat.log 2 B + 1)
      (d := n / Nat.log 2 B)).2 ⟨by omega, by omega⟩
    have htwo : 2 ≤ B / 2 ^ (n % Nat.log 2 B + 1) := by
      rw [Nat.le_div_iff_mul_le (by positivity), ← pow_succ']
      exact le_trans (Nat.pow_le_pow_right (by omega) (by omega)) hpow
    rw [between_zeros htwo, hdiv, hmod, Nat.div_div_eq_div_mul, ← pow_succ]

/-! ### Insertions at the top end of the order -/

/-- The digits of one depth above all others: `B - 1` is reached after so many halvings of what is
left to the base. -/
def levels (B : ℕ) : ℕ := Nat.log 2 (B - 1) + 1

/-- The `n`-th index above all others: `levels B` halvings at each depth. -/
def ascent (B n : ℕ) : List ℕ :=
  List.replicate (n / levels B) (B - 1) ++ [B - 1 - (B - 1) / 2 ^ (n % levels B + 1)]

theorem levels_pos (B : ℕ) : 0 < levels B := Nat.succ_pos _

theorem ascent_lt (hB : 2 ≤ B) (n : ℕ) : ∀ d ∈ ascent B n, d < B := by
  intro d hd
  obtain hd | hd := List.mem_append.1 hd
  · rw [List.eq_of_mem_replicate hd]
    omega
  · rw [List.mem_singleton.1 hd]
    exact lt_of_le_of_lt (Nat.sub_le _ _) (by omega)

/-- Greatest digits are kept. -/
theorem between_tops (q : ℕ) (l : List ℕ) :
    between B hB (List.replicate q (B - 1) ++ l) none =
      List.replicate q (B - 1) ++ between B hB l none := by
  induction q with
  | zero => rfl
  | succ q ih =>
      have hno : ¬B - 1 < (B - 1 + B) / 2 := by omega
      have hopen : hiTail B (B - 1) none = none := hiTail_of_lt (by rw [hiDigit_none]; omega)
      rw [List.replicate_succ, List.cons_append, between]
      simp only [loDigit_cons, hiDigit_none, if_neg hno, List.tail_cons, hopen, ih,
        List.cons_append]

/-- The distance of a digit to `B - 1` is halved. -/
theorem between_digit {q : ℕ} (hq : 0 < q) (hle : q ≤ B - 1) :
    between B hB [B - 1 - q] none = [B - 1 - q / 2] := by
  have hmid : (B - 1 - q + B) / 2 = B - 1 - q / 2 := by omega
  have hgap : B - 1 - q < B - 1 - q / 2 := by omega
  rw [between]
  simp only [loDigit_cons, hiDigit_none, hmid, if_pos hgap]

theorem between_top : between B hB [B - 1] none = [B - 1, B - 1 - (B - 1) / 2] := by
  have hno : ¬B - 1 < (B - 1 + B) / 2 := by omega
  have hopen : hiTail B (B - 1) none = none := hiTail_of_lt (by rw [hiDigit_none]; omega)
  have hgap : 0 < B - 1 - (B - 1) / 2 := by omega
  have hmid : (0 + B) / 2 = B - 1 - (B - 1) / 2 := by omega
  rw [between]
  simp only [loDigit_cons, hiDigit_none, if_neg hno, List.tail_cons, hopen]
  rw [between]
  simp only [loDigit_nil, hiDigit_none, hmid, if_pos hgap]

/-- The next index above all others. -/
theorem between_ascent (n : ℕ) : between B hB (ascent B n) none = ascent B (n + 1) := by
  have hk := levels_pos B
  have hlt := Nat.mod_lt n hk
  have hn := Nat.mod_add_div n (levels B)
  unfold ascent
  rw [between_tops]
  by_cases hlast : n % levels B + 1 = levels B
  · -- the depth is complete: its last digit is `B - 1`, and the walk goes one deeper
    have hzero : (B - 1) / 2 ^ (n % levels B + 1) = 0 := by
      rw [hlast]
      exact Nat.div_eq_of_lt (Nat.lt_pow_succ_log_self (by omega) _)
    obtain ⟨hdiv, hmod⟩ := (Nat.div_mod_unique hk (a := n + 1) (c := 0)
      (d := n / levels B + 1)).2 ⟨by rw [Nat.mul_succ]; omega, hk⟩
    rw [hzero, Nat.sub_zero, between_top, hdiv, hmod, List.replicate_succ', List.append_assoc,
      Nat.zero_add, pow_one]
    rfl
  · obtain ⟨hdiv, hmod⟩ := (Nat.div_mod_unique hk (a := n + 1) (c := n % levels B + 1)
      (d := n / levels B)).2 ⟨by omega, by omega⟩
    have hpow : 2 ^ (n % levels B + 1) ≤ B - 1 := by
      have hle : n % levels B + 1 ≤ Nat.log 2 (B - 1) := by
        have hlevels : levels B = Nat.log 2 (B - 1) + 1 := rfl
        omega
      exact le_trans (Nat.pow_le_pow_right (by omega) hle) (Nat.pow_log_le_self 2 (by omega))
    have hpos : 0 < (B - 1) / 2 ^ (n % levels B + 1) := Nat.div_pos hpow (by positivity)
    rw [between_digit hpos (Nat.div_le_self _ _), hdiv, hmod, Nat.div_div_eq_div_mul, ← pow_succ]

end FractionalIndex
