import PmSaas.Lib.FractionalLength
import PmSaas.Lib.SortBy
import PmSaas.Types.Rank

/-!
# The length of ranks

`rank.ts` promises short keys: "we emit the shortest midpoint".  The lengths are those of the digit
lists of `FractionalIndex`, so both results here are its two results at base 62, where a level of
digits lasts for five halvings.

* `rankBetween_shortest_iff` — the result is a shortest string between its bounds exactly when these
  leave room where they part;
* `longest_rank` — after `n` insertions the longest rank has at most `1 + (n - 1) / 5` characters,
  and inserting at the top always gets there;
* `rankMid_appendedRank` — the ranks of issues that are appended.
-/

namespace PmSaas

open FractionalIndex

/-! ### Ranks and digit lists -/

theorem digit_digitAt {i : ℕ} (h : i < BASE) : digit (digitAt i) = i :=
  digitAt_inj (digit_lt _) h (digitAt_digit (digitAt_mem h))

theorem map_digitAt_digit {l : List ℕ} (h : ∀ d ∈ l, d < BASE) :
    (l.map digitAt).map digit = l := by
  rw [List.map_map]
  exact (List.map_congr_left fun d hd => digit_digitAt (h d hd)).trans (List.map_id l)

/-- The digits of a lower bound, `null` counting as empty. -/
def lowerDigits (a : Option JsString) : List ℕ := (a.getD []).map digit

/-- The digits of an upper bound. -/
def upperDigits (b : Option JsString) : Option (List ℕ) := b.map (List.map digit)

theorem ceilingFrom_zero (b : Option JsString) : ceilingFrom b b.isNone 0 = upperDigits b := by
  cases b with
  | none => rfl
  | some y => simp [ceilingFrom, upperDigits, digitsFrom]

theorem Bounds.inOrder {a b : Option JsString} (h : Bounds a b) :
    InOrder BASE (lowerDigits a) (upperDigits b) where
  lower := by
    intro d hd
    obtain ⟨c, -, rfl⟩ := List.mem_map.1 hd
    exact digit_lt c
  upper := by
    intro u hu d hd
    obtain ⟨y, -, rfl⟩ := Option.mem_map.1 hu
    obtain ⟨c, -, rfl⟩ := List.mem_map.1 hd
    exact digit_lt c
  trimmed := by
    intro u hu
    rw [← ceilingFrom_zero] at hu
    exact (h.ceiling u hu).1
  lt := by
    intro u hu
    rw [← ceilingFrom_zero] at hu
    have hlt := (h.ceiling u hu).2
    rwa [digitsFrom_zero] at hlt

theorem rankMid_eq (a b : Option JsString) :
    rankMid a b = (between BASE two_le_BASE (lowerDigits a) (upperDigits b)).map digitAt := by
  rw [rankMid, digitsFrom_zero, ceilingFrom_zero]
  rfl

theorem rankMid_digits {a b : Option JsString} (h : Bounds a b) :
    (rankMid a b).map digit = between BASE two_le_BASE (lowerDigits a) (upperDigits b) := by
  rw [rankMid_eq]
  exact map_digitAt_digit (between_digits _ _ _ _ h.inOrder.lower h.inOrder.upper)

theorem rankMid_length (a b : Option JsString) :
    (rankMid a b).length =
      (between BASE two_le_BASE (lowerDigits a) (upperDigits b)).length := by
  rw [rankMid_eq, List.length_map]

/-! ### The shortest midpoint -/

/-- `rankBetween` returns a rank, and no non-empty string of digits strictly between the bounds is
shorter. -/
def EmitsShortest (a b : Option JsString) : Prop :=
  ∃ r, rankBetween a b = .ok r ∧ ∀ s : JsString, s ≠ [] → (∀ c ∈ s, c ∈ DIGITS) →
    (∀ x ∈ a, x < s) → (∀ y ∈ b, s < y) → r.length ≤ s.length

/-- The bounds leave room where they part: there is no upper bound; or the lower one ends there and
the upper one goes on with a digit of at least `2`; or their first different digits are not
adjacent, or the upper bound ends with its own. -/
def LeaveRoom (a b : Option JsString) : Prop :=
  ∀ y ∈ b, Roomy (lowerDigits a) (y.map digit)

/-- A string is above a lower bound when its digits are. -/
theorem lowerDigits_lt_iff {a : Option JsString} {s : JsString}
    (ha : ∀ x ∈ a, WellFormedRank x) (hs : ∀ c ∈ s, c ∈ DIGITS) :
    lowerDigits a < s.map digit ↔ s ≠ [] ∧ ∀ x ∈ a, x < s := by
  constructor
  · intro h
    refine ⟨?_, ?_⟩
    · intro hnil
      subst hnil
      exact List.not_lt_nil _ h
    · intro x hx
      obtain rfl : a = some x := hx
      have henc := map_digitAt_lt (m := s.map digit) ?_ h
      · rwa [lowerDigits, Option.getD_some, map_digit_digitAt (ha x rfl).digits,
          map_digit_digitAt hs] at henc
      · intro d hd
        obtain ⟨c, -, rfl⟩ := List.mem_map.1 hd
        exact digit_lt c
  · intro h
    obtain ⟨hne, hlt⟩ := h
    cases a with
    | none =>
        obtain ⟨c, l, rfl⟩ := List.exists_cons_of_ne_nil hne
        exact List.nil_lt_cons _ _
    | some x => exact map_digit_lt (ha x rfl).digits hs (hlt x rfl)

theorem lt_upperDigits_iff {b : Option JsString} {s : JsString}
    (hb : ∀ y ∈ b, WellFormedRank y) (hs : ∀ c ∈ s, c ∈ DIGITS) :
    (∀ u ∈ upperDigits b, s.map digit < u) ↔ ∀ y ∈ b, s < y := by
  cases b with
  | none => simp [upperDigits]
  | some y =>
      have hy := (hb y rfl).digits
      simp only [upperDigits, Option.map_some, Option.mem_some_iff, forall_eq']
      constructor
      · intro h
        have henc := map_digitAt_lt (m := y.map digit) ?_ h
        · rwa [map_digit_digitAt hs, map_digit_digitAt hy] at henc
        · intro d hd
          obtain ⟨c, -, rfl⟩ := List.mem_map.1 hd
          exact digit_lt c
      · exact map_digit_lt hs hy

theorem emitsShortest_iff {a b : Option JsString} (h : Bounds a b) :
    EmitsShortest a b ↔ Shortest BASE two_le_BASE (lowerDigits a) (upperDigits b) := by
  constructor
  · intro hs s hd hlo hhi
    obtain ⟨r, hr, hmin⟩ := hs
    rw [rankBetween_ok h.sorted] at hr
    obtain rfl := Except.ok.inj hr
    have henc : (s.map digitAt).map digit = s := map_digitAt_digit hd
    have hdig : ∀ c ∈ s.map digitAt, c ∈ DIGITS := by
      intro c hc
      obtain ⟨d, hds, rfl⟩ := List.mem_map.1 hc
      exact digitAt_mem (hd d hds)
    rw [← henc] at hlo hhi
    obtain ⟨hne, hlt⟩ := (lowerDigits_lt_iff h.lower hdig).1 hlo
    have hle := hmin _ hne hdig hlt ((lt_upperDigits_iff h.upper hdig).1 hhi)
    rwa [rankMid_length, List.length_map] at hle
  · intro hs
    refine ⟨rankMid a b, rankBetween_ok h.sorted, fun s hne hd hlo hhi => ?_⟩
    have hle := hs (s.map digit) ?_ ((lowerDigits_lt_iff h.lower hd).2 ⟨hne, hlo⟩)
      ((lt_upperDigits_iff h.upper hd).2 hhi)
    · rwa [rankMid_length, ← List.length_map digit]
    · intro d hds
      obtain ⟨c, -, rfl⟩ := List.mem_map.1 hds
      exact digit_lt c

/-- **When the midpoint is the shortest.**  For well-formed bounds in order, `rankBetween` emits a
shortest string between them exactly when they leave room where they part. -/
theorem rankBetween_shortest_iff (a b : Option JsString) (h : Bounds a b) :
    EmitsShortest a b ↔ LeaveRoom a b := by
  rw [emitsShortest_iff h]
  cases b with
  | none => exact iff_of_true (shortest_none h.inOrder.lower) (by simp [LeaveRoom])
  | some y => simpa [LeaveRoom, upperDigits] using shortest_some_iff h.inOrder

/-- Between `A` and `C` one digit is enough, and one is emitted. -/
theorem rankBetween_shortest_gap :
    EmitsShortest (some (js "A")) (some (js "C")) :=
  (rankBetween_shortest_iff _ _
    ⟨by rintro _ ⟨⟩; decide, by rintro _ ⟨⟩; decide, by rintro _ ⟨⟩ _ ⟨⟩; decide⟩).2
    (by rintro _ ⟨⟩; exact Or.inl (by decide))

/-- Between `A` and `BV` lies `B`, but the walk keeps the `A` and emits `AV`. -/
theorem rankBetween_not_shortest :
    ¬ ∀ a b : Option JsString, Bounds a b → EmitsShortest a b := by
  intro hall
  have hbounds : Bounds (some (js "A")) (some (js "BV")) :=
    ⟨by rintro _ ⟨⟩; decide, by rintro _ ⟨⟩; decide, by rintro _ ⟨⟩ _ ⟨⟩; decide⟩
  obtain ⟨r, hr, hmin⟩ := hall _ _ hbounds
  have hrun : rankBetween (some (js "A")) (some (js "BV")) = .ok (js "AV") := by decide
  obtain rfl := Except.ok.inj (hr.symm.trans hrun)
  have hB : WellFormedRank (js "B") := by decide
  have hle := hmin (js "B") hB.ne_nil hB.digits (by rintro _ ⟨⟩; decide) (by rintro _ ⟨⟩; decide)
  exact absurd hle (by decide)

/-! ### Growth of a column -/

/-- The columns that `n` insertions into an empty column produce, without removals: the first rank
is `firstRank`, each later one lies between two adjacent ranks, `null` standing for an end. -/
inductive InsertedColumn : ℕ → List JsString → Prop
  | first : InsertedColumn 1 [firstRank]
  | insert {n : ℕ} {above below : List JsString} {r : JsString} :
      InsertedColumn n (above ++ below) → rankBetween above.getLast? below.head? = .ok r →
      InsertedColumn (n + 1) (above ++ r :: below)

theorem InsertedColumn.length_eq {n : ℕ} {column : List JsString} (h : InsertedColumn n column) :
    column.length = n := by
  induction h with
  | first => rfl
  | insert _ _ ih =>
      simp only [List.length_append, List.length_cons] at ih ⊢
      omega

/-- The length of the longest rank. -/
def longest (column : List JsString) : ℕ := (column.map List.length).foldr max 0

theorem longest_le {column : List JsString} {L : ℕ} :
    longest column ≤ L ↔ ∀ r ∈ column, r.length ≤ L := by
  induction column with
  | nil => simp [longest]
  | cons r column ih => simpa [longest] using fun _ => ih

/-- The digit lists of a column. -/
def columnDigits (column : List JsString) : Finset (List ℕ) :=
  (column.map (List.map digit)).toFinset

theorem mem_columnDigits {column : List JsString} {c : List ℕ} :
    c ∈ columnDigits column ↔ ∃ r ∈ column, r.map digit = c := by
  simp [columnDigits]

theorem columnDigits_card (column : List JsString) :
    (columnDigits column).card ≤ column.length := by
  have hle := List.toFinset_card_le (column.map (List.map digit))
  rwa [List.length_map] at hle

/-- What insertions keep of a column: its ranks are well formed and increasing, and their digit
lists have grown by insertions between adjacent ones. -/
structure RankedColumn (column : List JsString) : Prop where
  wellFormed : ∀ r ∈ column, WellFormedRank r
  sorted : SortBy.Increasing (fun r : JsString => r) column
  grown : Grown BASE two_le_BASE (columnDigits column)

/-- The neighbours of a position are bounds `rankBetween` accepts. -/
theorem RankedColumn.bounds {above below : List JsString} (h : RankedColumn (above ++ below)) :
    Bounds above.getLast? below.head? where
  lower := fun x hx => h.wellFormed x (List.mem_append_left _ (List.mem_of_getLast? hx))
  upper := fun y hy => h.wellFormed y (List.mem_append_right _ (List.mem_of_mem_head? hy))
  sorted := fun _ hx _ hy => SortBy.lt_across_gap h.sorted hx hy

/-- Nothing of a column lies between the neighbours of a position. -/
theorem RankedColumn.adjacent {above below : List JsString} (h : RankedColumn (above ++ below)) :
    AdjacentIn (columnDigits (above ++ below)) (lowerDigits above.getLast?)
      (upperDigits below.head?) where
  lower := by
    cases hlast : above.getLast? with
    | none => exact Or.inl rfl
    | some x =>
        have hx := List.mem_append_left below (List.mem_of_getLast? hlast)
        exact Or.inr (mem_columnDigits.2 ⟨x, hx, rfl⟩)
  upper := by
    intro u hu
    obtain ⟨y, hy, rfl⟩ := Option.mem_map.1 hu
    exact mem_columnDigits.2 ⟨y, List.mem_append_right _ (List.mem_of_mem_head? hy), rfl⟩
  lt := h.bounds.inOrder.lt
  gap := by
    intro c hc hlo hhi
    obtain ⟨s, hs, rfl⟩ := mem_columnDigits.1 hc
    have hd := (h.wellFormed s hs).digits
    obtain ⟨-, hlo⟩ := (lowerDigits_lt_iff h.bounds.lower hd).1 hlo
    have hhi := (lt_upperDigits_iff h.bounds.upper hd).1 hhi
    obtain ⟨h₁, h₂, -⟩ := List.pairwise_append.1 h.sorted
    obtain hs | hs := List.mem_append.1 hs
    · exact lt_irrefl s (SortBy.lt_of_getLast? h₁ hlo s hs)
    · exact lt_irrefl s (SortBy.lt_of_head? h₂ hhi s hs)

theorem RankedColumn.insert {above below : List JsString} (h : RankedColumn (above ++ below)) :
    RankedColumn (above ++ rankMid above.getLast? below.head? :: below) where
  wellFormed := by
    intro r hr
    obtain hr | hr := List.mem_append.1 hr
    · exact h.wellFormed r (List.mem_append_left _ hr)
    · obtain rfl | hr := List.mem_cons.1 hr
      · exact rankMid_wellFormed
      · exact h.wellFormed r (List.mem_append_right _ hr)
  sorted := by
    obtain ⟨h₁, h₂, -⟩ := List.pairwise_append.1 h.sorted
    refine SortBy.increasing_insert h.sorted ?_ ?_
    · exact SortBy.lt_of_getLast? h₁ (lt_rankMid h.bounds.lower)
    · exact SortBy.lt_of_head? h₂ (rankMid_lt h.bounds)
  grown := by
    have hset : columnDigits (above ++ rankMid above.getLast? below.head? :: below) =
        Insert.insert (between BASE two_le_BASE (lowerDigits above.getLast?)
          (upperDigits below.head?)) (columnDigits (above ++ below)) := by
      rw [← rankMid_digits h.bounds]
      ext c
      simp only [mem_columnDigits, Finset.mem_insert, List.mem_append, List.mem_cons]
      grind
    rw [hset]
    exact h.grown.insert h.adjacent

theorem rankedColumn_first : RankedColumn [firstRank] where
  wellFormed := by
    intro r hr
    obtain rfl := List.mem_singleton.1 hr
    exact firstRank_wellFormed
  sorted := List.pairwise_singleton _ _
  grown := by
    have hadj : AdjacentIn ∅ [] none := ⟨Or.inl rfl, by simp, by simp, by simp⟩
    have hfirst : columnDigits [firstRank] =
        Insert.insert (between BASE two_le_BASE [] none) ∅ := by
      have hgap : loDigit [] < (loDigit [] + hiDigit BASE none) / 2 := by decide
      rw [between, if_pos hgap]
      decide
    rw [hfirst]
    exact Grown.empty.insert hadj

theorem InsertedColumn.ranked {n : ℕ} {column : List JsString} (h : InsertedColumn n column) :
    RankedColumn column := by
  induction h with
  | first => exact rankedColumn_first
  | insert _ hr ih =>
      rw [rankBetween_ok ih.bounds.sorted] at hr
      obtain rfl := Except.ok.inj hr
      exact ih.insert

theorem log_BASE : Nat.log 2 BASE = 5 := by
  rw [BASE_eq]
  exact (Nat.log_eq_iff (by omega)).2 ⟨by decide, by decide⟩

theorem InsertedColumn.longest_le {n : ℕ} {column : List JsString} (h : InsertedColumn n column) :
    longest column ≤ 1 + (n - 1) / 5 := by
  refine PmSaas.longest_le.2 fun r hr => ?_
  have hlen := h.ranked.grown.length_le (mem_columnDigits.2 ⟨r, hr, rfl⟩)
  have hcard := columnDigits_card column
  rw [log_BASE, List.length_map] at hlen
  rw [h.length_eq] at hcard
  omega

/-- The column after `n` insertions, all at its top. -/
def insertedAtTop : ℕ → Except RankError (List JsString)
  | 0 => .ok []
  | 1 => .ok [firstRank]
  | n + 2 => do
      let column ← insertedAtTop (n + 1)
      let r ← rankBetween none column.head?
      return r :: column

theorem insertedAtTop_spec (n : ℕ) :
    ∃ column, insertedAtTop (n + 1) = .ok column ∧ InsertedColumn (n + 1) column ∧
      column.head? = some ((descent BASE n).map digitAt) := by
  induction n with
  | zero =>
      refine ⟨[firstRank], rfl, .first, ?_⟩
      rw [descent_zero two_le_BASE]
      rfl
  | succ n ih =>
      obtain ⟨column, hrun, hins, hhead⟩ := ih
      have hr : rankBetween none column.head? = .ok (rankMid none column.head?) :=
        rankBetween_ok (by simp)
      refine ⟨rankMid none column.head? :: column, ?_, ?_, ?_⟩
      · rw [insertedAtTop, hrun]
        change (rankBetween none column.head? >>= fun r => pure (r :: column)) = _
        rw [hr]
        rfl
      · exact @InsertedColumn.insert (n + 1) [] column _ hins hr
      · have hlast : column.head?.map (List.map digit) = some (descent BASE n) := by
          rw [hhead, Option.map_some, map_digitAt_digit (descent_lt two_le_BASE n)]
        rw [List.head?_cons, rankMid_eq, upperDigits, hlast]
        exact congrArg (fun l => some (l.map digitAt)) (between_descent n)

/-- **The length of ranks.**  After `n` insertions into an empty column, at any positions, no rank
is longer than `1 + (n - 1) / 5`; inserting at the top every time gets there.  No insertion
throws. -/
theorem longest_rank (n : ℕ) (hn : 1 ≤ n) :
    (∀ column, InsertedColumn n column → longest column ≤ 1 + (n - 1) / 5) ∧
    (∃ column, insertedAtTop n = .ok column ∧ InsertedColumn n column ∧
      longest column = 1 + (n - 1) / 5) ∧
    ∀ above below, InsertedColumn n (above ++ below) →
      ∃ r, rankBetween above.getLast? below.head? = .ok r := by
  refine ⟨fun column h => h.longest_le, ?_, ?_⟩
  · obtain ⟨n, rfl⟩ : ∃ m, n = m + 1 := ⟨n - 1, by omega⟩
    obtain ⟨column, hrun, hins, hhead⟩ := insertedAtTop_spec n
    refine ⟨column, hrun, hins, le_antisymm hins.longest_le ?_⟩
    have hmem := List.mem_of_mem_head? hhead
    have hle := longest_le.1 le_rfl _ hmem
    rw [List.length_map, descent_length, log_BASE] at hle
    omega
  · intro above below h
    exact ⟨_, rankBetween_ok h.ranked.bounds.sorted⟩

/-- Six insertions: the sixth at the top is the first rank of two characters. -/
theorem longest_rank_six :
    (∀ column, InsertedColumn 6 column → longest column ≤ 2) ∧
    (∃ column, insertedAtTop 6 = .ok column ∧ InsertedColumn 6 column ∧ longest column = 2) ∧
    ∀ above below, InsertedColumn 6 (above ++ below) →
      ∃ r, rankBetween above.getLast? below.head? = .ok r :=
  longest_rank 6 (by decide)

example : insertedAtTop 3 = .ok [js "7", js "F", js "V"] := by decide

/-! ### Issues that are appended -/

/-- The rank of the `j`-th issue appended to a column, from `0`. -/
def appendedRank (j : ℕ) : JsString :=
  List.replicate (j / 6) 122 ++ [(js "Vkswyz").getD (j % 6) 0]

theorem levels_BASE : levels BASE = 6 := by
  have hlog : Nat.log 2 (BASE - 1) = 5 := by
    rw [BASE_eq]
    exact (Nat.log_eq_iff (by omega)).2 ⟨by decide, by decide⟩
  rw [levels, hlog]

theorem appendedRank_eq (j : ℕ) : appendedRank j = (ascent BASE j).map digitAt := by
  have hlast : ∀ k < 6, (js "Vkswyz").getD k 0 = digitAt (BASE - 1 - (BASE - 1) / 2 ^ (k + 1)) := by
    decide
  rw [appendedRank, ascent, levels_BASE, hlast _ (Nat.mod_lt j (by omega)), List.map_append,
    List.map_replicate]
  rfl

theorem appendedRank_zero : appendedRank 0 = firstRank := by decide

theorem appendedRank_length (j : ℕ) : (appendedRank j).length = 1 + j / 6 := by
  rw [appendedRank, List.length_append, List.length_replicate, List.length_singleton, Nat.add_comm]

/-- The next rank of a column. -/
theorem rankMid_appendedRank (j : ℕ) :
    rankMid (some (appendedRank j)) none = appendedRank (j + 1) := by
  rw [rankMid_eq, lowerDigits, Option.getD_some, appendedRank_eq,
    map_digitAt_digit (ascent_lt two_le_BASE j), appendedRank_eq]
  exact congrArg (List.map digitAt) (between_ascent j)

theorem appendedRank_wellFormed (j : ℕ) : WellFormedRank (appendedRank j) := by
  cases j with
  | zero =>
      rw [appendedRank_zero]
      exact firstRank_wellFormed
  | succ j =>
      rw [← rankMid_appendedRank]
      exact rankMid_wellFormed

theorem appendedRank_strictMono : StrictMono appendedRank := by
  refine strictMono_nat_of_lt_succ fun j => ?_
  have hlower : ∀ x ∈ some (appendedRank j), WellFormedRank x := by
    rintro _ ⟨⟩
    exact appendedRank_wellFormed j
  rw [← rankMid_appendedRank]
  exact lt_rankMid hlower _ rfl

end PmSaas
