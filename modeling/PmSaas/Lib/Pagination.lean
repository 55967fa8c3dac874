import PmSaas.Lib.SortBy

/-!
# Paging through a listing

A query lists the rows of `l` by a key, and rows with the same key in any order, which may be
another one in the next query.  A page is asked for with the last row of the page before it, and
holds the first rows after that one.

* `walk_const`: queries that agree are paged through row by row;
* `visitsAll_iff`: whatever orders the queries return, every row is visited exactly once, exactly
  when no page ends at a row that shares its key with another row.
-/

namespace Pagination

open SortBy

variable {α ι κ : Type*}

section Walks

variable (id : α → ι)

/-- The pages that are fetched until one is empty, from the `k`-th query on. -/
inductive Walk (fetch : ℕ → Option ι → List α) : ℕ → Option ι → List α → Prop
  | stop {k : ℕ} {cursor : Option ι} (empty : fetch k cursor = []) : Walk fetch k cursor []
  | page {k : ℕ} {cursor : Option ι} {a : α} {visited : List α}
      (last : (fetch k cursor).getLast? = some a)
      (rest : Walk fetch (k + 1) (some (id a)) visited) :
      Walk fetch k cursor (fetch k cursor ++ visited)

variable {id} {fetch fetch' : ℕ → Option ι → List α} {k : ℕ} {cursor : Option ι}
  {visited visited' : List α}

theorem Walk.unique (h : Walk id fetch k cursor visited) (h' : Walk id fetch k cursor visited') :
    visited = visited' := by
  induction h generalizing visited' with
  | stop hempty =>
      cases h' with
      | stop => rfl
      | page hlast => simp [hempty] at hlast
  | page hlast _ ih =>
      cases h' with
      | stop hempty => simp [hempty] at hlast
      | page hlast' hrest' =>
          obtain rfl := Option.some.inj (hlast.symm.trans hlast')
          rw [ih hrest']

/-- A walk sees the queries from its first one on, at the cursors it comes to. -/
theorem Walk.congr {P : Option ι → Prop} (h : Walk id fetch k cursor visited) (hcursor : P cursor)
    (hnext : ∀ j c a, P c → (fetch j c).getLast? = some a → P (some (id a)))
    (hfetch : ∀ j, k ≤ j → ∀ c, P c → fetch j c = fetch' j c) :
    Walk id fetch' k cursor visited := by
  induction h with
  | stop hempty => exact .stop ((hfetch _ le_rfl _ hcursor).symm.trans hempty)
  | @page k cursor a visited hlast _ ih =>
      have hrest := ih (hnext k cursor a hcursor hlast) fun j hj c => hfetch j (by omega) c
      rw [hfetch k le_rfl cursor hcursor] at hlast ⊢
      exact .page hlast hrest

end Walks

section Pages

variable [BEq ι] (id : α → ι)

/-- The rows after the cursor. -/
def after (cursor : Option ι) (rows : List α) : List α :=
  match cursor with
  | none => rows
  | some c => (rows.dropWhile (id · != c)).drop 1

/-- The page of the `k`-th query. -/
def page (limit : ℕ) (order : ℕ → List α) (k : ℕ) (cursor : Option ι) : List α :=
  (after id cursor (order k)).take limit

variable {id} [LawfulBEq ι] {pre suf rows : List α}

/-- The rows after the last one of a prefix. -/
theorem after_prefix (pre suf : List α) (h : ((pre ++ suf).map id).Nodup) :
    after id (pre.getLast?.map id) (pre ++ suf) = suf := by
  obtain rfl | ⟨init, a, rfl⟩ := List.eq_nil_or_concat pre
  · rfl
  · have hinit : ∀ b ∈ init, (id b != id a) = true := by
      intro b hb
      rw [List.concat_eq_append, List.append_assoc, List.map_append, List.nodup_append] at h
      have hne := h.2.2 (id b) (List.mem_map_of_mem hb) (id a) (by simp)
      simpa using hne
    rw [List.concat_eq_append, List.getLast?_concat, Option.map_some, after, List.append_assoc,
      List.dropWhile_append_of_pos hinit]
    simp

variable (id) in
omit [LawfulBEq ι] in
theorem after_suffix (cursor : Option ι) (rows : List α) : after id cursor rows <:+ rows := by
  cases cursor with
  | none => exact List.suffix_rfl
  | some c => exact (List.drop_suffix ..).trans (List.dropWhile_suffix _)

/-- The next page begins where the page ends. -/
theorem after_page (h : (rows.map id).Nodup) {cursor : Option ι} {limit : ℕ} {a : α}
    (hlast : ((after id cursor rows).take limit).getLast? = some a) :
    after id (some (id a)) rows = (after id cursor rows).drop limit := by
  obtain ⟨pre, hpre⟩ := after_suffix id cursor rows
  generalize after id cursor rows = suf at hlast hpre
  have hrows : rows = (pre ++ suf.take limit) ++ suf.drop limit := by
    rw [List.append_assoc, List.take_append_drop, hpre]
  have hcursor : (pre ++ suf.take limit).getLast?.map id = some (id a) := by
    rw [List.getLast?_append, hlast]
    rfl
  rw [← hcursor, hrows]
  rw [hrows] at h
  exact after_prefix _ _ h

omit [BEq ι] [LawfulBEq ι] in
theorem split_page (pre suf : List α) (limit : ℕ) :
    pre ++ suf = (pre ++ suf.take limit) ++ suf.drop limit := by
  rw [List.append_assoc, List.take_append_drop]

omit [BEq ι] [LawfulBEq ι] in
theorem getLast?_append_take (pre : List α) {limit : ℕ} {a : α}
    (hlast : (suf.take limit).getLast? = some a) :
    (pre ++ suf.take limit).getLast? = some a := by
  rw [List.getLast?_append, hlast]
  rfl

omit [BEq ι] [LawfulBEq ι] in
/-- A page is empty when nothing is left. -/
theorem getLast?_take_eq_none {limit : ℕ} (hlimit : 1 ≤ limit)
    (hlast : (suf.take limit).getLast? = none) : suf = [] := by
  rw [List.getLast?_eq_none_iff, List.take_eq_nil_iff] at hlast
  exact hlast.resolve_left (by omega)

omit [BEq ι] [LawfulBEq ι] in
theorem length_drop_lt {limit : ℕ} (hlimit : 1 ≤ limit) (hne : suf ≠ []) :
    (suf.drop limit).length < suf.length := by
  have hpos := List.length_pos_iff.2 hne
  rw [List.length_drop]
  omega

/-- **Queries that agree are paged through.** -/
theorem walk_const {limit : ℕ} (hlimit : 1 ≤ limit) {order : ℕ → List α} {k : ℕ}
    (horder : ∀ j, k ≤ j → order j = pre ++ suf) (h : ((pre ++ suf).map id).Nodup) :
    Walk id (page id limit order) k (pre.getLast?.map id) suf := by
  induction hn : suf.length using Nat.strong_induction_on generalizing pre suf k with
  | h n ih =>
      have hpage : page id limit order k (pre.getLast?.map id) = suf.take limit := by
        rw [page, horder k le_rfl, after_prefix _ _ h]
      cases hlast : (suf.take limit).getLast? with
      | none =>
          obtain rfl := getLast?_take_eq_none hlimit hlast
          exact .stop (by simpa using hpage)
      | some a =>
          have hsplit := split_page pre suf limit
          have hne : suf ≠ [] := by
            rintro rfl
            simp at hlast
          have hrest : Walk id (page id limit order) (k + 1)
              ((pre ++ suf.take limit).getLast?.map id) (suf.drop limit) :=
            ih (suf.drop limit).length (hn ▸ length_drop_lt hlimit hne)
              (fun j hj => (horder j (by omega)).trans hsplit) (hsplit ▸ h) rfl
          rw [getLast?_append_take pre hlast] at hrest
          have hwalk := Walk.page (by rw [hpage]; exact hlast) hrest
          rwa [hpage, List.take_append_drop] at hwalk

end Pages

/-! ### Queries that disagree on equal keys -/

section Arrangements

variable [LinearOrder κ] (key : α → κ)

/-- An order in which a query may return the rows. -/
structure Arrangement (l o : List α) : Prop where
  perm : o.Perm l
  sorted : o.Pairwise fun a b => key a ≤ key b

/-- A query that returns the rows in the order of a key; those with equal keys come as they may. -/
structure OrderBy where
  rows : List α → List α
  arranged : ∀ l, Arrangement key l (rows l)

/-- The row shares its key with no other one. -/
def UniqueIn (l : List α) (x : α) : Prop := ∀ y ∈ l, key y = key x → y = x

variable {key} {l o s pre suf : List α}

theorem arrangement_sortBy (l : List α) : Arrangement key l (sortBy key l) :=
  ⟨sortBy_perm l, sortBy_pairwise l⟩

instance : Inhabited (OrderBy key) := ⟨⟨sortBy key, arrangement_sortBy⟩⟩

theorem Arrangement.map_key_eq (h : Arrangement key l o) (h' : Arrangement key l s) :
    o.map key = s.map key :=
  List.Perm.eq_of_pairwise (fun _ _ _ _ hab hba => le_antisymm hab hba)
    (List.pairwise_map.2 h.sorted) (List.pairwise_map.2 h'.sorted)
    ((h.perm.trans h'.perm.symm).map key)

/-- What comes after a row with a key of its own are the rows with greater keys. -/
theorem filter_gt_eq {x : α} (h : Arrangement key l (pre ++ x :: suf)) (hnodup : l.Nodup)
    (hx : UniqueIn key l x) : (pre ++ x :: suf).filter (key x < key ·) = suf := by
  have hne : x ∉ pre ++ suf := by
    have hperm : (x :: (pre ++ suf)).Nodup :=
      (List.perm_middle.symm.trans h.perm).nodup_iff.2 hnodup
    exact (List.nodup_cons.1 hperm).1
  have hother : ∀ y ∈ pre ++ suf, key y ≠ key x := by
    intro y hy hkey
    have hyl : y ∈ l := h.perm.subset (by
      rw [List.mem_append] at hy ⊢
      exact hy.imp_right (List.mem_cons_of_mem _))
    exact hne (hx y hyl hkey ▸ hy)
  obtain ⟨-, hsuf, hpre⟩ := List.pairwise_append.1 h.sorted
  rw [List.filter_append, List.filter_cons_of_neg (by simp),
    List.filter_eq_nil_iff.2, List.filter_eq_self.2, List.nil_append]
  · intro y hy
    have hle := (List.pairwise_cons.1 hsuf).1 y hy
    exact decide_eq_true (lt_of_le_of_ne hle (hother y (by simp [hy])).symm)
  · intro y hy
    have hle := hpre y hy x List.mem_cons_self
    simpa using hle

variable [BEq ι] [LawfulBEq ι] {id : α → ι}

/-- After a row with a key of its own come the same rows in every arrangement. -/
theorem after_perm (hs : Arrangement key l (pre ++ suf)) (ho : Arrangement key l o)
    (hids : (l.map id).Nodup) (hlast : ∀ x ∈ pre.getLast?, UniqueIn key l x) :
    (after id (pre.getLast?.map id) o).Perm suf := by
  obtain rfl | ⟨init, x, rfl⟩ := List.eq_nil_or_concat pre
  · exact ho.perm.trans hs.perm.symm
  · have hx := hlast x (by simp)
    have hnodup := hids.of_map
    have hs : Arrangement key l (init ++ x :: suf) := by simpa using hs
    have hmem : x ∈ o := ho.perm.symm.subset (hs.perm.subset (by simp))
    obtain ⟨o₁, o₂, rfl⟩ := List.append_of_mem hmem
    have hafter : after id (some (id x)) (o₁ ++ x :: o₂) = o₂ := by
      have hcut : o₁ ++ x :: o₂ = (o₁ ++ [x]) ++ o₂ := by simp
      have hoids : ((o₁ ++ x :: o₂).map id).Nodup := (ho.perm.map id).nodup_iff.2 hids
      have hprefix := after_prefix (o₁ ++ [x]) o₂ (hcut ▸ hoids)
      rwa [List.getLast?_concat, ← hcut] at hprefix
    rw [List.concat_eq_append, List.getLast?_concat, Option.map_some, hafter,
      ← filter_gt_eq hs hnodup hx]
    nth_rewrite 1 [← filter_gt_eq ho hnodup hx]
    exact (ho.perm.trans hs.perm.symm).filter _

variable (id) in
/-- Every row is visited exactly once, and the walk ends. -/
def VisitsAll (limit : ℕ) (l : List α) (order : ℕ → List α) : Prop :=
  ∃ visited, Walk id (page id limit order) 0 none visited ∧ visited.Perm l

/-- The place of a last row of a page: every `limit`-th one, and the last one. -/
def PageEnd (limit n p : ℕ) : Prop := limit ∣ p + 1 ∨ p + 1 = n

instance (limit n p : ℕ) : Decidable (PageEnd limit n p) := inferInstanceAs (Decidable (_ ∨ _))

variable (key) in
/-- No page of the listing ends at a row that shares its key with another one. -/
def EndsUnique (limit : ℕ) (l s : List α) : Prop :=
  ∀ p x, s[p]? = some x → PageEnd limit s.length p → UniqueIn key l x

/-- The last row of the next page of a listing. -/
theorem getElem?_last (pre : List α) {limit : ℕ} {a : α}
    (hlast : (suf.take limit).getLast? = some a) :
    (pre ++ suf)[pre.length + (suf.take limit).length - 1]? = some a ∧
      1 ≤ (suf.take limit).length := by
  have hpos : 1 ≤ (suf.take limit).length := by
    rw [Nat.one_le_iff_ne_zero, ne_eq, List.length_eq_zero_iff]
    intro hnil
    simp [hnil] at hlast
  refine ⟨?_, hpos⟩
  rw [List.getLast?_eq_getElem?, List.getElem?_take_of_lt (by
    rw [List.length_take] at hpos ⊢; omega)] at hlast
  rw [List.getElem?_append_right (by omega), ← hlast]
  congr 1
  omega

/-- The place of that row ends a page. -/
theorem pageEnd_last {limit : ℕ} (hdvd : limit ∣ pre.length) (hpos : 1 ≤ (suf.take limit).length) :
    PageEnd limit (pre ++ suf).length (pre.length + (suf.take limit).length - 1) := by
  rw [List.length_take] at *
  rw [PageEnd, List.length_append]
  obtain hle | hlt := Nat.le_total limit suf.length
  · left
    rw [Nat.min_eq_left hle, Nat.sub_add_cancel (by omega)]
    exact Nat.dvd_add hdvd (Nat.dvd_refl limit)
  · right
    rw [Nat.min_eq_right hlt]
    omega

/-- What is left after a page begins at a page end again, or is nothing. -/
theorem dvd_next {limit : ℕ} (hdvd : limit ∣ pre.length) :
    limit ∣ (pre ++ suf.take limit).length ∨ suf.drop limit = [] := by
  obtain hle | hlt := Nat.le_total limit suf.length
  · left
    rw [List.length_append, List.length_take, Nat.min_eq_left hle]
    exact Nat.dvd_add hdvd (Nat.dvd_refl limit)
  · exact .inr (List.drop_eq_nil_of_le hlt)

/-- **If no page ends at a shared key, the rest of the rows is visited**, whatever the queries
return. -/
theorem visits_rest {limit : ℕ} (hlimit : 1 ≤ limit) (hids : (l.map id).Nodup)
    {order : ℕ → List α} (horder : ∀ k, Arrangement key l (order k))
    (hs : Arrangement key l (pre ++ suf)) (hends : EndsUnique key limit l (pre ++ suf))
    (hlast : ∀ x ∈ pre.getLast?, UniqueIn key l x) (hdvd : limit ∣ pre.length ∨ suf = []) (k : ℕ) :
    ∃ visited, Walk id (page id limit order) k (pre.getLast?.map id) visited ∧
      visited.Perm suf := by
  induction hn : suf.length using Nat.strong_induction_on generalizing pre suf k with
  | h n ih =>
      have hperm := after_perm hs (horder k) hids hlast
      have hoids : ((order k).map id).Nodup := ((horder k).perm.map id).nodup_iff.2 hids
      have hsub := (after_suffix id (pre.getLast?.map id) (order k)).sublist
      have hnext : ∀ y, ((after id (pre.getLast?.map id) (order k)).take limit).getLast? = some y →
          after id (some (id y)) (order k) =
            (after id (pre.getLast?.map id) (order k)).drop limit := fun _ => after_page hoids
      have hpage : page id limit order k (pre.getLast?.map id) =
          (after id (pre.getLast?.map id) (order k)).take limit := rfl
      generalize after id (pre.getLast?.map id) (order k) = osuf at hperm hsub hnext hpage
      cases hy : (osuf.take limit).getLast? with
      | none =>
          obtain rfl := getLast?_take_eq_none hlimit hy
          exact ⟨[], .stop (by simpa using hpage), hperm⟩
      | some y =>
          -- the last row of the page has the key of the last row of the page of the listing
          have hkeys : osuf.map key = suf.map key :=
            Arrangement.map_key_eq ⟨hperm, (horder k).sorted.sublist hsub⟩
              ⟨.refl suf, hs.sorted.sublist (List.sublist_append_right ..)⟩
          have hlastkey : ((suf.take limit).getLast?).map key = some (key y) := by
            rw [← List.getLast?_map, List.map_take, ← hkeys, ← List.map_take, List.getLast?_map, hy]
            rfl
          obtain ⟨x, hx, hxy⟩ := Option.map_eq_some_iff.1 hlastkey
          obtain ⟨hplace, hpos⟩ := getElem?_last pre hx
          have hne : suf ≠ [] := by
            rintro rfl
            simp at hx
          have hdvd' := hdvd.resolve_right hne
          have hunique := hends _ x hplace (pageEnd_last hdvd' hpos)
          have hyl : y ∈ l := (horder k).perm.subset
            (hsub.subset (List.mem_of_mem_take (List.mem_of_getLast? hy)))
          obtain rfl := hunique y hyl hxy.symm
          have hsplit := split_page pre suf limit
          have hcursor := getLast?_append_take pre hx
          have hnewlast : ∀ x ∈ (pre ++ suf.take limit).getLast?, UniqueIn key l x := by
            intro x hx'
            obtain rfl := Option.some.inj (hcursor.symm.trans hx')
            exact hunique
          obtain ⟨visited, hwalk, hvisited⟩ := ih (suf.drop limit).length
            (hn ▸ length_drop_lt hlimit hne) (hsplit ▸ hs) (hsplit ▸ hends) hnewlast
            (dvd_next hdvd') (k + 1) rfl
          have hrest := after_perm (hsplit ▸ hs) (horder k) hids hnewlast
          rw [hcursor, Option.map_some] at hwalk hrest
          rw [hnext y hy] at hrest
          refine ⟨osuf.take limit ++ visited, hpage ▸ .page (by rw [hpage]; exact hy) hwalk, ?_⟩
          calc (osuf.take limit ++ visited).Perm (osuf.take limit ++ osuf.drop limit) :=
                (hvisited.trans hrest.symm).append_left _
            _ = osuf := List.take_append_drop ..
            List.Perm _ suf := hperm

/-! ### A page that ends at a shared key -/

/-- Two rows with the same key trade places. -/
theorem Arrangement.swap [DecidableEq α] (hs : Arrangement key l s) (hnodup : l.Nodup) {x y : α}
    (hx : x ∈ l) (hy : y ∈ l) (hkey : key y = key x) :
    Arrangement key l (s.map (Equiv.swap x y)) := by
  have hkeys : ∀ z, key (Equiv.swap x y z) = key z := by
    intro z
    rw [Equiv.swap_apply_def]
    split_ifs with hzx hzy
    · rw [hzx, hkey]
    · rw [hzy, hkey]
    · rfl
  constructor
  · have hsnodup := hs.perm.nodup_iff.2 hnodup
    have hmem : ∀ z ∈ s, Equiv.swap x y z ∈ s := by
      intro z hz
      rw [Equiv.swap_apply_def]
      split_ifs
      · exact hs.perm.symm.subset hy
      · exact hs.perm.symm.subset hx
      · exact hz
    refine ((List.perm_ext_iff_of_nodup (hsnodup.map (Equiv.injective _)) hsnodup).2
      fun z => ⟨?_, fun hz => ?_⟩).trans hs.perm
    · intro hz
      obtain ⟨w, hw, rfl⟩ := List.mem_map.1 hz
      exact hmem w hw
    · exact List.mem_map.2 ⟨_, hmem z hz, Equiv.swap_apply_self ..⟩
  · rw [List.pairwise_map]
    exact hs.sorted.imp fun h => by rwa [hkeys, hkeys]

/-- The first place from `pre` on at which a page ends is the last one of the first page. -/
theorem pageEnd_eq {limit p : ℕ} (hdvd : limit ∣ pre.length) (hp : pre.length ≤ p)
    (hfirst : p < pre.length + (suf.take limit).length)
    (hend : PageEnd limit (pre ++ suf).length p) :
    p = pre.length + (suf.take limit).length - 1 := by
  rw [List.length_take] at hfirst ⊢
  rw [PageEnd, List.length_append] at hend
  obtain hmult | htotal := hend
  · have hmult' : limit ∣ p + 1 - pre.length := Nat.dvd_sub hmult hdvd
    have hle := Nat.le_of_dvd (by omega) hmult'
    omega
  · omega

/-- If the rest of the rows is visited whatever the queries return, so is what is left after the
first page of the listing. -/
theorem visits_next {limit : ℕ} (hids : ((pre ++ suf).map id).Nodup)
    (hs : Arrangement key l (pre ++ suf)) {z : α} (hz : (suf.take limit).getLast? = some z) {k : ℕ}
    (hall : ∀ order : ℕ → List α, (∀ j, Arrangement key l (order j)) →
      ∃ visited, Walk id (page id limit order) k (pre.getLast?.map id) visited ∧
        visited.Perm suf)
    {later : ℕ → List α} (hlater : ∀ j, Arrangement key l (later j)) :
    ∃ visited, Walk id (page id limit later) (k + 1) (some (id z)) visited ∧
      visited.Perm (suf.drop limit) := by
  -- the first query returns the listing, and the others what they are said to
  obtain ⟨visited, hwalk, hperm⟩ := hall (fun j => if j ≤ k then pre ++ suf else later j)
    fun j => by
      split
      · exact hs
      · exact hlater j
  have hpage : page id limit (fun j => if j ≤ k then pre ++ suf else later j) k
      (pre.getLast?.map id) = suf.take limit := by
    rw [page, if_pos le_rfl, after_prefix _ _ hids]
  cases hwalk with
  | stop hempty =>
      rw [← hpage, hempty] at hz
      cases hz
  | page hlast hrest =>
      rw [hpage] at hlast hperm
      obtain rfl := Option.some.inj (hz.symm.trans hlast)
      refine ⟨_, hrest.congr (P := fun _ => True) trivial (fun _ _ _ _ _ => trivial)
        fun j hj c _ => ?_, ?_⟩
      · rw [page, page, if_neg (by omega)]
      · rwa [← List.perm_append_left_iff (suf.take limit), List.take_append_drop]

/-- With `x` and `y` exchanged, the queries go on after `x` where the listing has `y`. -/
theorem eq_of_visits_swap [DecidableEq α] {limit : ℕ} (hlimit : 1 ≤ limit)
    (hids : (l.map id).Nodup) {x y : α} (hs : Arrangement key l (pre ++ x :: suf)) (hy : y ∈ l)
    (hkey : key y = key x) {k : ℕ} {visited : List α}
    (hwalk : Walk id (page id limit fun _ => (pre ++ x :: suf).map (Equiv.swap x y)) k
      (some (id x)) visited) (hperm : visited.Perm suf) : y = x := by
  have hswap := hs.swap hids.of_map (hs.perm.subset (by simp)) hy hkey
  obtain ⟨t₁, t₂, hcut⟩ := List.append_of_mem (hs.perm.symm.subset hy)
  have hswapped : (pre ++ x :: suf).map (Equiv.swap x y) =
      (t₁.map (Equiv.swap x y) ++ [x]) ++ t₂.map (Equiv.swap x y) := by
    rw [hcut]
    simp
  have hconst : Walk id (page id limit fun _ => (pre ++ x :: suf).map (Equiv.swap x y)) k
      ((t₁.map (Equiv.swap x y) ++ [x]).getLast?.map id) (t₂.map (Equiv.swap x y)) :=
    walk_const hlimit (fun _ _ => hswapped) (hswapped ▸ (hswap.perm.map id).nodup_iff.2 hids)
  rw [List.getLast?_concat, Option.map_some] at hconst
  have hlen := hperm.length_eq
  rw [hwalk.unique hconst, List.length_map] at hlen
  exact (List.cons.inj (List.append_inj_right' hcut (by simp [hlen]))).1.symm

/-- **Only if no page ends at a shared key is the rest of the rows always visited.**  Where a page
ends at `x` and `y` has the same key, the listing with `x` and `y` exchanged, returned by all later
queries, goes on at another place. -/
theorem ends_unique {limit : ℕ} (hlimit : 1 ≤ limit) (hids : (l.map id).Nodup)
    (hs : Arrangement key l (pre ++ suf)) (hdvd : limit ∣ pre.length ∨ suf = []) {k : ℕ}
    (hall : ∀ order : ℕ → List α, (∀ j, Arrangement key l (order j)) →
      ∃ visited, Walk id (page id limit order) k (pre.getLast?.map id) visited ∧
        visited.Perm suf) :
    ∀ p x, (pre ++ suf)[p]? = some x → pre.length ≤ p → PageEnd limit (pre ++ suf).length p →
      UniqueIn key l x := by
  classical
  induction hn : suf.length using Nat.strong_induction_on generalizing pre suf k with
  | h n ih =>
      intro p x hx hp hend
      have hids' : ((pre ++ suf).map id).Nodup := (hs.perm.map id).nodup_iff.2 hids
      have hne : suf ≠ [] := by
        rintro rfl
        have hlt := (List.getElem?_eq_some_iff.1 hx).1
        rw [List.append_nil] at hlt
        omega
      have hdvd' := hdvd.resolve_right hne
      obtain ⟨z, hz⟩ : ∃ z, (suf.take limit).getLast? = some z :=
        Option.ne_none_iff_exists'.1 fun hnone => hne (getLast?_take_eq_none hlimit hnone)
      have hsplit := split_page pre suf limit
      obtain hfirst | hlater := Nat.lt_or_ge p (pre.length + (suf.take limit).length)
      · -- the first page ends at `x`
        rw [pageEnd_eq hdvd' hp hfirst hend, (getElem?_last pre hz).1] at hx
        obtain rfl := Option.some.inj hx
        obtain ⟨init, hinit⟩ := List.getLast?_eq_some_iff.1 hz
        have hcut : pre ++ suf = (pre ++ init) ++ z :: suf.drop limit := by
          rw [hsplit, hinit]
          simp
        intro y hy hkey
        have hswap := hs.swap hids.of_map (hs.perm.subset (by simp [hcut])) hy hkey
        obtain ⟨visited, hwalk, hperm⟩ := visits_next hids' hs hz hall fun _ => hswap
        exact eq_of_visits_swap hlimit hids (hcut ▸ hs) hy hkey (hcut ▸ hwalk) hperm
      · refine ih (suf.drop limit).length (hn ▸ length_drop_lt hlimit hne) (hsplit ▸ hs)
          (dvd_next hdvd') (k := k + 1) ?_ rfl p x (hsplit ▸ hx) ?_ (hsplit ▸ hend)
        · rw [getLast?_append_take pre hz]
          exact fun later => visits_next hids' hs hz hall
        · rwa [List.length_append]

/-- **When paging visits every row exactly once**: whatever orders the queries return, if and only
if no page of the listing ends at a row that shares its key with another one. -/
theorem visitsAll_iff {limit : ℕ} (hlimit : 1 ≤ limit) (hids : (l.map id).Nodup) :
    (∀ order : ℕ → List α, (∀ k, Arrangement key l (order k)) → VisitsAll id limit l order) ↔
      EndsUnique key limit l (sortBy key l) := by
  have hs : Arrangement key l ([] ++ sortBy key l) := arrangement_sortBy l
  constructor
  · intro hall p x hx hend
    refine ends_unique hlimit hids hs (.inl ⟨0, rfl⟩) (k := 0) (fun order horder => ?_) p x hx
      (Nat.zero_le p) hend
    obtain ⟨visited, hwalk, hperm⟩ := hall order horder
    exact ⟨visited, hwalk, hperm.trans (sortBy_perm l).symm⟩
  · intro hends order horder
    obtain ⟨visited, hwalk, hperm⟩ :=
      visits_rest hlimit hids horder hs hends nofun (.inl ⟨0, rfl⟩) 0
    exact ⟨visited, hwalk, hperm.trans (sortBy_perm l)⟩

end Arrangements

end Pagination
