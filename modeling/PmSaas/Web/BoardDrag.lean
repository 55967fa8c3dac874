import PmSaas.Web.BoardDrop
import Mathlib.Data.List.InsertIdx

/-!
# `board.tsx`: where a dropped card ends up

`onDragEnd` computes the insertion point in the column without the dragged card, and reads a drop
target that is not in that list as the end of the column.

* `displayed_drop` — a card dropped into position `k` of the other cards is displayed there;
* `drag_on_card_iff` — dropped on another card of its column, a card takes that card's index exactly
  when it is dragged upwards; downwards it ends up one place short;
* `drop_in_place_iff` — a drop in place sends nothing exactly when the card is alone in its column;
  otherwise it is a move to the end.
-/

namespace PmSaas

open JsString Table

/-- `arrayMove` of dnd-kit: the element at `source` taken out and put back at `target`. -/
def arrayMove {α : Type*} (l : List α) (source target : ℕ) : List α :=
  match l[source]? with
  | some x => (l.eraseIdx source).insertIdx target x
  | none => l

namespace Board

/-- What is known of `list.sort` with the board's comparison function: it permutes, and where no two
ranks are equal the comparison is consistent, so that the result is in order. -/
structure Sorts (sort : List IssueView → List IssueView) : Prop where
  perm : ∀ l, (sort l).Perm l
  increasing : ∀ l, (l.map IssueView.rank).Nodup → SortBy.Increasing IssueView.rank (sort l)

/-- Issues are cached once each, under the ids `cuid()` generated. -/
structure CardIds (issues : List IssueView) : Prop where
  unique : UniqueKey IssueView.id issues
  generated : ∀ card ∈ issues, cuidFormat card.id = true

/-- The cached issues once `onDragEnd` has run: patched by the mutation, if one is sent. -/
def afterDragEnd (sort : List IssueView → List IssueView) (issues : List IssueView)
    (activeIssueId : JsString) (overTarget : Option JsString) : List IssueView :=
  match onDragEnd sort issues activeIssueId overTarget with
  | some m => m.patch (some issues)
  | none => issues

/-- The displayed order of a column. -/
def displayed (sort : List IssueView → List IssueView) (issues : List IssueView)
    (status : IssueStatus) : List JsString :=
  (byStatus sort issues status).map IssueView.id

/-! ### Columns -/

variable {sort : List IssueView → List IssueView} {issues : List IssueView} {status : IssueStatus}

theorem Sorts.eq_of_increasing (hsort : Sorts sort) {l m : List IssueView}
    (hm : SortBy.Increasing IssueView.rank m) (hp : m.Perm l) : sort l = m := by
  have hnodup : (l.map IssueView.rank).Nodup := by
    rw [← (hp.map IssueView.rank).nodup_iff]
    exact List.pairwise_map.2 (hm.imp fun h => ne_of_lt h)
  have hsorted := SortBy.sortBy_eq (hsort.increasing l hnodup) (hsort.perm l)
  rw [← hsorted]
  exact SortBy.sortBy_eq hm hp

theorem sortBy_sorts : Sorts (SortBy.sortBy IssueView.rank) where
  perm := SortBy.sortBy_perm
  increasing _ := SortBy.increasing_sortBy

theorem byStatus_of_mem (h : status ∈ COLUMNS) :
    byStatus sort issues status = sort (issues.filter (·.status == status)) := if_pos h

theorem mem_COLUMNS_of_card {card : IssueView} (h : card ∈ byStatus sort issues status) :
    status ∈ COLUMNS := by
  unfold byStatus at h
  split at h
  · assumption
  · cases h

theorem CardIds.column (h : CardIds issues) (hperm : ∀ l, (sort l).Perm l) (status : IssueStatus) :
    UniqueKey IssueView.id (byStatus sort issues status) := by
  unfold byStatus
  split
  · have hp := (hperm (issues.filter (·.status == status))).map IssueView.id
    exact hp.nodup_iff.2 (h.unique.sublist (List.filter_sublist.map _))
  · exact List.nodup_nil

/-- A generated id is not a column's. -/
theorem CardIds.not_column (h : CardIds issues) {card : IssueView} (hcard : card ∈ issues) :
    startsWith card.id COL_PREFIX = false := by
  refine Bool.eq_false_iff.2 fun hstart => ?_
  obtain ⟨rest, hrest⟩ := startsWith_iff.1 hstart
  refine colon_notMem_of_cuidFormat (h.generated card hcard) ?_
  rw [← hrest]
  exact List.mem_append_left rest (by decide)

theorem CardIds.statusOf (h : CardIds issues) {card : IssueView} (hcard : card ∈ issues) :
    statusOf issues card.id = some card.status := by
  rw [Board.statusOf, h.unique.find?_iff.2 ⟨hcard, rfl⟩, Option.map_some]

/-- The column without one of its cards. -/
theorem filter_card {pre post : List IssueView} {card : IssueView}
    (h : UniqueKey IssueView.id (pre ++ card :: post)) :
    (pre ++ card :: post).filter (·.id != card.id) = pre ++ post := by
  have hdelete := h.deleteWhere_eq
  simpa [deleteWhere, bne, beq_eq_decide] using hdelete

theorem others_sublist (pre post : List IssueView) (card : IssueView) :
    (pre ++ post).Sublist (pre ++ card :: post) :=
  (List.Sublist.refl pre).append (List.sublist_cons_self card post)

/-- The position of a card among others. -/
theorem findIdx?_card {l : List IssueView} (h : UniqueKey IssueView.id l) {k : ℕ} {card : IssueView}
    (hk : l[k]? = some card) : l.findIdx? (·.id == card.id) = some k := by
  obtain ⟨hlt, hget⟩ := List.getElem?_eq_some_iff.1 hk
  refine List.findIdx?_eq_some_iff_getElem.2 ⟨hlt, by simp [hget], fun j hj => ?_⟩
  have hne : l[j].id ≠ l[k].id :=
    List.pairwise_iff_getElem.1 (List.pairwise_map.1 h) j k (hj.trans hlt) hlt hj
  rw [hget] at hne
  simpa using hne

/-! ### A card put among the others -/

/-- Patching the place of a card into the column patches the column. -/
theorem byStatus_patch (hids : CardIds issues) {card : IssueView} (hcard : card ∈ issues)
    (m : Mutation) (hid : m.id = card.id) (hstatus : m.input.status = card.status) :
    (m.patch (some issues)).filter (·.status == card.status) =
      updateWhere (·.id == card.id) (setPlace (card.status, m.optimisticRank))
        (issues.filter (·.status == card.status)) := by
  rw [Mutation.patch, hid, hstatus, Option.getD_some]
  refine filter_updateWhere_comm fun c hc hp => ?_
  have heq : c = card := hids.unique.eq_of_key_eq hc hcard (beq_iff_eq.1 hp)
  rw [heq]
  rfl

/-- **A card with a rank between two others of its column is displayed between them.** -/
theorem displayed_patch (hsort : Sorts sort) (hids : CardIds issues) {card : IssueView}
    {pre post : List IssueView} (hcolumn : byStatus sort issues card.status = pre ++ card :: post)
    (hranks : SortBy.Increasing IssueView.rank (pre ++ card :: post)) (m : Mutation)
    (hid : m.id = card.id) (hstatus : m.input.status = card.status) {l r : List IssueView}
    (hrest : pre ++ post = l ++ r) (hl : ∀ y ∈ l, y.rank < m.optimisticRank)
    (hr : ∀ y ∈ r, m.optimisticRank < y.rank) :
    displayed sort (m.patch (some issues)) card.status =
      l.map IssueView.id ++ card.id :: r.map IssueView.id := by
  have hmem : card ∈ byStatus sort issues card.status := by simp [hcolumn]
  have hshown := mem_COLUMNS_of_card hmem
  obtain ⟨hcard, -⟩ := mem_byStatus hsort.perm hmem
  have hunique := hids.column hsort.perm card.status
  rw [hcolumn] at hunique
  have hothers := hunique.ne_around
  let placed := setPlace (card.status, m.optimisticRank) card
  have hplaced : updateWhere (·.id == card.id) (setPlace (card.status, m.optimisticRank))
      (pre ++ card :: post) = pre ++ placed :: post := by
    have hsame : ∀ c : List IssueView, (∀ y ∈ c, y ∈ pre ++ post) →
        updateWhere (·.id == card.id) (setPlace (card.status, m.optimisticRank)) c = c :=
      fun c hc => updateWhere_eq_self fun y hy => by simpa using hothers y (hc y hy)
    have hpre := hsame pre fun y hy => List.mem_append_left _ hy
    have hpost := hsame post fun y hy => List.mem_append_right _ hy
    unfold updateWhere at hpre hpost ⊢
    rw [List.map_append, List.map_cons, hpre, hpost]
    simp [placed]
  have hincreasing : SortBy.Increasing IssueView.rank (l ++ placed :: r) := by
    refine SortBy.increasing_insert ?_ hl hr
    rw [← hrest]
    exact hranks.sublist (others_sublist pre post card)
  have hperm : (l ++ placed :: r).Perm
      ((m.patch (some issues)).filter (·.status == card.status)) := by
    have hsorted := hsort.perm (issues.filter (·.status == card.status))
    have hby : byStatus sort issues card.status = _ := byStatus_of_mem hshown
    rw [← hby, hcolumn] at hsorted
    rw [byStatus_patch hids hcard m hid hstatus]
    refine List.perm_middle.trans ?_
    rw [← hrest]
    refine List.perm_middle.symm.trans ?_
    rw [← hplaced]
    exact hsorted.map _
  rw [displayed, byStatus_of_mem hshown, hsort.eq_of_increasing hincreasing hperm, List.map_append,
    List.map_cons]
  rfl

/-! ### `onDragEnd` in the card's own column -/

theorem cardAbove_length (l r : List IssueView) : cardAbove (l ++ r) l.length = l.getLast? := by
  obtain rfl | ⟨init, z, rfl⟩ := List.eq_nil_or_concat l
  · rfl
  · simp [cardAbove]

/-- The other cards of the column, and where the drop target is among them. -/
theorem onDragEnd_at (hperm : ∀ l, (sort l).Perm l) (hids : CardIds issues) {card : IssueView}
    {pre post : List IssueView} (hcolumn : byStatus sort issues card.status = pre ++ card :: post)
    {overId : JsString} (htarget : targetStatus issues overId = some card.status)
    {l r : List IssueView} (hrest : pre ++ post = l ++ r)
    (hat : insertAt (pre ++ post) overId = l.length) :
    onDragEnd sort issues card.id (some overId) =
      Board.drop card.id card.status l.getLast? r.head? := by
  have hunique := hids.column hperm card.status
  rw [hcolumn] at hunique
  have hbelow : (l ++ r)[l.length]? = r.head? := by
    rw [List.getElem?_append_right le_rfl, Nat.sub_self, List.head?_eq_getElem?]
  rw [onDragEnd, Option.bind_some, htarget, Option.bind_some, hcolumn]
  simp only [filter_card hunique, hat]
  rw [hrest, cardAbove_length, hbelow]

/-- A drop on another card goes just before it. -/
theorem insertAt_card (hids : CardIds issues) {card : IssueView} (hcard : card ∈ issues)
    {l r : List IssueView} (hunique : UniqueKey IssueView.id (l ++ card :: r)) :
    insertAt (l ++ card :: r) card.id = l.length := by
  have hfind : (l ++ card :: r).findIdx? (·.id == card.id) = some l.length :=
    findIdx?_card hunique (by simp)
  rw [insertAt, hids.not_column hcard, if_neg Bool.false_ne_true, hfind, Option.getD_some]

theorem targetStatus_card (hids : CardIds issues) {card : IssueView} (hcard : card ∈ issues) :
    targetStatus issues card.id = some card.status := by
  rw [targetStatus, hids.not_column hcard, if_neg Bool.false_ne_true, hids.statusOf hcard]

/-- The ranks on both sides of a gap are bounds that `rankBetween` accepts. -/
theorem gap_bounds {l r : List IssueView} {target : IssueView}
    (hincreasing : SortBy.Increasing IssueView.rank (l ++ target :: r))
    (hwf : ∀ c ∈ l ++ target :: r, WellFormedRank c.rank) :
    Bounds (l.getLast?.map IssueView.rank) (some target.rank) where
  lower := by
    intro x hx
    obtain ⟨c, hc, rfl⟩ := Option.mem_map.1 hx
    exact hwf c (List.mem_append_left _ (List.mem_of_getLast? hc))
  upper := by
    intro y hy
    obtain rfl := Option.some.inj hy
    exact hwf target (by simp)
  sorted := by
    intro x hx y hy
    obtain rfl := Option.some.inj hy
    obtain ⟨c, hc, rfl⟩ := Option.mem_map.1 hx
    exact SortBy.lt_across_gap hincreasing hc rfl

/-- **A drop before another card is displayed there.** -/
theorem displayed_drop (hsort : Sorts sort) (hids : CardIds issues) {card target : IssueView}
    {pre post : List IssueView} (hcolumn : byStatus sort issues card.status = pre ++ card :: post)
    (hranks : SortBy.Increasing IssueView.rank (pre ++ card :: post))
    (hwf : ∀ c ∈ pre ++ card :: post, WellFormedRank c.rank) {l r : List IssueView}
    (hrest : pre ++ post = l ++ target :: r) :
    displayed sort (afterDragEnd sort issues card.id (some target.id)) card.status =
      l.map IssueView.id ++ card.id :: (target :: r).map IssueView.id := by
  have hsub : (l ++ target :: r).Sublist (pre ++ card :: post) :=
    hrest ▸ others_sublist pre post card
  have hincreasing := hranks.sublist hsub
  obtain ⟨hl, hr, -⟩ := List.pairwise_append.1 hincreasing
  have htarget : target ∈ byStatus sort issues card.status := by
    rw [hcolumn]
    exact hsub.subset (by simp)
  obtain ⟨hmem, hstatus⟩ := mem_byStatus hsort.perm htarget
  have hunique : UniqueKey IssueView.id (l ++ target :: r) := by
    have hall := hids.column hsort.perm card.status
    rw [hcolumn] at hall
    exact List.Nodup.sublist (hsub.map _) hall
  have hend := onDragEnd_at hsort.perm hids hcolumn (hstatus ▸ targetStatus_card hids hmem) hrest
    (hrest ▸ insertAt_card hids hmem hunique)
  have hbounds := gap_bounds hincreasing fun c hc => hwf c (hsub.subset hc)
  have hne : l.getLast?.map IssueView.rank ≠ some target.rank :=
    fun heq => lt_irrefl _ (hbounds.sorted target.rank heq target.rank rfl)
  rw [Board.drop, List.head?_cons, Option.map_some, if_neg hne, rankBetween_ok hbounds.sorted]
    at hend
  rw [afterDragEnd, hend]
  refine displayed_patch hsort hids hcolumn hranks _ rfl rfl hrest ?_ ?_
  · exact SortBy.lt_of_getLast? hl fun y hy =>
      lt_rankMid hbounds.lower y.rank (Option.mem_map_of_mem _ hy)
  · exact SortBy.lt_of_head? hr fun y hy => by
      obtain rfl := Option.some.inj hy
      exact rankMid_lt hbounds target.rank rfl

end Board

/-! ### The position of the dragged card -/

theorem exists_split {α : Type*} {l : List α} {k : ℕ} {x : α} (h : l[k]? = some x) :
    ∃ pre post, l = pre ++ x :: post ∧ pre.length = k := by
  obtain ⟨hlt, hget⟩ := List.getElem?_eq_some_iff.1 h
  refine ⟨l.take k, l.drop (k + 1), ?_, List.length_take_of_le hlt.le⟩
  rw [← hget, List.cons_getElem_drop_succ, List.take_append_drop]

theorem insertIdx_length {α : Type*} (l r : List α) (x : α) :
    (l ++ r).insertIdx l.length x = l ++ x :: r := by
  induction l with
  | nil => rfl
  | cons y l ih => simpa using ih

theorem arrayMove_split {α : Type*} (pre post : List α) (x : α) (target : ℕ) :
    arrayMove (pre ++ x :: post) pre.length target = (pre ++ post).insertIdx target x := by
  have hget : (pre ++ x :: post)[pre.length]? = some x := by simp
  have herase : (pre ++ x :: post).eraseIdx pre.length = pre ++ post := by
    rw [List.eraseIdx_append_of_length_le le_rfl, Nat.sub_self]
    rfl
  simp only [arrayMove, hget, herase]

section Drag

variable {sort : List IssueView → List IssueView} {issues : List IssueView} {card target : IssueView}

/-- The preview takes the card out of its column and puts it back at the index of the target. -/
theorem arrayMove_displayed {pre post : List IssueView}
    (hcolumn : Board.byStatus sort issues card.status = pre ++ card :: post) (j : ℕ) :
    arrayMove (Board.displayed sort issues card.status) pre.length j =
      ((pre ++ post).map IssueView.id).insertIdx j card.id := by
  have hsplit := arrayMove_split (pre.map IssueView.id) (post.map IssueView.id) card.id j
  rw [Board.displayed, hcolumn, List.map_append, List.map_cons, List.map_append]
  rwa [List.length_map] at hsplit

/-- Upwards, the target's index is the same without the dragged card. -/
theorem displayed_drag_up (hsort : Board.Sorts sort) (hids : Board.CardIds issues)
    {l mid post : List IssueView}
    (hcolumn : Board.byStatus sort issues card.status = (l ++ target :: mid) ++ card :: post)
    (hranks : SortBy.Increasing IssueView.rank ((l ++ target :: mid) ++ card :: post))
    (hwf : ∀ c ∈ (l ++ target :: mid) ++ card :: post, WellFormedRank c.rank) :
    Board.displayed sort (Board.afterDragEnd sort issues card.id (some target.id)) card.status =
      arrayMove (Board.displayed sort issues card.status) (l ++ target :: mid).length l.length := by
  have hrest : l ++ target :: mid ++ post = l ++ target :: (mid ++ post) := by simp
  have hins := insertIdx_length (l.map IssueView.id) ((target :: (mid ++ post)).map IssueView.id)
    card.id
  rw [List.length_map] at hins
  rw [Board.displayed_drop hsort hids hcolumn hranks hwf hrest, arrayMove_displayed hcolumn, hrest,
    List.map_append, hins]

/-- Downwards, it is one less, and the card stays above the target. -/
theorem displayed_drag_down (hsort : Board.Sorts sort) (hids : Board.CardIds issues)
    {pre mid r : List IssueView}
    (hcolumn : Board.byStatus sort issues card.status = pre ++ card :: (mid ++ target :: r))
    (hranks : SortBy.Increasing IssueView.rank (pre ++ card :: (mid ++ target :: r)))
    (hwf : ∀ c ∈ pre ++ card :: (mid ++ target :: r), WellFormedRank c.rank) :
    Board.displayed sort (Board.afterDragEnd sort issues card.id (some target.id)) card.status ≠
      arrayMove (Board.displayed sort issues card.status) pre.length
        (pre.length + 1 + mid.length) := by
  have hrest : pre ++ (mid ++ target :: r) = (pre ++ mid) ++ target :: r := by simp
  have hbelow : (pre ++ (mid ++ target :: r)).map IssueView.id =
      (pre ++ mid ++ [target]).map IssueView.id ++ r.map IssueView.id := by simp
  have hins := insertIdx_length ((pre ++ mid ++ [target]).map IssueView.id) (r.map IssueView.id)
    card.id
  have hlen : ((pre ++ mid ++ [target]).map IssueView.id).length = pre.length + 1 + mid.length := by
    simp only [List.length_map, List.length_append, List.length_cons, List.length_nil]
    omega
  rw [hlen] at hins
  rw [Board.displayed_drop hsort hids hcolumn hranks hwf hrest, arrayMove_displayed hcolumn, hbelow,
    hins]
  intro heq
  have hid : card.id = target.id ∧ target.id = card.id := by simpa using heq
  have hunique := hids.column hsort.perm card.status
  rw [hcolumn] at hunique
  exact hunique.ne_around target (by simp) hid.2

end Drag

/-- **A drag in a column.**  On a column with increasing well-formed ranks, dropping the card at
index `i` on the card at index `j` displays `arrayMove column i j` exactly for a drag upwards.
Downwards the card is put before the target in the list it was taken out of, one place short of
`j`. -/
theorem drag_on_card_iff {sort : List IssueView → List IssueView} (hsort : Board.Sorts sort)
    {issues : List IssueView} (hids : Board.CardIds issues) {status : IssueStatus} {i j : ℕ}
    {card target : IssueView} (hi : (Board.byStatus sort issues status)[i]? = some card)
    (hj : (Board.byStatus sort issues status)[j]? = some target) (hij : i ≠ j)
    (hranks : SortBy.Increasing IssueView.rank (Board.byStatus sort issues status))
    (hwf : ∀ c ∈ Board.byStatus sort issues status, WellFormedRank c.rank) :
    Board.displayed sort (Board.afterDragEnd sort issues card.id (some target.id)) status =
      arrayMove (Board.displayed sort issues status) i j ↔ j < i := by
  obtain ⟨-, rfl⟩ := mem_byStatus hsort.perm (List.mem_of_getElem? hi)
  obtain ⟨pre, post, hcolumn, rfl⟩ := exists_split hi
  rw [hcolumn] at hj hranks hwf
  obtain hlt | hgt := Nat.lt_or_gt_of_ne hij
  · -- downwards: the target follows the card
    obtain ⟨k, rfl⟩ : ∃ k, j = pre.length + 1 + k := ⟨j - (pre.length + 1), by omega⟩
    have hpost : post[k]? = some target := by
      rw [List.getElem?_append_right (by omega)] at hj
      have hsub : pre.length + 1 + k - pre.length = k + 1 := by omega
      rwa [hsub, List.getElem?_cons_succ] at hj
    obtain ⟨mid, r, rfl, rfl⟩ := exists_split hpost
    exact iff_of_false (displayed_drag_down hsort hids hcolumn hranks hwf) (by omega)
  · -- upwards: the target precedes the card
    have hpre : pre[j]? = some target := by
      rwa [List.getElem?_append_left hgt] at hj
    obtain ⟨l, mid, rfl, rfl⟩ := exists_split hpre
    exact iff_of_true (displayed_drag_up hsort hids hcolumn hranks hwf) hgt

namespace BoardDrag.Samples

open BoardDrop.Samples

/-- Two cards in `TODO`, one in `BACKLOG`. -/
def issues : List IssueView := rows.map issueSelect

def shown (k : ℕ) : IssueView := issueSelect (rows.getD k (issue k .TODO []))

theorem shown_cardIds : Board.CardIds issues := ⟨by decide, by decide⟩

end BoardDrag.Samples

open BoardDrag.Samples in
/-- The second card dropped on the first takes its index. -/
theorem drag_on_card_upwards :
    Board.displayed (SortBy.sortBy IssueView.rank)
        (Board.afterDragEnd (SortBy.sortBy IssueView.rank) issues (shown 1).id (some (shown 0).id))
        .TODO =
      arrayMove (Board.displayed (SortBy.sortBy IssueView.rank) issues .TODO) 1 0 :=
  (drag_on_card_iff Board.sortBy_sorts shown_cardIds (by decide) (by decide) (by decide) (by decide)
    (by decide)).2 (by decide)

open BoardDrag.Samples in
/-- The first card dropped on the second stays the first. -/
theorem drag_on_card_downwards :
    ¬ ∀ (sort : List IssueView → List IssueView), Board.Sorts sort →
      ∀ issues : List IssueView, Board.CardIds issues →
      ∀ (status : IssueStatus) (i j : ℕ) (card target : IssueView),
      (Board.byStatus sort issues status)[i]? = some card →
      (Board.byStatus sort issues status)[j]? = some target → i ≠ j →
      SortBy.Increasing IssueView.rank (Board.byStatus sort issues status) →
      (∀ c ∈ Board.byStatus sort issues status, WellFormedRank c.rank) →
      Board.displayed sort (Board.afterDragEnd sort issues card.id (some target.id)) status =
        arrayMove (Board.displayed sort issues status) i j := by
  intro hall
  have hmove := hall _ Board.sortBy_sorts _ shown_cardIds .TODO 0 1 (shown 0) (shown 1) (by decide)
    (by decide) (by decide) (by decide) (by decide)
  exact absurd hmove (by decide)

/-! ### Drops in place -/

namespace Board

/-- A drop in place: over the dragged card itself, or over its own column while it is the last. -/
inductive DroppedInPlace (sort : List IssueView → List IssueView) (issues : List IssueView)
    (card : IssueView) : JsString → Prop
  | self : DroppedInPlace sort issues card card.id
  | column : (byStatus sort issues card.status).getLast? = some card →
      DroppedInPlace sort issues card (COL_PREFIX ++ card.status.text)

variable {sort : List IssueView → List IssueView} {issues : List IssueView}

/-- The column a drop in place is for. -/
theorem DroppedInPlace.targetStatus {card : IssueView} {overId : JsString}
    (h : DroppedInPlace sort issues card overId) (hids : CardIds issues) (hcard : card ∈ issues)
    (hshown : card.status ∈ COLUMNS) : targetStatus issues overId = some card.status := by
  cases h with
  | self => exact targetStatus_card hids hcard
  | column =>
      have hstart : startsWith (COL_PREFIX ++ card.status.text) COL_PREFIX = true :=
        startsWith_iff.2 (List.prefix_append _ _)
      rw [Board.targetStatus, if_pos hstart, List.drop_left]
      revert hshown
      generalize card.status = status
      revert status
      decide

/-- The dragged card is not among the others, and a column's id is no card's: either way the place
is the end. -/
theorem DroppedInPlace.insertAt {card : IssueView} {overId : JsString}
    (h : DroppedInPlace sort issues card overId) (hids : CardIds issues) (hcard : card ∈ issues)
    {others : List IssueView} (hothers : ∀ c ∈ others, c.id ≠ card.id) :
    insertAt others overId = others.length := by
  cases h with
  | self =>
      have hfind : others.findIdx? (·.id == card.id) = none := by
        rw [List.findIdx?_eq_none_iff]
        intro c hc
        simpa using hothers c hc
      rw [Board.insertAt, hids.not_column hcard, if_neg Bool.false_ne_true, hfind]
      rfl
  | column =>
      exact if_pos (startsWith_iff.2 (List.prefix_append _ _))

end Board

/-- **Drops in place.**  A drop in place sends no move and leaves every column as it is exactly when
the card is alone in its column.  Otherwise the last of the other cards is taken for a new
neighbour, and the card is moved to the end. -/
theorem drop_in_place_iff {sort : List IssueView → List IssueView}
    (hperm : ∀ l, (sort l).Perm l) {issues : List IssueView} (hids : Board.CardIds issues)
    {card : IssueView} (hcard : card ∈ Board.byStatus sort issues card.status) {overId : JsString}
    (h : Board.DroppedInPlace sort issues card overId) :
    (Board.onDragEnd sort issues card.id (some overId) = none ∧
      ∀ status, Board.displayed sort (Board.afterDragEnd sort issues card.id (some overId)) status =
        Board.displayed sort issues status) ↔
      Board.byStatus sort issues card.status = [card] := by
  obtain ⟨hmem, -⟩ := mem_byStatus hperm hcard
  obtain ⟨pre, post, hcolumn⟩ := List.append_of_mem hcard
  have hunique := hids.column hperm card.status
  rw [hcolumn] at hunique
  have hend := Board.onDragEnd_at hperm hids hcolumn
    (h.targetStatus hids hmem (Board.mem_COLUMNS_of_card hcard))
    (List.append_nil (pre ++ post)).symm (h.insertAt hids hmem hunique.ne_around)
  rw [hcolumn]
  constructor
  · intro hnone
    have hdrop := hend.symm.trans hnone.1
    cases hlast : (pre ++ post).getLast? with
    | none =>
        obtain ⟨rfl, rfl⟩ := List.append_eq_nil_iff.1 (List.getLast?_eq_none_iff.1 hlast)
        rfl
    | some last =>
        rw [hlast] at hdrop
        simp [Board.drop, rankBetween_eq] at hdrop
  · intro halone
    obtain ⟨rfl, rfl⟩ : pre = [] ∧ post = [] := by
      have hlen := congrArg List.length halone
      simp only [List.length_append, List.length_cons, List.length_nil] at hlen
      exact ⟨List.length_eq_zero_iff.1 (by omega), List.length_eq_zero_iff.1 (by omega)⟩
    have hnone : Board.onDragEnd sort issues card.id (some overId) = none := hend
    refine ⟨hnone, fun status => ?_⟩
    rw [Board.afterDragEnd, hnone]

open BoardDrag.Samples in
/-- The only card of `BACKLOG`, dropped on itself. -/
theorem drop_in_place_alone :
    Board.onDragEnd (SortBy.sortBy IssueView.rank) issues (shown 2).id (some (shown 2).id) = none ∧
      ∀ status, Board.displayed (SortBy.sortBy IssueView.rank)
          (Board.afterDragEnd (SortBy.sortBy IssueView.rank) issues (shown 2).id
            (some (shown 2).id)) status =
        Board.displayed (SortBy.sortBy IssueView.rank) issues status :=
  (drop_in_place_iff SortBy.sortBy_perm shown_cardIds (by decide) .self).2 (by decide)

open BoardDrag.Samples in
/-- The first of two cards, dropped on itself: it is moved behind the second. -/
theorem drop_in_place_moves :
    ¬ ∀ (sort : List IssueView → List IssueView), (∀ l, (sort l).Perm l) →
      ∀ issues : List IssueView, Board.CardIds issues →
      ∀ card ∈ Board.byStatus sort issues card.status, ∀ overId : JsString,
      Board.DroppedInPlace sort issues card overId →
      Board.onDragEnd sort issues card.id (some overId) = none ∧
        ∀ status,
          Board.displayed sort (Board.afterDragEnd sort issues card.id (some overId)) status =
            Board.displayed sort issues status := by
  intro hall
  obtain ⟨-, horder⟩ := hall (SortBy.sortBy IssueView.rank) SortBy.sortBy_perm _ shown_cardIds
    (shown 0) (by decide) _ .self
  exact absurd (horder .TODO) (by decide)

end PmSaas
