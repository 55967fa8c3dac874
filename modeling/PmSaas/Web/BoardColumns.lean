import PmSaas.Issues.ListPages
import PmSaas.Lib.ComparisonSort
import PmSaas.Web.BoardDrag
import PmSaas.Web.OptimisticRollback

/-!
# The columns of `board.tsx` and the order of the cached list

`byStatus` sorts each column with a comparator that never returns 0, so two cards with equal ranks
stand in the order in which the cached list has them.  That order depends on the events and the
refetches of this page, and another page may have another one.

* `BoardCache`: the query cache after fetches, mutations, rollbacks and socket events in any order;
* `columns_agree_iff`: every order of the list gives the same columns exactly when no two cards of
  a column have equal ranks.
-/

namespace PmSaas

open Snapshot SortBy Table

/-! ### The lists in the cache -/

/-- The query cache of one list of issues, and what the mutations have kept of it. -/
inductive BoardCache : IssueCache → Prop
  | empty : BoardCache ⟨none, fun _ => none⟩
  | fetch {c : IssueCache} {ilike : JsString → JsString → Bool}
      {organizationId projectKey : JsString} {w : World} {rows : List IssueView}
      (cache : BoardCache c) (ids : UniqueKey Issue.id w.db.issues)
      (answer : (IssuesService.list ilike organizationId projectKey { limit := 100 } w).1 =
        .ok rows) :
      BoardCache { c with data := some (rows.map fun issue => ⟨issue, none⟩) }
  | step {c : IssueCache} (cache : BoardCache c) (step : CacheStep) :
      BoardCache (c.next [] step.action)

theorem paged_sublist (cursor : Option JsString) (limit : ℕ) (rows : List Issue) :
    (paged cursor limit rows).Sublist rows := by
  unfold paged
  split
  · exact List.take_sublist ..
  · exact (List.take_sublist ..).trans
      ((List.drop_sublist ..).trans (List.dropWhile_sublist _))

/-- `GET` answers with each issue once. -/
theorem uniqueKey_of_list {ilike : JsString → JsString → Bool}
    {organizationId projectKey : JsString} {filter : IssueFilter} {w : World}
    {rows : List IssueView} (hids : UniqueKey Issue.id w.db.issues)
    (h : (IssuesService.list ilike organizationId projectKey filter w).1 = .ok rows) :
    UniqueKey IssueView.id rows := by
  rw [IssuesService.list_apply] at h
  cases hproject : w.db.findProject organizationId projectKey with
  | none =>
      rw [hproject] at h
      cases h
  | some project =>
      rw [hproject] at h
      obtain rfl := Except.ok.inj h
      rw [UniqueKey, List.map_map]
      have hselected : UniqueKey Issue.id (sortBy Issue.boardKey (w.db.issues.filter fun i =>
          i.organizationId == organizationId && i.projectId == project.id &&
            filter.selects ilike i)) :=
        ((sortBy_perm _).map Issue.id).nodup_iff.2 (hids.sublist (List.filter_sublist.map Issue.id))
      exact hselected.sublist ((paged_sublist ..).map Issue.id)

abbrev CachedIssue.id (i : CachedIssue) : JsString := i.issue.id

theorem CacheStep.keeps_uniqueKey (step : CacheStep) :
    step.action.Keeps (UniqueKey CachedIssue.id) := by
  cases step with
  | start mutation call =>
      intro l hl
      cases call with
      | move m => exact hl.update fun _ _ _ => rfl
      | update id input => exact hl.update fun _ _ _ => rfl
      | delete id => exact hl.sublist (List.filter_sublist.map CachedIssue.id)
  | fail mutation => trivial
  | succeed mutation => trivial
  | receive event =>
      intro l hl
      have hviews : UniqueKey IssueView.id (l.map CachedIssue.issue) := by
        rw [UniqueKey, List.map_map]
        exact hl
      have hpatched := patch_uniqueKey event hviews
      rw [← cachedPatch_issues, UniqueKey, List.map_map] at hpatched
      exact hpatched

/-- **An issue is cached once.** -/
theorem BoardCache.uniqueKey {c : IssueCache} (h : BoardCache c) :
    c.All (UniqueKey CachedIssue.id) := by
  induction h with
  | empty => exact ⟨fun l hl => (by cases hl), fun m l hl => (by cases hl)⟩
  | fetch cache ids answer ih =>
      refine ⟨fun l hl => ?_, ih.saved⟩
      obtain rfl := Option.some.inj hl
      rw [UniqueKey, List.map_map]
      exact uniqueKey_of_list ids answer
  | step cache step ih =>
      exact ih.next (show UniqueKey CachedIssue.id [] from List.nodup_nil) step.keeps_uniqueKey

/-! ### The columns -/

namespace Board

/-- The comparator of `byStatus`. -/
def compareRanks (a b : IssueView) : ℤ := if a.rank < b.rank then -1 else 1

theorem compareRanks_eq : compareRanks = before IssueView.rank := by
  funext a b
  by_cases hlt : a.rank < b.rank
  · rw [compareRanks, before, if_pos hlt, if_pos hlt]
  · rw [compareRanks, before, if_neg hlt, if_neg hlt]

section Columns

variable (sort : (IssueView → IssueView → ℤ) → List IssueView → List IssueView)
  (issues : List IssueView)

/-- Every order of the list gives the same columns, and each card with a shown status is once in
the column of its status and in no other. -/
structure ColumnsAgree : Prop where
  order : ∀ issues', issues'.Perm issues →
    byStatus (sort compareRanks) issues' = byStatus (sort compareRanks) issues
  cards : ∀ card ∈ issues, card.status ∈ COLUMNS → ∀ status,
    (byStatus (sort compareRanks) issues status).filter (·.id == card.id) =
      if card.status = status then [card] else []

/-- No two cards of a shown column have equal ranks. -/
def RanksDiffer : Prop :=
  ∀ a ∈ issues, ∀ b ∈ issues, a.status = b.status → a.status ∈ COLUMNS → a.rank = b.rank → a = b

variable {sort issues} {status : IssueStatus}

/-- A card is once in its column. -/
theorem filter_byStatus (hsort : ComparisonSort JsString sort)
    (hids : UniqueKey IssueView.id issues) {card : IssueView} (hcard : card ∈ issues)
    (hshown : card.status ∈ COLUMNS) :
    (byStatus (sort compareRanks) issues status).filter (·.id == card.id) =
      if card.status = status then [card] else [] := by
  have hself : issues.filter (·.id == card.id) = [card] := hids.filter_eq hcard
  by_cases hstatus : card.status = status
  · subst hstatus
    rw [if_pos rfl, byStatus_of_mem hshown]
    have hperm := (hsort.perm compareRanks (issues.filter (·.status == card.status))).filter
      (·.id == card.id)
    rw [List.filter_comm, hself, List.filter_singleton, beq_self_eq_true] at hperm
    exact List.perm_singleton.1 hperm
  · rw [if_neg hstatus, List.filter_eq_nil_iff]
    intro c hc hid
    obtain ⟨hmem, hcstatus⟩ := mem_byStatus (hsort.perm compareRanks) hc
    have hsame : c = card := hids.eq_of_key_eq hmem hcard (beq_iff_eq.1 hid)
    exact hstatus (hsame ▸ hcstatus)

/-- The list with the cards of one column moved to its front. -/
theorem perm_of_column {l' : List IssueView} (h : l'.Perm (issues.filter (·.status == status))) :
    ∃ issues' : List IssueView, issues'.Perm issues ∧ issues'.filter (·.status == status) = l' := by
  refine ⟨l' ++ issues.filter fun i => !(i.status == status), ?_, ?_⟩
  · exact (h.append_right _).trans (List.filter_append_perm _ _)
  · have hcolumn : ∀ i ∈ l', (i.status == status) = true := fun i hi =>
      (List.mem_filter.1 (h.mem_iff.1 hi)).2
    have hrest :
        (issues.filter fun i => !(i.status == status)).filter (·.status == status) = [] := by
      refine List.filter_eq_nil_iff.2 fun i hi hin => ?_
      have hout := (List.mem_filter.1 hi).2
      rw [hin] at hout
      cases hout
    rw [List.filter_append, hrest, List.append_nil]
    exact List.filter_eq_self.2 hcolumn

/-- **One column keeps its order exactly when its ranks differ.** -/
theorem byStatus_perm_iff (hsort : ComparisonSort JsString sort)
    (hids : UniqueKey IssueView.id issues) (hshown : status ∈ COLUMNS) :
    (∀ issues', issues'.Perm issues → byStatus (sort compareRanks) issues' status =
        byStatus (sort compareRanks) issues status) ↔
      ((issues.filter (·.status == status)).map IssueView.rank).Nodup := by
  have hnodup : (issues.filter (·.status == status)).Nodup :=
    (List.Nodup.of_map IssueView.id hids).filter _
  rw [compareRanks_eq, ← hsort.forall_perm_iff hnodup]
  simp only [byStatus_of_mem hshown]
  constructor
  · intro h l' hl'
    obtain ⟨issues', hperm, rfl⟩ := perm_of_column hl'
    exact h issues' hperm
  · intro h issues' hperm
    exact h _ (hperm.filter _)

theorem ranksDiffer_iff (hids : UniqueKey IssueView.id issues) :
    RanksDiffer issues ↔
      ∀ status ∈ COLUMNS, ((issues.filter (·.status == status)).map IssueView.rank).Nodup := by
  constructor
  · intro h status hshown
    refine List.Nodup.map_on (fun a ha b hb hrank => ?_) ((List.Nodup.of_map _ hids).filter _)
    obtain ⟨hmema, hastatus⟩ := List.mem_filter.1 ha
    obtain ⟨hmemb, hbstatus⟩ := List.mem_filter.1 hb
    rw [beq_iff_eq] at hastatus hbstatus
    refine h a hmema b hmemb (hastatus.trans hbstatus.symm) ?_ hrank
    rwa [hastatus]
  · intro h a ha b hb hstatus hshown hrank
    refine List.inj_on_of_nodup_map (h a.status hshown) ?_ ?_ hrank
    · exact List.mem_filter.2 ⟨ha, beq_self_eq_true _⟩
    · exact List.mem_filter.2 ⟨hb, beq_iff_eq.2 hstatus.symm⟩

end Columns

end Board

/-- **Every order of the cached list gives the same columns exactly when ranks differ.**  The list
is any that fetches, mutations, rollbacks and socket events leave in the cache, and `sort` any
stable comparison sort. -/
theorem columns_agree_iff {sort : (IssueView → IssueView → ℤ) → List IssueView → List IssueView}
    (hsort : ComparisonSort JsString sort) {c : IssueCache} (hcache : BoardCache c)
    {l : List CachedIssue} (hl : c.data = some l) :
    Board.ColumnsAgree sort (l.map CachedIssue.issue) ↔
      Board.RanksDiffer (l.map CachedIssue.issue) := by
  have hids : UniqueKey IssueView.id (l.map CachedIssue.issue) := by
    rw [UniqueKey, List.map_map]
    exact hcache.uniqueKey.data l hl
  rw [Board.ranksDiffer_iff hids]
  constructor
  · intro h status hshown
    refine (Board.byStatus_perm_iff hsort hids hshown).1 fun issues' hperm => ?_
    rw [h.order issues' hperm]
  · intro h
    refine ⟨fun issues' hperm => ?_, fun card hcard hshown status =>
      Board.filter_byStatus hsort hids hcard hshown⟩
    funext status
    by_cases hshown : status ∈ Board.COLUMNS
    · exact (Board.byStatus_perm_iff hsort hids hshown).2 (h status hshown) issues' hperm
    · rw [Board.byStatus, Board.byStatus, if_neg hshown, if_neg hshown]

/-! ### A card that keeps its rank in another column -/

namespace BoardColumns.Samples

open ListPages.Samples

def answer (w : World) : Except Exn (List IssueView) :=
  (IssuesService.list (fun _ _ => true) Demo.orgId.val Demo.project.key { limit := 100 } w).1

def cards (w : World) : List IssueView := (answer w).toOption.getD []

/-- The page has loaded the list. -/
def loaded (w : World) : IssueCache :=
  ⟨some ((cards w).map fun issue => ⟨issue, none⟩), fun _ => none⟩

/-- An issue is created in the column. -/
def createTodo (id : Cuid) (w : World) : World :=
  (IssuesService.create Demo.orgId.val Demo.userId.val Demo.project.key
    { title := js "Task", status := .TODO } (gen id) w).2

def column : World := createTodo Demo.secondId (createTodo Demo.firstId Demo.world)

theorem loaded_cache {w : World} (ids : UniqueKey Issue.id w.db.issues)
    (h : answer w = .ok (cards w)) : BoardCache (loaded w) := .fetch .empty ids h

end BoardColumns.Samples

open BoardColumns.Samples ListPages.Samples Board in
/-- Two issues are created in one column. -/
theorem columns_agree_created :
    (byStatus (insertionSortBy compareRanks) (cards column) .TODO).map IssueView.rank =
      [js "V", js "k"] ∧
    ColumnsAgree insertionSortBy (((loaded column).data.getD []).map CachedIssue.issue) :=
  ⟨by decide, (columns_agree_iff insertionSortBy_comparisonSort
    (loaded_cache (by unfold UniqueKey; decide) (by decide)) rfl).2
      (by unfold RanksDiffer; decide)⟩

open BoardColumns.Samples ListPages.Samples Board in
/-- Two cards of one column have the rank of the first issue of a column. -/
theorem tied_columns_disagree :
    BoardCache (loaded updated) ∧ ComparisonSort JsString (insertionSortBy (α := IssueView)) ∧
    (loaded updated).data.map (List.map CachedIssue.issue) = some (cards updated) ∧
    (cards updated).reverse.Perm (cards updated) ∧
    byStatus (insertionSortBy compareRanks) (cards updated).reverse .TODO ≠
      byStatus (insertionSortBy compareRanks) (cards updated) .TODO ∧
    ¬ColumnsAgree insertionSortBy (cards updated) := by
  have hdiffer : byStatus (insertionSortBy compareRanks) (cards updated).reverse .TODO ≠
      byStatus (insertionSortBy compareRanks) (cards updated) .TODO := by decide
  refine ⟨loaded_cache (by unfold UniqueKey; decide) (by decide), insertionSortBy_comparisonSort,
    rfl, List.reverse_perm _, hdiffer, fun h => hdiffer ?_⟩
  rw [h.order _ (List.reverse_perm _)]

end PmSaas
