import PmSaas.Issues.IssueReads
import PmSaas.Lib.Pagination

/-!
# Paging through `list`

`list` orders by status and rank and takes its cursor by id.  Two issues of a column may have the
same rank (`update` keeps the rank of a card it puts into another column), and the database may
return them in either order.

* `paged_eq`: the query of `list` is a page of `Pagination`;
* `list_visits_iff`: paging with the last id visits every issue exactly once, whatever the database
  does with equal ranks, exactly when no page ends at an issue that shares its status and its rank
  with another one.
-/

namespace PmSaas

open Pagination SortBy Table

/-- The rows `list` selects. -/
def Db.matching (ilike : JsString → JsString → Bool) (organizationId projectId : JsString)
    (filter : IssueFilter) (db : Db) : List Issue :=
  db.issues.filter fun i =>
    i.organizationId == organizationId && i.projectId == projectId && filter.selects ilike i

/-- A page of `list`: the `k`-th query finds its rows in the order `order k`. -/
def IssueFilter.pageOf (filter : IssueFilter) (order : ℕ → List Issue) (k : ℕ)
    (cursor : Option JsString) : List Issue := paged cursor filter.limit (order k)

/-- Page after page with the last id as the next cursor, until a page is empty: every row is visited
exactly once. -/
def IssueFilter.VisitsAll (filter : IssueFilter) (rows : List Issue) (order : ℕ → List Issue) :
    Prop :=
  ∃ visited, Walk Issue.id (filter.pageOf order) 0 none visited ∧ visited.Perm rows

section Pages

variable {ilike : JsString → JsString → Bool} {organizationId projectId projectKey : JsString}
  {filter : IssueFilter} {db : Db}

/-- `list` answers a page. -/
theorem list_page {w : World} {project : Project}
    (hproject : w.db.findProject organizationId projectKey = some project) (k : ℕ)
    (cursor : Option JsString) :
    IssuesService.list ilike organizationId projectKey { filter with cursor := cursor } w =
      (.ok ((filter.pageOf (fun _ => sortBy Issue.boardKey
        (w.db.matching ilike organizationId project.id filter)) k cursor).map issueSelect), w) := by
  rw [IssuesService.list_apply, hproject]
  rfl

/-- The cursor is skipped, and an empty one is none. -/
theorem paged_eq (cursor : Option JsString) (limit : ℕ) (rows : List Issue) :
    paged cursor limit rows = (after Issue.id (truthy cursor) rows).take limit := by
  unfold paged after
  cases truthy cursor <;> rfl

/-- The cursors a walk comes to are ids. -/
theorem pageOf_eq {order : ℕ → List Issue} {cursor : Option JsString} (h : cursor ≠ some [])
    (k : ℕ) : filter.pageOf order k cursor = page Issue.id filter.limit order k cursor := by
  have htruthy : truthy cursor = cursor := by
    cases cursor with
    | none => rfl
    | some id => simpa [truthy] using fun hnil : id = [] => h (by rw [hnil])
  rw [IssueFilter.pageOf, paged_eq, htruthy, page]

theorem visitsAll_pageOf_iff {rows : List Issue} {order : ℕ → List Issue}
    (hnames : ∀ i ∈ rows, i.id ≠ []) (horder : ∀ k, (order k).Perm rows) :
    filter.VisitsAll rows order ↔ VisitsAll Issue.id filter.limit rows order := by
  have hlast : ∀ k c i, (page Issue.id filter.limit order k c).getLast? = some i →
      some i.id ≠ some [] := by
    intro k c i hi hnil
    have hmem := (after_suffix Issue.id c (order k)).subset
      (List.mem_of_mem_take (List.mem_of_getLast? hi))
    exact hnames i ((horder k).subset hmem) (Option.some.inj hnil)
  constructor
  · rintro ⟨visited, hwalk, hperm⟩
    refine ⟨visited, hwalk.congr (P := (· ≠ some [])) nofun (fun k c i hc hi => ?_)
      fun k _ c hc => pageOf_eq hc k, hperm⟩
    rw [pageOf_eq hc] at hi
    exact hlast k c i hi
  · rintro ⟨visited, hwalk, hperm⟩
    exact ⟨visited, hwalk.congr (P := (· ≠ some [])) nofun (fun k c i _ hi => hlast k c i hi)
      fun k _ c hc => (pageOf_eq hc k).symm, hperm⟩

/-- **When paging through the list visits every issue exactly once**, whatever the database does
with equal ranks: if and only if no page of the listing ends at an issue that shares its status and
its rank with another matching issue. -/
theorem list_visits_iff (hids : UniqueKey Issue.id db.issues)
    (hgenerated : ∀ i ∈ db.issues, cuidFormat i.id = true) (hlimit : 1 ≤ filter.limit) :
    (∀ order : ℕ → List Issue,
      (∀ k, Arrangement Issue.boardKey (db.matching ilike organizationId projectId filter)
        (order k)) →
      filter.VisitsAll (db.matching ilike organizationId projectId filter) order) ↔
    EndsUnique Issue.boardKey filter.limit (db.matching ilike organizationId projectId filter)
      (sortBy Issue.boardKey (db.matching ilike organizationId projectId filter)) := by
  have hmatching : ((db.matching ilike organizationId projectId filter).map Issue.id).Nodup :=
    hids.sublist (List.filter_sublist.map _)
  have hnames : ∀ i ∈ db.matching ilike organizationId projectId filter, i.id ≠ [] := by
    intro i hi hnil
    have hformat := hgenerated i (List.mem_of_mem_filter hi)
    rw [hnil] at hformat
    cases hformat
  rw [← visitsAll_iff hlimit hmatching]
  exact forall_congr' fun order => forall_congr' fun horder =>
    visitsAll_pageOf_iff hnames fun k => (horder k).perm

end Pages

/-! ### Two cards with one rank -/

namespace ListPages.Samples

open Demo (firstId secondId thirdId)
open IssuesService

def gen (id : Cuid) : Gen := ⟨0, fun _ => id, fun _ => []⟩

def card (status : IssueStatus) : CreateIssueInput := { title := js "Task", status := status }

/-- A card is created in each of two columns, and the second one is put into the column of the
first. -/
def created : World :=
  (create Demo.orgId.val Demo.userId.val Demo.project.key (card .BACKLOG) (gen secondId)
    (create Demo.orgId.val Demo.userId.val Demo.project.key (card .TODO) (gen firstId)
      Demo.world).2).2

def updated : World :=
  (update Demo.orgId.val Demo.userId.val secondId.val { status := some .TODO } (gen thirdId)
    created).2

/-- One issue a page. -/
def filter : IssueFilter := { limit := 1 }

def rows (w : World) : List Issue :=
  w.db.matching (fun _ _ => true) Demo.orgId.val Demo.projectId.val filter

/-- The first query returns the two cards in one order, the later ones in the other. -/
def order (k : ℕ) : List Issue := if k = 0 then rows updated else (rows updated).reverse

end ListPages.Samples

open ListPages.Samples Demo in
theorem list_visits_created :
    filter.VisitsAll (rows created) fun _ => sortBy Issue.boardKey (rows created) := by
  have hkeys : ∀ x ∈ rows created, ∀ y ∈ rows created, y.boardKey = x.boardKey → y = x := by decide
  refine (list_visits_iff (by decide) (by decide) (by decide)).2 (fun p x hx _ => ?_) _
    fun _ => arrangement_sortBy _
  exact hkeys x ((sortBy_perm _).subset (List.mem_of_getElem? hx))

open ListPages.Samples Demo in
/-- The second page is asked for after the card that the first query returned first, and the second
query returns this one last. -/
theorem list_skips_issue :
    ¬∀ order : ℕ → List Issue, (∀ k, Arrangement Issue.boardKey (rows updated) (order k)) →
      filter.VisitsAll (rows updated) order := by
  intro hall
  have horder : ∀ k, Arrangement Issue.boardKey (rows updated) (order k) := by
    intro k
    rw [order]
    split
    · exact ⟨.rfl, by decide⟩
    · exact ⟨List.reverse_perm _, by decide⟩
  obtain ⟨visited, hwalk, hperm⟩ := hall order horder
  have hskipping : Walk Issue.id (filter.pageOf order) 0 none ((rows updated).take 1) :=
    .page rfl (.stop rfl)
  have hlength := hperm.length_eq
  rw [hwalk.unique hskipping] at hlength
  exact absurd hlength (by decide)

end PmSaas
