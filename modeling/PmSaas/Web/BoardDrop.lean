import PmSaas.Issues.IssuesService
import PmSaas.Web.UseBoardRealtime

/-!
# `board.tsx` and `useMoveIssue`: dropping a card

`onDragEnd` takes the neighbours of the gap from the cached column and computes the rank the card
will have; `useMoveIssue` writes it into the cache and sends the neighbours' ids.  `move` looks the
neighbours up again and computes the rank from what it finds.

`move_as_shown`: while the cached cards of the target column are as in the database, `move`
succeeds and stores what the cache already shows.

The comparison function of the board's `sort` is not consistent on equal ranks, so what `sort` does
there is left open: it is a parameter, and all that is asked of it is that it permutes.
-/

namespace PmSaas

open JsString Table

/-! ### The board -/

namespace Board

/-- The columns that are shown. -/
def COLUMNS : List IssueStatus := [.BACKLOG, .TODO, .IN_PROGRESS, .IN_REVIEW, .DONE]

def COL_PREFIX : JsString := js "col:"

variable (sort : List IssueView → List IssueView)

/-- `byStatus.get(status) ?? []`; there is a list for each column that is shown. -/
def byStatus (issues : List IssueView) (status : IssueStatus) : List IssueView :=
  if status ∈ COLUMNS then sort (issues.filter (·.status == status)) else []

def statusOf (issues : List IssueView) (id : JsString) : Option IssueStatus :=
  (issues.find? (·.id == id)).map IssueView.status

/-- The status a drop is for: that of the column, or that of the card it is dropped over.  A text
after the prefix that is no column's would give an empty column, and nothing would be sent. -/
def targetStatus (issues : List IssueView) (overId : JsString) : Option IssueStatus :=
  if startsWith overId COL_PREFIX then
    COLUMNS.find? fun status => status.text == overId.drop COL_PREFIX.length
  else statusOf issues overId

/-- Before the card it is dropped over, or at the end of the column. -/
def insertAt (column : List IssueView) (overId : JsString) : ℕ :=
  if startsWith overId COL_PREFIX then column.length
  else (column.findIdx? (·.id == overId)).getD column.length

/-- `column[insertAt - 1]`. -/
def cardAbove (column : List IssueView) : ℕ → Option IssueView
  | 0 => none
  | k + 1 => column[k]?

/-- What is handed to `move.mutate`. -/
structure Mutation where
  id : JsString
  optimisticRank : JsString
  input : MoveIssueInput
  deriving DecidableEq, Repr

/-- The drop of a card into a gap of a column. -/
def drop (activeIssueId : JsString) (status : IssueStatus) (above below : Option IssueView) :
    Option Mutation :=
  if above.map IssueView.rank = below.map IssueView.rank then none -- dropped in place
  else
    match rankBetween (above.map IssueView.rank) (below.map IssueView.rank) with
    | .error _ => none
    | .ok optimisticRank =>
        some ⟨activeIssueId, optimisticRank,
          ⟨status, above.map IssueView.id, below.map IssueView.id⟩⟩

/-- `onDragEnd`, on the cached issues; `overTarget` is the id of the drop target, if there is
one. -/
def onDragEnd (issues : List IssueView) (activeIssueId : JsString) (overTarget : Option JsString) :
    Option Mutation :=
  overTarget.bind fun overId =>
    (targetStatus issues overId).bind fun status =>
      let column := (byStatus sort issues status).filter (·.id != activeIssueId)
      drop activeIssueId status (cardAbove column (insertAt column overId))
        column[insertAt column overId]?

/-- `onMutate` of `useMoveIssue`, on the cached list. -/
def Mutation.patch (m : Mutation) (old : Option (List IssueView)) : List IssueView :=
  updateWhere (·.id == m.id) (setPlace (m.input.status, m.optimisticRank)) (old.getD [])

end Board

/-! ### The database the board shows -/

/-- The primary key of issues, generated by `cuid()`. -/
structure IssueKeys (db : Db) : Prop where
  unique : UniqueKey Issue.id db.issues
  generated : ∀ i ∈ db.issues, cuidFormat i.id = true

/-- Every cached card of the column is in the project with the status and the rank it shows. -/
def ColumnShown (projectId : JsString) (status : IssueStatus) (issues : List IssueView) (db : Db) :
    Prop :=
  ∀ card ∈ issues, card.status = status →
    ∃ i ∈ db.issues, i.projectId = projectId ∧ i.id = card.id ∧ i.status = card.status ∧
      i.rank = card.rank

section Drop

open Board

variable {sort : List IssueView → List IssueView} {db : Db} {issues : List IssueView}
  {projectId activeIssueId : JsString} {status : IssueStatus}

theorem cardAbove_mem {column : List IssueView} {k : ℕ} {card : IssueView}
    (h : cardAbove column k = some card) : card ∈ column := by
  cases k with
  | zero => cases h
  | succ k => exact List.mem_of_getElem? h

/-- The cards of a column are cached cards with its status. -/
theorem mem_byStatus (hsort : ∀ l, (sort l).Perm l) {card : IssueView}
    (h : card ∈ byStatus sort issues status) : card ∈ issues ∧ card.status = status := by
  unfold byStatus at h
  split at h
  · have hcard := List.mem_filter.1 ((hsort _).mem_iff.1 h)
    exact ⟨hcard.1, beq_iff_eq.1 hcard.2⟩
  · cases h

/-- **`move` finds the rank that the card shows.** -/
theorem neighbourRank_card (hkeys : IssueKeys db) (hshown : ColumnShown projectId status issues db)
    {card : Option IssueView} (hcard : ∀ c ∈ card, c ∈ issues ∧ c.status = status) :
    db.neighbourRank projectId status (card.map IssueView.id) = card.map IssueView.rank := by
  cases card with
  | none => rfl
  | some c =>
      obtain ⟨hmem, hstatus⟩ := hcard c rfl
      obtain ⟨i, hi, hproject, hid, histatus, hrank⟩ := hshown c hmem hstatus
      have hne : c.id ≠ [] := by
        intro hnil
        have hformat := hkeys.generated i hi
        rw [hid, hnil] at hformat
        cases hformat
      have hfind : db.issues.find? (fun i => i.id == c.id && i.projectId == projectId &&
          i.status == status) = some i := by
        refine hkeys.unique.find?_eq hi ?_ fun j _ hj => ?_
        · simp [hid, hproject, histatus, hstatus]
        · simp only [Bool.and_eq_true, beq_iff_eq] at hj
          rw [hj.1.1, hid]
      rw [Db.neighbourRank, Option.map_some, truthy, Option.filter_some,
        if_pos (decide_eq_true hne), Option.bind_some, hfind, Option.map_some, hrank, Option.map_some]

/-- A drop that is sent goes into a gap of the column. -/
theorem onDragEnd_some (hsort : ∀ l, (sort l).Perm l) {overTarget : Option JsString} {m : Mutation}
    (h : onDragEnd sort issues activeIssueId overTarget = some m) :
    ∃ above below : Option IssueView,
      (∀ c ∈ above, c ∈ issues ∧ c.status = m.input.status) ∧
      (∀ c ∈ below, c ∈ issues ∧ c.status = m.input.status) ∧
      rankBetween (above.map IssueView.rank) (below.map IssueView.rank) = .ok m.optimisticRank ∧
      m.id = activeIssueId ∧ m.input.aboveId = above.map IssueView.id ∧
      m.input.belowId = below.map IssueView.id := by
  obtain ⟨overId, _, h⟩ := Option.bind_eq_some_iff.1 h
  obtain ⟨status, _, h⟩ := Option.bind_eq_some_iff.1 h
  have hcolumn : ∀ c ∈ (byStatus sort issues status).filter (·.id != activeIssueId),
      c ∈ issues ∧ c.status = status :=
    fun c hc => mem_byStatus hsort (List.mem_of_mem_filter hc)
  generalize (byStatus sort issues status).filter (·.id != activeIssueId) = column at h hcolumn
  dsimp only at h
  unfold Board.drop at h
  split at h
  · cases h
  · split at h
    · cases h
    · rename_i optimisticRank hrank
      cases h
      exact ⟨_, _, fun c hc => hcolumn c (cardAbove_mem hc),
        fun c hc => hcolumn c (List.mem_of_getElem? hc), hrank, rfl, rfl, rfl⟩

end Drop

/-- **The server stores what the board already shows.**  Whenever the cached cards of the target
column are as in the database and the dropped issue exists, `move` succeeds on what the drop sends,
and the status and the rank it stores are those the cache was patched with. -/
theorem move_as_shown {sort : List IssueView → List IssueView} (hsort : ∀ l, (sort l).Perm l)
    {issues : List IssueView} {activeIssueId : JsString} {overTarget : Option JsString}
    {m : Board.Mutation} (hdrop : Board.onDragEnd sort issues activeIssueId overTarget = some m)
    {w : World} {organizationId projectId : JsString} (hkeys : IssueKeys w.db)
    (hshown : ColumnShown projectId m.input.status issues w.db)
    (hdragged : ∃ i ∈ w.db.issues, i.id = activeIssueId ∧ i.organizationId = organizationId ∧
      i.projectId = projectId) (actorId : JsString) (g : Gen) :
    ∃ w', IssuesService.move organizationId actorId m.id m.input g w =
        (.ok ⟨activeIssueId, m.input.status, m.optimisticRank, projectId⟩, w') ∧
      (∃ i, w'.db.issues.find? (·.id == activeIssueId) = some i ∧
        i.status = m.input.status ∧ i.rank = m.optimisticRank) ∧
      ∀ old, ∀ card ∈ m.patch old, card.id = activeIssueId →
        card.status = m.input.status ∧ card.rank = m.optimisticRank := by
  obtain ⟨above, below, habove, hbelow, hrank, hid, haboveId, hbelowId⟩ := onDragEnd_some hsort hdrop
  obtain ⟨issue, hissue, rfl, rfl, rfl⟩ := hdragged
  have hfound : w.db.findIssue issue.organizationId issue.id = some issue := by
    refine hkeys.unique.find?_eq hissue (by simp) fun j _ hj => ?_
    simp only [Bool.and_eq_true, beq_iff_eq] at hj
    exact hj.1
  have hplace : IssuesService.dropRank
      (w.db.neighbourRank issue.projectId m.input.status m.input.aboveId)
      (w.db.neighbourRank issue.projectId m.input.status m.input.belowId) =
        .ok m.optimisticRank := by
    rw [haboveId, hbelowId, neighbourRank_card hkeys hshown habove,
      neighbourRank_card hkeys hshown hbelow, IssuesService.dropRank, hrank]
    rfl
  have hrow : w.db.issues.find? (·.id == issue.id) = some issue :=
    hkeys.unique.find?_iff.2 ⟨hissue, rfl⟩
  obtain ⟨w', hmove, hafter⟩ := IssuesService.move_ok actorId hfound hplace
    (Db.updateIssue_of_find (IssuesService.place m.input.status m.optimisticRank g.now) hrow)
  rw [hid]
  refine ⟨w', hmove, ⟨IssuesService.place m.input.status m.optimisticRank g.now issue, ?_, rfl, rfl⟩,
    fun old card hcard hcardId => ?_⟩
  · have hrewritten := find?_updateWhere (p := fun i : Issue => i.id == issue.id)
      (f := IssuesService.place m.input.status m.optimisticRank g.now) (t := w.db.issues)
      (g := fun i : Issue => i.id == issue.id) fun _ _ _ => rfl
    rw [hrow, Option.map_some, if_pos (beq_self_eq_true issue.id)] at hrewritten
    rw [hafter.issues]
    exact hrewritten
  · obtain ⟨c, _, rfl⟩ := mem_updateWhere.1 hcard
    by_cases hc : (c.id == m.id) = true
    · rw [if_pos hc]
      exact ⟨rfl, rfl⟩
    · rw [if_neg hc] at hcardId
      exact absurd (beq_iff_eq.2 (hcardId.trans hid.symm)) hc

/-! ### A drop between two cards -/

namespace BoardDrop.Samples

def ids : List Cuid :=
  [Demo.firstId, Demo.secondId, Demo.thirdId]

def issue (k : ℕ) (status : IssueStatus) (rank : JsString) : Issue where
  id := (ids.getD k Demo.userId).val
  organizationId := Demo.orgId.val
  projectId := Demo.projectId.val
  number := k + 1
  title := js "Task"
  description := none
  status := status
  priority := .NONE
  rank := rank
  reporterId := Demo.userId.val
  assigneeId := none
  dueDate := none
  createdAt := 0
  updatedAt := 0

def rows : List Issue := [issue 0 .TODO (js "V"), issue 1 .TODO (js "k"), issue 2 .BACKLOG (js "V")]

def world : World := { Demo.world with db := { Demo.world.db with issues := rows } }

/-- The third card, over the second. -/
def dropped : Option Board.Mutation :=
  Board.onDragEnd (SortBy.sortBy IssueView.rank) (rows.map issueSelect) (issue 2 .TODO []).id
    (some (issue 1 .TODO []).id)

def mutation : Board.Mutation :=
  ⟨js "cthird", js "c", ⟨.TODO, some (js "cfirst"), some (js "csecond")⟩⟩

end BoardDrop.Samples

open BoardDrop.Samples in
theorem move_as_shown_between :
    dropped = some mutation ∧
    ∃ w', IssuesService.move Demo.orgId.val Demo.userId.val mutation.id mutation.input
        ⟨0, fun _ => Demo.userId, fun _ => []⟩ world =
        (.ok ⟨js "cthird", .TODO, js "c", Demo.projectId.val⟩, w') ∧
      (∃ i, w'.db.issues.find? (·.id == js "cthird") = some i ∧ i.status = .TODO ∧
        i.rank = js "c") ∧
      ∀ old, ∀ card ∈ mutation.patch old, card.id = js "cthird" →
        card.status = .TODO ∧ card.rank = js "c" := by
  have hdrop : dropped = some mutation := by decide
  exact ⟨hdrop, move_as_shown (fun l => SortBy.sortBy_perm l) hdrop ⟨by decide, by decide⟩
    (by unfold ColumnShown; decide) (by decide) _ _⟩

end PmSaas
