import PmSaas.Types.Rank
import PmSaas.Types.Schemas
import PmSaas.Common.Service
import PmSaas.Lib.SortBy
import PmSaas.Lib.Table

/-!
# `issues.service.ts`: creating, updating, moving and removing issues

Each Prisma call of the service is a function of the database (`Db.findIssue`, `Db.createIssueTx`,
`Db.updateIssue`, `Db.deleteIssue`, `Db.neighbourRank`); the service methods string them together
with the audit write, the broadcast and the notification.
-/

namespace PmSaas

open SortBy Table

/-! ### The Prisma calls -/

/-- `project.findUnique({ where: { organizationId_key } })`. -/
def Db.findProject (organizationId projectKey : JsString) (db : Db) : Option Project :=
  db.projects.find? fun p => p.organizationId == organizationId && p.key == projectKey

/-- `issue.findFirst({ where: { id, organizationId } })`. -/
def Db.findIssue (organizationId issueId : JsString) (db : Db) : Option Issue :=
  db.issues.find? fun i => i.id == issueId && i.organizationId == organizationId

/-- The issues of one status column, in no particular order. -/
def Db.columnRows (projectId : JsString) (status : IssueStatus) (db : Db) : List Issue :=
  db.issues.filter fun i => i.projectId == projectId && i.status == status

/-- The status column as the board lists it, by ascending rank. -/
def Db.column (projectId : JsString) (status : IssueStatus) (db : Db) : List Issue :=
  sortBy Issue.rank (db.columnRows projectId status)

/-- `issue.findFirst({ where: { projectId, status }, orderBy: { rank: 'desc' } })`. -/
def Db.lastInColumn (projectId : JsString) (status : IssueStatus) (db : Db) : Option Issue :=
  (sortBy (fun i => OrderDual.toDual i.rank) (db.columnRows projectId status)).head?

/-- `issue.findFirst({ where: { id, projectId, status } })?.rank ?? null`, or `null` for no id. -/
def Db.neighbourRank (projectId : JsString) (status : IssueStatus) (id : Option JsString)
    (db : Db) : Option JsString :=
  (truthy id).bind fun id =>
    (db.issues.find? fun i => i.id == id && i.projectId == projectId && i.status == status).map
      Issue.rank

/-- One more issue number handed out. -/
def Project.bump (now : Date) (p : Project) : Project :=
  { p with issueCounter := p.issueCounter + 1, updatedAt := now }

def Db.bumpProject (projectId : JsString) (now : Date) (db : Db) : Db :=
  { db with projects := updateWhere (·.id == projectId) (Project.bump now) db.projects }

/-- `project.update({ data: { issueCounter: { increment: 1 } } })`. -/
def Db.incrementIssueCounter (projectId : JsString) (now : Date) (db : Db) :
    Except Exn (ℕ × Db) :=
  match db.projects.find? (·.id == projectId) with
  | none => .error (.prisma .recordNotFound)
  | some p => .ok (p.issueCounter + 1, db.bumpProject projectId now)

def Db.insertIssue (row : Issue) (labelIds : List JsString) (db : Db) : Db :=
  { db with
    issues := db.issues ++ [row]
    issueLabels := db.issueLabels ++ labelIds.map fun l => ⟨row.id, l⟩ }

/-- `issue.create` with its nested label links, under the unique indexes and foreign keys. -/
def Db.createIssue (row : Issue) (labelIds : List JsString) (db : Db) :
    Except Exn (IssueView × Db) :=
  if db.issues.any (·.id == row.id) ||
      db.issues.any (fun i => i.projectId == row.projectId && i.number == row.number) ||
      !decide labelIds.Nodup then
    .error (.prisma .uniqueConstraint)
  else if !db.organizations.any (·.id == row.organizationId) ||
      !db.projects.any (·.id == row.projectId) ||
      !db.users.any (·.id == row.reporterId) ||
      row.assigneeId.any (fun a => !db.users.any (·.id == a)) ||
      labelIds.any (fun l => !db.labels.any (·.id == l)) then
    .error (.prisma .foreignKey)
  else .ok (issueSelect row, db.insertIssue row labelIds)

/-- `RankError` as the `Error` the code throws. -/
def RankError.toExn : RankError → Exn
  | .inverted a b => .error (js "rankBetween: lower \"" ++ a ++ js "\" must sort before upper \"" ++
      b ++ js "\"")
  | .diverged => .error (js "")

/-- `last ? rankBetween(last.rank, null) : firstRank()`. -/
def appendRank (last : Option Issue) : Except Exn JsString :=
  match last with
  | some last => (rankBetween (some last.rank) none).mapError RankError.toExn
  | none => .ok firstRank

/-- The row `create` inserts. -/
def newIssue (organizationId actorId projectId : JsString) (input : CreateIssueInput) (g : Gen)
    (number : ℕ) (rank : JsString) : Issue where
  id := (g.cuid 0).val
  organizationId := organizationId
  projectId := projectId
  number := number
  title := input.title
  description := input.description
  status := input.status
  priority := input.priority
  rank := rank
  reporterId := actorId
  assigneeId := input.assigneeId
  dueDate := input.dueDate
  createdAt := g.now
  updatedAt := g.now

/-- The transaction of `create`: number the issue, rank it last in its column, insert it. -/
def Db.createIssueTx (organizationId actorId projectId : JsString) (input : CreateIssueInput)
    (g : Gen) (db : Db) : Except Exn (IssueView × Db) := do
  let (issueCounter, db) ← db.incrementIssueCounter projectId g.now
  let rank ← appendRank (db.lastInColumn projectId input.status)
  db.createIssue (newIssue organizationId actorId projectId input g issueCounter rank)
    input.labelIds

/-- `data.assignee`: `connect` a truthy id, else `disconnect`. -/
def connectAssignee (assigneeId : Option JsString) : Option JsString := truthy assigneeId

/-- The column values of `update` on a row: a field absent from the input keeps its value. -/
def UpdateIssueInput.apply (input : UpdateIssueInput) (now : Date) (i : Issue) : Issue :=
  { i with
    title := input.title.getD i.title
    description := if input.description.isSome then input.description else i.description
    status := input.status.getD i.status
    priority := input.priority.getD i.priority
    dueDate := input.dueDate.getD i.dueDate
    assigneeId := (input.assigneeId.map connectAssignee).getD i.assigneeId
    updatedAt := now }

/-- `Object.keys(data)`. -/
def UpdateIssueInput.changed (input : UpdateIssueInput) : List JsString :=
  (if input.title.isSome then [js "title"] else []) ++
  (if input.description.isSome then [js "description"] else []) ++
  (if input.status.isSome then [js "status"] else []) ++
  (if input.priority.isSome then [js "priority"] else []) ++
  (if input.dueDate.isSome then [js "dueDate"] else []) ++
  (if input.assigneeId.isSome then [js "assignee"] else [])

def Db.rewriteIssue (issueId : JsString) (f : Issue → Issue) (db : Db) : Db :=
  { db with issues := updateWhere (·.id == issueId) f db.issues }

/-- `issue.update({ where: { id }, data })` with a rewrite `f` that keeps the id.  `connect` is the
user a relation field names, which must exist. -/
def Db.updateIssue (issueId : JsString) (connect : Option JsString) (f : Issue → Issue) (db : Db) :
    Except Exn (Issue × Db) :=
  if connect.any (fun u => !db.users.any (·.id == u)) then .error (.prisma .recordNotFound)
  else match db.issues.find? (·.id == issueId) with
    | none => .error (.prisma .recordNotFound)
    | some i => .ok (f i, db.rewriteIssue issueId f)

/-- The cascades of the schema, then the row itself. -/
def Db.dropIssue (issueId : JsString) (db : Db) : Db :=
  { db with
    issues := deleteWhere (·.id == issueId) db.issues
    issueLabels := deleteWhere (·.issueId == issueId) db.issueLabels
    comments := deleteWhere (·.issueId == issueId) db.comments
    mentions := deleteWhere
      (fun m => db.comments.any fun c => c.id == m.commentId && c.issueId == issueId) db.mentions
    attachments := deleteWhere (·.issueId == issueId) db.attachments }

/-- `issue.delete({ where: { id } })`. -/
def Db.deleteIssue (issueId : JsString) (db : Db) : Except Exn (Unit × Db) :=
  if db.issues.any (·.id == issueId) then .ok ((), db.dropIssue issueId)
  else .error (.prisma .recordNotFound)

/-! ### What a committed write did -/

theorem Db.createIssue_ok {row : Issue} {labelIds : List JsString} {db db' : Db}
    {issue : IssueView} (h : db.createIssue row labelIds = .ok (issue, db')) :
    issue = issueSelect row ∧ db' = db.insertIssue row labelIds ∧
      (∀ i ∈ db.issues, i.id ≠ row.id) ∧
      (∃ o ∈ db.organizations, o.id = row.organizationId) ∧
      ∀ l ∈ labelIds, ∃ b ∈ db.labels, b.id = l := by
  unfold Db.createIssue at h
  split at h
  · cases h
  · rename_i huniq
    split at h
    · cases h
    · rename_i hfk
      simp only [Bool.or_eq_true, not_or, List.any_eq_true, not_exists, not_and, beq_iff_eq]
        at huniq
      simp only [Bool.or_eq_true, not_or, Bool.not_eq_true', Bool.not_eq_false, List.any_eq_true,
        not_exists, not_and, beq_iff_eq] at hfk
      cases h
      exact ⟨rfl, rfl, huniq.1.1, hfk.1.1.1.1, hfk.2⟩

theorem Db.createIssueTx_ok {organizationId actorId projectId : JsString}
    {input : CreateIssueInput} {g : Gen} {db db' : Db} {issue : IssueView}
    (h : db.createIssueTx organizationId actorId projectId input g = .ok (issue, db')) :
    ∃ project rank, db.projects.find? (·.id == projectId) = some project ∧
      appendRank (db.lastInColumn projectId input.status) = .ok rank ∧
      (db.bumpProject projectId g.now).createIssue
        (newIssue organizationId actorId projectId input g (project.issueCounter + 1) rank)
        input.labelIds = .ok (issue, db') := by
  unfold Db.createIssueTx Db.incrementIssueCounter at h
  have hlast : (db.bumpProject projectId g.now).lastInColumn projectId input.status =
      db.lastInColumn projectId input.status := rfl
  cases hp : db.projects.find? (·.id == projectId) with
  | none => simp [hp, bind, Except.bind] at h
  | some project =>
      simp only [hp, bind, Except.bind, hlast] at h
      cases hr : appendRank (db.lastInColumn projectId input.status) with
      | error e =>
          rw [hr] at h
          cases h
      | ok rank =>
          rw [hr] at h
          exact ⟨project, rank, rfl, rfl, h⟩

theorem Db.updateIssue_ok {issueId : JsString} {connect : Option JsString} {f : Issue → Issue}
    {db db' : Db} {row : Issue} (h : db.updateIssue issueId connect f = .ok (row, db')) :
    ∃ i, db.issues.find? (·.id == issueId) = some i ∧ row = f i ∧
      db' = db.rewriteIssue issueId f := by
  unfold Db.updateIssue at h
  split at h
  · cases h
  · split at h
    · cases h
    · rename_i i hi
      cases h
      exact ⟨i, hi, rfl, rfl⟩

theorem Db.updateIssue_of_find {issueId : JsString} (f : Issue → Issue) {db : Db} {i : Issue}
    (h : db.issues.find? (·.id == issueId) = some i) :
    db.updateIssue issueId none f = .ok (f i, db.rewriteIssue issueId f) := by
  simp only [Db.updateIssue, Option.any_none, h]
  rfl

theorem Db.deleteIssue_ok {issueId : JsString} {db db' : Db}
    (h : db.deleteIssue issueId = .ok ((), db')) :
    db' = db.dropIssue issueId := by
  unfold Db.deleteIssue at h
  split at h
  · cases h
    rfl
  · cases h

theorem Db.exists_of_deleteIssue {issueId : JsString} {db db' : Db}
    (h : db.deleteIssue issueId = .ok ((), db')) : ∃ i ∈ db.issues, i.id = issueId := by
  unfold Db.deleteIssue at h
  split at h
  · rename_i hany
    simpa using hany
  · cases h

theorem Db.findProject_some {organizationId projectKey : JsString} {db : Db} {p : Project}
    (h : db.findProject organizationId projectKey = some p) :
    p ∈ db.projects ∧ p.organizationId = organizationId ∧ p.key = projectKey := by
  have hp := List.find?_some h
  simp only [Bool.and_eq_true, beq_iff_eq] at hp
  exact ⟨List.mem_of_find?_eq_some h, hp.1, hp.2⟩

theorem Db.findIssue_some {organizationId issueId : JsString} {db : Db} {i : Issue}
    (h : db.findIssue organizationId issueId = some i) :
    i ∈ db.issues ∧ i.id = issueId ∧ i.organizationId = organizationId := by
  have hp := List.find?_some h
  simp only [Bool.and_eq_true, beq_iff_eq] at hp
  exact ⟨List.mem_of_find?_eq_some h, hp.1, hp.2⟩

/-! ### The service methods -/

namespace IssuesService

/-- Resolve a project by key inside the tenant, or 404. -/
def resolveProject (organizationId projectKey : JsString) : Service Project := do
  let project ← Service.query (Db.findProject organizationId projectKey)
  Service.orThrow project (.notFound (js "Project not found"))

theorem resolveProject_bind {β : Type} (organizationId projectKey : JsString)
    (k : Project → Service β) (w : World) :
    (resolveProject organizationId projectKey >>= k) w =
      match w.db.findProject organizationId projectKey with
      | some project => k project w
      | none => (.error (.notFound (js "Project not found")), w) := by
  rw [resolveProject, Service.bind_assoc, Service.query_bind, Service.orThrow_bind]
  cases w.db.findProject organizationId projectKey <;> rfl

/-- The payload of an `ISSUE_ASSIGNED` job. -/
def assignedJob (organizationId actorId recipientId : JsString) (issue : IssueView) :
    NotificationJob where
  organizationId := organizationId
  recipientId := recipientId
  actorId := some actorId
  type := .ISSUE_ASSIGNED
  payload := [("issueId", .str issue.id), ("number", .num issue.number), ("title", .str issue.title)]

def create (organizationId actorId projectKey : JsString) (input : CreateIssueInput) (g : Gen) :
    Service IssueView := do
  let project ← resolveProject organizationId projectKey
  let issue ← Service.exec (Db.createIssueTx organizationId actorId project.id input g)
  record
    { organizationId := organizationId
      actorId := some actorId
      action := "issue.created"
      entityType := "Issue"
      entityId := issue.id
      metadata := some [("number", .num issue.number), ("title", .str issue.title)] }
    (g.cuid 1) g.now
  emitToProject organizationId project.id (.created issue)
  match truthy issue.assigneeId with
  | some recipientId =>
      enqueue (assignedJob organizationId actorId recipientId issue)
      pure issue
  | none => pure issue

/-- The user a `connect` of `update` names. -/
def connectedUser (input : UpdateIssueInput) : Option JsString :=
  input.assigneeId.bind connectAssignee

def update (organizationId actorId issueId : JsString) (input : UpdateIssueInput) (g : Gen) :
    Service IssueView := do
  let before ← Service.query (Db.findIssue organizationId issueId)
  let before ← Service.orThrow before (.notFound (js "Issue not found"))
  let row ← Service.exec (Db.updateIssue issueId (connectedUser input) (input.apply g.now))
  let issue := issueSelect row
  record
    { organizationId := organizationId
      actorId := some actorId
      action := "issue.updated"
      entityType := "Issue"
      entityId := issue.id
      metadata := some [("changed", .strs input.changed)] }
    (g.cuid 0) g.now
  emitToProject organizationId issue.projectId (.updated issue)
  match connectedUser input with
  | some recipientId =>
      if some recipientId = before.assigneeId then pure issue
      else
        enqueue (assignedJob organizationId actorId recipientId issue)
        pure issue
  | none => pure issue

/-- What `move` returns. -/
structure MovedIssue where
  id : JsString
  status : IssueStatus
  rank : JsString
  projectId : JsString
  deriving DecidableEq, Repr

/-- The rank of a drop between two neighbours, or the 400 of `move`. -/
def dropRank (above below : Option JsString) : Except Exn JsString :=
  (rankBetween above below).mapError fun _ =>
    .badRequest (js "Invalid drop position (neighbour ranks inconsistent)")

/-- `data: { status, rank }` of `move`. -/
def place (status : IssueStatus) (rank : JsString) (now : Date) (i : Issue) : Issue :=
  { i with status := status, rank := rank, updatedAt := now }

/-- Drag/drop: re-rank within or across status columns without renumbering. -/
def move (organizationId actorId issueId : JsString) (input : MoveIssueInput) (g : Gen) :
    Service MovedIssue := do
  let issue ← Service.query (Db.findIssue organizationId issueId)
  let issue ← Service.orThrow issue (.notFound (js "Issue not found"))
  -- Neighbour ranks come from the same project and the target column.
  let above ← Service.query (Db.neighbourRank issue.projectId input.status input.aboveId)
  let below ← Service.query (Db.neighbourRank issue.projectId input.status input.belowId)
  let rank ← Service.exec fun db => (dropRank above below).map fun rank => (rank, db)
  let updated ← Service.exec (Db.updateIssue issue.id none (place input.status rank g.now))
  record
    { organizationId := organizationId
      actorId := some actorId
      action := "issue.moved"
      entityType := "Issue"
      entityId := issue.id
      metadata := some [("from", .str issue.status.text), ("to", .str input.status.text)] }
    (g.cuid 0) g.now
  emitToProject organizationId updated.projectId (.moved updated.id updated.status updated.rank)
  pure ⟨updated.id, updated.status, updated.rank, updated.projectId⟩

def remove (organizationId actorId issueId : JsString) (g : Gen) : Service Unit := do
  let issue ← Service.query (Db.findIssue organizationId issueId)
  let issue ← Service.orThrow issue (.notFound (js "Issue not found"))
  Service.exec (Db.deleteIssue issue.id)
  record
    { organizationId := organizationId
      actorId := some actorId
      action := "issue.deleted"
      entityType := "Issue"
      entityId := issue.id
      metadata := none }
    (g.cuid 0) g.now
  emitToProject organizationId issue.projectId (.deleted issue.id)

/-! ### What each method can do -/

/-- `create` throws and changes nothing, or its transaction commits and side effects follow. -/
theorem create_cases (organizationId actorId projectKey : JsString) (input : CreateIssueInput)
    (g : Gen) (w : World) :
    (∃ e, create organizationId actorId projectKey input g w = (.error e, w)) ∨
    ∃ project issue db w', w.db.findProject organizationId projectKey = some project ∧
      w.db.createIssueTx organizationId actorId project.id input g = .ok (issue, db) ∧
      create organizationId actorId projectKey input g w = (.ok issue, w') ∧
      Aftermath organizationId { w with db := db } w' := by
  cases hp : w.db.findProject organizationId projectKey with
  | none =>
      left
      refine ⟨.notFound (js "Project not found"), ?_⟩
      rw [create, resolveProject_bind, hp]
  | some project =>
      cases htx : w.db.createIssueTx organizationId actorId project.id input g with
      | error e =>
          left
          refine ⟨e, ?_⟩
          rw [create, resolveProject_bind, hp]
          simp only [Service.exec_bind, htx]
      | ok r =>
          obtain ⟨issue, db⟩ := r
          right
          rw [create, resolveProject_bind, hp]
          simp only [Service.exec_bind, htx, Service.record_bind, Service.emit_bind]
          cases truthy issue.assigneeId with
          | none => exact ⟨project, issue, db, _, rfl, htx, rfl, .emitted (.recorded ..) ..⟩
          | some recipientId =>
              exact ⟨project, issue, db, _, rfl, htx, rfl,
                .enqueued (.emitted (.recorded ..) ..) _⟩

/-- `update` throws and changes nothing, or rewrites an issue of the tenant. -/
theorem update_cases (organizationId actorId issueId : JsString) (input : UpdateIssueInput)
    (g : Gen) (w : World) :
    (∃ e, update organizationId actorId issueId input g w = (.error e, w)) ∨
    ∃ before row db w', w.db.findIssue organizationId issueId = some before ∧
      w.db.updateIssue issueId (connectedUser input) (input.apply g.now) = .ok (row, db) ∧
      update organizationId actorId issueId input g w = (.ok (issueSelect row), w') ∧
      Aftermath organizationId { w with db := db } w' := by
  rw [update, Service.query_bind, Service.orThrow_bind]
  cases hb : w.db.findIssue organizationId issueId with
  | none => exact .inl ⟨_, rfl⟩
  | some before =>
      simp only [Service.exec_bind]
      cases hu : w.db.updateIssue issueId (connectedUser input) (input.apply g.now) with
      | error e => exact .inl ⟨e, rfl⟩
      | ok r =>
          obtain ⟨row, db⟩ := r
          right
          simp only [Service.record_bind, Service.emit_bind]
          cases connectedUser input with
          | none => exact ⟨before, row, db, _, rfl, rfl, rfl, .emitted (.recorded ..) ..⟩
          | some recipientId =>
              simp only
              split
              · exact ⟨before, row, db, _, rfl, rfl, rfl, .emitted (.recorded ..) ..⟩
              · exact ⟨before, row, db, _, rfl, rfl, rfl,
                  .enqueued (.emitted (.recorded ..) ..) _⟩

/-- Once the issue, the rank and the row update are there, `move` goes through. -/
theorem move_ok {organizationId issueId : JsString} (actorId : JsString) {input : MoveIssueInput}
    {g : Gen} {w : World} {issue row : Issue} {rank : JsString} {db : Db}
    (hf : w.db.findIssue organizationId issueId = some issue)
    (hr : dropRank (w.db.neighbourRank issue.projectId input.status input.aboveId)
      (w.db.neighbourRank issue.projectId input.status input.belowId) = .ok rank)
    (hu : w.db.updateIssue issue.id none (place input.status rank g.now) = .ok (row, db)) :
    ∃ w', move organizationId actorId issueId input g w =
        (.ok ⟨row.id, row.status, row.rank, row.projectId⟩, w') ∧
      Aftermath organizationId { w with db := db } w' := by
  rw [move, Service.query_bind, Service.orThrow_bind]
  simp only [hf, Service.query_bind, Service.exec_bind, hr, Except.map, hu, Service.record_bind,
    Service.emit_bind]
  exact ⟨_, rfl, .emitted (.recorded ..) ..⟩

/-- `move` throws and changes nothing, or re-ranks an issue of the tenant between the neighbour
ranks it read. -/
theorem move_cases (organizationId actorId issueId : JsString) (input : MoveIssueInput)
    (g : Gen) (w : World) :
    (∃ e, move organizationId actorId issueId input g w = (.error e, w)) ∨
    ∃ issue rank row db w', w.db.findIssue organizationId issueId = some issue ∧
      dropRank (w.db.neighbourRank issue.projectId input.status input.aboveId)
        (w.db.neighbourRank issue.projectId input.status input.belowId) = .ok rank ∧
      w.db.updateIssue issue.id none (place input.status rank g.now) = .ok (row, db) ∧
      move organizationId actorId issueId input g w =
        (.ok ⟨row.id, row.status, row.rank, row.projectId⟩, w') ∧
      Aftermath organizationId { w with db := db } w' := by
  cases hf : w.db.findIssue organizationId issueId with
  | none =>
      left
      rw [move, Service.query_bind, Service.orThrow_bind, hf]
      exact ⟨_, rfl⟩
  | some issue =>
      cases hr : dropRank (w.db.neighbourRank issue.projectId input.status input.aboveId)
          (w.db.neighbourRank issue.projectId input.status input.belowId) with
      | error e =>
          left
          rw [move, Service.query_bind, Service.orThrow_bind, hf]
          simp only [Service.query_bind, Service.exec_bind, hr, Except.map]
          exact ⟨e, rfl⟩
      | ok rank =>
          cases hu : w.db.updateIssue issue.id none (place input.status rank g.now) with
          | error e =>
              left
              rw [move, Service.query_bind, Service.orThrow_bind, hf]
              simp only [Service.query_bind, Service.exec_bind, hr, Except.map, hu]
              exact ⟨e, rfl⟩
          | ok r =>
              obtain ⟨row, db⟩ := r
              obtain ⟨w', hmove, hafter⟩ := move_ok actorId hf hr hu
              exact .inr ⟨issue, rank, row, db, w', rfl, hr, hu, hmove, hafter⟩

/-- `remove` answers 404 and changes nothing, or deletes an issue of the tenant. -/
theorem remove_cases (organizationId actorId issueId : JsString) (g : Gen) (w : World) :
    (∃ e, w.db.findIssue organizationId issueId = none ∧
      remove organizationId actorId issueId g w = (.error e, w)) ∨
    ∃ issue db w', w.db.findIssue organizationId issueId = some issue ∧
      w.db.deleteIssue issue.id = .ok ((), db) ∧
      remove organizationId actorId issueId g w = (.ok (), w') ∧
      Aftermath organizationId { w with db := db } w' := by
  rw [remove, Service.query_bind, Service.orThrow_bind]
  cases hf : w.db.findIssue organizationId issueId with
  | none => exact .inl ⟨_, rfl, rfl⟩
  | some issue =>
      have hdel : w.db.deleteIssue issue.id = .ok ((), w.db.dropIssue issue.id) :=
        if_pos (List.any_eq_true.2 ⟨issue, (Db.findIssue_some hf).1, by simp⟩)
      simp only [Service.exec_bind, hdel, Service.record_bind]
      exact .inr ⟨issue, _, _, rfl, hdel, rfl, .emitted (.recorded ..) ..⟩

end IssuesService

end PmSaas
