import Mathlib.Data.Prod.Lex
import PmSaas.Issues.IssuesService

/-!
# `issues.service.ts`: reading issues

`list` pages through the issues of a project in board order, `getByNumber` shows one issue with
everything that hangs on it.  `ILIKE` is the database's and depends on its collation; it is a
parameter here.
-/

namespace PmSaas

open SortBy

/-- The position of a status in its enum, which is how the database orders it. -/
def IssueStatus.ordinal : IssueStatus → ℕ
  | .BACKLOG => 0
  | .TODO => 1
  | .IN_PROGRESS => 2
  | .IN_REVIEW => 3
  | .DONE => 4
  | .CANCELED => 5

/-- `orderBy: [{ status: 'asc' }, { rank: 'asc' }]`. -/
def Issue.boardKey (i : Issue) : ℕ ×ₗ JsString := toLex (i.status.ordinal, i.rank)

/-- The part of `where` that comes from the filter; `ilike text q` is `contains` on a column. -/
def IssueFilter.selects (ilike : JsString → JsString → Bool) (filter : IssueFilter) (i : Issue) :
    Bool :=
  filter.status.all (· == i.status) &&
  filter.priority.all (· == i.priority) &&
  (truthy filter.assigneeId).all (some · == i.assigneeId) &&
  (truthy filter.q).all fun q => ilike i.title q || i.description.any (ilike · q)

/-- `take`, `cursor` and `skip: 1`.  The order is not unique, so Prisma looks for the cursor among
the rows the query returns: a cursor that is not one of them leaves nothing. -/
def paged (cursor : Option JsString) (limit : ℕ) (rows : List Issue) : List Issue :=
  match truthy cursor with
  | none => rows.take limit
  | some id => ((rows.dropWhile (·.id != id)).drop 1).take limit

/-- `issue.findMany` of `list`. -/
def Db.issuePage (ilike : JsString → JsString → Bool) (organizationId projectId : JsString)
    (filter : IssueFilter) (db : Db) : List Issue :=
  paged filter.cursor filter.limit (sortBy Issue.boardKey (db.issues.filter fun i =>
    i.organizationId == organizationId && i.projectId == projectId && filter.selects ilike i))

/-- An issue as `getByNumber` shows it. -/
structure IssueDetail where
  issue : Issue
  assignee : Option UserBrief
  reporter : Option UserBrief
  labels : List (IssueLabel × Option Label)
  comments : List (Comment × Option UserBrief)
  attachments : List Attachment
  deriving DecidableEq, Repr

/-- `include` of `getByNumber`. -/
def Db.detail (issue : Issue) (db : Db) : IssueDetail where
  issue := issue
  assignee := issue.assigneeId.bind fun id => db.userBrief id
  reporter := db.userBrief issue.reporterId
  labels := (db.issueLabels.filter (·.issueId == issue.id)).map fun link =>
    (link, db.labels.find? (·.id == link.labelId))
  comments := (sortBy Comment.createdAt (db.comments.filter (·.issueId == issue.id))).map fun c =>
    (c, db.userBrief c.authorId)
  attachments := db.attachments.filter (·.issueId == issue.id)

/-- `issue.findFirst({ where: { organizationId, projectId, number } })`. -/
def Db.findIssueByNumber (organizationId projectId : JsString) (number : ℤ) (db : Db) :
    Option Issue :=
  db.issues.find? fun i =>
    i.organizationId == organizationId && i.projectId == projectId && (i.number : ℤ) == number

namespace IssuesService

/-- Board / list view. -/
def list (ilike : JsString → JsString → Bool) (organizationId projectKey : JsString)
    (filter : IssueFilter) : Service (List IssueView) := do
  let project ← resolveProject organizationId projectKey
  let rows ← Service.query (Db.issuePage ilike organizationId project.id filter)
  pure (rows.map issueSelect)

def getByNumber (organizationId projectKey : JsString) (number : ℤ) : Service IssueDetail := do
  let project ← resolveProject organizationId projectKey
  let found ← Service.query fun db =>
    (db.findIssueByNumber organizationId project.id number).map fun i => db.detail i
  Service.orThrow found (.notFound (js "Issue not found"))

theorem list_apply (ilike : JsString → JsString → Bool) (organizationId projectKey : JsString)
    (filter : IssueFilter) (w : World) :
    list ilike organizationId projectKey filter w =
      match w.db.findProject organizationId projectKey with
      | some project =>
          (.ok ((w.db.issuePage ilike organizationId project.id filter).map issueSelect), w)
      | none => (.error (.notFound (js "Project not found")), w) := by
  rw [list, resolveProject_bind]
  cases w.db.findProject organizationId projectKey <;> rfl

theorem getByNumber_apply (organizationId projectKey : JsString) (number : ℤ) (w : World) :
    getByNumber organizationId projectKey number w =
      match w.db.findProject organizationId projectKey with
      | some project =>
          match w.db.findIssueByNumber organizationId project.id number with
          | some i => (.ok (w.db.detail i), w)
          | none => (.error (.notFound (js "Issue not found")), w)
      | none => (.error (.notFound (js "Project not found")), w) := by
  rw [getByNumber, resolveProject_bind]
  cases w.db.findProject organizationId projectKey with
  | none => rfl
  | some project =>
      simp only [Service.query_bind]
      cases w.db.findIssueByNumber organizationId project.id number <;> rfl

end IssuesService

end PmSaas
