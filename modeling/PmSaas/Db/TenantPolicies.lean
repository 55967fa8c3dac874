import PmSaas.Db.Schema
import PmSaas.Common.Service
import PmSaas.Types.Schemas
import PmSaas.Lib.RowSecurity

/-!
# The `tenant_isolation` policies

The migrations `tenant_rls`, `tenant_rls_force` and `app_role`, the foreign keys of the first
migration, and `PrismaService.runWithTenant`.  Of the tables with tenant data, `subscriptions`,
`comments`, `attachments` and `issue_labels` have no policy (`policy_eq_none_iff`): a transaction of
one tenant reads and deletes the rows of the others there (`other_tenant_reached`).

`tenant_confined`: statements that leave the setting alone, spare the other tenants' rows of the
tables without a policy, and delete or rekey no row that a row of another tenant refers to, reach no
row of another organization.
-/

namespace PmSaas

open RowSecurity TransitionSystem

/-! ### Tables and rows -/

inductive SqlTable where
  | users | refresh_tokens | organizations | memberships | invites | teams | projects | issues
  | labels | issue_labels | comments | mentions | attachments | notifications | audit_logs
  | subscriptions
  deriving DecidableEq, Repr

inductive SqlRow where
  | user (row : User)
  | refreshToken (row : RefreshToken)
  | organization (row : Organization)
  | membership (row : Membership)
  | invite (row : Invite)
  | team (row : Team)
  | project (row : Project)
  | issue (row : Issue)
  | label (row : Label)
  | issueLabel (row : IssueLabel)
  | comment (row : Comment)
  | mention (row : Mention)
  | attachment (row : Attachment)
  | notification (row : Notification)
  | auditLog (row : AuditLog)
  | subscription (row : Subscription)
  deriving DecidableEq, Repr

namespace SqlRow

def table : SqlRow → SqlTable
  | .user _ => .users
  | .refreshToken _ => .refresh_tokens
  | .organization _ => .organizations
  | .membership _ => .memberships
  | .invite _ => .invites
  | .team _ => .teams
  | .project _ => .projects
  | .issue _ => .issues
  | .label _ => .labels
  | .issueLabel _ => .issue_labels
  | .comment _ => .comments
  | .mention _ => .mentions
  | .attachment _ => .attachments
  | .notification _ => .notifications
  | .auditLog _ => .audit_logs
  | .subscription _ => .subscriptions

/-- The column `id`. -/
def id : SqlRow → Option JsString
  | .user u => some u.id
  | .refreshToken t => some t.id
  | .organization o => some o.id
  | .membership m => some m.id
  | .invite i => some i.id
  | .team t => some t.id
  | .project p => some p.id
  | .issue i => some i.id
  | .label l => some l.id
  | .issueLabel _ => none
  | .comment c => some c.id
  | .mention m => some m.id
  | .attachment a => some a.id
  | .notification n => some n.id
  | .auditLog a => some a.id
  | .subscription s => some s.id

/-- The column `"organizationId"`. -/
def organizationId : SqlRow → Option JsString
  | .membership m => some m.organizationId
  | .invite i => some i.organizationId
  | .team t => some t.organizationId
  | .project p => some p.organizationId
  | .issue i => some i.organizationId
  | .label l => some l.organizationId
  | .notification n => some n.organizationId
  | .auditLog a => some a.organizationId
  | .subscription s => some s.organizationId
  | _ => none

/-- The issue that a comment, an attachment or a label link belongs to. -/
def issueId : SqlRow → Option JsString
  | .issueLabel l => some l.issueId
  | .comment c => some c.issueId
  | .attachment a => some a.issueId
  | _ => none

end SqlRow

/-! ### The foreign keys -/

inductive OnDelete where
  | CASCADE | SET_NULL | RESTRICT
  deriving DecidableEq, Repr

/-- A foreign-key column of a row. -/
structure Reference where
  parent : SqlTable
  key : JsString
  onDelete : OnDelete
  deriving DecidableEq, Repr

namespace SqlRow

def references : SqlRow → List Reference
  | .user _ | .organization _ => []
  | .refreshToken t => [⟨.users, t.userId, .CASCADE⟩]
  | .membership m => [⟨.users, m.userId, .CASCADE⟩, ⟨.organizations, m.organizationId, .CASCADE⟩]
  | .invite i => [⟨.organizations, i.organizationId, .CASCADE⟩]
  | .team t => [⟨.organizations, t.organizationId, .CASCADE⟩]
  | .project p =>
      ⟨.organizations, p.organizationId, .CASCADE⟩ ::
        p.teamId.toList.map fun teamId => ⟨.teams, teamId, .SET_NULL⟩
  | .issue i =>
      [⟨.organizations, i.organizationId, .CASCADE⟩, ⟨.projects, i.projectId, .CASCADE⟩,
        ⟨.users, i.reporterId, .RESTRICT⟩] ++
        i.assigneeId.toList.map fun assigneeId => ⟨.users, assigneeId, .SET_NULL⟩
  | .label l => [⟨.organizations, l.organizationId, .CASCADE⟩]
  | .issueLabel l => [⟨.issues, l.issueId, .CASCADE⟩, ⟨.labels, l.labelId, .CASCADE⟩]
  | .comment c => [⟨.issues, c.issueId, .CASCADE⟩, ⟨.users, c.authorId, .CASCADE⟩]
  | .mention m => [⟨.comments, m.commentId, .CASCADE⟩, ⟨.users, m.userId, .CASCADE⟩]
  | .attachment a => [⟨.issues, a.issueId, .CASCADE⟩, ⟨.users, a.uploaderId, .RESTRICT⟩]
  | .notification n =>
      [⟨.organizations, n.organizationId, .CASCADE⟩, ⟨.users, n.userId, .CASCADE⟩]
  | .auditLog a =>
      ⟨.organizations, a.organizationId, .CASCADE⟩ ::
        a.actorId.toList.map fun actorId => ⟨.users, actorId, .SET_NULL⟩
  | .subscription s => [⟨.organizations, s.organizationId, .CASCADE⟩]

/-- The row refers to the other one, with the given action. -/
def refersTo (child parent : SqlRow) (onDelete : OnDelete) : Bool :=
  child.references.any fun r =>
    r.parent == parent.table && some r.key == parent.id && r.onDelete == onDelete

/-- `f` on each foreign-key column; `none` is `NULL`, which only a nullable column can become. -/
def mapReferences (f : SqlTable → JsString → Option JsString) : SqlRow → SqlRow
  | .user u => .user u
  | .organization o => .organization o
  | .refreshToken t => .refreshToken { t with userId := (f .users t.userId).getD t.userId }
  | .membership m =>
      .membership { m with
        userId := (f .users m.userId).getD m.userId
        organizationId := (f .organizations m.organizationId).getD m.organizationId }
  | .invite i =>
      .invite { i with
        organizationId := (f .organizations i.organizationId).getD i.organizationId }
  | .team t =>
      .team { t with organizationId := (f .organizations t.organizationId).getD t.organizationId }
  | .project p =>
      .project { p with
        organizationId := (f .organizations p.organizationId).getD p.organizationId
        teamId := p.teamId.bind (f .teams) }
  | .issue i =>
      .issue { i with
        organizationId := (f .organizations i.organizationId).getD i.organizationId
        projectId := (f .projects i.projectId).getD i.projectId
        reporterId := (f .users i.reporterId).getD i.reporterId
        assigneeId := i.assigneeId.bind (f .users) }
  | .label l =>
      .label { l with organizationId := (f .organizations l.organizationId).getD l.organizationId }
  | .issueLabel l =>
      .issueLabel ⟨(f .issues l.issueId).getD l.issueId, (f .labels l.labelId).getD l.labelId⟩
  | .comment c =>
      .comment { c with
        issueId := (f .issues c.issueId).getD c.issueId
        authorId := (f .users c.authorId).getD c.authorId }
  | .mention m =>
      .mention { m with
        commentId := (f .comments m.commentId).getD m.commentId
        userId := (f .users m.userId).getD m.userId }
  | .attachment a =>
      .attachment { a with
        issueId := (f .issues a.issueId).getD a.issueId
        uploaderId := (f .users a.uploaderId).getD a.uploaderId }
  | .notification n =>
      .notification { n with
        organizationId := (f .organizations n.organizationId).getD n.organizationId
        userId := (f .users n.userId).getD n.userId }
  | .auditLog a =>
      .auditLog { a with
        organizationId := (f .organizations a.organizationId).getD a.organizationId
        actorId := a.actorId.bind (f .users) }
  | .subscription s =>
      .subscription { s with
        organizationId := (f .organizations s.organizationId).getD s.organizationId }

/-- What becomes of `child` when `parent` is deleted. -/
def onDelete (parent child : SqlRow) : Option SqlRow :=
  if child.refersTo parent .CASCADE then none
  else if child.refersTo parent .SET_NULL then
    some (child.mapReferences fun table key =>
      if table = parent.table ∧ some key = parent.id then none else some key)
  else some child

/-- `ON UPDATE CASCADE`: every foreign key follows the id it refers to. -/
def onUpdate (old new child : SqlRow) : SqlRow :=
  child.mapReferences fun table key =>
    if table = old.table ∧ some key = old.id then new.id else some key

end SqlRow

/-! ### The policies -/

/-- `app_current_org()`: `NULLIF(current_setting('app.current_org_id', true), '')`. -/
def appCurrentOrg (setting : Option JsString) : Option JsString := truthy setting

/-- `USING (app_current_org() IS NULL OR column = app_current_org())`. -/
def tenantIsolation (column : SqlRow → Option JsString) (setting : Option JsString)
    (row : SqlRow) : Bool :=
  match appCurrentOrg setting with
  | none => true
  | some org => column row == some org

/-- `tenant_tables` of `tenant_rls`. -/
def tenantTables : List SqlTable :=
  [.memberships, .invites, .teams, .projects, .issues, .labels, .notifications, .audit_logs]

/-- The column that the policy of a table compares, if row-level security is enabled. -/
def policyColumn (table : SqlTable) : Option (SqlRow → Option JsString) :=
  if table ∈ tenantTables then some SqlRow.organizationId
  else if table = .organizations then some SqlRow.id
  else none

/-- `tenant_tables` of `tenant_rls_force`. -/
def forcedTables : List SqlTable :=
  [.organizations, .memberships, .invites, .teams, .projects, .issues, .labels, .notifications,
    .audit_logs]

structure DbRole where
  superuser : Bool
  bypassRls : Bool
  /-- The role owns the tables. -/
  owner : Bool
  deriving DecidableEq, Repr

/-- `CREATE ROLE pm_app … NOSUPERUSER NOBYPASSRLS`. -/
def pm_app : DbRole := ⟨false, false, false⟩

/-- The policies a role is subject to: an owner's only where they are forced. -/
def DbRole.policy (role : DbRole) (table : SqlTable) :
    Option (Option JsString → SqlRow → Bool) :=
  if role.superuser || role.bypassRls || (role.owner && !forcedTables.contains table) then none
  else (policyColumn table).map tenantIsolation

def DbRole.catalog (role : DbRole) : Catalog SqlTable SqlRow (Option JsString) where
  table := SqlRow.table
  policy := role.policy
  onDelete := SqlRow.onDelete
  restricts := fun parent child => child.refersTo parent .RESTRICT
  onUpdate := SqlRow.onUpdate

/-- `runWithTenant`, at the beginning of `fn`: `set_config('app.current_org_id', …, true)`. -/
def runWithTenant (organizationId : JsString) (rows : List SqlRow) :
    Transaction SqlRow (Option JsString) :=
  .start rows (some organizationId)

/-! ### Whose row is it? -/

/-- The row carries another organization's id, or is another organization itself, or it is a
comment, an attachment or a label link of another organization's issue. -/
def foreignTo (organizationId : JsString) (rows : List SqlRow) (row : SqlRow) : Bool :=
  row.organizationId.any (· != organizationId) ||
  (row.table == .organizations && row.id != some organizationId) ||
  row.issueId.any fun issueId => rows.any fun r =>
    match r with
    | .issue i => i.id == issueId && i.organizationId != organizationId
    | _ => false

/-! ### What the policies cover -/

/-- The tables that row-level security leaves open. -/
theorem policy_eq_none_iff {table : SqlTable} :
    pm_app.policy table = none ↔ table ∈ [SqlTable.users, .refresh_tokens, .issue_labels,
      .comments, .mentions, .attachments, .subscriptions] := by
  cases table <;> decide

/-- The policies are forced where they are enabled: they bind the owner like everybody else. -/
theorem owner_policy (table : SqlTable) :
    (DbRole.mk false false true).policy table = pm_app.policy table := by
  cases table <;> rfl

theorem pm_app_policy (table : SqlTable) :
    pm_app.policy table = (policyColumn table).map tenantIsolation := rfl

theorem admits_of_column {row : SqlRow} {column : SqlRow → Option JsString}
    {organizationId : JsString} (hne : organizationId ≠ [])
    (hcolumn : policyColumn row.table = some column) :
    admits pm_app.catalog (some organizationId) row = (column row == some organizationId) := by
  have hpolicy : pm_app.catalog.policy (pm_app.catalog.table row) =
      some (tenantIsolation column) := by
    show pm_app.policy row.table = some (tenantIsolation column)
    rw [pm_app_policy, hcolumn, Option.map_some]
  have horg : appCurrentOrg (some organizationId) = some organizationId := by
    rw [appCurrentOrg, truthy, Option.filter_some, if_pos (decide_eq_true hne)]
  simp only [admits, hpolicy, tenantIsolation, horg]

/-- What carries an organization's id hangs on no issue. -/
theorem issueId_of_tenantTables {row : SqlRow} (h : row.table ∈ tenantTables) :
    row.issueId = none ∧ row.table ≠ .organizations := by
  have htable : row.table ≠ .organizations := fun heq => by
    rw [heq] at h
    exact absurd h (by decide)
  refine ⟨?_, htable⟩
  cases row with
  | issueLabel _ | comment _ | attachment _ => simp [SqlRow.table, tenantTables] at h
  | _ => rfl

/-- **The policies keep other organizations' rows out.** -/
theorem policies_shield {organizationId : JsString} (hne : organizationId ≠ []) :
    Shields pm_app.catalog (some organizationId) (foreignTo organizationId) := by
  intro rows row hpolicy hadmits
  by_cases htenant : row.table ∈ tenantTables
  · rw [admits_of_column hne (if_pos htenant), beq_iff_eq] at hadmits
    obtain ⟨hissue, htable⟩ := issueId_of_tenantTables htenant
    simp [foreignTo, hadmits, hissue, htable]
  · by_cases htable : row.table = .organizations
    · have hcolumn : policyColumn row.table = some SqlRow.id := by
        rw [policyColumn, if_neg htenant, if_pos htable]
      rw [admits_of_column hne hcolumn, beq_iff_eq] at hadmits
      cases row with
      | organization o =>
          simp only [foreignTo, hadmits, bne_self_eq_false, Bool.and_false, Bool.or_false]
          rfl
      | _ => cases htable
    · refine absurd ?_ hpolicy
      show pm_app.policy row.table = none
      rw [pm_app_policy, policyColumn, if_neg htenant, if_neg htable, Option.map_none]

/-- **No row of another organization is reached**: none is returned, updated or deleted by the
statements of a transaction of one organization, if they leave the setting as it is, spare the rows
of others in the tables without a policy, and delete or rekey no row that a row of another
organization refers to. -/
theorem tenant_confined {organizationId : JsString} (hne : organizationId ≠ [])
    {rows : List SqlRow} {statements : List (Statement SqlTable SqlRow (Option JsString))}
    {t : Transaction SqlRow (Option JsString)}
    (hrun : Run (Guarded (Steps (fun _ _ => True) (Transaction.next pm_app.catalog))
      fun t statement => t.aborted = false → Confined pm_app.catalog (some organizationId)
        (foreignTo organizationId) t.setting t.rows statement)
      (runWithTenant organizationId rows) statements t) :
    ∀ entry ∈ t.journal, foreignTo organizationId entry.1 entry.2 = false :=
  Transaction.confined (policies_shield hne) hrun

/-! ### Two tenants -/

namespace RunWithTenant.Samples

def ownId : JsString := js "corg"
def otherId : JsString := js "cother"

def subscriptionOf (id organizationId : JsString) : SqlRow :=
  .subscription ⟨id, organizationId, none, none, .FREE, .ACTIVE, 1, none, false, 0⟩

def issueOf (id organizationId : JsString) : SqlRow :=
  .issue ⟨id, organizationId, js "cproject", 1, js "Task", none, .TODO, .NONE, js "V", js "cuser",
    none, none, 0, 0⟩

def commentOn (id issueId : JsString) : SqlRow :=
  .comment ⟨id, issueId, js "cuser", js "Hello", 0, 0⟩

def rows : List SqlRow :=
  [subscriptionOf (js "cs1") ownId, subscriptionOf (js "cs2") otherId, issueOf (js "ci1") ownId,
    issueOf (js "ci2") otherId, commentOn (js "cc1") (js "ci1"), commentOn (js "cc2") (js "ci2")]

/-- `SELECT * FROM issues`, `SELECT * FROM subscriptions WHERE "organizationId" = 'corg'`,
`DELETE FROM issues WHERE id = 'ci1'`. -/
def careful : List (Statement SqlTable SqlRow (Option JsString)) :=
  [.select .issues fun _ _ => true,
    .select .subscriptions fun _ r => r.organizationId == some ownId,
    .delete .issues fun _ r => r.id == some (js "ci1")]

/-- `SELECT * FROM subscriptions`, `DELETE FROM comments`. -/
def careless : List (Statement SqlTable SqlRow (Option JsString)) :=
  [.select .subscriptions fun _ _ => true, .delete .comments fun _ _ => true]

def play (statements : List (Statement SqlTable SqlRow (Option JsString))) :
    Transaction SqlRow (Option JsString) :=
  statements.foldl (Transaction.next pm_app.catalog) (runWithTenant ownId rows)

end RunWithTenant.Samples

open RunWithTenant.Samples in
theorem tenant_confined_own :
    (play careful).journal.map (fun entry => entry.2.id) =
      [js "ci1", js "cs1", js "ci1", js "cc1"].map some ∧
    ∀ entry ∈ (play careful).journal, foreignTo ownId entry.1 entry.2 = false :=
  ⟨by decide, tenant_confined (by decide) (Along.guarded (by decide))⟩

open RunWithTenant.Samples in
/-- The subscription and the comment of the other organization are reached. -/
theorem other_tenant_reached :
    Run (Steps (fun _ _ => True) (Transaction.next pm_app.catalog)) (runWithTenant ownId rows)
      careless (play careless) ∧
    ((play careless).journal.filter fun entry => foreignTo ownId entry.1 entry.2).map Prod.snd =
      [subscriptionOf (js "cs2") otherId, commentOn (js "cc2") (js "ci2")] ∧
    commentOn (js "cc2") (js "ci2") ∉ (play careless).rows :=
  ⟨Along.run (by decide), by decide, by decide⟩

end PmSaas
