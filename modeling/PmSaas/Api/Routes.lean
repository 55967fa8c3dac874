import PmSaas.Attachments.AttachmentsService
import PmSaas.Billing.BillingService
import PmSaas.Common.Guards
import PmSaas.Issues.IssueReads
import PmSaas.Lib.TransitionSystem
import PmSaas.Notifications.NotificationsService
import PmSaas.Orgs.OrgsService
import PmSaas.Projects.ProjectsService

/-!
# The HTTP API

`TenantRead` and `TenantWrite` are the tenant-scoped routes, with the metadata of their decorators;
`ApiCall` is everything that can change the world: the routes, a client's upload to the bucket and
the notification worker.  Requests are served one at a time.
-/

namespace PmSaas

/-- The settings of all services. -/
structure ApiEnv where
  auth : Env
  billing : BillingEnv

/-! ### Tenant-scoped routes that read -/

inductive TenantRead where
  | listIssues (projectKey : JsString) (filter : IssueFilter)
  | getIssue (projectKey : JsString) (number : ℤ)
  | listProjects
  | getProject (projectKey : JsString)
  | listMembers
  | listInvites
  | listAttachments (issueId : JsString)

inductive Answer where
  | issues (rows : List IssueView)
  | issue (detail : IssueDetail)
  | projects (rows : List ProjectSummary)
  | project (row : Project) (team : Option TeamView)
  | members (rows : List MemberView)
  | invites (rows : List OrgsService.InviteView)
  | attachments (rows : List AttachmentView)
  deriving DecidableEq, Repr

namespace TenantRead

def metadata : TenantRead → RouteMetadata
  | .listInvites => { permissions := [.memberInvite] }
  | _ => {}

/-- The handler of the route; `ilike` is the database's. -/
def handler (ilike : JsString → JsString → Bool) (request : TenantRead)
    (organizationId : JsString) : Service Answer :=
  match request with
  | .listIssues projectKey filter => do
      let rows ← IssuesService.list ilike organizationId projectKey filter
      pure (.issues rows)
  | .getIssue projectKey number => do
      let detail ← IssuesService.getByNumber organizationId projectKey number
      pure (.issue detail)
  | .listProjects => do
      let rows ← ProjectsService.list organizationId
      pure (.projects rows)
  | .getProject projectKey => do
      let (row, team) ← ProjectsService.getByKey organizationId projectKey
      pure (.project row team)
  | .listMembers => do
      let rows ← OrgsService.listMembers organizationId
      pure (.members rows)
  | .listInvites => do
      let rows ← OrgsService.listInvites organizationId
      pure (.invites rows)
  | .listAttachments issueId => do
      let rows ← AttachmentsService.list organizationId issueId
      pure (.attachments rows)

/-- The whole route: guards, then handler. -/
def serve (ilike : JsString → JsString → Bool) (user : AuthUser) (orgSlug : JsString)
    (request : TenantRead) : Service Answer :=
  tenantScoped user orgSlug request.metadata (request.handler ilike)

end TenantRead

/-! ### Tenant-scoped routes that write -/

inductive TenantWrite where
  | createIssue (projectKey : JsString) (input : CreateIssueInput)
  | updateIssue (issueId : JsString) (input : UpdateIssueInput)
  | moveIssue (issueId : JsString) (input : MoveIssueInput)
  | removeIssue (issueId : JsString)
  | createProject (input : CreateProjectInput)
  | addMember (email : JsString) (role : GrantableRole)
  | updateMemberRole (userId : JsString) (role : GrantableRole)
  | removeMember (userId : JsString)
  | presign (issueId : JsString) (input : PresignAttachmentInput)
  | confirm (issueId : JsString) (input : ConfirmAttachmentInput)
  | removeAttachment (storageUp : Bool) (issueId attachmentId : JsString)
  | createCheckout (stripe : Stripe) (plan : PaidPlan)

namespace TenantWrite

def metadata : TenantWrite → RouteMetadata
  | .createIssue _ _ => { permissions := [.issueCreate] }
  | .updateIssue _ _ => { permissions := [.issueUpdate] }
  | .moveIssue _ _ => { permissions := [.issueUpdate] }
  | .removeIssue _ => { permissions := [.issueDelete] }
  | .createProject _ => { permissions := [.projectCreate] }
  | .addMember _ _ => { permissions := [.memberInvite] }
  | .updateMemberRole _ _ => { permissions := [.memberUpdateRole] }
  | .removeMember _ => { permissions := [.memberRemove] }
  | .presign _ _ => { permissions := [.attachmentUpload] }
  | .confirm _ _ => { permissions := [.attachmentUpload] }
  | .removeAttachment _ _ _ => { permissions := [.attachmentUpload] }
  | .createCheckout _ _ => { permissions := [.orgManageBilling] }

/-- The world after the handler of the route ran. -/
def exec (env : ApiEnv) (call : TenantWrite) (organizationId actorId : JsString) (g : Gen)
    (w : World) : World :=
  match call with
  | .createIssue projectKey input =>
      (IssuesService.create organizationId actorId projectKey input g w).2
  | .updateIssue issueId input => (IssuesService.update organizationId actorId issueId input g w).2
  | .moveIssue issueId input => (IssuesService.move organizationId actorId issueId input g w).2
  | .removeIssue issueId => (IssuesService.remove organizationId actorId issueId g w).2
  | .createProject input => (ProjectsService.create organizationId actorId input g w).2
  | .addMember email role =>
      (OrgsService.addMember env.auth organizationId actorId email role g w).2
  | .updateMemberRole userId role =>
      (OrgsService.updateMemberRole organizationId actorId userId role g w).2
  | .removeMember userId => (OrgsService.removeMember organizationId actorId userId g w).2
  | .presign issueId input => (AttachmentsService.presign organizationId issueId input g w).2
  | .confirm issueId input => (AttachmentsService.confirm organizationId actorId issueId input g w).2
  | .removeAttachment storageUp issueId attachmentId =>
      (AttachmentsService.remove storageUp organizationId actorId issueId attachmentId g w).2
  | .createCheckout stripe plan =>
      (BillingService.createCheckout env.billing stripe organizationId plan g.now w).2

/-- The whole route: guards, then handler. -/
def serve (env : ApiEnv) (user : AuthUser) (orgSlug : JsString) (call : TenantWrite) (g : Gen) :
    Service Unit :=
  tenantScoped user orgSlug call.metadata fun organizationId w =>
    (.ok (), call.exec env organizationId user.sub g w)

end TenantWrite

/-! ### Everything that can happen -/

inductive ApiCall where
  | register (input : RegisterInput) (device : DeviceInfo)
  | login (input : LoginInput) (device : DeviceInfo)
  | refresh (token : JsString) (device : DeviceInfo)
  | logout (token : Option JsString)
  | createOrg (user : AuthUser) (input : CreateOrgInput)
  | acceptInvite (user : AuthUser) (token : JsString)
  | tenant (user : AuthUser) (orgSlug : JsString) (call : TenantWrite)
  | markRead (user : AuthUser) (ids : List JsString)
  | markAllRead (user : AuthUser)
  | updatePrefs (user : AuthUser) (prefs : NotificationPrefsInput)
  | webhook (event : Except Exn StripeEvent)
  /-- A client uses a presigned URL. -/
  | upload (url : UploadUrl)
  /-- The worker takes a queued job; a job may be tried again, so it stays in the queue. -/
  | work (job : NotificationJob)

namespace ApiCall

def exec (env : ApiEnv) (g : Gen) : ApiCall → World → World
  | .register input device, w => (AuthService.register env.auth input device g w).2
  | .login input device, w => (AuthService.login env.auth input device g w).2
  | .refresh token device, w => (AuthService.refresh env.auth token device g w).2
  | .logout token, w => (AuthService.logout env.auth token g w).2
  | .createOrg user input, w => (OrgsService.create user.sub input g w).2
  | .acceptInvite user token, w => (OrgsService.acceptInvite user.sub user.email token g w).2
  | .tenant user orgSlug call, w => (call.serve env user orgSlug g w).2
  | .markRead user ids, w => (NotificationsService.markRead user.sub ids g.now w).2
  | .markAllRead user, w => (NotificationsService.markAllRead user.sub g.now w).2
  | .updatePrefs user prefs, w => (NotificationsService.updatePrefs user.sub prefs g.now w).2
  | .webhook event, w => (BillingService.handleWebhook env.billing event g w).2
  | .upload url, w => StorageService.putObject url w
  | .work job, w => if job ∈ w.queue then (NotificationsProcessor.process job g w).2 else w

/-- Who a call is made by, when it is made by somebody. -/
def user : ApiCall → Option AuthUser
  | .createOrg user _ => some user
  | .acceptInvite user _ => some user
  | .tenant user _ _ => some user
  | .markRead user _ => some user
  | .markAllRead user => some user
  | .updatePrefs user _ => some user
  | _ => none

end ApiCall

/-- One call served, with the values the environment supplies to it. -/
def ApiStep (env : ApiEnv) (w : World) (call : ApiCall × Gen) (w' : World) : Prop :=
  w' = call.1.exec env call.2 w

/-- What the API does with a call. -/
def ApiCall.next (env : ApiEnv) (w : World) (call : ApiCall × Gen) : World :=
  call.1.exec env call.2 w

/-- The world after calls that are served one after the other. -/
def ApiCall.serveAll (env : ApiEnv) (w : World) (calls : List (ApiCall × Gen)) : World :=
  calls.foldl (fun w call => call.1.exec env call.2 w) w

theorem ApiCall.serveAll_run (env : ApiEnv) (w : World) (calls : List (ApiCall × Gen)) :
    TransitionSystem.Run (ApiStep env) w calls (ApiCall.serveAll env w calls) := by
  induction calls generalizing w with
  | nil => exact .nil
  | cons call calls ih => exact .cons rfl (ih _)

/-- A tenant-scoped write changes nothing, or its handler runs for the organization of a membership
of the caller. -/
theorem TenantWrite.serve_cases (env : ApiEnv) (user : AuthUser) (orgSlug : JsString)
    (call : TenantWrite) (g : Gen) (w : World) :
    (call.serve env user orgSlug g w).2 = w ∨
    ∃ m, w.db.findMembershipBySlug user.sub orgSlug = some m ∧
      (∀ p ∈ call.metadata.permissions, can m.role p = true) ∧
      (call.serve env user orgSlug g w).2 = call.exec env m.organizationId user.sub g w := by
  rcases tenantScoped_cases user orgSlug call.metadata
    (fun organizationId w => (.ok (), call.exec env organizationId user.sub g w)) w with
    ⟨e, h⟩ | ⟨m, hm, hp, h⟩
  · exact .inl (congrArg Prod.snd h)
  · exact .inr ⟨m, hm, hp, congrArg Prod.snd h⟩

end PmSaas
