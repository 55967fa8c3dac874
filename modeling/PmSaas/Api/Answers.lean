import PmSaas.Api.Routes

/-!
# Calls with their answers

`ApiCall.exec` is what a call leaves behind; `ApiCall.serve` is the same call together with what it
answers, a value (which nothing here reads) or the error it throws.
-/

namespace PmSaas

namespace Service

/-- The answer without its value. -/
def forget {α : Type} (s : Service α) : Service Unit := do
  let _ ← s
  pure ()

theorem forget_apply {α : Type} (s : Service α) (w : World) :
    s.forget w = ((s w).1.map fun _ => (), (s w).2) := by
  rw [forget, bind_apply]
  rcases s w with ⟨_ | _, w'⟩ <;> rfl

theorem forget_world {α : Type} (s : Service α) (w : World) : (s.forget w).2 = (s w).2 := by
  rw [forget_apply]

end Service

/-- The handler of a tenant-scoped route. -/
def TenantWrite.handler (env : ApiEnv) (call : TenantWrite) (organizationId actorId : JsString)
    (g : Gen) : Service Unit :=
  match call with
  | .createIssue projectKey input =>
      (IssuesService.create organizationId actorId projectKey input g).forget
  | .updateIssue issueId input =>
      (IssuesService.update organizationId actorId issueId input g).forget
  | .moveIssue issueId input => (IssuesService.move organizationId actorId issueId input g).forget
  | .removeIssue issueId => IssuesService.remove organizationId actorId issueId g
  | .createProject input => (ProjectsService.create organizationId actorId input g).forget
  | .addMember email role =>
      (OrgsService.addMember env.auth organizationId actorId email role g).forget
  | .updateMemberRole userId role =>
      (OrgsService.updateMemberRole organizationId actorId userId role g).forget
  | .removeMember userId => OrgsService.removeMember organizationId actorId userId g
  | .presign issueId input => (AttachmentsService.presign organizationId issueId input g).forget
  | .confirm issueId input =>
      (AttachmentsService.confirm organizationId actorId issueId input g).forget
  | .removeAttachment storageUp issueId attachmentId =>
      AttachmentsService.remove storageUp organizationId actorId issueId attachmentId g
  | .createCheckout stripe plan =>
      (BillingService.createCheckout env.billing stripe organizationId plan g.now).forget

theorem TenantWrite.handler_world (env : ApiEnv) (call : TenantWrite)
    (organizationId actorId : JsString) (g : Gen) (w : World) :
    (call.handler env organizationId actorId g w).2 = call.exec env organizationId actorId g w := by
  cases call with
  | removeIssue issueId => rfl
  | removeMember userId => rfl
  | removeAttachment storageUp issueId attachmentId => rfl
  | _ => exact Service.forget_world ..

/-- A guarded route leaves behind what its handler does. -/
theorem tenantScoped_world {α β : Type} (user : AuthUser) (orgSlug : JsString)
    (metadata : RouteMetadata) {f : JsString → Service α} {f' : JsString → Service β} {w : World}
    (h : ∀ organizationId, (f organizationId w).2 = (f' organizationId w).2) :
    (tenantScoped user orgSlug metadata f w).2 = (tenantScoped user orgSlug metadata f' w).2 := by
  have hleft := tenantScoped_apply user orgSlug metadata f w
  have hright := tenantScoped_apply user orgSlug metadata f' w
  rw [hleft, hright]
  split
  · rfl
  · cases w.db.findMembershipBySlug user.sub orgSlug with
    | none => rfl
    | some m =>
        dsimp only
        cases RbacGuard.canActivate metadata (some m.role) with
        | error e => rfl
        | ok u => exact h m.organizationId

namespace ApiCall

/-- The call with its answer. -/
def serve (env : ApiEnv) (g : Gen) : ApiCall → Service Unit
  | .register input device => (AuthService.register env.auth input device g).forget
  | .login input device => (AuthService.login env.auth input device g).forget
  | .refresh token device => (AuthService.refresh env.auth token device g).forget
  | .logout token => AuthService.logout env.auth token g
  | .createOrg user input => (OrgsService.create user.sub input g).forget
  | .acceptInvite user token => (OrgsService.acceptInvite user.sub user.email token g).forget
  | .tenant user orgSlug call =>
      tenantScoped user orgSlug call.metadata fun organizationId =>
        call.handler env organizationId user.sub g
  | .markRead user ids => (NotificationsService.markRead user.sub ids g.now).forget
  | .markAllRead user => (NotificationsService.markAllRead user.sub g.now).forget
  | .updatePrefs user prefs => (NotificationsService.updatePrefs user.sub prefs g.now).forget
  | .webhook event => BillingService.handleWebhook env.billing event g
  | .upload url => fun w => (.ok (), StorageService.putObject url w)
  | .work job => fun w => if job ∈ w.queue then NotificationsProcessor.process job g w else (.ok (), w)

theorem serve_world (env : ApiEnv) (g : Gen) (call : ApiCall) (w : World) :
    (call.serve env g w).2 = call.exec env g w := by
  cases call with
  | logout token => rfl
  | tenant user orgSlug call =>
      exact tenantScoped_world _ _ _ fun organizationId =>
        call.handler_world env organizationId user.sub g w
  | webhook event => rfl
  | upload url => rfl
  | work job =>
      simp only [serve, exec]
      split
      · rfl
      · rfl
  | _ => exact Service.forget_world ..

end ApiCall

end PmSaas
