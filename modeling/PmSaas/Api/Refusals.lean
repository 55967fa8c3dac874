import PmSaas.Api.Answers
import PmSaas.Common.Refusals

/-!
# A refused request leaves nothing behind

`refused_leaves_nothing`: whatever the world and whatever is drawn, a request that is answered with
a status of its own (400, 401, 403, 404, 409, 503) has changed nothing.  There are two exceptions.
A `refresh` with a token that is revoked or expired revokes its family, and a checkout that is
refused later keeps the customer it has created at Stripe.

Most methods make one write after all their checks, and for them the same holds of every error.
-/

namespace PmSaas

open Table

/-! ### The methods of the tenant's routes -/

section Methods

variable {g : Gen} {organizationId actorId : JsString} {w : World} {kind : Exn → Prop}

namespace IssuesService

theorem create_clean (projectKey : JsString) (input : CreateIssueInput) :
    (create organizationId actorId projectKey input g).Clean kind w := by
  cases hp : w.db.findProject organizationId projectKey with
  | none => exact .of_world (by rw [create, resolveProject_bind, hp])
  | some project =>
      refine .of_eq (by rw [create, resolveProject_bind, hp]) (.exec fun issue _ _ => .record ?_)
      refine .bind (.of_ok rfl) fun _ _ _ => ?_
      cases truthy issue.assigneeId with
      | none => exact .pure _
      | some recipientId => exact .of_ok rfl

theorem update_clean (issueId : JsString) (input : UpdateIssueInput) :
    (update organizationId actorId issueId input g).Clean kind w := by
  refine .query (.orThrow fun before _ => .exec fun row _ _ => .record ?_)
  refine .bind (.of_ok rfl) fun _ _ _ => ?_
  cases connectedUser input with
  | none => exact .pure _
  | some recipientId =>
      dsimp only
      split
      · exact .pure _
      · exact .of_ok rfl

theorem move_clean (issueId : JsString) (input : MoveIssueInput) :
    (move organizationId actorId issueId input g).Clean kind w :=
  .query (.orThrow fun _ _ => .query (.query (.compute fun _ => .exec fun _ _ _ =>
    .record (.of_ok rfl))))

theorem remove_clean (issueId : JsString) :
    (remove organizationId actorId issueId g).Clean kind w :=
  .query (.orThrow fun _ _ => .exec fun _ _ _ => .record (.of_ok rfl))

end IssuesService

theorem ProjectsService.create_clean (input : CreateProjectInput) :
    (create organizationId actorId input g).Clean kind w := by
  refine .query (.throwIf fun _ => ?_)
  by_cases hteam : ((truthy input.teamId).all fun id =>
      (w.db.findTeam organizationId id).isSome) = true
  · exact .of_eq (by rw [checkTeam_bind, if_pos hteam])
      (.exec fun _ _ _ => .record (.of_ok rfl))
  · exact .of_world (by rw [checkTeam_bind, if_neg hteam])

namespace OrgsService

/-- Of an invite the name of the organization is read after the write. -/
theorem addMember_clean (env : Env) (email : JsString) (role : GrantableRole)
    (horg : kind (.prisma .recordNotFound) → ∃ o ∈ w.db.organizations, o.id = organizationId) :
    (addMember env organizationId actorId email role g).Clean kind w := by
  refine .query ?_
  cases w.db.findUserByEmail (JsString.toLowerCase email) with
  | some user => exact .exec fun _ _ _ => .record (.of_ok rfl)
  | none =>
      refine .exec fun invite db hi => .orThrow (fun hnone hkind => ?_) fun org _ =>
        .bind (.of_ok rfl) fun _ _ _ => .record (.of_ok rfl)
      have hsame : db.organizations = w.db.organizations := by
        rcases Db.upsertInvite_ok hi with rfl | rfl <;> rfl
      obtain ⟨o, ho, hid⟩ := horg hkind
      have hother := List.find?_eq_none.1 hnone o (hsame ▸ ho)
      exact hother (beq_iff_eq.2 hid)

theorem updateMemberRole_clean (targetUserId : JsString) (role : GrantableRole) :
    (updateMemberRole organizationId actorId targetUserId role g).Clean kind w :=
  .query (.orThrow fun _ _ => .throwIf fun _ => .exec fun _ _ _ => .record (.of_ok rfl))

theorem removeMember_clean (targetUserId : JsString) :
    (removeMember organizationId actorId targetUserId g).Clean kind w :=
  .query (.orThrow fun _ _ => .throwIf fun _ => .exec fun _ _ _ => .of_ok (by
    rw [Service.record_apply]))

end OrgsService

namespace AttachmentsService

theorem resolveIssue_clean {β : Type} {issueId : JsString} {k : Issue → Service β}
    (h : ∀ issue, (k issue).Clean kind w) :
    (resolveIssue organizationId issueId >>= k).Clean kind w := by
  cases hi : w.db.findIssue organizationId issueId with
  | none => exact .of_world (by rw [resolveIssue_bind, hi])
  | some issue => exact .of_eq (by rw [resolveIssue_bind, hi]) (h issue)

theorem confirm_clean (issueId : JsString) (input : ConfirmAttachmentInput) :
    (confirm organizationId actorId issueId input g).Clean kind w :=
  resolveIssue_clean fun _ => .throwIf fun _ => .exec fun _ _ _ => .record (.of_ok rfl)

theorem remove_clean (storageUp : Bool) (issueId attachmentId : JsString) :
    (remove storageUp organizationId actorId issueId attachmentId g).Clean kind w :=
  resolveIssue_clean fun _ => .query (.orThrow fun _ _ => .exec fun _ _ _ => .of_ok (by
    rw [StorageService.delete_bind, Service.record_apply]))

end AttachmentsService

end Methods

/-! ### The other methods -/

section Calls

variable {g : Gen} {w : World} {kind : Exn → Prop}

namespace TokenService

/-- The token is revoked, or it has expired. -/
def Spent (token : JsString) (now : Date) (db : Db) (familyId : JsString) : Prop :=
  ∃ existing user, db.findRefreshTokenWithUser (hash token) = some (existing, user) ∧
    (existing.revokedAt.isSome || existing.expiresAt < now) = true ∧ existing.familyId = familyId

theorem issueForUser_clean (env : Env) (user : AuthUser) (device : DeviceInfo) :
    (issueForUser env user device g).Clean kind w := by
  rcases createRefresh_cases env g user (nanoid g) device w.db with ⟨code, h⟩ | ⟨h, -⟩
  · exact .of_world (by
      simp only [issueForUser, Service.bind_apply, call, exec, step, h, Pc.answer])
  · intro e he
    simp only [issueForUser, Service.bind_apply, call, exec, step, h, Pc.answer] at he
    cases he

theorem issueForUser_spares (env : Env) (user : AuthUser) (device : DeviceInfo) :
    (issueForUser env user device g).Spares Exn.Refusal w := by
  intro e he
  rcases createRefresh_cases env g user (nanoid g) device w.db with ⟨code, h⟩ | ⟨h, -⟩
  · simp only [issueForUser, Service.bind_apply, call, exec, step, h, Pc.answer] at he
    cases he
    exact Exn.not_refusal_prisma code
  · simp only [issueForUser, Service.bind_apply, call, exec, step, h, Pc.answer] at he
    cases he

/-- `rotate` refuses an unknown token, or it revokes the family of a spent one. -/
theorem rotate_refusal (env : Env) (token : JsString) (device : DeviceInfo) {e : Exn}
    (he : (rotate env token device g w).1 = .error e) (hrefusal : e.Refusal) :
    ((rotate env token device g w).2 = w ∧ ∀ familyId, ¬Spent token g.now w.db familyId) ∨
    ∃ familyId, Spent token g.now w.db familyId ∧
      (rotate env token device g w).2 = { w with db := w.db.revokeFamily familyId g.now } := by
  cases hfound : w.db.findRefreshTokenWithUser (hash token) with
  | none =>
      refine .inl ⟨?_, fun familyId ⟨_, _, hsome, _⟩ => ?_⟩
      · simp only [rotate, Service.bind_apply, call, exec, step, hfound, Pc.answer]
      · rw [hfound] at hsome
        cases hsome
  | some found =>
      obtain ⟨existing, user⟩ := found
      by_cases hspent : (existing.revokedAt.isSome || existing.expiresAt < g.now) = true
      · refine .inr ⟨existing.familyId, ⟨existing, user, hfound, hspent, rfl⟩, ?_⟩
        simp only [rotate, Service.bind_apply, call, exec, step, hfound, if_pos hspent, Pc.answer]
      · -- the token is usable: only the database can still throw
        have hpresent : w.db.refreshTokens.any (·.id == existing.id) = true :=
          List.any_eq_true.2 ⟨existing, (Db.mem_of_findRefreshTokenWithUser hfound).1, by simp⟩
        have hrevoke : w.db.revokeToken existing.id g.now =
            .ok ((), w.db.markRevoked existing.id g.now) := if_pos hpresent
        rcases createRefresh_cases env g user existing.familyId device
          (w.db.markRevoked existing.id g.now) with ⟨code, h⟩ | ⟨h, -⟩
        · simp only [rotate, Service.bind_apply, call, exec, step, hfound, if_neg hspent, hrevoke,
            h, Pc.answer] at he
          cases he
          exact absurd hrefusal (Exn.not_refusal_prisma code)
        · simp only [rotate, Service.bind_apply, call, exec, step, hfound, if_neg hspent, hrevoke,
            h, Pc.answer] at he
          cases he

theorem revoke_returns (env : Env) (token : JsString) : (revoke env token g w).1 = .ok () := by
  cases hfound : w.db.findRefreshToken (hash token) with
  | none => simp only [revoke, Service.bind_apply, call, exec, step, hfound, Pc.answer,
      Service.pure_apply]
  | some existing => simp only [revoke, Service.bind_apply, call, exec, step, hfound, Pc.answer,
      Service.pure_apply]

end TokenService

namespace AuthService

theorem createOrgForUser_spares (userId name : JsString) :
    (createOrgForUser userId name g).Spares Exn.Refusal w := by
  rw [createOrgForUser]
  generalize (if slugify name = [] then js "org" else slugify name) = base
  refine .exec (fun e he => ?_) fun _ _ _ => .of_ok (by rw [Service.record_apply])
  unfold Db.createOrganization at he
  split_ifs at he
  · cases he
    exact Exn.not_refusal_prisma _
  · cases he
    exact Exn.not_refusal_prisma _

/-- Behind the user's row only the database can throw. -/
theorem register_clean (env : Env) (input : RegisterInput) (device : DeviceInfo) :
    (register env input device g).Clean Exn.Refusal w := by
  unfold register
  refine .query (.throwIf fun _ => .exec fun user db hu => ?_)
  cases truthy input.orgName with
  | none => exact .bind (TokenService.issueForUser_spares _ _ _) fun _ _ _ => .pure _
  | some name =>
      exact .bind (createOrgForUser_spares _ _) fun _ _ _ =>
        .bind (TokenService.issueForUser_spares _ _ _) fun _ _ _ => .pure _

theorem login_clean (env : Env) (input : LoginInput) (device : DeviceInfo) :
    (login env input device g).Clean kind w :=
  .query (.orThrow fun _ _ => (TokenService.issueForUser_clean _ _ _).map _)

end AuthService

namespace OrgsService

theorem create_clean (userId : JsString) (input : CreateOrgInput) :
    (create userId input g).Clean kind w :=
  .query (.throwIf fun _ => .exec fun _ _ _ => .record (.of_ok rfl))

theorem acceptInvite_clean (userId userEmail token : JsString) :
    (acceptInvite userId userEmail token g).Clean kind w :=
  .query (.orThrow fun _ _ => .throwIf fun _ => .exec fun _ _ _ => .record (.of_ok rfl))

end OrgsService

theorem NotificationsService.updatePrefs_clean (userId : JsString) (prefs : NotificationPrefsInput)
    (now : Date) : (updatePrefs userId prefs now).Clean kind w := by
  intro e he hkind
  unfold updatePrefs Service.exec at he ⊢
  cases hu : w.db.updatePrefs userId prefs now with
  | error e' => rfl
  | ok r =>
      rw [hu] at he
      cases he

namespace BillingService

theorem reconcileSubscription_clean (env : BillingEnv) (sub : StripeSubscription) :
    (reconcileSubscription env sub g).Clean kind w := by
  refine .query ?_
  cases w.db.subscriptions.find? (·.stripeCustomerId == some sub.customer) with
  | none => exact .of_world rfl
  | some found => exact .exec fun _ _ _ => .of_ok (by rw [Service.record_apply])

theorem handleWebhook_clean (env : BillingEnv) (event : Except Exn StripeEvent) :
    (handleWebhook env event g).Clean kind w := by
  refine .throwIf fun _ => ?_
  cases event with
  | error e => exact .of_world rfl
  | ok event =>
      cases event with
      | other => exact .of_world rfl
      | _ => exact reconcileSubscription_clean env _

end BillingService

/-- The job of the worker. -/
theorem NotificationsProcessor.process_clean (job : NotificationJob) :
    (process job g).Clean kind w := by
  refine .exec fun _ db _ => ?_
  cases pref job.type with
  | none => exact .pure _
  | some pref =>
      dsimp only
      cases huser : (db.users.find? (·.id == job.recipientId)).filter pref with
      | none => exact .of_ok (by rw [Service.query_bind, huser]; rfl)
      | some user => exact .of_ok (by rw [Service.query_bind, huser]; rfl)

end Calls

/-! ### Requests -/

section Requests

variable {env : ApiEnv} {g : Gen} {w : World} {kind : Exn → Prop}

theorem Service.Clean.forget {α : Type} {s : Service α} (h : s.Clean kind w) :
    s.forget.Clean kind w :=
  h.map fun _ => ()

/-- The guards refuse before the handler starts. -/
theorem tenantScoped_clean {α : Type} {user : AuthUser} {orgSlug : JsString}
    {metadata : RouteMetadata} {handler : JsString → Service α}
    (h : ∀ m, w.db.findMembershipBySlug user.sub orgSlug = some m →
      (handler m.organizationId).Clean kind w) :
    (tenantScoped user orgSlug metadata handler).Clean kind w := by
  rcases tenantScoped_cases user orgSlug metadata handler w with ⟨e, he⟩ | ⟨m, hm, -, hrun⟩
  · exact .of_world (by rw [he])
  · exact .of_eq hrun (h m hm)

theorem TenantWrite.handler_clean {organizationId actorId : JsString} {write : TenantWrite}
    (hcheckout : ∀ stripe plan, write ≠ .createCheckout stripe plan)
    (horg : kind (.prisma .recordNotFound) → ∃ o ∈ w.db.organizations, o.id = organizationId) :
    (write.handler env organizationId actorId g).Clean kind w := by
  cases write with
  | createIssue projectKey input => exact (IssuesService.create_clean projectKey input).forget
  | updateIssue issueId input => exact (IssuesService.update_clean issueId input).forget
  | moveIssue issueId input => exact (IssuesService.move_clean issueId input).forget
  | removeIssue issueId => exact IssuesService.remove_clean issueId
  | createProject input => exact (ProjectsService.create_clean input).forget
  | addMember email role => exact (OrgsService.addMember_clean env.auth email role horg).forget
  | updateMemberRole userId role => exact (OrgsService.updateMemberRole_clean userId role).forget
  | removeMember userId => exact OrgsService.removeMember_clean userId
  | presign issueId input =>
      exact (Service.Clean.of_world (AttachmentsService.presign_world ..)).forget
  | confirm issueId input => exact (AttachmentsService.confirm_clean issueId input).forget
  | removeAttachment storageUp issueId attachmentId =>
      exact AttachmentsService.remove_clean storageUp issueId attachmentId
  | createCheckout stripe plan => exact absurd rfl (hcheckout stripe plan)

/-- The call makes one write at most. -/
def ApiCall.Single : ApiCall → Prop
  | .register _ _ => False
  | .refresh _ _ => False
  | .tenant _ _ (.createCheckout _ _) => False
  | _ => True

/-- The organizations of members exist, as far as it matters for the errors of the kind. -/
theorem ApiCall.clean {call : ApiCall} (hsingle : call.Single)
    (horg : kind (.prisma .recordNotFound) →
      ∀ m ∈ w.db.memberships, ∃ o ∈ w.db.organizations, o.id = m.organizationId) :
    (call.serve env g).Clean kind w := by
  cases call with
  | register input device => exact hsingle.elim
  | login input device => exact (AuthService.login_clean env.auth input device).forget
  | refresh token device => exact hsingle.elim
  | logout token =>
      rw [serve, AuthService.logout]
      cases truthy token with
      | none => exact .of_world rfl
      | some token =>
          intro e he
          rw [TokenService.revoke_returns] at he
          cases he
  | createOrg user input => exact (OrgsService.create_clean user.sub input).forget
  | acceptInvite user token =>
      exact (OrgsService.acceptInvite_clean user.sub user.email token).forget
  | tenant user orgSlug write =>
      refine tenantScoped_clean fun m hm => TenantWrite.handler_clean ?_ fun hkind =>
        horg hkind m (Db.findMembershipBySlug_some hm).1
      rintro stripe plan rfl
      exact hsingle
  | markRead user ids => exact fun e he => by cases he
  | markAllRead user => exact fun e he => by cases he
  | updatePrefs user prefs =>
      exact (NotificationsService.updatePrefs_clean user.sub prefs g.now).forget
  | webhook event => exact BillingService.handleWebhook_clean env.billing event
  | upload url => exact fun e he => by cases he
  | work job =>
      by_cases hqueued : job ∈ w.queue
      · exact .of_eq (if_pos hqueued) (NotificationsProcessor.process_clean job)
      · exact .of_world (congrArg Prod.snd (if_neg hqueued))

/-- What a refused call leaves behind. -/
def ApiCall.Refused (g : Gen) (w : World) : ApiCall → World → Prop
  | .refresh token _, w' => (w' = w ∧ ∀ familyId, ¬TokenService.Spent token g.now w.db familyId) ∨
      ∃ familyId, TokenService.Spent token g.now w.db familyId ∧
        w' = { w with db := w.db.revokeFamily familyId g.now }
  | .tenant user orgSlug (.createCheckout stripe _), w' => w' = w ∨
      ∃ m name customerId db, w.db.findMembershipBySlug user.sub orgSlug = some m ∧
        stripe.createCustomer name m.organizationId = .ok customerId ∧
        truthy ((w.db.findSubscription m.organizationId).bind Subscription.stripeCustomerId) = none ∧
        w.db.setCustomer m.organizationId customerId g.now = .ok ((), db) ∧
        w' = { w with db := db }
  | _, w' => w' = w

/-- **A refused request leaves nothing behind**, but for the two exceptions of `Refused`. -/
theorem refused_leaves_nothing {call : ApiCall} {e : Exn}
    (hrefused : (call.serve env g w).1 = .error e)
    (hstatus : (SentryExceptionFilter.onException e).status ≠ 500) :
    call.Refused g w (call.serve env g w).2 := by
  have hkind : e.Refusal := hstatus
  have hsingle : call.Single → (call.serve env g w).2 = w := fun hsingle =>
    ApiCall.clean hsingle (fun h => absurd h (Exn.not_refusal_prisma _)) e hrefused hkind
  cases call with
  | register input device =>
      exact (AuthService.register_clean env.auth input device).forget e hrefused hkind
  | refresh token device =>
      simp only [ApiCall.serve, Service.forget_apply, AuthService.refresh] at hrefused ⊢
      rcases hrun : (TokenService.rotate env.auth token device g w).1 with e' | tokens
      · rw [hrun] at hrefused
        cases hrefused
        exact TokenService.rotate_refusal env.auth token device hrun hkind
      · rw [hrun] at hrefused
        cases hrefused
  | tenant user orgSlug write =>
      cases write with
      | createCheckout stripe plan =>
          rw [ApiCall.serve_world, ApiCall.exec]
          rcases (TenantWrite.createCheckout stripe plan).serve_cases env user orgSlug g w with
            hsame | ⟨m, hm, -, hexec⟩
          · exact .inl hsame
          · rw [hexec]
            refine (BillingService.createCheckout_stored env.billing stripe m.organizationId plan
              g.now w).imp_right ?_
            rintro ⟨name, customerId, db, hstored⟩
            exact ⟨m, name, customerId, db, hm, hstored⟩
      | _ => exact hsingle trivial
  | _ => exact hsingle trivial

end Requests

/-! ### A rotated token comes back -/

namespace Refusals.Samples

open TokenService.Samples (device first)

def env : ApiEnv := ⟨TokenService.Samples.env, js "http://localhost:3000", [], [], []⟩

def token (text : String) (revokedAt : Option Date) : RefreshToken :=
  ⟨js text, Demo.userId.val, TokenService.hash (js text), js "f", 100, revokedAt, 0, none, none⟩

/-- The token `a` has been rotated into `b`. -/
def world : World :=
  { Demo.world with db := { Demo.world.db with
      refreshTokens := [token "a" (some 0), token "b" none] } }

def reuse : ApiCall := .refresh (js "a") device

/-- Ann is no member of the demo organization. -/
def outsider : ApiCall :=
  .tenant ⟨Demo.userId.val, Demo.user.email⟩ (js "demo") (.removeIssue (js "i"))

theorem reuse_refused : (reuse.serve env first world).1 =
    .error (.unauthorized (js "Refresh token expired or reused")) := by decide

theorem outsider_refused : (outsider.serve env first world).1 =
    .error (.forbidden (js "Not a member of this organization")) := by decide

end Refusals.Samples

open Refusals.Samples TokenService.Samples in
theorem refused_leaves_nothing_reused :
    (outsider.serve env first world).2 = world ∧
    ∃ familyId, TokenService.Spent (js "a") first.now world.db familyId ∧
      (reuse.serve env first world).2 =
        { world with db := world.db.revokeFamily familyId first.now } := by
  have hspent : TokenService.Spent (js "a") first.now world.db (js "f") :=
    ⟨token "a" (some 0), ⟨Demo.user.id, Demo.user.email⟩, by decide, rfl, rfl⟩
  refine ⟨refused_leaves_nothing outsider_refused (by decide), ?_⟩
  exact (refused_leaves_nothing reuse_refused (by decide)).resolve_left fun h => h.2 _ hspent

end PmSaas
