import PmSaas.Api.Routes

/-!
# What a call can do

`TenantChange` lists the writes a tenant-scoped route makes when it goes through, `ApiChange` those
of all calls.  A call changes nothing, or makes its change and leaves the side effects of one
organization behind; every invariant of the API is proved over these changes.
-/

namespace PmSaas

/-- The write of a tenant-scoped route, from the world before it. -/
inductive TenantChange (organizationId actorId : JsString) (g : Gen) (w : World) :
    TenantWrite → World → Prop
  | createIssue {projectKey : JsString} {input : CreateIssueInput} {project : Project}
      {issue : IssueView} {db : Db}
      (found : w.db.findProject organizationId projectKey = some project)
      (committed : w.db.createIssueTx organizationId actorId project.id input g = .ok (issue, db)) :
      TenantChange organizationId actorId g w (.createIssue projectKey input) { w with db := db }
  | updateIssue {issueId : JsString} {input : UpdateIssueInput} {before row : Issue} {db : Db}
      (found : w.db.findIssue organizationId issueId = some before)
      (committed : w.db.updateIssue issueId (IssuesService.connectedUser input)
        (input.apply g.now) = .ok (row, db)) :
      TenantChange organizationId actorId g w (.updateIssue issueId input) { w with db := db }
  | moveIssue {issueId rank : JsString} {input : MoveIssueInput} {issue row : Issue} {db : Db}
      (found : w.db.findIssue organizationId issueId = some issue)
      (dropped : IssuesService.dropRank
        (w.db.neighbourRank issue.projectId input.status input.aboveId)
        (w.db.neighbourRank issue.projectId input.status input.belowId) = .ok rank)
      (committed : w.db.updateIssue issue.id none (IssuesService.place input.status rank g.now) =
        .ok (row, db)) :
      TenantChange organizationId actorId g w (.moveIssue issueId input) { w with db := db }
  | removeIssue {issueId : JsString} {issue : Issue} {db : Db}
      (found : w.db.findIssue organizationId issueId = some issue)
      (committed : w.db.deleteIssue issue.id = .ok ((), db)) :
      TenantChange organizationId actorId g w (.removeIssue issueId) { w with db := db }
  | createProject {input : CreateProjectInput} {db : Db}
      (committed : w.db.createProject (ProjectsService.newProject organizationId input g) =
        .ok (ProjectsService.newProject organizationId input g, db))
      (team : ∀ id ∈ truthy input.teamId, ∃ t, w.db.findTeam organizationId id = some t) :
      TenantChange organizationId actorId g w (.createProject input) { w with db := db }
  /-- `addMember` of a user with an account. -/
  | addMember {email : JsString} {role : GrantableRole} {user : User} {m : Membership} {db : Db}
      (found : w.db.findUserByEmail (JsString.toLowerCase email) = some user)
      (committed : w.db.upsertMembership user.id organizationId role.val (g.cuid 0) g.now =
        .ok (m, db)) :
      TenantChange organizationId actorId g w (.addMember email role) { w with db := db }
  /-- `addMember` of somebody without one. -/
  | invite {email : JsString} {role : GrantableRole} {invite : Invite} {db : Db}
      (unknown : w.db.findUserByEmail (JsString.toLowerCase email) = none)
      (committed : w.db.upsertInvite (OrgsService.newInvite organizationId actorId
        (JsString.toLowerCase email) role g) = .ok (invite, db)) :
      TenantChange organizationId actorId g w (.addMember email role) { w with db := db }
  | updateMemberRole {userId : JsString} {role : GrantableRole} {m : Membership}
      (found : w.db.findMembership userId organizationId = some m) (notOwner : m.role ≠ .OWNER) :
      TenantChange organizationId actorId g w (.updateMemberRole userId role)
        { w with db := w.db.setRoleById m.id role.val }
  | removeMember {userId : JsString} {m : Membership}
      (found : w.db.findMembership userId organizationId = some m) (notOwner : m.role ≠ .OWNER) :
      TenantChange organizationId actorId g w (.removeMember userId)
        { w with db := w.db.dropMembership m.id }
  | confirm {issueId : JsString} {input : ConfirmAttachmentInput} {issue : Issue} {db : Db}
      (found : w.db.findIssue organizationId issueId = some issue)
      (key : issuePrefix organizationId issueId <+: input.fileKey)
      (committed : w.db.createAttachment
        (AttachmentsService.newAttachment actorId issueId input g) =
          .ok (AttachmentsService.newAttachment actorId issueId input g, db)) :
      TenantChange organizationId actorId g w (.confirm issueId input) { w with db := db }
  | removeAttachment {storageUp : Bool} {issueId attachmentId : JsString} {issue : Issue}
      {a : Attachment} (found : w.db.findIssue organizationId issueId = some issue)
      (attachment : w.db.findAttachment issueId attachmentId = some a) :
      TenantChange organizationId actorId g w (.removeAttachment storageUp issueId attachmentId)
        (if storageUp then
          StorageService.deleteObject a.fileKey { w with db := w.db.dropAttachment a.id }
        else { w with db := w.db.dropAttachment a.id })
  | createCheckout {stripe : Stripe} {plan : PaidPlan} {customerId : JsString} {db : Db}
      (committed : w.db.setCustomer organizationId customerId g.now = .ok ((), db)) :
      TenantChange organizationId actorId g w (.createCheckout stripe plan) { w with db := db }

/-- What tenant-scoped routes do to the tables that few of them write: users and organizations stay;
a project is added, or its counter incremented; and a subscription gets a customer. -/
theorem TenantChange.tables {organizationId actorId : JsString} {g : Gen} {w w' : World}
    {call : TenantWrite} (h : TenantChange organizationId actorId g w call w') :
    w'.db.users = w.db.users ∧ w'.db.organizations = w.db.organizations ∧
      (w.db.projects <+: w'.db.projects ∨
        ∃ id, w'.db.projects = (w.db.bumpProject id g.now).projects) ∧
      (w'.db.subscriptions = w.db.subscriptions ∨
        ∃ customerId, w.db.setCustomer organizationId customerId g.now = .ok ((), w'.db)) := by
  have hsame : ∀ db : Db, db.projects = w.db.projects → db.subscriptions = w.db.subscriptions →
      (w.db.projects <+: db.projects ∨ ∃ id, db.projects = (w.db.bumpProject id g.now).projects) ∧
        (db.subscriptions = w.db.subscriptions ∨
          ∃ customerId, w.db.setCustomer organizationId customerId g.now = .ok ((), db)) :=
    fun db hp hs => ⟨.inl (hp ▸ List.prefix_rfl), .inl hs⟩
  cases h with
  | createIssue found committed =>
      obtain ⟨_, _, _, _, hins⟩ := Db.createIssueTx_ok committed
      obtain ⟨-, rfl, -⟩ := Db.createIssue_ok hins
      exact ⟨rfl, rfl, .inr ⟨_, rfl⟩, .inl rfl⟩
  | updateIssue found committed =>
      obtain ⟨_, -, -, rfl⟩ := Db.updateIssue_ok committed
      exact ⟨rfl, rfl, hsame _ rfl rfl⟩
  | moveIssue found dropped committed =>
      obtain ⟨_, -, -, rfl⟩ := Db.updateIssue_ok committed
      exact ⟨rfl, rfl, hsame _ rfl rfl⟩
  | removeIssue found committed =>
      rw [Db.deleteIssue_ok committed]
      exact ⟨rfl, rfl, hsame _ rfl rfl⟩
  | createProject committed team =>
      obtain ⟨-, rfl, -⟩ := Db.createProject_ok committed
      exact ⟨rfl, rfl, .inl (List.prefix_append ..), .inl rfl⟩
  | addMember found committed =>
      rcases Db.upsertMembership_ok committed with rfl | ⟨rfl, -⟩
      · exact ⟨rfl, rfl, hsame _ rfl rfl⟩
      · exact ⟨rfl, rfl, hsame _ rfl rfl⟩
  | invite unknown committed =>
      rcases Db.upsertInvite_ok committed with rfl | rfl
      · exact ⟨rfl, rfl, hsame _ rfl rfl⟩
      · exact ⟨rfl, rfl, hsame _ rfl rfl⟩
  | updateMemberRole found notOwner => exact ⟨rfl, rfl, hsame _ rfl rfl⟩
  | removeMember found notOwner => exact ⟨rfl, rfl, hsame _ rfl rfl⟩
  | confirm found key committed =>
      obtain ⟨-, rfl, -⟩ := Db.createAttachment_ok committed
      exact ⟨rfl, rfl, hsame _ rfl rfl⟩
  | removeAttachment found attachment =>
      split
      · exact ⟨rfl, rfl, hsame _ rfl rfl⟩
      · exact ⟨rfl, rfl, hsame _ rfl rfl⟩
  | createCheckout committed =>
      refine ⟨?_, ?_, .inl ?_, .inr ⟨_, committed⟩⟩
      · rw [Db.setCustomer_ok committed]
        rfl
      · rw [Db.setCustomer_ok committed]
        rfl
      · rw [Db.setCustomer_ok committed]
        exact List.prefix_rfl

/-- Tenant-scoped routes leave what belongs to users alone: their tokens and their notifications. -/
theorem TenantChange.personal {organizationId actorId : JsString} {g : Gen} {w w' : World}
    {call : TenantWrite} (h : TenantChange organizationId actorId g w call w') :
    w'.db.refreshTokens = w.db.refreshTokens ∧ w'.db.notifications = w.db.notifications := by
  cases h with
  | createIssue found committed =>
      obtain ⟨_, _, _, _, hins⟩ := Db.createIssueTx_ok committed
      obtain ⟨-, rfl, -⟩ := Db.createIssue_ok hins
      exact ⟨rfl, rfl⟩
  | updateIssue found committed =>
      obtain ⟨_, -, -, rfl⟩ := Db.updateIssue_ok committed
      exact ⟨rfl, rfl⟩
  | moveIssue found dropped committed =>
      obtain ⟨_, -, -, rfl⟩ := Db.updateIssue_ok committed
      exact ⟨rfl, rfl⟩
  | removeIssue found committed =>
      rw [Db.deleteIssue_ok committed]
      exact ⟨rfl, rfl⟩
  | createProject committed team =>
      obtain ⟨-, rfl, -⟩ := Db.createProject_ok committed
      exact ⟨rfl, rfl⟩
  | addMember found committed =>
      rcases Db.upsertMembership_ok committed with rfl | ⟨rfl, -⟩ <;> exact ⟨rfl, rfl⟩
  | invite unknown committed => rcases Db.upsertInvite_ok committed with rfl | rfl <;> exact ⟨rfl, rfl⟩
  | updateMemberRole found notOwner => exact ⟨rfl, rfl⟩
  | removeMember found notOwner => exact ⟨rfl, rfl⟩
  | confirm found key committed =>
      obtain ⟨-, rfl, -⟩ := Db.createAttachment_ok committed
      exact ⟨rfl, rfl⟩
  | removeAttachment found attachment => split <;> exact ⟨rfl, rfl⟩
  | createCheckout committed =>
      rw [Db.setCustomer_ok committed]
      exact ⟨rfl, rfl⟩

/-- **A tenant-scoped route changes nothing, or makes its write.** -/
theorem TenantWrite.exec_cases (env : ApiEnv) (call : TenantWrite)
    (organizationId actorId : JsString) (g : Gen) (w : World) :
    call.exec env organizationId actorId g w = w ∨
    ∃ w', TenantChange organizationId actorId g w call w' ∧
      Aftermath organizationId w' (call.exec env organizationId actorId g w) := by
  cases call with
  | createIssue projectKey input =>
      rcases IssuesService.create_cases organizationId actorId projectKey input g w with
        ⟨e, he⟩ | ⟨project, issue, db, w', hproject, htx, hres, hafter⟩
      · exact .inl (congrArg Prod.snd he)
      · rw [TenantWrite.exec, hres]
        exact .inr ⟨_, .createIssue hproject htx, hafter⟩
  | updateIssue issueId input =>
      rcases IssuesService.update_cases organizationId actorId issueId input g w with
        ⟨e, he⟩ | ⟨before, row, db, w', hbefore, hu, hres, hafter⟩
      · exact .inl (congrArg Prod.snd he)
      · rw [TenantWrite.exec, hres]
        exact .inr ⟨_, .updateIssue hbefore hu, hafter⟩
  | moveIssue issueId input =>
      rcases IssuesService.move_cases organizationId actorId issueId input g w with
        ⟨e, he⟩ | ⟨issue, rank, row, db, w', hissue, hrank, hu, hres, hafter⟩
      · exact .inl (congrArg Prod.snd he)
      · rw [TenantWrite.exec, hres]
        exact .inr ⟨_, .moveIssue hissue hrank hu, hafter⟩
  | removeIssue issueId =>
      rcases IssuesService.remove_cases organizationId actorId issueId g w with
        ⟨e, _, he⟩ | ⟨issue, db, w', hissue, hdel, hres, hafter⟩
      · exact .inl (congrArg Prod.snd he)
      · rw [TenantWrite.exec, hres]
        exact .inr ⟨_, .removeIssue hissue hdel, hafter⟩
  | createProject input =>
      rcases ProjectsService.create_cases organizationId actorId input g w with
        hsame | ⟨db, hc, hteam, hafter⟩
      · exact .inl hsame
      · exact .inr ⟨_, .createProject hc hteam, hafter⟩
  | addMember email role =>
      rcases OrgsService.addMember_cases env.auth organizationId actorId email role g w with
        hsame | ⟨user, m, db, huser, hu, hafter⟩ | ⟨invite, db, hnone, hi, hafter⟩
      · exact .inl hsame
      · exact .inr ⟨_, .addMember huser hu, hafter⟩
      · exact .inr ⟨_, .invite hnone hi, hafter⟩
  | updateMemberRole userId role =>
      rcases OrgsService.updateMemberRole_cases organizationId actorId userId role g w with
        hsame | ⟨m, hfind, hrole, hafter⟩
      · exact .inl hsame
      · exact .inr ⟨_, .updateMemberRole hfind hrole, hafter⟩
  | removeMember userId =>
      rcases OrgsService.removeMember_cases organizationId actorId userId g w with
        hsame | ⟨m, hfind, hrole, hafter⟩
      · exact .inl hsame
      · exact .inr ⟨_, .removeMember hfind hrole, hafter⟩
  | presign issueId input => exact .inl (AttachmentsService.presign_world ..)
  | confirm issueId input =>
      rcases AttachmentsService.confirm_cases organizationId actorId issueId input g w with
        hsame | ⟨issue, db, hissue, hkey, hc, hafter⟩
      · exact .inl hsame
      · exact .inr ⟨_, .confirm hissue hkey hc, hafter⟩
  | removeAttachment storageUp issueId attachmentId =>
      rcases AttachmentsService.remove_cases storageUp organizationId actorId issueId attachmentId g
        w with hsame | ⟨issue, a, w', hissue, hfind, rfl, hafter⟩
      · exact .inl hsame
      · exact .inr ⟨_, .removeAttachment hissue hfind, hafter⟩
  | createCheckout stripe plan =>
      rcases BillingService.createCheckout_cases env.billing stripe organizationId plan g.now w with
        hsame | ⟨customerId, db, hs, hres⟩
      · exact .inl hsame
      · rw [TenantWrite.exec, hres]
        exact .inr ⟨_, .createCheckout hs, .refl ..⟩

/-- Tokens are not among the side effects. -/
theorem Aftermath.withTokens {organizationId : JsString} {w w' : World}
    (h : Aftermath organizationId w w') (tokens : List RefreshToken) :
    Aftermath organizationId (TokenService.withTokens w tokens)
      (TokenService.withTokens w' tokens) := by
  obtain ⟨⟨logs, hlogs, hdb⟩, hobjects⟩ := h
  refine ⟨⟨logs, hlogs, ?_⟩, hobjects⟩
  rw [TokenService.withTokens, TokenService.withTokens, hdb]

/-- The change of a call, from the world before it. -/
inductive ApiChange (env : ApiEnv) (g : Gen) (w : World) : ApiCall → World → Prop
  | register {input : RegisterInput} {device : DeviceInfo} {db : Db} {tokens : List RefreshToken}
      (committed : w.db.createUser (AuthService.newUser input g) =
        .ok (AuthService.newUser input g, db)) :
      ApiChange env g w (.register input device) (TokenService.withTokens { w with db := db } tokens)
  /-- `register` with an organization of one's own. -/
  | registerOrg {input : RegisterInput} {device : DeviceInfo} {db db' : Db}
      {name slug : JsString} {org : Organization} {tokens : List RefreshToken}
      (committed : w.db.createUser (AuthService.newUser input g) =
        .ok (AuthService.newUser input g, db))
      (owned : db.createOrganization
        (newOrganization (AuthService.newUser input g).id name slug (g.skip 1)) = .ok (org, db')) :
      ApiChange env g w (.register input device)
        (TokenService.withTokens { w with db := db' } tokens)
  | login {input : LoginInput} {device : DeviceInfo} {tokens : List RefreshToken} :
      ApiChange env g w (.login input device) (TokenService.withTokens w tokens)
  | refresh {token : JsString} {device : DeviceInfo} {tokens : List RefreshToken} :
      ApiChange env g w (.refresh token device) (TokenService.withTokens w tokens)
  | logout {token : Option JsString} {tokens : List RefreshToken} :
      ApiChange env g w (.logout token) (TokenService.withTokens w tokens)
  | createOrg {user : AuthUser} {input : CreateOrgInput} {org : Organization} {db : Db}
      (committed : w.db.createOrganization (newOrganization user.sub input.name input.slug g) =
        .ok (org, db)) :
      ApiChange env g w (.createOrg user input) { w with db := db }
  | acceptInvite {user : AuthUser} {token : JsString} {invite : Invite} {m : Membership}
      {db db' : Db} (found : w.db.findInvite (OrgsService.hashToken token) = some invite)
      (pending : OrgsService.pending g.now invite = true)
      (addressee : JsString.toLowerCase invite.email = JsString.toLowerCase user.email)
      (committed : w.db.upsertMembership user.sub invite.organizationId invite.role (g.cuid 0)
        g.now = .ok (m, db))
      (burnt : db.burnInvite invite.id g.now = .ok ((), db')) :
      ApiChange env g w (.acceptInvite user token) { w with db := db' }
  | tenant {user : AuthUser} {orgSlug : JsString} {write : TenantWrite} {m : Membership}
      {w' : World} (member : w.db.findMembershipBySlug user.sub orgSlug = some m)
      (allowed : ∀ p ∈ write.metadata.permissions, can m.role p = true)
      (change : TenantChange m.organizationId user.sub g w write w') :
      ApiChange env g w (.tenant user orgSlug write) w'
  | markRead (user : AuthUser) (ids : List JsString) :
      ApiChange env g w (.markRead user ids) (NotificationsService.markRead user.sub ids g.now w).2
  | markAllRead (user : AuthUser) :
      ApiChange env g w (.markAllRead user) (NotificationsService.markAllRead user.sub g.now w).2
  | updatePrefs {user : AuthUser} {prefs : NotificationPrefsInput} {u : User} {db : Db}
      (committed : w.db.updatePrefs user.sub prefs g.now = .ok (u, db)) :
      ApiChange env g w (.updatePrefs user prefs) { w with db := db }
  | webhook {event : Except Exn StripeEvent} {sub : StripeSubscription} {found : Subscription}
      {db : Db} (known : found ∈ w.db.subscriptions)
      (customer : found.stripeCustomerId = some sub.customer)
      (committed : w.db.reconcile found.id (BillingService.reconciled env.billing sub) g.now =
        .ok ((), db)) :
      ApiChange env g w (.webhook event) { w with db := db }
  | upload (url : UploadUrl) : ApiChange env g w (.upload url) (StorageService.putObject url w)
  | work {job : NotificationJob} (queued : job ∈ w.queue) :
      ApiChange env g w (.work job)
        { w with db := w.db.insertNotification (NotificationsProcessor.newNotification job g) }

/-- **A call changes nothing, or makes its change.** -/
theorem ApiCall.exec_cases (env : ApiEnv) (g : Gen) (call : ApiCall) (w : World) :
    call.exec env g w = w ∨
    ∃ w' organizationId, ApiChange env g w call w' ∧
      Aftermath organizationId w' (call.exec env g w) := by
  cases call with
  | register input device =>
      rcases AuthService.register_cases env.auth input device g w with
        hsame | ⟨db, w', tokens, hu, rfl | ⟨name, slug, org, db', hc, hafter⟩, hres⟩
      · exact .inl hsame
      · rw [ApiCall.exec, hres]
        exact .inr ⟨_, [], .register hu, .refl ..⟩
      · rw [ApiCall.exec, hres]
        exact .inr ⟨_, org.id, .registerOrg hu hc, hafter.withTokens tokens⟩
  | login input device =>
      obtain ⟨tokens, heq⟩ := AuthService.login_frame env.auth input device g w
      rw [ApiCall.exec, heq]
      exact .inr ⟨_, [], .login, .refl ..⟩
  | refresh token device =>
      obtain ⟨tokens, heq⟩ := TokenService.rotate_frame env.auth token device g w
      rw [ApiCall.exec, AuthService.refresh, heq]
      exact .inr ⟨_, [], .refresh, .refl ..⟩
  | logout token =>
      obtain ⟨tokens, heq⟩ := AuthService.logout_frame env.auth token g w
      rw [ApiCall.exec, heq]
      exact .inr ⟨_, [], .logout, .refl ..⟩
  | createOrg user input =>
      rcases OrgsService.create_cases user.sub input g w with hsame | ⟨org, db, hc, hafter⟩
      · exact .inl hsame
      · exact .inr ⟨_, org.id, .createOrg hc, hafter⟩
  | acceptInvite user token =>
      rcases OrgsService.acceptInvite_cases user.sub user.email token g w with
        hsame | ⟨invite, m, db, db', hfound, hpending, hmail, hu, hb, hafter⟩
      · exact .inl hsame
      · exact .inr ⟨_, invite.organizationId, .acceptInvite hfound hpending hmail hu hb, hafter⟩
  | tenant user orgSlug write =>
      rcases write.serve_cases env user orgSlug g w with hsame | ⟨m, hm, hallowed, hres⟩
      · exact .inl hsame
      · rw [ApiCall.exec, hres]
        rcases write.exec_cases env m.organizationId user.sub g w with hsame | ⟨w', hchange, hafter⟩
        · exact .inl hsame
        · exact .inr ⟨w', m.organizationId, .tenant hm hallowed hchange, hafter⟩
  | markRead user ids => exact .inr ⟨_, [], .markRead user ids, .refl ..⟩
  | markAllRead user => exact .inr ⟨_, [], .markAllRead user, .refl ..⟩
  | updatePrefs user prefs =>
      rw [ApiCall.exec, NotificationsService.updatePrefs, Service.exec]
      cases hu : w.db.updatePrefs user.sub prefs g.now with
      | error e => exact .inl rfl
      | ok r => exact .inr ⟨_, [], .updatePrefs hu, .refl ..⟩
  | webhook event =>
      rcases BillingService.handleWebhook_event env.billing event g w with
        hsame | ⟨_, sub, -, -, hres⟩
      · exact .inl hsame
      · rw [ApiCall.exec, hres]
        rcases BillingService.reconcileSubscription_cases env.billing sub g w with
          hsame | ⟨found, db, hknown, hcustomer, hr, hafter⟩
        · exact .inl hsame
        · exact .inr ⟨_, found.organizationId, .webhook hknown hcustomer hr, hafter⟩
  | upload url => exact .inr ⟨_, [], .upload url, .refl ..⟩
  | work job =>
      rw [ApiCall.exec]
      split
      · rename_i hqueued
        rcases NotificationsProcessor.process_cases job g w with hsame | hafter
        · exact .inl hsame
        · exact .inr ⟨_, job.organizationId, .work hqueued, hafter⟩
      · exact .inl rfl

end PmSaas
