import PmSaas.Api.SettledMethods

/-!
# Requests that violate a constraint

Most methods look up what a request names before they write, so that the constraints of the schema
have nothing left to refuse.  `constraint_violated_iff`: over the requests of any number of users,
served one at a time on a database that was empty at first, the requests that end in an error of the
database are those that name a user or a label that is not looked up, and the events that hand a
subscription over to another customer; and they change nothing.
-/

namespace PmSaas

open Table TransitionSystem

/-! ### Calls -/

/-- What the database finds out first. -/
def TenantWrite.Faulty (organizationId : JsString) (db : Db) : TenantWrite → Prop
  | .createIssue projectKey input =>
      (db.findProject organizationId projectKey).isSome ∧ ¬input.Resolves db
  | .updateIssue issueId input => (db.findIssue organizationId issueId).isSome ∧
      ∃ u ∈ IssuesService.connectedUser input, ∀ v ∈ db.users, v.id ≠ u
  | _ => False

namespace ApiCall

/-- The call names a row that no check looks up, or takes one that is taken. -/
def Faulty (env : ApiEnv) (w : World) : ApiCall → Prop
  | .tenant user orgSlug write => orgSlug ≠ [] ∧
      ∃ m, w.db.findMembershipBySlug user.sub orgSlug = some m ∧
        RbacGuard.canActivate write.metadata (some m.role) = .ok () ∧
        write.Faulty m.organizationId w.db
  | .webhook event => (truthy (some env.billing.STRIPE_SECRET_KEY)).isSome ∧
      BillingService.WebhookFails w.db event
  | _ => False

/-- A request that authentication and the schemas let through, except checkouts. -/
structure Posted (db : Db) (call : ApiCall) : Prop where
  known : ∀ user ∈ call.user, ∃ u ∈ db.users, u.id = user.sub
  /-- `createProjectSchema` takes no empty id. -/
  teamId : ∀ user orgSlug input, call = .tenant user orgSlug (.createProject input) →
    input.teamId ≠ some []
  /-- `constructEvent` does not ask the database. -/
  verified : ∀ code, call ≠ .webhook (.error (.prisma code))
  noCheckout : ∀ user orgSlug stripe plan,
    call ≠ .tenant user orgSlug (.createCheckout stripe plan)
  noJob : ∀ job, call ≠ .work job

end ApiCall

theorem RbacGuard.canActivate_error {metadata : RouteMetadata} {role : Role} {e : Exn}
    (h : RbacGuard.canActivate metadata (some role) = .error e) : ¬e.Violation := by
  unfold RbacGuard.canActivate at h
  split_ifs at h
  · dsimp only at h
    split_ifs at h
    · cases h
      simp
    · cases h
      simp

/-- The guards of a tenant-scoped route, then a handler that settles. -/
theorem tenantScoped_settles {α : Type} {user : AuthUser} {orgSlug : JsString}
    {metadata : RouteMetadata} {handler : JsString → Service α} {w : World}
    (faulty : JsString → Prop) (h : ∀ m, w.db.findMembershipBySlug user.sub orgSlug = some m →
      (handler m.organizationId).Settles (faulty m.organizationId) w) :
    (tenantScoped user orgSlug metadata handler).Settles
      (orgSlug ≠ [] ∧ ∃ m, w.db.findMembershipBySlug user.sub orgSlug = some m ∧
        RbacGuard.canActivate metadata (some m.role) = .ok () ∧ faulty m.organizationId) w := by
  by_cases hslug : orgSlug = []
  · refine .inr ⟨_, by rw [tenantScoped_apply, if_pos hslug], iff_of_false (by simp) ?_⟩
    exact fun hfaulty => hfaulty.1 hslug
  · cases hm : w.db.findMembershipBySlug user.sub orgSlug with
    | none =>
        refine .inr ⟨.forbidden (js "Not a member of this organization"), ?_, by simp⟩
        rw [tenantScoped_apply, if_neg hslug, hm]
    | some m =>
        cases hr : RbacGuard.canActivate metadata (some m.role) with
        | error e =>
            refine .inr ⟨e, ?_, iff_of_false (RbacGuard.canActivate_error hr) ?_⟩
            · rw [tenantScoped_apply, if_neg hslug, hm]
              simp only [hr]
            · rintro ⟨-, m', hm', hok, -⟩
              rw [← Option.some.inj hm', hr] at hok
              cases hok
        | ok u =>
            refine .of_eq ?_ (.congr ?_ (h m hm))
            · rw [tenantScoped_apply, if_neg hslug, hm]
              simp only [hr]
            · constructor
              · exact fun hfaulty => ⟨hslug, m, rfl, hr, hfaulty⟩
              · rintro ⟨-, m', hm', -, hfaulty⟩
                rwa [Option.some.inj hm']

section Handlers

variable {env : ApiEnv} {g : Gen} {w : World}

theorem Service.Settles.forget {α : Type} {faulty : Prop} {s : Service α} (h : s.Settles faulty w) :
    s.forget.Settles faulty w :=
  h.map fun _ => ()

theorem TenantWrite.handler_settles (h : w.db.InOrder) (hnew : g.New w.db)
    {organizationId actorId : JsString} (hserves : w.db.Serves organizationId actorId)
    (env : ApiEnv) {write : TenantWrite}
    (hcheckout : ∀ stripe plan, write ≠ .createCheckout stripe plan)
    (hteamId : ∀ input, write = .createProject input → input.teamId ≠ some []) :
    (write.handler env organizationId actorId g).Settles (write.Faulty organizationId w.db) w := by
  cases write with
  | createIssue projectKey input =>
      exact (IssuesService.create_settles h hnew hserves projectKey input).forget
  | updateIssue issueId input => exact (IssuesService.update_settles issueId input).forget
  | moveIssue issueId input => exact (IssuesService.move_settles issueId input).forget
  | removeIssue issueId => exact IssuesService.remove_settles issueId
  | createProject input =>
      exact (ProjectsService.create_settles hnew hserves (hteamId input rfl)).forget
  | addMember email role =>
      exact (OrgsService.addMember_settles hnew hserves env.auth email role).forget
  | updateMemberRole userId role => exact (OrgsService.updateMemberRole_settles userId role).forget
  | removeMember userId => exact OrgsService.removeMember_settles userId
  | presign issueId input => exact (AttachmentsService.presign_settles issueId input).forget
  | confirm issueId input =>
      exact (AttachmentsService.confirm_settles hnew hserves issueId input).forget
  | removeAttachment storageUp issueId attachmentId =>
      exact AttachmentsService.remove_settles storageUp issueId attachmentId
  | createCheckout stripe plan => exact absurd rfl (hcheckout stripe plan)

/-- **How a call ends**, except a `refresh`. -/
theorem ApiCall.settles (env : ApiEnv) {call : ApiCall} (h : w.db.InOrder) (hnew : g.New w.db)
    (hposted : call.Posted w.db) (hrefresh : ∀ token device, call ≠ .refresh token device) :
    (call.serve env g).Settles (call.Faulty env w) w := by
  cases call with
  | register input device => exact (AuthService.register_settles hnew env.auth input device).forget
  | login input device => exact (AuthService.login_settles hnew env.auth input device).forget
  | refresh token device => exact absurd rfl (hrefresh token device)
  | logout token => exact AuthService.logout_settles env.auth token
  | createOrg user input =>
      exact (OrgsService.create_settles hnew (hposted.known user rfl) input).forget
  | acceptInvite user token =>
      have hknown := hposted.known user rfl
      exact (OrgsService.acceptInvite_settles h hnew hknown user.email token).forget
  | tenant user orgSlug write =>
      refine tenantScoped_settles (write.Faulty · w.db) fun m hm => ?_
      obtain ⟨hmem, huser, -⟩ := Db.findMembershipBySlug_some hm
      obtain ⟨-, horg⟩ := h.refs.members m hmem
      refine TenantWrite.handler_settles h hnew ⟨horg, hposted.known user rfl⟩ env ?_ ?_
      · exact fun stripe plan heq => hposted.noCheckout user orgSlug stripe plan (by rw [heq])
      · exact fun input heq => hposted.teamId user orgSlug input (by rw [heq])
  | markRead user ids => exact .returns ⟨(), rfl⟩
  | markAllRead user => exact .returns ⟨(), rfl⟩
  | updatePrefs user prefs =>
      exact (NotificationsService.updatePrefs_settles (hposted.known user rfl) prefs g.now).forget
  | webhook event =>
      exact BillingService.handleWebhook_settles env.billing
        fun code heq => hposted.verified code (by rw [heq])
  | upload url => exact .returns ⟨(), rfl⟩
  | work job => exact absurd rfl (hposted.noJob job)

end Handlers

/-! ### Runs -/

section Runs

variable {env : ApiEnv} {g : Gen} {calls : List (ApiCall × Gen)} {w w' : World}

/-- A new invite is to the organization of the tenant. -/
theorem TenantChange.invites {organizationId actorId : JsString} {call : TenantWrite}
    (h : TenantChange organizationId actorId g w call w') :
    ∀ i ∈ w'.db.invites, i ∈ w.db.invites ∨ i.organizationId = organizationId := by
  have hsame : w'.db.invites = w.db.invites →
      ∀ i ∈ w'.db.invites, i ∈ w.db.invites ∨ i.organizationId = organizationId :=
    fun heq i hi => .inl (heq ▸ hi)
  cases h with
  | createIssue found committed =>
      obtain ⟨_, _, _, _, hins⟩ := Db.createIssueTx_ok committed
      obtain ⟨-, rfl, -⟩ := Db.createIssue_ok hins
      exact hsame rfl
  | updateIssue found committed =>
      obtain ⟨_, -, -, rfl⟩ := Db.updateIssue_ok committed
      exact hsame rfl
  | moveIssue found dropped committed =>
      obtain ⟨_, -, -, rfl⟩ := Db.updateIssue_ok committed
      exact hsame rfl
  | removeIssue found committed =>
      rw [Db.deleteIssue_ok committed] at hsame ⊢
      exact hsame rfl
  | createProject committed team =>
      obtain ⟨-, rfl, -⟩ := Db.createProject_ok committed
      exact hsame rfl
  | addMember found committed =>
      rcases Db.upsertMembership_ok committed with rfl | ⟨rfl, -⟩
      · exact hsame rfl
      · exact hsame rfl
  | invite unknown committed =>
      intro i hi
      rcases Db.mem_upsertInvite committed hi with hold | ⟨_, _, rfl⟩
      · exact .inl hold
      · exact .inr rfl
  | updateMemberRole found notOwner => exact hsame rfl
  | removeMember found notOwner => exact hsame rfl
  | confirm found key committed =>
      obtain ⟨-, rfl, -⟩ := Db.createAttachment_ok committed
      exact hsame rfl
  | removeAttachment found attachment =>
      refine hsame ?_
      split <;> rfl
  | createCheckout committed =>
      rw [Db.setCustomer_ok committed] at hsame ⊢
      exact hsame rfl

theorem ApiChange.invites {call : ApiCall} (hrefs : Referential w.db)
    (hinvited : ∀ i ∈ w.db.invites, ∃ o ∈ w.db.organizations, o.id = i.organizationId)
    (h : ApiChange env g w call w') :
    ∀ i ∈ w'.db.invites, ∃ o ∈ w.db.organizations, o.id = i.organizationId := by
  have hsame : w'.db.invites = w.db.invites →
      ∀ i ∈ w'.db.invites, ∃ o ∈ w.db.organizations, o.id = i.organizationId :=
    fun heq i hi => hinvited i (heq ▸ hi)
  cases h with
  | register committed =>
      obtain ⟨-, rfl, -⟩ := Db.createUser_ok committed
      exact hsame rfl
  | registerOrg committed owned =>
      obtain ⟨-, rfl, -⟩ := Db.createUser_ok committed
      obtain ⟨-, rfl, -⟩ := Db.createOrganization_ok owned
      exact hsame rfl
  | login => exact hsame rfl
  | refresh => exact hsame rfl
  | logout => exact hsame rfl
  | createOrg committed =>
      obtain ⟨-, rfl, -⟩ := Db.createOrganization_ok committed
      exact hsame rfl
  | @acceptInvite user token invite m db db' found pending addressee committed burnt =>
      have hkept : db.invites = w.db.invites := by
        rcases Db.upsertMembership_ok committed with rfl | ⟨rfl, -⟩ <;> rfl
      intro i hi
      obtain ⟨old, hold, ⟨-, rfl⟩ | ⟨-, rfl⟩⟩ := Db.mem_burnInvite burnt hi
      · exact hinvited i (hkept ▸ hold)
      · exact hinvited old (hkept ▸ hold)
  | @tenant user orgSlug write m _ member allowed change =>
      intro i hi
      rcases change.invites i hi with hold | hmine
      · exact hinvited i hold
      · rw [hmine]
        exact (hrefs.members m (Db.findMembershipBySlug_some member).1).2
  | markRead user ids => exact hsame rfl
  | markAllRead user => exact hsame rfl
  | updatePrefs committed =>
      obtain ⟨_, rfl⟩ := Db.updatePrefs_ok committed
      exact hsame rfl
  | webhook known customer committed =>
      rw [Db.reconcile_ok committed] at hsame ⊢
      exact hsame rfl
  | upload url => exact hsame rfl
  | work queued => exact hsame rfl

/-- **The invariant.** -/
theorem Db.InOrder.run (hrun : Run (ApiStep env) World.empty calls w) : w.db.InOrder := by
  have hinvited : Referential w.db ∧ Addressed w.db ∧
      ∀ i ∈ w.db.invites, ∃ o ∈ w.db.organizations, o.id = i.organizationId := by
    refine hrun.invariant (P := fun w => Referential w.db ∧ Addressed w.db ∧
      ∀ i ∈ w.db.invites, ∃ o ∈ w.db.organizations, o.id = i.organizationId) ?_
      ⟨.empty, .empty, fun i hi => by cases hi⟩
    rintro v ⟨call, g⟩ v' ⟨hrefs, haddressed, hinvited⟩ hstep
    have honward : v.db.Onward v'.db := .run haddressed (Run.nil.snoc hstep)
    refine ⟨referential_of_run hrefs (Run.nil.snoc hstep), honward.addressed, fun i hi => ?_⟩
    have hold : ∃ o ∈ v.db.organizations, o.id = i.organizationId := by
      rw [show v' = _ from hstep] at hi
      rcases call.exec_cases env g v with hsame | ⟨v₁, organizationId, hchange, hafter⟩
      · rw [hsame] at hi
        exact hinvited i hi
      · rw [hafter.invites] at hi
        exact hchange.invites hrefs hinvited i hi
    obtain ⟨o, ho, hid⟩ := hold
    exact ⟨o, honward.organizations.subset ho, hid⟩
  exact ⟨tenantSound_of_run .empty hrun, hinvited.1, hinvited.2.1, hinvited.2.2⟩

/-- **The requests that violate a constraint of the schema**, as long as what they draw is new. -/
theorem constraint_violated_iff (hrun : Run (ApiStep env) World.empty calls w) (hnew : g.New w.db)
    {call : ApiCall} (hposted : call.Posted w.db) :
    ((∃ code, (call.serve env g w).1 = .error (.prisma code)) ↔ call.Faulty env w) ∧
      (call.Faulty env w → (call.serve env g w).2 = w) := by
  by_cases hrefresh : ∃ token device, call = .refresh token device
  · obtain ⟨token, device, rfl⟩ := hrefresh
    refine ⟨iff_of_false ?_ id, False.elim⟩
    rintro ⟨code, he⟩
    rw [ApiCall.serve, Service.forget_apply, AuthService.refresh] at he
    rcases TokenService.rotate_settles hnew env.auth token device with
      (⟨⟨a, hok⟩, -⟩ | ⟨e, herror, hiff⟩) | ⟨_, -, heq⟩
    · rw [hok] at he
      cases he
    · rw [herror] at he
      cases he
      exact hiff.1 trivial
    · rw [heq] at he
      cases he
  · rcases ApiCall.settles env (.run hrun) hnew hposted
      fun token device heq => hrefresh ⟨token, device, heq⟩ with ⟨⟨a, hok⟩, hnot⟩ | ⟨e, he, hiff⟩
    · refine ⟨iff_of_false ?_ hnot, fun h => absurd h hnot⟩
      rintro ⟨code, he⟩
      rw [hok] at he
      cases he
    · rw [he, ← hiff, Exn.violation_iff]
      refine ⟨⟨?_, ?_⟩, fun _ => rfl⟩
      · rintro ⟨code, heq⟩
        exact ⟨code, Except.error.inj heq⟩
      · rintro ⟨code, rfl⟩
        exact ⟨code, rfl⟩

end Runs

/-! ### An assignee who left no trace -/

namespace Failures.Samples

open AuditReplay.Samples (ann route calls world Undrawn)
open TokenService.Samples (draw)
open TwoTenants (env issueId labelId)

/-- Nobody checks that the assignee exists. -/
def assigned : ApiCall :=
  route (.createIssue (js "PM") { title := js "Profile", assigneeId := some labelId.val })

def g : Gen := draw issueId (js "t8")

theorem world_run : Run (ApiStep env) World.empty calls world := ApiCall.serveAll_run ..

theorem g_new : g.New world.db := by
  have hundrawn : Undrawn issueId (js "t8") world.db := by decide
  have hrest : (∀ u ∈ world.db.users, u.id ≠ issueId.val) ∧
      ∀ s ∈ world.db.subscriptions, s.id ≠ issueId.val := by decide
  exact ⟨hundrawn.gen.1, hundrawn.gen.2, fun _ => hrest.1, fun _ => hrest.2⟩

theorem posted : assigned.Posted world.db where
  known := by
    rintro user ⟨⟩
    decide
  teamId _ _ _ heq := by cases heq
  verified _ heq := by cases heq
  noCheckout _ _ _ _ heq := by cases heq
  noJob _ heq := by cases heq

end Failures.Samples

open Failures.Samples AuditReplay.Samples in
theorem constraint_violated_iff_demo :
    (∃ code, (assigned.serve TwoTenants.env g world).1 = .error (.prisma code)) ∧
      (assigned.serve TwoTenants.env g world).2 = world := by
  have hmember : ∃ m, world.db.findMembershipBySlug ann.sub (js "demo") = some m ∧
      m.role = .OWNER ∧ m.organizationId = Demo.orgId.val := by
    refine ⟨_, rfl, ?_, ?_⟩ <;> decide
  obtain ⟨m, hm, hrole, horg⟩ := hmember
  have hfaulty : assigned.Faulty TwoTenants.env world := by
    refine ⟨by decide, m, hm, by rw [hrole]; rfl, ?_⟩
    rw [horg]
    refine ⟨by decide, fun hresolves => ?_⟩
    obtain ⟨u, hu, hid⟩ := hresolves.assignee _ rfl
    have hnobody : ∀ u ∈ world.db.users, u.id ≠ TwoTenants.labelId.val := by decide
    exact hnobody u hu hid
  obtain ⟨hiff, hunchanged⟩ := constraint_violated_iff world_run g_new posted
  exact ⟨hiff.2 hfaulty, hunchanged hfaulty⟩

end PmSaas
