import PmSaas.Api.AuditedMethods
import PmSaas.Billing.Webhooks

/-!
# The audit trail

`ApiCall.Audited` says what the audit trail owes to a call: one row for the tenant whose rows it
changes, in the name of the user who made it, and none when it is rejected.

* `BillingService.createCheckout_changes`: when a checkout, which records nothing, changes a row;
* `ApiCall.audited`: every other call is audited;
* `audited_iff`: after any run of calls, a call is audited unless it is a checkout that stores a new
  Stripe customer.
-/

namespace PmSaas

open Table TransitionSystem

/-! ### The tenant's routes -/

/-- The routes of a tenant record what they change; checkouts are another matter. -/
theorem TenantWrite.handler_accounts (env : ApiEnv) {organizationId actorId : JsString} {g : Gen}
    {w : World} (hsound : TenantSound w.db)
    (hready : w.db.Auditable g organizationId (some actorId)) (call : TenantWrite)
    (hcall : ∀ stripe plan, call ≠ .createCheckout stripe plan) :
    (call.handler env organizationId actorId g).Accounts (some actorId) w := by
  have hrows : RowsConfined organizationId w.db (call.handler env organizationId actorId g w).2.db := by
    rw [call.handler_world]
    exact (call.effect env organizationId actorId g hsound).rows
  cases call with
  | createIssue projectKey input => exact (IssuesService.create_audits hready ..).forget.accounts hrows
  | updateIssue issueId input => exact (IssuesService.update_audits hready ..).forget.accounts hrows
  | moveIssue issueId input => exact (IssuesService.move_audits hready ..).forget.accounts hrows
  | removeIssue issueId => exact (IssuesService.remove_audits hready ..).accounts hrows
  | createProject input => exact (ProjectsService.create_audits hready ..).forget.accounts hrows
  | addMember email role => exact (OrgsService.addMember_audits hready ..).forget.accounts hrows
  | updateMemberRole userId role =>
      exact (OrgsService.updateMemberRole_audits hready ..).forget.accounts hrows
  | removeMember userId => exact (OrgsService.removeMember_audits hready ..).accounts hrows
  | presign issueId input =>
      left
      rw [handler, Service.forget_world, AttachmentsService.presign_world]
      exact .refl _
  | confirm issueId input =>
      exact (AttachmentsService.confirm_audits hready ..).forget.accounts hrows
  | removeAttachment storageUp issueId attachmentId =>
      exact (AttachmentsService.remove_audits hready ..).accounts hrows
  | createCheckout stripe plan => exact absurd rfl (hcall stripe plan)

/-- A checkout writes a customer into the organization's subscription: billing is configured, the
organization has no customer yet, Stripe answers with one that is nobody else's, and it is news. -/
def BillingService.StoresCustomer (env : BillingEnv) (stripe : Stripe) (organizationId : JsString)
    (now : Date) (db : Db) : Prop :=
  (truthy (some env.STRIPE_SECRET_KEY)).isNone = false ∧
    truthy ((db.findSubscription organizationId).bind Subscription.stripeCustomerId) = none ∧
    ∃ org customerId, db.organizations.find? (·.id == organizationId) = some org ∧
      stripe.createCustomer org.name org.id = .ok customerId ∧
      (∀ s ∈ db.subscriptions, s.stripeCustomerId = some customerId →
        s.organizationId = organizationId) ∧
      ∃ s ∈ db.subscriptions, s.organizationId = organizationId ∧
        ¬(s.stripeCustomerId = some customerId ∧ s.updatedAt = now)

namespace BillingService

variable {env : BillingEnv} {stripe : Stripe} {organizationId : JsString} {plan : PaidPlan}
  {now : Date} {w : World}

/-- Rewriting the subscriptions of an organization shows when it changes one of them. -/
theorem rewriteSubscription_changes (organizationId : JsString) (db : Db)
    {f : Subscription → Subscription} (hf : ∀ s, (f s).organizationId = s.organizationId) :
    (∃ other, (db.rewriteSubscription (·.organizationId == organizationId) f).tenantRows other ≠
        db.tenantRows other) ↔
      ∃ s ∈ db.subscriptions, s.organizationId = organizationId ∧ f s ≠ s := by
  constructor
  · rintro ⟨other, hne⟩
    by_contra hnone
    have hsame : updateWhere (·.organizationId == organizationId) f db.subscriptions =
        db.subscriptions := by
      refine updateWhere_eq_self_iff.2 fun s hmem horg => ?_
      by_contra hnew
      exact hnone ⟨s, hmem, beq_iff_eq.1 horg, hnew⟩
    exact hne (by rw [Db.rewriteSubscription, hsame])
  · rintro ⟨s, hmem, horg, hnew⟩
    refine ⟨organizationId, fun heq => hnew ?_⟩
    have hrows : (updateWhere (·.organizationId == organizationId) f db.subscriptions).filter
        (·.organizationId == organizationId) =
          db.subscriptions.filter (·.organizationId == organizationId) :=
      congrArg (fun rows => rows.2.2.2.2.2.2) heq
    rw [filter_updateWhere_comm fun s _ _ => by rw [hf]] at hrows
    exact updateWhere_eq_self_iff.1 hrows s (List.mem_filter.2 ⟨hmem, by simpa using horg⟩)
      (by simpa using horg)

/-- Storing a customer goes through when it is nobody else's, and shows when it is news. -/
theorem setCustomer_changes (customerId : JsString) (db : Db) :
    (∃ db', db.setCustomer organizationId customerId now = .ok ((), db') ∧
        ∃ other, db'.tenantRows other ≠ db.tenantRows other) ↔
      (∀ s ∈ db.subscriptions, s.stripeCustomerId = some customerId →
        s.organizationId = organizationId) ∧
      ∃ s ∈ db.subscriptions, s.organizationId = organizationId ∧
        ¬(s.stripeCustomerId = some customerId ∧ s.updatedAt = now) := by
  have hrow : ∀ s : Subscription,
      { s with stripeCustomerId := some customerId, updatedAt := now } = s ↔
        s.stripeCustomerId = some customerId ∧ s.updatedAt = now := by
    intro s
    constructor
    · intro h
      exact ⟨(congrArg Subscription.stripeCustomerId h).symm, (congrArg Subscription.updatedAt h).symm⟩
    · rintro ⟨hcustomer, hupdated⟩
      rw [← hcustomer, ← hupdated]
  have hchanges := rewriteSubscription_changes organizationId db
    (f := fun s => { s with stripeCustomerId := some customerId, updatedAt := now }) fun _ => rfl
  simp only [ne_eq, hrow] at hchanges
  constructor
  · rintro ⟨db', hs, hother⟩
    obtain rfl := Db.setCustomer_ok hs
    refine ⟨?_, hchanges.1 hother⟩
    unfold Db.setCustomer at hs
    split_ifs at hs with hnone hused
    simpa using hused
  · rintro ⟨hfree, hnew⟩
    have hsome : ¬((!db.subscriptions.any (·.organizationId == organizationId)) = true) := by
      obtain ⟨s, hmem, horg, -⟩ := hnew
      simpa using ⟨s, hmem, horg⟩
    have hunused : ¬(db.subscriptions.any (fun s => s.stripeCustomerId == some customerId &&
        s.organizationId != organizationId) = true) := by
      simpa using hfree
    refine ⟨_, ?_, hchanges.2 hnew⟩
    rw [Db.setCustomer, if_neg hsome, if_neg hunused]

/-- A checkout writes no audit row. -/
theorem createCheckout_logs :
    (createCheckout env stripe organizationId plan now w).2.db.auditLogs = w.db.auditLogs := by
  rcases createCheckout_cases env stripe organizationId plan now w with
    hsame | ⟨customerId, db, hs, hres⟩
  · rw [hsame]
  · rw [hres]
    obtain rfl := Db.setCustomer_ok hs
    rfl

/-- What `ensureCustomer` changes. -/
theorem ensureCustomer_changes {org : Organization} {subscription : Option Subscription} :
    (∃ other, (ensureCustomer stripe org subscription now w).2.db.tenantRows other ≠
        w.db.tenantRows other) ↔
      truthy (subscription.bind Subscription.stripeCustomerId) = none ∧
      ∃ customerId, stripe.createCustomer org.name org.id = .ok customerId ∧
        ∃ db, w.db.setCustomer org.id customerId now = .ok ((), db) ∧
          ∃ other, db.tenantRows other ≠ w.db.tenantRows other := by
  unfold ensureCustomer
  cases truthy (subscription.bind Subscription.stripeCustomerId) with
  | some customerId => simp
  | none =>
      simp only [Service.bind_apply, call, true_and]
      cases stripe.createCustomer org.name org.id with
      | error e => simp
      | ok customerId =>
          simp only [Service.exec, Except.ok.injEq, exists_eq_left']
          cases hs : w.db.setCustomer org.id customerId now with
          | error e => simp
          | ok r =>
              obtain ⟨_, db⟩ := r
              simp

/-- **A checkout changes a tenant's rows exactly when it stores a customer.** -/
theorem createCheckout_changes :
    (∃ other, (createCheckout env stripe organizationId plan now w).2.db.tenantRows other ≠
        w.db.tenantRows other) ↔
      StoresCustomer env stripe organizationId now w.db := by
  rw [createCheckout_world, StoresCustomer]
  split
  · rename_i hoff
    simp [hoff]
  · rename_i hon
    cases horg : w.db.organizations.find? (·.id == organizationId) with
    | none => simp
    | some org =>
        have hid : org.id = organizationId := by simpa using List.find?_some horg
        simp only [ensureCustomer_changes, hid, setCustomer_changes]
        simp [hon, hid]

end BillingService

/-! ### All calls -/

namespace ApiCall

/-- The user in whose name a call writes; `register` writes in the name of the user it creates. -/
def actor (g : Gen) : ApiCall → Option JsString
  | .register _ _ => some (g.cuid 0).val
  | .createOrg user _ => some user.sub
  | .acceptInvite user _ => some user.sub
  | .tenant user _ _ => some user.sub
  | .markRead user _ => some user.sub
  | .markAllRead user => some user.sub
  | .updatePrefs user _ => some user.sub
  | .login _ _ | .refresh _ _ | .logout _ | .webhook _ | .upload _ | .work _ => none

/-- The call adds exactly one audit row for the tenant whose rows it changes, and none if it is
rejected. -/
structure Audited (env : ApiEnv) (g : Gen) (w : World) (call : ApiCall) : Prop where
  changes : ∀ organizationId,
    (call.serve env g w).2.db.tenantRows organizationId ≠ w.db.tenantRows organizationId →
      w.db.Logged organizationId (call.actor g) (call.serve env g w).2.db
  rejected : ∀ e, (call.serve env g w).1 = .error e →
    (call.serve env g w).2.db.auditLogs = w.db.auditLogs

/-- The call is a checkout that gets past the guards and stores a new Stripe customer. -/
def StoresCustomer (env : ApiEnv) (g : Gen) (w : World) : ApiCall → Prop
  | .tenant user orgSlug (.createCheckout stripe plan) =>
      orgSlug ≠ [] ∧ ∃ m, w.db.findMembershipBySlug user.sub orgSlug = some m ∧
        RbacGuard.canActivate (TenantWrite.createCheckout stripe plan).metadata (some m.role) =
          .ok () ∧
        BillingService.StoresCustomer env.billing stripe m.organizationId g.now w.db
  | _ => False

variable {env : ApiEnv} {g : Gen} {w : World}

theorem audited_of_accounts {call : ApiCall}
    (h : (call.serve env g).Accounts (call.actor g) w) : call.Audited env g w := by
  rcases h with hsame | ⟨organizationId, hrows, ⟨_, hok⟩, hlogged⟩
  · exact ⟨fun other hne => absurd (hsame.rows other) hne, fun _ _ => hsame.logs⟩
  · constructor
    · intro other hne
      have hother : other = organizationId := by
        by_contra hdiffers
        exact hne (by simp only [Db.tenantRows, hrows other hdiffers])
      rw [hother]
      exact hlogged
    · intro e he
      rw [hok] at he
      cases he

/-- The tokens of an account are not a tenant's. -/
theorem accounts_of_tokens {α : Type} {actorId : Option JsString} {s : Service α}
    (h : ∃ tokens, (s w).2 = TokenService.withTokens w tokens) : s.Accounts actorId w := by
  obtain ⟨tokens, hworld⟩ := h
  left
  rw [hworld]
  exact ⟨fun _ => rfl, rfl⟩

theorem updatePrefs_accounts (userId : JsString) (prefs : NotificationPrefsInput) (now : Date) :
    (NotificationsService.updatePrefs userId prefs now).Accounts (some userId) w := by
  left
  rw [NotificationsService.updatePrefs, Service.exec]
  cases hu : w.db.updatePrefs userId prefs now with
  | error e => exact .refl _
  | ok r =>
      obtain ⟨users, hdb⟩ := Db.updatePrefs_ok hu
      dsimp only
      rw [hdb]
      exact ⟨fun _ => rfl, rfl⟩

/-- The worker writes a notification, which is no audited row. -/
theorem process_accounts (job : NotificationJob) :
    (NotificationsProcessor.process job g).Accounts none w := by
  left
  unfold NotificationsProcessor.process
  rw [Service.exec_bind]
  unfold Db.createNotification
  split_ifs with huniq hfk
  · exact .refl _
  · exact .refl _
  · dsimp only
    cases NotificationsProcessor.pref job.type with
    | none => exact ⟨fun _ => rfl, rfl⟩
    | some pref =>
        dsimp only
        rw [Service.query_bind]
        generalize Option.filter pref _ = user
        cases user with
        | none => exact ⟨fun _ => rfl, rfl⟩
        | some user => exact ⟨fun _ => rfl, rfl⟩

/-- A guarded route of the tenant. -/
theorem tenant_accounts (hsound : TenantSound w.db) (hrefs : Referential w.db)
    (hunused : g.Unused w.db) (user : AuthUser) (orgSlug : JsString) {call : TenantWrite}
    (hcall : ∀ stripe plan, call ≠ .createCheckout stripe plan) :
    ((ApiCall.tenant user orgSlug call).serve env g).Accounts (some user.sub) w := by
  rcases tenantScoped_cases user orgSlug call.metadata
    (fun organizationId => call.handler env organizationId user.sub g) w with
    ⟨e, hrun⟩ | ⟨m, hm, -, hrun⟩
  · left
    rw [serve, hrun]
    exact .refl _
  · obtain ⟨hmem, huser, -⟩ := Db.findMembershipBySlug_some hm
    obtain ⟨hknown, horg⟩ := hrefs.members m hmem
    have hready : w.db.Auditable g m.organizationId (some user.sub) := by
      refine ⟨hunused.logs, horg, fun id hid => ?_⟩
      obtain rfl := Option.some.inj hid
      rw [← huser]
      exact hknown
    have haccounts := call.handler_accounts env hsound hready hcall
    exact .of_eq hrun haccounts

/-- A call that records nothing is audited when it changes nothing. -/
theorem audited_iff_of_logs {call : ApiCall}
    (hlogs : (call.serve env g w).2.db.auditLogs = w.db.auditLogs) :
    call.Audited env g w ↔
      ¬∃ other, (call.serve env g w).2.db.tenantRows other ≠ w.db.tenantRows other := by
  constructor
  · rintro h ⟨other, hne⟩
    obtain ⟨log, hlog, -⟩ := h.changes other hne
    rw [hlogs] at hlog
    simp at hlog
  · intro hsame
    exact ⟨fun other hne => absurd ⟨other, hne⟩ hsame, fun _ _ => hlogs⟩

/-- A checkout is audited unless it stores a customer. -/
theorem audited_checkout_iff (user : AuthUser) (orgSlug : JsString) (stripe : Stripe)
    (plan : PaidPlan) :
    (ApiCall.tenant user orgSlug (.createCheckout stripe plan)).Audited env g w ↔
      ¬(ApiCall.tenant user orgSlug (.createCheckout stripe plan)).StoresCustomer env g w := by
  have hguards := tenantScoped_apply user orgSlug
    (TenantWrite.createCheckout stripe plan).metadata (fun organizationId =>
      (TenantWrite.createCheckout stripe plan).handler env organizationId user.sub g) w
  have hrejected : ∀ {e : Exn},
      (ApiCall.tenant user orgSlug (.createCheckout stripe plan)).serve env g w = (.error e, w) →
        (ApiCall.tenant user orgSlug (.createCheckout stripe plan)).Audited env g w := by
    intro e hrun
    rw [audited_iff_of_logs (by rw [hrun]), hrun]
    simp
  rw [StoresCustomer]
  by_cases hslug : orgSlug = []
  · rw [if_pos hslug] at hguards
    exact iff_of_true (hrejected hguards) fun h => h.1 hslug
  · rw [if_neg hslug] at hguards
    cases hm : w.db.findMembershipBySlug user.sub orgSlug with
    | none =>
        rw [hm] at hguards
        exact iff_of_true (hrejected hguards) (by simp)
    | some m =>
        rw [hm] at hguards
        cases hr : RbacGuard.canActivate (TenantWrite.createCheckout stripe plan).metadata
            (some m.role) with
        | error e =>
            simp only [hr] at hguards
            exact iff_of_true (hrejected hguards) (by simp [hr])
        | ok u =>
            simp only [hr] at hguards
            have hworld : ((ApiCall.tenant user orgSlug (.createCheckout stripe plan)).serve env g
                w).2 = (BillingService.createCheckout env.billing stripe m.organizationId plan g.now
                  w).2 :=
              (congrArg Prod.snd hguards).trans (Service.forget_world ..)
            rw [audited_iff_of_logs (by rw [hworld]; exact BillingService.createCheckout_logs), hworld,
              BillingService.createCheckout_changes]
            simp [hslug, hr]

/-- **Every call but a checkout is audited.** -/
theorem audited {call : ApiCall} (hsound : TenantSound w.db) (hrefs : Referential w.db)
    (hunused : g.Unused w.db)
    (hcall : ∀ user orgSlug stripe plan, call ≠ .tenant user orgSlug (.createCheckout stripe plan)) :
    call.Audited env g w := by
  refine audited_of_accounts ?_
  cases call with
  | register input device => exact (AuthService.register_accounts hunused ..).forget
  | login input device => exact (accounts_of_tokens (AuthService.login_frame ..)).forget
  | refresh token device => exact (accounts_of_tokens (TokenService.rotate_frame ..)).forget
  | logout token => exact accounts_of_tokens (AuthService.logout_frame ..)
  | createOrg user input => exact (OrgsService.create_accounts hunused ..).forget
  | acceptInvite user token => exact (OrgsService.acceptInvite_accounts hunused hrefs ..).forget
  | tenant user orgSlug call =>
      refine tenant_accounts hsound hrefs hunused user orgSlug fun stripe plan heq => ?_
      exact hcall user orgSlug stripe plan (by rw [heq])
  | markRead user ids => exact .inl ⟨fun _ => rfl, rfl⟩
  | markAllRead user => exact .inl ⟨fun _ => rfl, rfl⟩
  | updatePrefs user prefs => exact (updatePrefs_accounts ..).forget
  | webhook event => exact BillingService.handleWebhook_accounts hunused hrefs ..
  | upload url => exact .inl (.refl _)
  | work job =>
      by_cases hqueued : job ∈ w.queue
      · exact .of_eq (if_pos hqueued) (process_accounts job)
      · have hrun : (ApiCall.work job).serve env g w = (pure () : Service Unit) w := if_neg hqueued
        exact .of_eq hrun (.inl (.refl _))

end ApiCall

/-- **The audit trail.**  After any run of calls, a call whose inserts do not fail adds exactly one
audit row for the tenant whose rows it changes, in the name of its user, and none when it is
rejected, exactly when it is no checkout that stores a new Stripe customer. -/
theorem audited_iff {env : ApiEnv} {w₀ w : World} {calls : List (ApiCall × Gen)}
    (hsound : TenantSound w₀.db) (hrefs : Referential w₀.db)
    (hrun : Run (ApiStep env) w₀ calls w) (call : ApiCall) {g : Gen} (hunused : g.Unused w.db) :
    call.Audited env g w ↔ ¬call.StoresCustomer env g w := by
  by_cases hcall : ∃ user orgSlug stripe plan, call = .tenant user orgSlug (.createCheckout stripe plan)
  · obtain ⟨user, orgSlug, stripe, plan, rfl⟩ := hcall
    exact ApiCall.audited_checkout_iff user orgSlug stripe plan
  · have haudited : call.Audited env g w :=
      ApiCall.audited (tenantSound_of_run hsound hrun) (referential_of_run hrefs hrun) hunused
        fun user orgSlug stripe plan heq => hcall ⟨user, orgSlug, stripe, plan, heq⟩
    have hno : ¬call.StoresCustomer env g w := by
      intro hstores
      cases call with
      | tenant user orgSlug write =>
          cases write with
          | createCheckout stripe plan => exact hcall ⟨user, orgSlug, stripe, plan, rfl⟩
          | _ => exact hstores
      | _ => exact hstores
    exact ⟨fun _ => hno, fun _ => haudited⟩

/-! ### Ann's organization -/

namespace AuditTrail.Samples

def env : ApiEnv := ⟨TokenService.Samples.env, Webhooks.Samples.env⟩

/-- Ann owns the demo organization, which has no Stripe customer yet. -/
def world : World :=
  { Webhooks.Samples.world none with db := { (Webhooks.Samples.world none).db with
      memberships := [⟨js "cm", Demo.userId.val, Demo.orgId.val, .OWNER, 0⟩] } }

theorem world_sound : TenantSound world.db := by constructor <;> decide

theorem world_referential : Referential world.db := by constructor <;> decide

def draw (id : Cuid) : Gen := ⟨0, fun _ => id, fun _ => js "r0"⟩

def route (call : TenantWrite) : ApiCall :=
  .tenant ⟨Demo.userId.val, Demo.user.email⟩ (js "demo") call

/-- An issue is created and removed again. -/
def create : ApiCall := route (.createIssue (js "PM") { title := js "Login" })

def remove : ApiCall := route (.removeIssue Demo.firstId.val)

def created : World := create.exec env (draw Demo.firstId) world

theorem created_unused : (draw Demo.secondId).Unused created.db where
  logs _ := show ∀ a ∈ created.db.auditLogs, a.id ≠ Demo.secondId.val by decide
  tokens _ := show ∀ t ∈ created.db.refreshTokens, t.id ≠ Demo.secondId.val ∧
    t.tokenHash ≠ TokenService.hash (js "r0") by decide

end AuditTrail.Samples

open AuditTrail.Samples in
theorem audited_remove : remove.Audited env (draw Demo.secondId) created :=
  (audited_iff world_sound world_referential (Run.nil.snoc (a := (create, draw Demo.firstId)) rfl)
    remove created_unused).2 fun h => h

open AuditTrail.Samples in
/-- A checkout stores the customer and records nothing. -/
theorem checkout_not_audited :
    ¬ ∀ (env : ApiEnv) (w₀ w : World) (calls : List (ApiCall × Gen)), TenantSound w₀.db →
      Referential w₀.db → Run (ApiStep env) w₀ calls w → ∀ (call : ApiCall) (g : Gen),
      g.Unused w.db → call.Audited env g w := by
  intro hall
  have hunused : (draw Demo.firstId).Unused world.db :=
    ⟨fun _ _ h => (by cases h), fun _ _ h => (by cases h)⟩
  have haudited := hall env world world [] world_sound world_referential .nil
    (route (.createCheckout Webhooks.Samples.stripe ⟨.PRO, by decide⟩)) (draw Demo.firstId) hunused
  obtain ⟨log, hlog, -⟩ := haudited.changes Demo.orgId.val fun heq =>
    absurd (congrArg (fun rows => rows.2.2.2.2.2.2) heq) (by decide)
  have hnone : ([] : List AuditLog) = [log] := hlog
  cases hnone

end PmSaas
