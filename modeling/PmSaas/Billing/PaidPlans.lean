import PmSaas.Api.Referential
import PmSaas.Billing.CanceledPlans
import PmSaas.Billing.CheckoutRaces

/-!
# Where a plan comes from

Every organization is created together with its subscription, and nothing else inserts or deletes
one.  `BillingService` writes the row in two ways: a checkout stores the customer Stripe created,
and a webhook overwrites the billed columns.  So in every state of an installation there is one row
for each organization, no customer is on two of them, and the billed columns of a row are the
initial ones or what one verified event about its customer said (`plan_from_stripe`).
-/

namespace PmSaas

open Table TransitionSystem

/-- The columns of a new organization's subscription. -/
def initialColumns : BilledColumns := ⟨none, .FREE, .ACTIVE, false, none⟩

/-- One of the calls is a verified event about the row's customer, and the row has the columns it
asks for. -/
def Subscription.SaidBy (env : BillingEnv) (calls : List (ApiCall × Gen)) (s : Subscription) :
    Prop :=
  ∃ event sub g, (.webhook (.ok event), g) ∈ calls ∧ event.subscription = some sub ∧
    s.stripeCustomerId = some sub.customer ∧
    s.columns = (BillingService.reconciled env sub).columns

/-- The subscriptions after the given calls. -/
structure SubscriptionTable (env : BillingEnv) (calls : List (ApiCall × Gen)) (db : Db) : Prop where
  keys : CustomerKeys db
  every : ∀ o ∈ db.organizations, ∃ s ∈ db.subscriptions, s.organizationId = o.id
  named : ∀ s ∈ db.subscriptions, s.stripeCustomerId ≠ some []
  seats : ∀ s ∈ db.subscriptions, s.seats = 1
  columns : ∀ s ∈ db.subscriptions, s.columns = initialColumns ∨ s.SaidBy env calls

/-- The tables `SubscriptionTable` is about. -/
def Db.accounts (db : Db) := (db.organizations, db.subscriptions)

namespace SubscriptionTable

variable {env : BillingEnv} {calls : List (ApiCall × Gen)} {call : ApiCall × Gen} {db db' : Db}

theorem empty (env : BillingEnv) : SubscriptionTable env [] Db.empty := by
  refine ⟨⟨List.nodup_nil, ?_⟩, ?_, ?_, ?_, ?_⟩ <;> simp [Db.empty]

/-- A call that leaves the two tables. -/
theorem congr (h : SubscriptionTable env calls db) (heq : db'.accounts = db.accounts) :
    SubscriptionTable env (calls ++ [call]) db' := by
  simp only [Db.accounts, Prod.mk.injEq] at heq
  obtain ⟨ho, hs⟩ := heq
  refine ⟨⟨?_, ?_⟩, ?_, ?_, ?_, ?_⟩ <;> simp only [ho, hs]
  · exact h.keys.organizations
  · exact h.keys.customers
  · exact h.every
  · exact h.named
  · exact h.seats
  · intro s hmem
    refine (h.columns s hmem).imp_right ?_
    rintro ⟨event, sub, g, hcall, hsaid⟩
    exact ⟨event, sub, g, List.mem_append_left _ hcall, hsaid⟩

theorem after {organizationId : JsString} {w w' : World} (h : SubscriptionTable env calls w.db)
    (ha : Aftermath organizationId w w') : SubscriptionTable env calls w'.db := by
  obtain ⟨logs, -, hdb⟩ := ha.db
  rw [hdb]
  exact ⟨⟨h.keys.organizations, h.keys.customers⟩, h.every, h.named, h.seats, h.columns⟩

/-- An organization is created with a row of its own. -/
theorem createOrganization (h : SubscriptionTable env calls db) (hrefs : Referential db)
    {userId name slug : JsString} {g : Gen} {org : Organization}
    (hc : db.createOrganization (newOrganization userId name slug g) = .ok (org, db')) :
    SubscriptionTable env calls db' := by
  obtain ⟨-, rfl, hfresh, -, -⟩ := Db.createOrganization_ok hc
  have hnew : ∀ s ∈ db.subscriptions,
      s.organizationId ≠ (newOrganization userId name slug g).subscription.organizationId := by
    intro s hs heq
    obtain ⟨o, ho, hid⟩ := hrefs.subscribers s hs
    exact (hfresh o ho).1 (hid.trans heq)
  have hcases : ∀ s ∈ (db.insertOrganization (newOrganization userId name slug g)).subscriptions,
      s ∈ db.subscriptions ∨ s = (newOrganization userId name slug g).subscription := by
    intro s hs
    simpa [Db.insertOrganization] using hs
  refine ⟨⟨h.keys.organizations.insert hnew, fun s hs s' hs' c hc hc' => ?_⟩, fun o ho => ?_,
    fun s hs => ?_, fun s hs => ?_, fun s hs => ?_⟩
  · rcases hcases s hs with hs | rfl
    · rcases hcases s' hs' with hs' | rfl
      · exact h.keys.customers s hs s' hs' c hc hc'
      · cases hc'
    · cases hc
  · rcases List.mem_append.1 ho with ho | ho
    · obtain ⟨s, hs, hid⟩ := h.every o ho
      exact ⟨s, List.mem_append_left _ hs, hid⟩
    · rw [List.mem_singleton.1 ho]
      exact ⟨_, List.mem_append_right _ (List.mem_singleton_self _), rfl⟩
  · rcases hcases s hs with hs | rfl
    · exact h.named s hs
    · exact nofun
  · rcases hcases s hs with hs | rfl
    · exact h.seats s hs
    · rfl
  · rcases hcases s hs with hs | rfl
    · exact h.columns s hs
    · exact .inl rfl

/-- A checkout stores a customer where there is none, so no event has been heard about the row. -/
theorem setCustomer (h : SubscriptionTable env calls db) {organizationId customerId : JsString}
    {now : Date} (hset : db.setCustomer organizationId customerId now = .ok ((), db'))
    (hunset : truthy ((db.findSubscription organizationId).bind Subscription.stripeCustomerId) =
      none) (hnamed : customerId ≠ []) : SubscriptionTable env calls db' := by
  have hnone : ∀ s ∈ db.subscriptions, s.organizationId = organizationId →
      s.stripeCustomerId = none := by
    intro s hs horg
    have hfind : db.findSubscription organizationId = some s :=
      h.keys.organizations.find?_iff.2 ⟨hs, horg⟩
    rw [hfind, Option.bind_some] at hunset
    cases hc : s.stripeCustomerId with
    | none => rfl
    | some c =>
        rw [hc] at hunset
        have hne : c ≠ [] := fun hnil => h.named s hs (hnil ▸ hc)
        simp [truthy, hne] at hunset
  have hrows : ∀ s ∈ db'.subscriptions, ∃ old ∈ db.subscriptions,
      s.organizationId = old.organizationId ∧ s.seats = old.seats ∧ s.columns = old.columns ∧
        (s = old ∨ old.organizationId = organizationId ∧ s.stripeCustomerId = some customerId) := by
    intro s hs
    rw [Db.setCustomer_ok hset] at hs
    obtain ⟨old, hold, rfl⟩ := mem_updateWhere.1 hs
    refine ⟨old, hold, ?_⟩
    split
    · rename_i horg
      exact ⟨rfl, rfl, rfl, .inr ⟨by simpa using horg, rfl⟩⟩
    · exact ⟨rfl, rfl, rfl, .inl rfl⟩
  refine ⟨h.keys.setCustomer hset, fun o ho => ?_, fun s hs => ?_, fun s hs => ?_, fun s hs => ?_⟩
  · rw [Db.setCustomer_ok hset] at ho ⊢
    obtain ⟨s, hs, hid⟩ := h.every o ho
    refine ⟨_, mem_updateWhere.2 ⟨s, hs, rfl⟩, ?_⟩
    split
    · exact hid
    · exact hid
  · obtain ⟨old, hold, -, -, -, rfl | ⟨-, hcustomer⟩⟩ := hrows s hs
    · exact h.named s hold
    · rw [hcustomer]
      exact fun heq => hnamed (Option.some.inj heq)
  · obtain ⟨old, hold, -, hseats, -⟩ := hrows s hs
    exact hseats.trans (h.seats old hold)
  · obtain ⟨old, hold, -, -, hcolumns, rfl | ⟨horg, -⟩⟩ := hrows s hs
    · exact h.columns s hold
    · rw [hcolumns]
      rcases h.columns old hold with hinitial | ⟨event, sub, g, -, -, hcustomer, -⟩
      · exact .inl hinitial
      · rw [hnone old hold horg] at hcustomer
        cases hcustomer

/-- A verified event overwrites the columns of its customer's row. -/
theorem reconcile (h : SubscriptionTable env calls db) (hids : UniqueKey Subscription.id
    db.subscriptions) {found : Subscription} (hfound : found ∈ db.subscriptions)
    {event : StripeEvent} {sub : StripeSubscription} {g : Gen}
    (hcall : call = (.webhook (.ok event), g)) (hsub : event.subscription = some sub)
    (hcustomer : found.stripeCustomerId = some sub.customer)
    (hr : db.reconcile found.id (BillingService.reconciled env sub) g.now = .ok ((), db')) :
    SubscriptionTable env (calls ++ [call]) db' := by
  have hrows : ∀ s ∈ db'.subscriptions, ∃ old ∈ db.subscriptions,
      s.organizationId = old.organizationId ∧ s.seats = old.seats ∧
        s.stripeCustomerId = old.stripeCustomerId ∧
        (s = old ∨ old = found ∧ s.columns = (BillingService.reconciled env sub).columns) := by
    intro s hs
    rw [Db.reconcile_ok hr] at hs
    obtain ⟨old, hold, rfl⟩ := mem_updateWhere.1 hs
    refine ⟨old, hold, ?_⟩
    split
    · rename_i hid
      exact ⟨rfl, rfl, rfl, .inr ⟨hids.eq_of_key_eq hold hfound (beq_iff_eq.1 hid), rfl⟩⟩
    · exact ⟨rfl, rfl, rfl, .inl rfl⟩
  refine ⟨⟨?_, fun s hs s' hs' c hc hc' => ?_⟩, fun o ho => ?_, fun s hs => ?_, fun s hs => ?_,
    fun s hs => ?_⟩
  · rw [Db.reconcile_ok hr]
    exact h.keys.organizations.update fun _ _ _ => rfl
  · obtain ⟨old, hold, horg, -, hsame, -⟩ := hrows s hs
    obtain ⟨old', hold', horg', -, hsame', -⟩ := hrows s' hs'
    rw [horg, horg']
    exact h.keys.customers old hold old' hold' c (hsame ▸ hc) (hsame' ▸ hc')
  · rw [Db.reconcile_ok hr] at ho ⊢
    obtain ⟨s, hs, hid⟩ := h.every o ho
    refine ⟨_, mem_updateWhere.2 ⟨s, hs, rfl⟩, ?_⟩
    split
    · exact hid
    · exact hid
  · obtain ⟨old, hold, -, -, hsame, -⟩ := hrows s hs
    rw [hsame]
    exact h.named old hold
  · obtain ⟨old, hold, -, hseats, -⟩ := hrows s hs
    exact hseats.trans (h.seats old hold)
  · obtain ⟨old, hold, -, -, hsame, rfl | ⟨rfl, hcolumns⟩⟩ := hrows s hs
    · refine (h.columns s hold).imp_right ?_
      rintro ⟨event, sub, g, hmem, hsaid⟩
      exact ⟨event, sub, g, List.mem_append_left _ hmem, hsaid⟩
    · right
      exact ⟨event, sub, g, by rw [hcall]; simp, hsub, hsame.trans hcustomer, hcolumns⟩

end SubscriptionTable

/-! ### Each call -/

section Calls

variable {env : ApiEnv} {calls : List (ApiCall × Gen)} {call : ApiCall × Gen} {w : World}

/-- The routes of a tenant other than the checkout leave organizations and subscriptions alone. -/
theorem TenantChange.accounts_eq {organizationId actorId : JsString} {g : Gen} {w w' : World}
    {write : TenantWrite} (h : TenantChange organizationId actorId g w write w')
    (hother : ∀ stripe plan, write ≠ .createCheckout stripe plan) :
    w'.db.accounts = w.db.accounts := by
  cases h with
  | createIssue found committed =>
      obtain ⟨_, _, _, _, hins⟩ := Db.createIssueTx_ok committed
      obtain ⟨-, rfl, -⟩ := Db.createIssue_ok hins
      rfl
  | updateIssue found committed =>
      obtain ⟨_, -, -, rfl⟩ := Db.updateIssue_ok committed
      rfl
  | moveIssue found dropped committed =>
      obtain ⟨_, -, -, rfl⟩ := Db.updateIssue_ok committed
      rfl
  | removeIssue found committed =>
      rw [Db.deleteIssue_ok committed]
      rfl
  | createProject committed team =>
      obtain ⟨-, rfl, -⟩ := Db.createProject_ok committed
      rfl
  | addMember found committed =>
      rcases Db.upsertMembership_ok committed with rfl | ⟨rfl, -⟩ <;> rfl
  | invite unknown committed =>
      rcases Db.upsertInvite_ok committed with rfl | rfl <;> rfl
  | updateMemberRole found notOwner => rfl
  | removeMember found notOwner => rfl
  | confirm found key committed =>
      obtain ⟨-, rfl, -⟩ := Db.createAttachment_ok committed
      rfl
  | removeAttachment found attachment => split <;> rfl
  | createCheckout committed => exact absurd rfl (hother _ _)

/-- What a webhook writes is what its event says. -/
theorem SubscriptionTable.webhook (h : SubscriptionTable env.billing calls w.db)
    (hrefs : Referential w.db) (event : Except Exn StripeEvent) (g : Gen) :
    SubscriptionTable env.billing (calls ++ [(.webhook event, g)])
      (BillingService.handleWebhook env.billing event g w).2.db := by
  rcases BillingService.handleWebhook_event env.billing event g w with
    hsame | ⟨verified, sub, rfl, hsub, hres⟩
  · rw [hsame]
    exact h.congr rfl
  · rw [hres]
    rcases BillingService.reconcileSubscription_cases env.billing sub g w with
      hsame | ⟨found, db, hfound, hcustomer, hr, hafter⟩
    · rw [hsame]
      exact h.congr rfl
    · exact (h.reconcile hrefs.subscriptionIds hfound rfl hsub hcustomer hr).after hafter

/-- A tenant's route stores at most a customer of Stripe's. -/
theorem SubscriptionTable.tenant (h : SubscriptionTable env.billing calls w.db) (user : AuthUser)
    (orgSlug : JsString) (write : TenantWrite) (g : Gen)
    (hnames : ∀ stripe plan, write = .createCheckout stripe plan → stripe.Names) :
    SubscriptionTable env.billing (calls ++ [call]) (write.serve env user orgSlug g w).2.db := by
  rcases write.serve_cases env user orgSlug g w with hsame | ⟨m, -, -, hres⟩
  · rw [hsame]
    exact h.congr rfl
  · rw [hres]
    by_cases hcheckout : ∃ stripe plan, write = .createCheckout stripe plan
    · obtain ⟨stripe, plan, rfl⟩ := hcheckout
      rcases BillingService.createCheckout_stored env.billing stripe m.organizationId plan g.now w with
        hsame | ⟨name, customerId, db, hcreate, hunset, hset, hstored⟩
      · rw [TenantWrite.exec, hsame]
        exact h.congr rfl
      · rw [TenantWrite.exec, hstored]
        have hnamed : customerId ≠ [] := by
          rintro rfl
          exact hnames stripe plan rfl name m.organizationId hcreate
        exact (h.setCustomer hset hunset hnamed).congr rfl
    · rcases write.exec_cases env m.organizationId user.sub g w with hsame | ⟨w', hchange, hafter⟩
      · rw [hsame]
        exact h.congr rfl
      · have heq := hchange.accounts_eq fun stripe plan hw => hcheckout ⟨stripe, plan, hw⟩
        exact (h.congr heq).after hafter

/-- **One call**, with checkouts that get customers with ids from Stripe. -/
theorem SubscriptionTable.step (h : SubscriptionTable env.billing calls w.db)
    (hrefs : Referential w.db)
    (hnames : ∀ user orgSlug stripe plan,
      call.1 = .tenant user orgSlug (.createCheckout stripe plan) → stripe.Names) :
    SubscriptionTable env.billing (calls ++ [call]) (call.1.exec env call.2 w).db := by
  obtain ⟨request, g⟩ := call
  cases request with
  | tenant user orgSlug write =>
      exact h.tenant user orgSlug write g fun stripe plan hw =>
        hnames user orgSlug stripe plan (by rw [hw])
  | webhook event => exact h.webhook hrefs event g
  | register input device =>
      rcases (ApiCall.register input device).exec_cases env g w with hsame | ⟨w', o, hchange, hafter⟩
      · rw [hsame]
        exact h.congr rfl
      · refine SubscriptionTable.after ?_ hafter
        cases hchange with
        | register committed =>
            obtain ⟨-, rfl, -⟩ := Db.createUser_ok committed
            exact h.congr rfl
        | registerOrg committed owned =>
            have husers := hrefs.createUser committed
            obtain ⟨-, rfl, -⟩ := Db.createUser_ok committed
            have hdb : SubscriptionTable env.billing (calls ++ [(.register input device, g)])
              { w.db with users := w.db.users ++ [AuthService.newUser input g] } := h.congr rfl
            have hnew := hdb.createOrganization husers owned
            exact ⟨⟨hnew.keys.organizations, hnew.keys.customers⟩, hnew.every, hnew.named,
              hnew.seats, hnew.columns⟩
  | createOrg user input =>
      rcases (ApiCall.createOrg user input).exec_cases env g w with hsame | ⟨w', o, hchange, hafter⟩
      · rw [hsame]
        exact h.congr rfl
      · cases hchange with
        | createOrg committed =>
            have hlater : SubscriptionTable env.billing (calls ++ [(.createOrg user input, g)])
              w.db := h.congr rfl
            exact (hlater.createOrganization hrefs committed).after hafter
  | acceptInvite user token =>
      rcases (ApiCall.acceptInvite user token).exec_cases env g w with
        hsame | ⟨w', o, hchange, hafter⟩
      · rw [hsame]
        exact h.congr rfl
      · cases hchange with
        | acceptInvite found pending addressee committed burnt =>
            refine SubscriptionTable.after (h.congr ?_) hafter
            obtain ⟨invites, rfl⟩ := Db.burnInvite_ok burnt
            rcases Db.upsertMembership_ok committed with rfl | ⟨rfl, -⟩ <;> rfl
  | updatePrefs user prefs =>
      rcases (ApiCall.updatePrefs user prefs).exec_cases env g w with
        hsame | ⟨w', o, hchange, hafter⟩
      · rw [hsame]
        exact h.congr rfl
      · cases hchange with
        | updatePrefs committed =>
            refine SubscriptionTable.after (h.congr ?_) hafter
            obtain ⟨users, rfl⟩ := Db.updatePrefs_ok committed
            rfl
  | login input device =>
      obtain ⟨tokens, heq⟩ := AuthService.login_frame env.auth input device g w
      rw [ApiCall.exec, heq]
      exact h.congr rfl
  | refresh token device =>
      obtain ⟨tokens, heq⟩ := TokenService.rotate_frame env.auth token device g w
      rw [ApiCall.exec, AuthService.refresh, heq]
      exact h.congr rfl
  | logout token =>
      obtain ⟨tokens, heq⟩ := AuthService.logout_frame env.auth token g w
      rw [ApiCall.exec, heq]
      exact h.congr rfl
  | markRead user ids => exact h.congr rfl
  | markAllRead user => exact h.congr rfl
  | upload url => exact h.congr rfl
  | work job =>
      rw [ApiCall.exec]
      split
      · rcases NotificationsProcessor.process_cases job g w with hsame | hafter
        · rw [hsame]
          exact h.congr rfl
        · refine SubscriptionTable.after ?_ hafter
          exact h.congr rfl
      · exact h.congr rfl

end Calls

/-! ### Runs -/

/-- **Where plans come from.**  In every state of an installation whose checkouts get customers with
ids from Stripe, each organization has exactly one subscription, with one seat; a customer belongs
to at most one of them; and the billed columns are the initial ones or what one of the verified
events about the row's customer says, so that no other call ever gives an organization a plan. -/
theorem plan_from_stripe {env : ApiEnv} {w : World} {calls : List (ApiCall × Gen)}
    (hrun : Run (ApiStep env) World.empty calls w)
    (hnames : ∀ call ∈ calls, ∀ user orgSlug stripe plan,
      call.1 = .tenant user orgSlug (.createCheckout stripe plan) → stripe.Names) :
    (∀ o ∈ w.db.organizations, ∃! s, s ∈ w.db.subscriptions ∧ s.organizationId = o.id) ∧
    (∀ s ∈ w.db.subscriptions, ∀ s' ∈ w.db.subscriptions, ∀ customer,
      s.stripeCustomerId = some customer → s'.stripeCustomerId = some customer → s = s') ∧
    ∀ s ∈ w.db.subscriptions, s.seats = 1 ∧
      (s.columns = initialColumns ∨ s.SaidBy env.billing calls) := by
  have hinv : SubscriptionTable env.billing calls w.db ∧ Referential w.db := by
    induction hrun with
    | nil => exact ⟨.empty _, .empty⟩
    | @snoc calls w w' call _ hstep ih =>
        obtain ⟨htable, hrefs⟩ := ih fun c hc => hnames c (List.mem_append_left _ hc)
        have hlast := hnames call (List.mem_append_right _ (List.mem_singleton_self _))
        rw [show w' = _ from hstep]
        exact ⟨htable.step hrefs hlast,
          referential_of_run hrefs (Run.nil.snoc (show ApiStep env w call _ from rfl))⟩
  obtain ⟨htable, -⟩ := hinv
  refine ⟨fun o ho => ?_, fun s hs s' hs' customer hc hc' => ?_, fun s hs => ?_⟩
  · obtain ⟨s, hs, hid⟩ := htable.every o ho
    exact ⟨s, ⟨hs, hid⟩, fun s' ⟨hs', hid'⟩ =>
      htable.keys.organizations.eq_of_key_eq hs' hs (hid'.trans hid.symm)⟩
  · exact htable.keys.organizations.eq_of_key_eq hs hs'
      (htable.keys.customers s hs s' hs' customer hc hc')
  · exact ⟨htable.seats s hs, htable.columns s hs⟩

/-! ### Ann's organization goes on the PRO plan -/

namespace PaidPlans.Samples

open CanceledPlans.Samples (env)
open Webhooks.Samples (stripe stripe_names)

def signUp : ApiCall × Gen :=
  (.register ⟨js "ann@demo.test", js "password", js "Ann", some (js "Demo")⟩
    TokenService.Samples.device, TokenService.Samples.draw Demo.orgId (js "t0"))

theorem pro_ne_free : SubscriptionPlan.PRO ≠ .FREE := by decide

def checkout : ApiCall × Gen :=
  (.tenant ⟨Demo.orgId.val, js "ann@demo.test"⟩ (js "demo")
    (.createCheckout stripe ⟨.PRO, pro_ne_free⟩),
    Webhooks.Samples.gen)

def paid : ApiCall × Gen :=
  (.webhook (.ok (.subscriptionCreated
    (Webhooks.Samples.subscription "sub1" "active" "price_pro"))), Webhooks.Samples.gen)

def calls : List (ApiCall × Gen) := [signUp, checkout, paid]

def world : World := ApiCall.serveAll env World.empty calls

theorem world_run : Run (ApiStep env) World.empty calls world :=
  ((Run.nil.snoc rfl).snoc rfl).snoc rfl

end PaidPlans.Samples

open PaidPlans.Samples in
theorem plan_from_stripe_paid :
    (∀ s ∈ world.db.subscriptions, s.seats = 1 ∧
      (s.columns = initialColumns ∨ s.SaidBy Webhooks.Samples.env calls)) ∧
    world.db.subscriptions.map (fun s => (s.organizationId, s.plan)) = [(Demo.orgId.val, .PRO)] := by
  have hnames : ∀ call ∈ calls, ∀ user orgSlug stripe plan,
      call.1 = .tenant user orgSlug (.createCheckout stripe plan) → stripe.Names := by
    intro call hcall user orgSlug stripe plan heq
    simp only [calls, List.mem_cons, List.not_mem_nil, or_false] at hcall
    rcases hcall with rfl | rfl | rfl
    · cases heq
    · cases heq
      exact Webhooks.Samples.stripe_names
    · cases heq
  exact ⟨(plan_from_stripe world_run hnames).2.2, by decide⟩

end PmSaas
