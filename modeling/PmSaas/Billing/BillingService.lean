import PmSaas.Common.Service
import PmSaas.Lib.Table
import PmSaas.Types.Schemas

/-!
# `billing.service.ts`: checkout and subscription events

Stripe itself is outside: a `Stripe` answers the two calls `createCheckout` makes, and a webhook
call starts from the event `constructEvent` returns.
-/

namespace PmSaas

open Table

/-- `Exclude<SubscriptionPlan, 'FREE'>`. -/
abbrev PaidPlan := { plan : SubscriptionPlan // plan ≠ .FREE }

/-- The plan's enum value as a string. -/
def SubscriptionPlan.text : SubscriptionPlan → JsString
  | .FREE => js "FREE"
  | .PRO => js "PRO"
  | .BUSINESS => js "BUSINESS"

/-- The settings of `config/env.ts` that billing reads; one that is not set is empty. -/
structure BillingEnv where
  WEB_ORIGIN : JsString
  STRIPE_SECRET_KEY : JsString
  STRIPE_PRICE_PRO : JsString
  STRIPE_PRICE_BUSINESS : JsString
  deriving DecidableEq, Repr

/-- What `checkout.sessions.create` is called with. -/
structure CheckoutSession where
  customer : JsString
  price : JsString
  quantity : ℕ
  success_url : JsString
  cancel_url : JsString
  organizationId : JsString
  plan : SubscriptionPlan
  deriving DecidableEq, Repr

/-- The answers of Stripe during one call. -/
structure Stripe where
  /-- `customers.create({ name, metadata: { organizationId } })`, the id of the new customer. -/
  createCustomer : JsString → JsString → Except Exn JsString
  /-- `checkout.sessions.create`, the URL of the session. -/
  createSession : CheckoutSession → Except Exn JsString

/-- `Stripe.Subscription`, as far as it is read. -/
structure StripeSubscription where
  id : JsString
  customer : JsString
  status : JsString
  /-- `items.data[0]?.price.id` -/
  priceId : Option JsString
  cancel_at_period_end : Bool
  /-- In seconds. -/
  current_period_end : Option ℤ
  deriving DecidableEq, Repr

/-- A verified event: one of the three subscription events, or another one. -/
inductive StripeEvent where
  | subscriptionCreated (sub : StripeSubscription)
  | subscriptionUpdated (sub : StripeSubscription)
  | subscriptionDeleted (sub : StripeSubscription)
  | other
  deriving DecidableEq, Repr

/-- The subscription an event is about. -/
def StripeEvent.subscription : StripeEvent → Option StripeSubscription
  | .subscriptionCreated sub => some sub
  | .subscriptionUpdated sub => some sub
  | .subscriptionDeleted sub => some sub
  | .other => none

/-! ### The Prisma calls -/

def Db.findSubscription (organizationId : JsString) (db : Db) : Option Subscription :=
  db.subscriptions.find? (·.organizationId == organizationId)

def Db.rewriteSubscription (p : Subscription → Bool) (f : Subscription → Subscription) (db : Db) :
    Db :=
  { db with subscriptions := updateWhere p f db.subscriptions }

/-- `subscription.update({ where: { organizationId }, data: { stripeCustomerId } })`. -/
def Db.setCustomer (organizationId customerId : JsString) (now : Date) (db : Db) :
    Except Exn (Unit × Db) :=
  if !db.subscriptions.any (·.organizationId == organizationId) then
    .error (.prisma .recordNotFound)
  else if db.subscriptions.any fun s =>
      s.stripeCustomerId == some customerId && s.organizationId != organizationId then
    .error (.prisma .uniqueConstraint)
  else .ok ((), db.rewriteSubscription (·.organizationId == organizationId)
    fun s => { s with stripeCustomerId := some customerId, updatedAt := now })

/-- The columns an event writes. -/
structure Reconciled where
  stripeSubscriptionId : JsString
  plan : SubscriptionPlan
  status : SubscriptionStatus
  cancelAtPeriodEnd : Bool
  currentPeriodEnd : Option Date
  deriving DecidableEq, Repr

def Reconciled.apply (r : Reconciled) (now : Date) (s : Subscription) : Subscription :=
  { s with
    stripeSubscriptionId := some r.stripeSubscriptionId
    plan := r.plan
    status := r.status
    cancelAtPeriodEnd := r.cancelAtPeriodEnd
    currentPeriodEnd := r.currentPeriodEnd
    updatedAt := now }

/-- `subscription.update({ where: { id }, data })`. -/
def Db.reconcile (id : JsString) (r : Reconciled) (now : Date) (db : Db) :
    Except Exn (Unit × Db) :=
  if !db.subscriptions.any (·.id == id) then .error (.prisma .recordNotFound)
  else if db.subscriptions.any fun s =>
      s.stripeSubscriptionId == some r.stripeSubscriptionId && s.id != id then
    .error (.prisma .uniqueConstraint)
  else .ok ((), db.rewriteSubscription (·.id == id) (r.apply now))

theorem Db.setCustomer_ok {organizationId customerId : JsString} {now : Date} {db db' : Db}
    (h : db.setCustomer organizationId customerId now = .ok ((), db')) :
    db' = db.rewriteSubscription (·.organizationId == organizationId)
      fun s => { s with stripeCustomerId := some customerId, updatedAt := now } := by
  unfold Db.setCustomer at h
  split_ifs at h
  cases h
  rfl

theorem Db.reconcile_ok {id : JsString} {r : Reconciled} {now : Date} {db db' : Db}
    (h : db.reconcile id r now = .ok ((), db')) :
    db' = db.rewriteSubscription (·.id == id) (r.apply now) := by
  unfold Db.reconcile at h
  split_ifs at h
  cases h
  rfl

/-- A row is reconciled unless another one holds the Stripe subscription. -/
theorem Db.reconcile_ok_iff {db : Db} {found : Subscription} (hfound : found ∈ db.subscriptions)
    {r : Reconciled} {now : Date} : (∃ db', db.reconcile found.id r now = .ok ((), db')) ↔
      ∀ s ∈ db.subscriptions, s.stripeSubscriptionId = some r.stripeSubscriptionId →
        s.id = found.id := by
  have hexists : (!db.subscriptions.any (·.id == found.id)) = false := by
    simpa using ⟨found, hfound, rfl⟩
  have hheld : (db.subscriptions.any fun s =>
      s.stripeSubscriptionId == some r.stripeSubscriptionId && s.id != found.id) = false ↔
        ∀ s ∈ db.subscriptions, s.stripeSubscriptionId = some r.stripeSubscriptionId →
          s.id = found.id := by
    simp
  rw [Db.reconcile, hexists, if_neg (by simp), ← hheld]
  split
  · rename_i hany
    rw [hany]
    exact iff_of_false nofun nofun
  · rename_i hnone
    exact iff_of_true ⟨_, rfl⟩ (Bool.eq_false_iff.2 hnone)

/-! ### The service -/

namespace BillingService

def client (env : BillingEnv) : Service Unit :=
  Service.throwIf (truthy (some env.STRIPE_SECRET_KEY)).isNone
    (.serviceUnavailable (js "Billing is not configured"))

def priceFor (env : BillingEnv) (plan : PaidPlan) : Service JsString :=
  let id := if plan.val = .PRO then env.STRIPE_PRICE_PRO else env.STRIPE_PRICE_BUSINESS
  Service.orThrow (truthy (some id))
    (.serviceUnavailable (js "No Stripe price configured for " ++ plan.val.text))

/-- A call to Stripe. -/
def call {α : Type} (answer : Except Exn α) : Service α := fun w => (answer, w)

/-- The customer of the organization's subscription, created and stored when there is none. -/
def ensureCustomer (stripe : Stripe) (org : Organization) (subscription : Option Subscription)
    (now : Date) : Service JsString :=
  match truthy (subscription.bind Subscription.stripeCustomerId) with
  | some customerId => pure customerId
  | none => do
      let customerId ← call (stripe.createCustomer org.name org.id)
      Service.exec (Db.setCustomer org.id customerId now)
      pure customerId

/-- Create a Checkout session to upgrade the organization's subscription. -/
def createCheckout (env : BillingEnv) (stripe : Stripe) (organizationId : JsString)
    (plan : PaidPlan) (now : Date) : Service JsString := do
  client env
  let org ← Service.query fun db => db.organizations.find? (·.id == organizationId)
  let subscription ← Service.query (Db.findSubscription organizationId)
  let org ← Service.orThrow org (.prisma .recordNotFound)
  let customerId ← ensureCustomer stripe org subscription now
  let price ← priceFor env plan
  call (stripe.createSession
    { customer := customerId
      price := price
      quantity := (subscription.map Subscription.seats).getD 1
      success_url := env.WEB_ORIGIN ++ js "/" ++ org.slug ++
        js "/settings/billing?status=success"
      cancel_url := env.WEB_ORIGIN ++ js "/" ++ org.slug ++
        js "/settings/billing?status=cancelled"
      organizationId := organizationId
      plan := plan.val })

/-- `statusMap[sub.status] ?? 'INCOMPLETE'`. -/
def statusMap (status : JsString) : SubscriptionStatus :=
  if status = js "active" then .ACTIVE
  else if status = js "trialing" then .TRIALING
  else if status = js "past_due" then .PAST_DUE
  else if status = js "canceled" then .CANCELED
  else if status = js "unpaid" then .PAST_DUE
  else if status = js "incomplete" then .INCOMPLETE
  else if status = js "incomplete_expired" then .CANCELED
  else .INCOMPLETE

/-- The plan a price belongs to. -/
def planOf (env : BillingEnv) (priceId : Option JsString) : SubscriptionPlan :=
  if priceId = some env.STRIPE_PRICE_BUSINESS then .BUSINESS
  else if priceId = some env.STRIPE_PRICE_PRO then .PRO
  else .FREE

def reconciled (env : BillingEnv) (sub : StripeSubscription) : Reconciled where
  stripeSubscriptionId := sub.id
  plan := if sub.status = js "canceled" then .FREE else planOf env sub.priceId
  status := statusMap sub.status
  cancelAtPeriodEnd := sub.cancel_at_period_end
  currentPeriodEnd := (sub.current_period_end.filter (· ≠ 0)).map (· * 1000)

def reconcileSubscription (env : BillingEnv) (sub : StripeSubscription) (g : Gen) :
    Service Unit := do
  let found ← Service.query fun db =>
    db.subscriptions.find? (·.stripeCustomerId == some sub.customer)
  match found with
  | none => pure ()
  | some found => do
      Service.exec (Db.reconcile found.id (reconciled env sub) g.now)
      record
        { organizationId := found.organizationId
          actorId := none
          action := "billing.subscription_updated"
          entityType := "Subscription"
          entityId := found.id
          metadata := some [("status", .str sub.status),
            ("plan", .str (planOf env sub.priceId).text)] }
        (g.cuid 0) g.now

/-- Apply a webhook event; `event` is what `constructEvent` returns or throws. -/
def handleWebhook (env : BillingEnv) (event : Except Exn StripeEvent) (g : Gen) :
    Service Unit := do
  client env
  match event with
  | .error e => Service.throw e
  | .ok (.subscriptionCreated sub) => reconcileSubscription env sub g
  | .ok (.subscriptionUpdated sub) => reconcileSubscription env sub g
  | .ok (.subscriptionDeleted sub) => reconcileSubscription env sub g
  | .ok .other => pure ()

/-! ### What each method can do -/

/-- `ensureCustomer` changes nothing, or stores a new customer in the organization's subscription,
which has none. -/
theorem ensureCustomer_cases (stripe : Stripe) (org : Organization)
    (subscription : Option Subscription) (now : Date) (w : World) :
    (ensureCustomer stripe org subscription now w).2 = w ∨
    ∃ customerId db, stripe.createCustomer org.name org.id = .ok customerId ∧
      truthy (subscription.bind Subscription.stripeCustomerId) = none ∧
      w.db.setCustomer org.id customerId now = .ok ((), db) ∧
      (ensureCustomer stripe org subscription now w).2 = { w with db := db } := by
  unfold ensureCustomer
  cases truthy (subscription.bind Subscription.stripeCustomerId) with
  | some customerId => exact .inl rfl
  | none =>
      simp only [Service.bind_apply, call]
      cases stripe.createCustomer org.name org.id with
      | error e => exact .inl rfl
      | ok customerId =>
          simp only [Service.exec]
          cases hs : w.db.setCustomer org.id customerId now with
          | error e => exact .inl rfl
          | ok r => exact .inr ⟨customerId, r.2, rfl, trivial, hs, rfl⟩

/-- All that `createCheckout` leaves behind is the customer: the session is Stripe's. -/
theorem createCheckout_world (env : BillingEnv) (stripe : Stripe) (organizationId : JsString)
    (plan : PaidPlan) (now : Date) (w : World) :
    (createCheckout env stripe organizationId plan now w).2 =
      if (truthy (some env.STRIPE_SECRET_KEY)).isNone then w
      else match w.db.organizations.find? (·.id == organizationId) with
        | none => w
        | some org =>
            (ensureCustomer stripe org (w.db.findSubscription organizationId) now w).2 := by
  rw [createCheckout, client, Service.throwIf_bind]
  split
  · rfl
  · simp only [Service.query_bind, Service.orThrow_bind]
    cases w.db.organizations.find? (·.id == organizationId) with
    | none => rfl
    | some org =>
        simp only
        rw [Service.bind_apply]
        rcases ensureCustomer stripe org (w.db.findSubscription organizationId) now w with
          ⟨_ | customerId, w'⟩
        · rfl
        · simp only [priceFor, Service.orThrow_bind]
          cases truthy (some (if plan.val = .PRO then env.STRIPE_PRICE_PRO
            else env.STRIPE_PRICE_BUSINESS)) <;> rfl

/-- `createCheckout` changes nothing, or stores a new customer in the organization's subscription,
which has none. -/
theorem createCheckout_stored (env : BillingEnv) (stripe : Stripe) (organizationId : JsString)
    (plan : PaidPlan) (now : Date) (w : World) :
    (createCheckout env stripe organizationId plan now w).2 = w ∨
    ∃ name customerId db, stripe.createCustomer name organizationId = .ok customerId ∧
      truthy ((w.db.findSubscription organizationId).bind Subscription.stripeCustomerId) = none ∧
      w.db.setCustomer organizationId customerId now = .ok ((), db) ∧
      (createCheckout env stripe organizationId plan now w).2 = { w with db := db } := by
  rw [createCheckout_world]
  split
  · exact .inl rfl
  · cases ho : w.db.organizations.find? (·.id == organizationId) with
    | none => exact .inl rfl
    | some org =>
        have hid : org.id = organizationId := by simpa using List.find?_some ho
        rw [← hid]
        exact (ensureCustomer_cases ..).imp_right fun h => ⟨org.name, h⟩

/-- `createCheckout` changes nothing, or stores a customer in the organization's subscription. -/
theorem createCheckout_cases (env : BillingEnv) (stripe : Stripe) (organizationId : JsString)
    (plan : PaidPlan) (now : Date) (w : World) :
    (createCheckout env stripe organizationId plan now w).2 = w ∨
    ∃ customerId db, w.db.setCustomer organizationId customerId now = .ok ((), db) ∧
      (createCheckout env stripe organizationId plan now w).2 = { w with db := db } := by
  refine (createCheckout_stored env stripe organizationId plan now w).imp_right ?_
  rintro ⟨_, customerId, db, _, _, hs, hres⟩
  exact ⟨customerId, db, hs, hres⟩

/-- `reconcileSubscription` changes nothing, or rewrites the subscription of the event's customer
on behalf of its organization. -/
theorem reconcileSubscription_cases (env : BillingEnv) (sub : StripeSubscription) (g : Gen)
    (w : World) :
    (reconcileSubscription env sub g w).2 = w ∨
    ∃ found db, found ∈ w.db.subscriptions ∧ found.stripeCustomerId = some sub.customer ∧
      w.db.reconcile found.id (reconciled env sub) g.now = .ok ((), db) ∧
      Aftermath found.organizationId { w with db := db }
        (reconcileSubscription env sub g w).2 := by
  rw [reconcileSubscription, Service.query_bind]
  cases hf : w.db.subscriptions.find? (·.stripeCustomerId == some sub.customer) with
  | none => exact .inl rfl
  | some found =>
      simp only [Service.exec_bind]
      cases hr : w.db.reconcile found.id (reconciled env sub) g.now with
      | error e => exact .inl rfl
      | ok r =>
          have hcustomer : found.stripeCustomerId = some sub.customer := by
            simpa using List.find?_some hf
          exact .inr ⟨found, r.2, List.mem_of_find?_eq_some hf, hcustomer, hr, .recorded ..⟩

/-- An event that is no subscription event is acknowledged. -/
theorem handleWebhook_ok {env : BillingEnv} {g : Gen} (event : StripeEvent) (w : World)
    (hconfigured : (truthy (some env.STRIPE_SECRET_KEY)).isSome = true) :
    (handleWebhook env (.ok event) g w).2 =
      event.subscription.elim w fun sub => (reconcileSubscription env sub g w).2 := by
  have hclient : (truthy (some env.STRIPE_SECRET_KEY)).isNone = false := by
    rw [Option.isNone_eq_false_iff]
    exact hconfigured
  unfold handleWebhook client
  rw [hclient, Service.throwIf_bind, if_neg (by simp)]
  cases event <;> rfl

theorem handleWebhook_unchanged {env : BillingEnv} {event : Except Exn StripeEvent} {g : Gen}
    {w : World} (h : (truthy (some env.STRIPE_SECRET_KEY)).isSome = false ∨ ∃ e, event = .error e) :
    (handleWebhook env event g w).2 = w := by
  unfold handleWebhook client
  rw [Service.throwIf_bind]
  split
  · rfl
  · rename_i hclient
    rcases h with hunset | ⟨e, rfl⟩
    · exact absurd (Option.isSome_eq_false_iff.1 hunset) hclient
    · rfl

/-- A webhook call that changes something reconciles the subscription of a verified event. -/
theorem handleWebhook_event (env : BillingEnv) (event : Except Exn StripeEvent) (g : Gen)
    (w : World) :
    (handleWebhook env event g w).2 = w ∨
    ∃ verified sub, event = .ok verified ∧ verified.subscription = some sub ∧
      (handleWebhook env event g w).2 = (reconcileSubscription env sub g w).2 := by
  cases event with
  | error e => exact .inl (handleWebhook_unchanged (.inr ⟨e, rfl⟩))
  | ok event =>
      cases hconfigured : (truthy (some env.STRIPE_SECRET_KEY)).isSome with
      | false => exact .inl (handleWebhook_unchanged (.inl hconfigured))
      | true =>
          rw [handleWebhook_ok event w hconfigured]
          cases hsub : event.subscription with
          | none => exact .inl rfl
          | some sub => exact .inr ⟨event, sub, rfl, hsub, rfl⟩

end BillingService

end PmSaas
