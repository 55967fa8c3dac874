import PmSaas.Billing.Webhooks
import PmSaas.Lib.Interleaving

/-!
# Concurrent checkouts of one organization

`createCheckout` reads the subscription, creates a customer at Stripe when the row has none, stores
it, and opens a session for it.  These are four calls, and the store overwrites whatever the row
holds by then.

* `alone_eq_createCheckout`: a call that runs by itself is `createCheckout`;
* `CustomerKept.step`: as long as no customer is stored over another one, every session is for the
  customer of the row;
* `sessions_found_of_unset`: hence over all such runs the webhook finds the row of every session
  that was handed out.
-/

namespace PmSaas

open Table TransitionSystem

/-- The points of a `createCheckout` call between its calls to Prisma and Stripe. -/
inductive CheckoutTask where
  | start (plan : PaidPlan)
  /-- The row has no customer. -/
  | creating (org : Organization) (subscription : Option Subscription) (plan : PaidPlan)
  | storing (org : Organization) (subscription : Option Subscription) (plan : PaidPlan)
      (customerId : JsString)
  | opening (session : CheckoutSession)
  | done (answer : Except Exn (CheckoutSession × JsString))

/-- What one call is answered: by Stripe, and by the clock. -/
structure CheckoutCall where
  stripe : Stripe
  now : Date

namespace CheckoutTask

open BillingService

/-- The arguments of `checkout.sessions.create`, of which the price may be missing. -/
def openSession (env : BillingEnv) (organizationId : JsString) (org : Organization)
    (subscription : Option Subscription) (plan : PaidPlan) (customerId : JsString) :
    CheckoutTask :=
  match truthy (some
      (if plan.val = .PRO then env.STRIPE_PRICE_PRO else env.STRIPE_PRICE_BUSINESS)) with
  | none => .done (.error (.serviceUnavailable
      (js "No Stripe price configured for " ++ plan.val.text)))
  | some price => .opening
      { customer := customerId
        price := price
        quantity := (subscription.map Subscription.seats).getD 1
        success_url := env.WEB_ORIGIN ++ js "/" ++ org.slug ++
          js "/settings/billing?status=success"
        cancel_url := env.WEB_ORIGIN ++ js "/" ++ org.slug ++
          js "/settings/billing?status=cancelled"
        organizationId := organizationId
        plan := plan.val }

/-- The next call of a task. -/
def step (env : BillingEnv) (organizationId : JsString) (c : CheckoutCall) :
    CheckoutTask → World → CheckoutTask × World
  | start plan, w =>
      if (truthy (some env.STRIPE_SECRET_KEY)).isNone then
        (.done (.error (.serviceUnavailable (js "Billing is not configured"))), w)
      else match w.db.organizations.find? (·.id == organizationId) with
        | none => (.done (.error (.prisma .recordNotFound)), w)
        | some org =>
            let subscription := w.db.findSubscription organizationId
            match truthy (subscription.bind Subscription.stripeCustomerId) with
            | some customerId =>
                (openSession env organizationId org subscription plan customerId, w)
            | none => (.creating org subscription plan, w)
  | creating org subscription plan, w =>
      match c.stripe.createCustomer org.name organizationId with
      | .error e => (.done (.error e), w)
      | .ok customerId => (.storing org subscription plan customerId, w)
  | storing org subscription plan customerId, w =>
      match w.db.setCustomer organizationId customerId c.now with
      | .error e => (.done (.error e), w)
      | .ok ((), db) =>
          (openSession env organizationId org subscription plan customerId, { w with db := db })
  | opening session, w =>
      (.done ((c.stripe.createSession session).map fun url => (session, url)), w)
  | done answer, w => (.done answer, w)

/-- The session a call opens, or has opened. -/
def session : CheckoutTask → Option CheckoutSession
  | opening session => some session
  | done (.ok (session, _)) => some session
  | _ => none

/-- The customer the next call stores. -/
def newCustomer : CheckoutTask → Option JsString
  | storing _ _ _ customerId => some customerId
  | _ => none

variable {env : BillingEnv} {organizationId : JsString} {c : CheckoutCall} {w : World}

theorem openSession_customer {org : Organization} {subscription : Option Subscription}
    {plan : PaidPlan} {customerId : JsString} {session : CheckoutSession}
    (h : (openSession env organizationId org subscription plan customerId).session =
      some session) : session.customer = customerId := by
  unfold openSession at h
  split at h
  · cases h
  · cases h
    rfl

/-- What the next call of a task is: one that leaves the database alone, whose session is the one
it had or is for the customer it reads; or the store of a customer, for which the session is. -/
theorem step_cases (env : BillingEnv) (organizationId : JsString) (c : CheckoutCall) (w : World)
    (task : CheckoutTask) :
    ((task.step env organizationId c w).2 = w ∧
      ∀ session ∈ (task.step env organizationId c w).1.session,
        task.session = some session ∨
        truthy ((w.db.findSubscription organizationId).bind Subscription.stripeCustomerId) =
          some session.customer) ∨
    ∃ customerId db, task.newCustomer = some customerId ∧
      w.db.setCustomer organizationId customerId c.now = .ok ((), db) ∧
      (task.step env organizationId c w).2 = { w with db := db } ∧
      ∀ session ∈ (task.step env organizationId c w).1.session,
        session.customer = customerId := by
  cases task with
  | start plan =>
      refine .inl ?_
      rw [step]
      split
      · exact ⟨rfl, nofun⟩
      · cases w.db.organizations.find? (·.id == organizationId) with
        | none => exact ⟨rfl, nofun⟩
        | some org =>
            dsimp only
            split
            · rename_i customerId hcustomer
              refine ⟨rfl, fun session hsession => .inr ?_⟩
              rw [hcustomer, openSession_customer hsession]
            · exact ⟨rfl, nofun⟩
  | creating org subscription plan =>
      refine .inl ?_
      rw [step]
      cases c.stripe.createCustomer org.name organizationId with
      | error e => exact ⟨rfl, nofun⟩
      | ok customerId => exact ⟨rfl, nofun⟩
  | storing org subscription plan customerId =>
      rw [step]
      cases hset : w.db.setCustomer organizationId customerId c.now with
      | error e => exact .inl ⟨rfl, nofun⟩
      | ok result =>
          exact .inr ⟨customerId, result.2, rfl, hset, rfl,
            fun session hsession => openSession_customer hsession⟩
  | opening session =>
      refine .inl ⟨rfl, fun session' hsession => .inl ?_⟩
      rw [step] at hsession
      cases hurl : c.stripe.createSession session with
      | error e =>
          rw [hurl] at hsession
          cases hsession
      | ok url =>
          rw [hurl] at hsession
          exact hsession
  | done answer => exact .inl ⟨rfl, fun session hsession => .inl hsession⟩

/-! ### A call by itself -/

/-- The call is at its end, with the answer and the world of the service. -/
def Ends (s : CheckoutTask × World) (result : Except Exn JsString × World) : Prop :=
  ∃ answer, s = (.done answer, result.2) ∧ result.1 = answer.map Prod.snd

/-- The next call of the pair of a task and the world it runs in. -/
def next (env : BillingEnv) (organizationId : JsString) (c : CheckoutCall)
    (s : CheckoutTask × World) : CheckoutTask × World := s.1.step env organizationId c s.2

theorem next_creating (org : Organization) (subscription : Option Subscription) (plan : PaidPlan) :
    next env organizationId c (creating org subscription plan, w) =
      match c.stripe.createCustomer org.name organizationId with
      | .error e => (.done (.error e), w)
      | .ok customerId => (.storing org subscription plan customerId, w) := rfl

theorem next_storing (org : Organization) (subscription : Option Subscription) (plan : PaidPlan)
    (customerId : JsString) :
    next env organizationId c (storing org subscription plan customerId, w) =
      match w.db.setCustomer organizationId customerId c.now with
      | .error e => (.done (.error e), w)
      | .ok ((), db) => (openSession env organizationId org subscription plan customerId,
          { w with db := db }) := rfl

theorem Ends.next {s : CheckoutTask × World} {result : Except Exn JsString × World}
    (h : Ends s result) : Ends (next env organizationId c s) result := by
  obtain ⟨answer, rfl, hanswer⟩ := h
  exact ⟨answer, rfl, hanswer⟩

/-- The end of the service: a price, and a session for the customer. -/
theorem openSession_ends (org : Organization) (subscription : Option Subscription)
    (plan : PaidPlan) (customerId : JsString) :
    Ends (next env organizationId c
        (openSession env organizationId org subscription plan customerId, w))
      ((do
        let price ← priceFor env plan
        call (c.stripe.createSession
          { customer := customerId
            price := price
            quantity := (subscription.map Subscription.seats).getD 1
            success_url := env.WEB_ORIGIN ++ js "/" ++ org.slug ++
              js "/settings/billing?status=success"
            cancel_url := env.WEB_ORIGIN ++ js "/" ++ org.slug ++
              js "/settings/billing?status=cancelled"
            organizationId := organizationId
            plan := plan.val }) : Service JsString) w) := by
  rw [priceFor, Service.orThrow_bind, openSession]
  cases truthy (some
      (if plan.val = .PRO then env.STRIPE_PRICE_PRO else env.STRIPE_PRICE_BUSINESS)) with
  | none => exact ⟨_, rfl, rfl⟩
  | some price =>
      refine ⟨_, rfl, ?_⟩
      simp only [call]
      generalize c.stripe.createSession _ = url
      cases url <;> rfl

theorem ensureCustomer_of_some {stripe : Stripe} {org : Organization}
    {subscription : Option Subscription} {now : Date} {customerId : JsString}
    (h : truthy (subscription.bind Subscription.stripeCustomerId) = some customerId) :
    ensureCustomer stripe org subscription now w = (.ok customerId, w) := by
  rw [ensureCustomer, h]
  rfl

/-- Without a customer, one is created and stored. -/
theorem ensureCustomer_of_none {stripe : Stripe} {org : Organization}
    (hid : org.id = organizationId) {subscription : Option Subscription} {now : Date}
    (h : truthy (subscription.bind Subscription.stripeCustomerId) = none) :
    ensureCustomer stripe org subscription now w =
      match stripe.createCustomer org.name organizationId with
      | .error e => (.error e, w)
      | .ok customerId =>
          match w.db.setCustomer organizationId customerId now with
          | .error e => (.error e, w)
          | .ok ((), db) => (.ok customerId, { w with db := db }) := by
  rw [ensureCustomer, h]
  simp only [Service.bind_apply, call, hid, Service.exec]
  cases stripe.createCustomer org.name organizationId with
  | error e => rfl
  | ok customerId =>
      dsimp only
      cases w.db.setCustomer organizationId customerId now <;> rfl

/-- **A call that nobody interrupts is `createCheckout`.** -/
theorem alone_eq_createCheckout (plan : PaidPlan) :
    Ends ((next env organizationId c)^[4] (.start plan, w))
      (createCheckout env c.stripe organizationId plan c.now w) := by
  simp only [Function.iterate_succ_apply', Function.iterate_zero_apply]
  unfold createCheckout client
  rw [Service.throwIf_bind]
  by_cases hkey : (truthy (some env.STRIPE_SECRET_KEY)).isNone = true
  · have hfirst : Ends (next env organizationId c (.start plan, w)) (.error (.serviceUnavailable
        (js "Billing is not configured")), w) := by
      rw [next, step, if_pos hkey]
      exact ⟨_, rfl, rfl⟩
    rw [if_pos hkey]
    exact hfirst.next.next.next
  · rw [if_neg hkey]
    simp only [Service.query_bind, Service.orThrow_bind]
    cases horg : w.db.organizations.find? (·.id == organizationId) with
    | none =>
        have hfirst : Ends (next env organizationId c (.start plan, w))
            (.error (.prisma .recordNotFound), w) := by
          rw [next, step, if_neg hkey, horg]
          exact ⟨_, rfl, rfl⟩
        exact hfirst.next.next.next
    | some org =>
        have hid : org.id = organizationId := by simpa using List.find?_some horg
        dsimp only
        rw [Service.bind_apply]
        cases hcustomer : truthy ((w.db.findSubscription organizationId).bind
            Subscription.stripeCustomerId) with
        | some customerId =>
            have hfirst : next env organizationId c (.start plan, w) = (openSession env
                organizationId org (w.db.findSubscription organizationId) plan customerId, w) := by
              rw [next, step, if_neg hkey, horg]
              simp only [hcustomer]
            rw [hfirst, ensureCustomer_of_some hcustomer]
            exact (openSession_ends ..).next.next
        | none =>
            have hfirst : next env organizationId c (.start plan, w) =
                (creating org (w.db.findSubscription organizationId) plan, w) := by
              rw [next, step, if_neg hkey, horg]
              simp only [hcustomer]
            rw [hfirst, ensureCustomer_of_none hid hcustomer, next_creating]
            cases c.stripe.createCustomer org.name organizationId with
            | error e =>
                have hend : Ends (.done (.error e), w) (.error e, w) := ⟨.error e, rfl, rfl⟩
                exact hend.next.next
            | ok customerId =>
                dsimp only
                rw [next_storing]
                cases w.db.setCustomer organizationId customerId c.now with
                | error e =>
                    have hend : Ends (.done (.error e), w) (.error e, w) := ⟨.error e, rfl, rfl⟩
                    exact hend.next
                | ok result => exact openSession_ends ..

end CheckoutTask

section Checkouts

variable {ι : Type*} [DecidableEq ι] {env : BillingEnv} {organizationId : JsString}

/-- Calls of one organization over one world. -/
abbrev CheckoutPool (ι : Type*) := Pool ι CheckoutTask World

/-- One call to Prisma or Stripe of one of the checkouts. -/
def checkoutNext (env : BillingEnv) (organizationId : JsString) (s : CheckoutPool ι)
    (a : ι × CheckoutCall) : CheckoutPool ι :=
  s.advance (fun task w => task.step env organizationId a.2 w) a.1

/-- Every order of the calls. -/
abbrev CheckoutStep (env : BillingEnv) (organizationId : JsString) :
    CheckoutPool ι → ι × CheckoutCall → CheckoutPool ι → Prop :=
  Steps (fun _ _ => True) (checkoutNext env organizationId)

/-- The unique columns of the subscriptions, as far as customers go. -/
structure CustomerKeys (db : Db) : Prop where
  organizations : UniqueKey Subscription.organizationId db.subscriptions
  customers : ∀ s ∈ db.subscriptions, ∀ s' ∈ db.subscriptions, ∀ customer,
    s.stripeCustomerId = some customer → s'.stripeCustomerId = some customer →
    s.organizationId = s'.organizationId

/-- The row of the organization has no customer. -/
def Db.Unset (db : Db) (organizationId : JsString) : Prop :=
  ∀ row ∈ db.findSubscription organizationId, row.stripeCustomerId = none

/-- All calls are still to begin, and the organization has no customer. -/
structure CheckoutsBegin (organizationId : JsString) (s : CheckoutPool ι) : Prop where
  keys : CustomerKeys s.store.db
  unset : s.store.db.Unset organizationId
  calls : ∀ i, ∃ plan, s.thread i = .start plan

/-- The session's customer is the one of the organization's row. -/
def Db.Bills (db : Db) (organizationId : JsString) (session : CheckoutSession) : Prop :=
  ∃ row, db.findSubscription organizationId = some row ∧
    row.stripeCustomerId = some session.customer

/-- Every session that was handed out is for the stored customer, and the look-up of the webhook
finds the organization's row by it. -/
def SessionsFound (organizationId : JsString) (s : CheckoutPool ι) : Prop :=
  ∀ i session url, s.thread i = .done (.ok (session, url)) →
    ∃ row, s.store.db.findSubscription organizationId = some row ∧
      row.stripeCustomerId = some session.customer ∧
      s.store.db.customerRow session.customer = some row

/-- The condition on a step: `subscription.update` finds no customer in the row. -/
def StoresFirst (organizationId : JsString) (s : CheckoutPool ι) (a : ι × CheckoutCall) : Prop :=
  (s.thread a.1).newCustomer ≠ none → s.store.db.Unset organizationId

/-- Every session, opened or about to be, is for the customer of the row. -/
structure CustomerKept (organizationId : JsString) (s : CheckoutPool ι) : Prop where
  keys : CustomerKeys s.store.db
  sessions : ∀ i, ∀ session ∈ (s.thread i).session, s.store.db.Bills organizationId session

omit [DecidableEq ι] in
theorem CheckoutsBegin.kept {s : CheckoutPool ι} (h : CheckoutsBegin organizationId s) :
    CustomerKept organizationId s where
  keys := h.keys
  sessions i session hsession := by
    obtain ⟨plan, hstart⟩ := h.calls i
    rw [hstart] at hsession
    cases hsession

section Store

variable {db db' : Db} {customerId : JsString} {now : Date}

/-- The row of the organization after the store. -/
theorem findSubscription_setCustomer
    (h : db.setCustomer organizationId customerId now = .ok ((), db')) :
    ∃ row, db'.findSubscription organizationId = some row ∧
      row.stripeCustomerId = some customerId := by
  have hany : (db.subscriptions.any (·.organizationId == organizationId)) = true := by
    by_contra hnone
    rw [Db.setCustomer, if_pos (by simpa using hnone)] at h
    cases h
  obtain ⟨old, hfind⟩ := Option.isSome_iff_exists.1 (List.find?_isSome.2 (List.any_eq_true.1 hany))
  have horg := List.find?_some hfind
  have hrow : db'.findSubscription organizationId =
      (db.subscriptions.find? (·.organizationId == organizationId)).map fun s =>
        if s.organizationId == organizationId then
          { s with stripeCustomerId := some customerId, updatedAt := now } else s := by
    rw [Db.setCustomer_ok h]
    exact find?_updateWhere fun _ _ _ => rfl
  rw [hrow, hfind, Option.map_some, if_pos horg]
  exact ⟨_, rfl, rfl⟩

/-- A row after the store is the organization's, with the customer, or an old one of another
organization. -/
theorem mem_of_setCustomer (h : db.setCustomer organizationId customerId now = .ok ((), db'))
    {s : Subscription} (hs : s ∈ db'.subscriptions) :
    s.organizationId = organizationId ∧ s.stripeCustomerId = some customerId ∨
      s ∈ db.subscriptions ∧ s.organizationId ≠ organizationId := by
  rw [Db.setCustomer_ok h] at hs
  obtain ⟨old, hold, rfl⟩ := mem_updateWhere.1 hs
  split
  · rename_i horg
    exact .inl ⟨by simpa using horg, rfl⟩
  · rename_i horg
    exact .inr ⟨hold, by simpa using horg⟩

theorem CustomerKeys.setCustomer (hkeys : CustomerKeys db)
    (h : db.setCustomer organizationId customerId now = .ok ((), db')) : CustomerKeys db' := by
  have hfree := setCustomer_free h
  refine ⟨?_, fun s hs s' hs' customer hc hc' => ?_⟩
  · rw [Db.setCustomer_ok h]
    exact hkeys.organizations.update fun _ _ _ => rfl
  · obtain ⟨horg, hnew⟩ | ⟨hold, hother⟩ := mem_of_setCustomer h hs
    · obtain ⟨horg', -⟩ | ⟨hold', -⟩ := mem_of_setCustomer h hs'
      · exact horg.trans horg'.symm
      · rw [horg, hfree s' hold' (hc'.trans (hc.symm.trans hnew))]
    · obtain ⟨horg', hnew'⟩ | ⟨hold', -⟩ := mem_of_setCustomer h hs'
      · exact absurd (hfree s hold (hc.trans (hc'.symm.trans hnew'))) hother
      · exact hkeys.customers s hold s' hold' customer hc hc'

end Store

/-- **A step that stores no customer over another one keeps every session with the row.** -/
theorem CustomerKept.step {s s' : CheckoutPool ι} {a : ι × CheckoutCall}
    (hs : CustomerKept organizationId s)
    (h : Guarded (CheckoutStep env organizationId) (StoresFirst organizationId) s a s') :
    CustomerKept organizationId s' := by
  obtain ⟨i, c⟩ := a
  obtain ⟨⟨-, rfl⟩, hfirst⟩ := h
  have hself := s.advance_thread_self (fun task w => task.step env organizationId c w) i
  have hothers : ∀ j, j ≠ i → (checkoutNext env organizationId s (i, c)).thread j = s.thread j :=
    fun j hj => s.advance_thread_of_ne _ hj
  obtain ⟨hsame, hsession⟩ | ⟨customerId, db, hnew, hset, hstore, hsession⟩ :=
    CheckoutTask.step_cases env organizationId c s.store (s.thread i)
  · have hworld : (checkoutNext env organizationId s (i, c)).store = s.store := hsame
    refine ⟨hworld ▸ hs.keys, fun j session hj => ?_⟩
    rw [hworld]
    by_cases hij : j = i
    · subst hij
      obtain hheld | hread := hsession session (hself ▸ hj)
      · exact hs.sessions j session hheld
      · obtain ⟨row, hrow, hcustomer⟩ :=
          Option.bind_eq_some_iff.1 (Option.filter_eq_some_iff.1 hread).1
        exact ⟨row, hrow, hcustomer⟩
    · rw [hothers j hij] at hj
      exact hs.sessions j session hj
  · have hworld : (checkoutNext env organizationId s (i, c)).store.db = db :=
      congrArg World.db hstore
    have hunset := hfirst (by simp [hnew])
    refine ⟨hworld ▸ hs.keys.setCustomer hset, fun j session hj => ?_⟩
    rw [hworld]
    by_cases hij : j = i
    · subst hij
      rw [Db.Bills, hsession session (hself ▸ hj)]
      exact findSubscription_setCustomer hset
    · rw [hothers j hij] at hj
      -- a session that is already there is for a customer of the row, which has none
      obtain ⟨row, hrow, hcustomer⟩ := hs.sessions j session hj
      rw [hunset row hrow] at hcustomer
      cases hcustomer

/-- The row of a session's customer is the organization's. -/
theorem CustomerKeys.found {db : Db} (hkeys : CustomerKeys db) {session : CheckoutSession}
    (h : db.Bills organizationId session) :
    ∃ row, db.findSubscription organizationId = some row ∧
      row.stripeCustomerId = some session.customer ∧
      db.customerRow session.customer = some row := by
  obtain ⟨row, hrow, hcustomer⟩ := h
  obtain ⟨hmem, horg⟩ := hkeys.organizations.find?_iff.1 hrow
  refine ⟨row, hrow, hcustomer, hkeys.organizations.find?_eq hmem (by simp [hcustomer]) ?_⟩
  exact fun s hs hsc => hkeys.customers s hs row hmem _ (by simpa using hsc) hcustomer

/-- **The webhook finds the row of every session.**  In every run of checkouts of an organization
without a customer whose stores all find the row without one, the sessions that are handed out are
for the customer the row has, and the webhook finds the row by it. -/
theorem sessions_found_of_unset {s₀ s : CheckoutPool ι} {as : List (ι × CheckoutCall)}
    (hbegin : CheckoutsBegin organizationId s₀)
    (hrun : Run (Guarded (CheckoutStep env organizationId) (StoresFirst organizationId)) s₀ as s) :
    SessionsFound organizationId s := by
  have hkept : CustomerKept organizationId s :=
    hrun.invariant (P := CustomerKept organizationId) (fun _ _ _ hs h => hs.step h) hbegin.kept
  intro i session url hdone
  exact hkept.keys.found (hkept.sessions i session (by rw [hdone]; rfl))

end Checkouts

/-! ### Two administrators -/

namespace CheckoutRaces.Samples

open Webhooks.Samples (env world)

/-- The answers of Stripe to one administrator, for whom it creates the customer. -/
def call (customer : String) : CheckoutCall :=
  ⟨⟨fun _ _ => .ok (js customer), fun _ => .ok (js "https://stripe.test")⟩, 0⟩

def first : Bool × CheckoutCall := (false, call "cus1")
def second : Bool × CheckoutCall := (true, call "cus2")

/-- Both want the same plan. -/
def start : CheckoutPool Bool := ⟨world none, fun _ => .start ⟨.PRO, nofun⟩⟩

theorem start_begins : CheckoutsBegin Demo.orgId.val start where
  keys :=
    { organizations := List.nodup_singleton _
      customers := fun s hs s' hs' _ _ _ => by
        rw [List.mem_singleton.1 hs, List.mem_singleton.1 hs'] }
  unset row hrow := by
    obtain rfl := Option.some.inj hrow
    rfl
  calls _ := ⟨_, rfl⟩

def play (as : List (Bool × CheckoutCall)) : CheckoutPool Bool :=
  as.foldl (checkoutNext env Demo.orgId.val) start

def inTurn : List (Bool × CheckoutCall) := [first, first, first, first, second, second]

/-- Both read the row before either stores its customer. -/
def atOnce : List (Bool × CheckoutCall) :=
  [first, first, second, second, first, first, second, second]

end CheckoutRaces.Samples

open Webhooks.Samples (env)

open CheckoutRaces.Samples in
theorem sessions_found_in_turn : SessionsFound Demo.orgId.val (play inTurn) := by
  have hrun : Run (Guarded (CheckoutStep env Demo.orgId.val) (StoresFirst Demo.orgId.val)) start
      inTurn (play inTurn) := by
    refine Along.guarded ⟨⟨trivial, ?_⟩, ⟨trivial, ?_⟩, ⟨trivial, ?_⟩, ⟨trivial, ?_⟩, ⟨trivial, ?_⟩,
      ⟨trivial, ?_⟩, trivial⟩
    · exact fun h => absurd rfl h
    · exact fun h => absurd rfl h
    · exact fun _ => start_begins.unset
    · exact fun h => absurd rfl h
    · exact fun h => absurd rfl h
    · exact fun h => absurd rfl h
  exact sessions_found_of_unset start_begins hrun

open CheckoutRaces.Samples in
/-- The second customer takes the place of the first one, whose session is open. -/
theorem checkout_overwritten :
    CheckoutsBegin Demo.orgId.val start ∧
      Run (CheckoutStep env Demo.orgId.val) start atOnce (play atOnce) ∧
      (∀ i, ∃ answer, (play atOnce).thread i = .done answer) ∧
      ¬SessionsFound Demo.orgId.val (play atOnce) := by
  refine ⟨start_begins, Along.run (by repeat' constructor), fun i => ?_, fun hfound => ?_⟩
  · cases i with
    | false => exact ⟨_, rfl⟩
    | true => exact ⟨_, rfl⟩
  · obtain ⟨row, -, -, hrow⟩ := hfound false _ _ rfl
    have hnone : (play atOnce).store.db.customerRow (js "cus1") = none := by decide
    exact absurd (hrow.symm.trans hnone) nofun

end PmSaas
