import PmSaas.Billing.BillingService
import PmSaas.Lib.TransitionSystem

/-!
# Subscription events, one after the other

`reconcileSubscription` finds the local row by the event's customer and overwrites it.  It looks
neither at the time of the event nor at the Stripe subscription the row holds.

* `Billed` — a Stripe subscription belongs to one customer, and so do the rows;
* `deliver_columns` — the row after one event is that of the event;
* `columns_of_last_delivery` — hence after any deliveries it is that of the last one, and two
  sequences of deliveries agree exactly when their last events do;
* `keepsPaid_iff_endsAlone` — the end of a Stripe subscription spares the others of the customer
  exactly when no other one is active with a paid price.
-/

namespace PmSaas

open Table TransitionSystem

/-! ### The row of a customer -/

/-- `subscription.findFirst({ where: { stripeCustomerId } })`. -/
def Db.customerRow (db : Db) (customer : JsString) : Option Subscription :=
  db.subscriptions.find? (·.stripeCustomerId == some customer)

/-- The columns that the events write. -/
structure BilledColumns where
  stripeSubscriptionId : Option JsString
  plan : SubscriptionPlan
  status : SubscriptionStatus
  cancelAtPeriodEnd : Bool
  currentPeriodEnd : Option Date
  deriving DecidableEq, Repr

def Subscription.columns (s : Subscription) : BilledColumns :=
  ⟨s.stripeSubscriptionId, s.plan, s.status, s.cancelAtPeriodEnd, s.currentPeriodEnd⟩

def Reconciled.columns (r : Reconciled) : BilledColumns :=
  ⟨some r.stripeSubscriptionId, r.plan, r.status, r.cancelAtPeriodEnd, r.currentPeriodEnd⟩

theorem Reconciled.columns_inj {r r' : Reconciled} : r.columns = r'.columns ↔ r = r' := by
  constructor
  · intro h
    cases r
    cases r'
    simpa [columns] using h
  · rintro rfl
    rfl

def Db.columnsOf (db : Db) (customer : JsString) : Option BilledColumns :=
  (db.customerRow customer).map Subscription.columns

/-- The unique columns of the table, and rows that hold a Stripe subscription of their customer;
`owner` is the customer Stripe has for a subscription. -/
structure Billed (owner : JsString → JsString) (db : Db) : Prop where
  ids : UniqueKey Subscription.id db.subscriptions
  organizations : UniqueKey Subscription.organizationId db.subscriptions
  customers : ∀ s ∈ db.subscriptions, ∀ s' ∈ db.subscriptions, ∀ c, s.stripeCustomerId = some c →
    s'.stripeCustomerId = some c → s.id = s'.id
  linked : ∀ s ∈ db.subscriptions, ∀ id, s.stripeSubscriptionId = some id →
    s.stripeCustomerId = some (owner id)
  named : ∀ s ∈ db.subscriptions, s.stripeCustomerId ≠ some []

/-- The three kinds of subscription event. -/
inductive Lifecycle where
  | created
  | updated
  | deleted
  deriving DecidableEq, Repr

/-- An event about a Stripe subscription, delivered to the webhook. -/
structure Delivery where
  kind : Lifecycle
  sub : StripeSubscription
  gen : Gen

def Delivery.event (d : Delivery) : StripeEvent :=
  match d.kind with
  | .created => .subscriptionCreated d.sub
  | .updated => .subscriptionUpdated d.sub
  | .deleted => .subscriptionDeleted d.sub

/-- The world after `handleWebhook`. -/
def deliver (env : BillingEnv) (w : World) (d : Delivery) : World :=
  (BillingService.handleWebhook env (.ok d.event) d.gen w).2

section Webhooks

variable {env : BillingEnv} {owner : JsString → JsString} {w : World} {d : Delivery}

open BillingService

/-- With billing configured, every event is reconciled. -/
theorem deliver_eq (hconfigured : (truthy (some env.STRIPE_SECRET_KEY)).isSome = true) :
    deliver env w d = (reconcileSubscription env d.sub d.gen w).2 := by
  rw [deliver, handleWebhook_ok d.event w hconfigured, Delivery.event]
  cases d.kind <;> rfl

section Event

variable {sub : StripeSubscription} {g : Gen} {found : Subscription}

theorem reconcileSubscription_of_none (hrow : w.db.customerRow sub.customer = none) :
    (reconcileSubscription env sub g w).2 = w := by
  rw [Db.customerRow] at hrow
  rw [reconcileSubscription, Service.query_bind, hrow]
  rfl

/-- An event that Prisma refuses changes nothing. -/
theorem reconcileSubscription_of_error (hrow : w.db.customerRow sub.customer = some found) {e : Exn}
    (hr : w.db.reconcile found.id (reconciled env sub) g.now = .error e) :
    (reconcileSubscription env sub g w).2 = w := by
  rw [Db.customerRow] at hrow
  rw [reconcileSubscription, Service.query_bind, hrow]
  dsimp only
  rw [Service.exec_bind, hr]

/-- The audit row comes after the update, and leaves the subscriptions as they are. -/
theorem reconcileSubscription_of_ok (hrow : w.db.customerRow sub.customer = some found) {db : Db}
    (hr : w.db.reconcile found.id (reconciled env sub) g.now = .ok ((), db)) :
    (reconcileSubscription env sub g w).2.db.subscriptions = db.subscriptions := by
  rw [Db.customerRow] at hrow
  rw [reconcileSubscription, Service.query_bind, hrow]
  dsimp only
  rw [Service.exec_bind, hr]
  exact (Aftermath.recorded ..).subscriptions

end Event

theorem Db.customerRow_mem {db : Db} {customer : JsString} {row : Subscription}
    (h : db.customerRow customer = some row) :
    row ∈ db.subscriptions ∧ row.stripeCustomerId = some customer :=
  ⟨List.mem_of_find?_eq_some h, by simpa using List.find?_some h⟩

theorem Billed.customerRow_eq {db : Db} (h : Billed owner db) {row : Subscription}
    (hrow : row ∈ db.subscriptions) {customer : JsString}
    (hc : row.stripeCustomerId = some customer) : db.customerRow customer = some row :=
  h.ids.find?_eq hrow (by simp [hc]) fun s hs hsc =>
    h.customers s hs row hrow customer (by simpa using hsc) hc

/-- **An event rewrites the row of its customer.** -/
theorem deliver_subscriptions (hconfigured : (truthy (some env.STRIPE_SECRET_KEY)).isSome = true)
    (hbilled : Billed owner w.db) (howner : owner d.sub.id = d.sub.customer) {row : Subscription}
    (hrow : w.db.customerRow d.sub.customer = some row) :
    (deliver env w d).db.subscriptions =
      updateWhere (·.id == row.id) ((reconciled env d.sub).apply d.gen.now)
        w.db.subscriptions := by
  obtain ⟨hmem, hcustomer⟩ := Db.customerRow_mem hrow
  have honly : ∀ s ∈ w.db.subscriptions, s.stripeSubscriptionId = some d.sub.id →
      s.id = row.id := by
    intro s hs hsid
    have hlinked := hbilled.linked s hs d.sub.id hsid
    rw [howner] at hlinked
    exact hbilled.customers s hs row hmem _ hlinked hcustomer
  have hreconciled : ∃ db, w.db.reconcile row.id (reconciled env d.sub) d.gen.now = .ok ((), db) :=
    (Db.reconcile_ok_iff hmem).2 honly
  obtain ⟨db, hreconcile⟩ := hreconciled
  rw [deliver_eq hconfigured, reconcileSubscription_of_ok hrow hreconcile,
    Db.reconcile_ok hreconcile]
  rfl

/-- Every event keeps the table in order. -/
theorem Billed.deliver (h : Billed owner w.db)
    (hconfigured : (truthy (some env.STRIPE_SECRET_KEY)).isSome = true)
    (howner : owner d.sub.id = d.sub.customer) {row : Subscription}
    (hrow : w.db.customerRow d.sub.customer = some row) :
    Billed owner (PmSaas.deliver env w d).db := by
  have hsubs := deliver_subscriptions hconfigured h howner hrow
  obtain ⟨hmem, hrowc⟩ := Db.customerRow_mem hrow
  have hback : ∀ s ∈ (PmSaas.deliver env w d).db.subscriptions, ∃ old ∈ w.db.subscriptions,
      s.id = old.id ∧ s.stripeCustomerId = old.stripeCustomerId ∧
        (s = old ∨ old = row ∧ s.stripeSubscriptionId = some d.sub.id) := by
    intro s hs
    rw [hsubs] at hs
    obtain ⟨old, hold, rfl⟩ := mem_updateWhere.1 hs
    refine ⟨old, hold, ?_⟩
    split
    · rename_i hid
      exact ⟨rfl, rfl, .inr ⟨h.ids.eq_of_key_eq hold hmem (by simpa using hid), rfl⟩⟩
    · exact ⟨rfl, rfl, .inl rfl⟩
  refine ⟨?_, ?_, fun s hs s' hs' c hc hc' => ?_, fun s hs id hid => ?_, fun s hs => ?_⟩
  · rw [hsubs]
    exact h.ids.update fun _ _ _ => rfl
  · rw [hsubs]
    exact h.organizations.update fun _ _ _ => rfl
  · obtain ⟨old, hold, hoid, hoc, _⟩ := hback s hs
    obtain ⟨old', hold', hoid', hoc', _⟩ := hback s' hs'
    rw [hoid, hoid']
    exact h.customers old hold old' hold' c (hoc ▸ hc) (hoc' ▸ hc')
  · obtain ⟨old, hold, _, hoc, rfl | ⟨rfl, hlinked⟩⟩ := hback s hs
    · exact h.linked s hold id hid
    · obtain rfl : d.sub.id = id := Option.some.inj (hlinked.symm.trans hid)
      exact hoc.trans (hrowc.trans (congrArg some howner.symm))
  · obtain ⟨old, hold, _, hoc, _⟩ := hback s hs
    exact hoc ▸ h.named old hold

theorem deliver_customerRow (hconfigured : (truthy (some env.STRIPE_SECRET_KEY)).isSome = true)
    (hbilled : Billed owner w.db) (howner : owner d.sub.id = d.sub.customer)
    {row : Subscription}
    (hrow : w.db.customerRow d.sub.customer = some row) :
    (deliver env w d).db.customerRow d.sub.customer =
      some ((reconciled env d.sub).apply d.gen.now row) := by
  obtain ⟨hmem, hrowc⟩ := Db.customerRow_mem hrow
  have hnext := hbilled.deliver hconfigured howner hrow
  refine hnext.customerRow_eq ?_ hrowc
  rw [deliver_subscriptions hconfigured hbilled howner hrow]
  exact mem_updateWhere.2 ⟨row, hmem, by rw [if_pos (beq_self_eq_true _)]⟩

/-- Without a row for the customer an event is ignored. -/
theorem deliver_ignored (hconfigured : (truthy (some env.STRIPE_SECRET_KEY)).isSome = true)
    (hrow : w.db.customerRow d.sub.customer = none) : deliver env w d = w := by
  rw [deliver_eq hconfigured, reconcileSubscription_of_none hrow]

/-! ### Any number of deliveries -/

/-- The event is about a subscription of the customer. -/
def Delivery.Of (owner : JsString → JsString) (customer : JsString) (d : Delivery) : Prop :=
  d.sub.customer = customer ∧ owner d.sub.id = customer

instance (owner : JsString → JsString) (customer : JsString) (d : Delivery) :
    Decidable (d.Of owner customer) :=
  inferInstanceAs (Decidable (_ ∧ _))

/-- **The row after an event is that of the event**, whatever it was. -/
theorem deliver_columns (hconfigured : (truthy (some env.STRIPE_SECRET_KEY)).isSome = true)
    (hbilled : Billed owner w.db) {customer : JsString} (hd : d.Of owner customer) :
    Billed owner (deliver env w d).db ∧ (deliver env w d).db.columnsOf customer =
      (w.db.columnsOf customer).map fun _ => (reconciled env d.sub).columns := by
  obtain ⟨rfl, howner⟩ := hd
  unfold Db.columnsOf
  cases hrow : w.db.customerRow d.sub.customer with
  | none =>
      rw [deliver_ignored hconfigured hrow, hrow]
      exact ⟨hbilled, rfl⟩
  | some row =>
      rw [deliver_customerRow hconfigured hbilled howner hrow]
      exact ⟨hbilled.deliver hconfigured howner hrow, rfl⟩

theorem deliverAll_columns (hconfigured : (truthy (some env.STRIPE_SECRET_KEY)).isSome = true)
    (hbilled : Billed owner w.db) {customer : JsString} {ds : List Delivery}
    (hds : ∀ x ∈ ds ++ [d], x.Of owner customer) :
    ((ds ++ [d]).foldl (deliver env) w).db.columnsOf customer =
      (w.db.columnsOf customer).map fun _ => (reconciled env d.sub).columns := by
  induction ds generalizing w with
  | nil => exact (deliver_columns hconfigured hbilled (hds d List.mem_cons_self)).2
  | cons x ds ih =>
      obtain ⟨hnext, hcolumns⟩ := deliver_columns hconfigured hbilled (hds x List.mem_cons_self)
      rw [List.cons_append, List.foldl_cons, ih hnext fun y hy => hds y (List.mem_cons_of_mem _ hy),
        hcolumns, Option.map_map]
      rfl

/-- **The event delivered last decides.**  After any sequence of deliveries the row is that of the
last event, and two sequences leave the same row exactly when their last events say the same. -/
theorem columns_of_last_delivery (hconfigured : (truthy (some env.STRIPE_SECRET_KEY)).isSome = true)
    (hbilled : Billed owner w.db) (customer : JsString) (ds ds' : List Delivery)
    (d d' : Delivery) (hds : ∀ x ∈ ds ++ [d], x.Of owner customer)
    (hds' : ∀ x ∈ ds' ++ [d'], x.Of owner customer) :
    ((ds ++ [d]).foldl (deliver env) w).db.columnsOf customer =
        ((w.db.columnsOf customer).map fun _ => (reconciled env d.sub).columns) ∧
      (((ds ++ [d]).foldl (deliver env) w).db.columnsOf customer =
          ((ds' ++ [d']).foldl (deliver env) w).db.columnsOf customer ↔
        w.db.columnsOf customer = none ∨ reconciled env d.sub = reconciled env d'.sub) := by
  rw [deliverAll_columns hconfigured hbilled hds, deliverAll_columns hconfigured hbilled hds']
  refine ⟨rfl, ?_⟩
  cases w.db.columnsOf customer with
  | none => exact iff_of_true rfl (.inl rfl)
  | some row => simp [Reconciled.columns_inj]

/-! ### A checkout -/

section Customer

variable {db db' : Db} {organizationId customerId : JsString} {now : Date}

/-- A customer that is stored is nobody else's. -/
theorem setCustomer_free (hset : db.setCustomer organizationId customerId now = .ok ((), db')) :
    ∀ s ∈ db.subscriptions, s.stripeCustomerId = some customerId →
      s.organizationId = organizationId := by
  intro s hs hsc
  by_contra hne
  have hany : (db.subscriptions.any fun s => s.stripeCustomerId == some customerId &&
      s.organizationId != organizationId) = true :=
    List.any_eq_true.2 ⟨s, hs, by simp [hsc, hne]⟩
  unfold Db.setCustomer at hset
  split_ifs at hset

/-- A row after a customer is stored, beside the row it was. -/
theorem mem_setCustomer {s : Subscription}
    (hs : s ∈ (db.rewriteSubscription (·.organizationId == organizationId)
      fun s => { s with stripeCustomerId := some customerId, updatedAt := now }).subscriptions) :
    ∃ old ∈ db.subscriptions, s.id = old.id ∧
      s.stripeSubscriptionId = old.stripeSubscriptionId ∧
      (s.stripeCustomerId = old.stripeCustomerId ∧ old.organizationId ≠ organizationId ∨
        s.stripeCustomerId = some customerId ∧ old.organizationId = organizationId) := by
  obtain ⟨old, hold, rfl⟩ := mem_updateWhere.1 hs
  refine ⟨old, hold, ?_⟩
  split
  · rename_i horg
    exact ⟨rfl, rfl, .inr ⟨rfl, by simpa using horg⟩⟩
  · rename_i horg
    exact ⟨rfl, rfl, .inl ⟨rfl, by simpa using horg⟩⟩

/-- Where `createCheckout` finds no customer, the row has none. -/
theorem Billed.unset (h : Billed owner db)
    (hnone : truthy ((db.findSubscription organizationId).bind
      Subscription.stripeCustomerId) = none) :
    ∀ s ∈ db.subscriptions, s.organizationId = organizationId → s.stripeCustomerId = none := by
  intro s hs horg
  have hfind : db.findSubscription organizationId = some s :=
    h.organizations.find?_iff.2 ⟨hs, horg⟩
  rw [hfind] at hnone
  cases hc : s.stripeCustomerId with
  | none => rfl
  | some c =>
      have hne : c ≠ [] := fun hnil => h.named s hs (hc.trans (congrArg some hnil))
      simp [truthy, hc, hne] at hnone

/-- Storing a new customer of an organization that has none. -/
theorem Billed.setCustomer (h : Billed owner db)
    (hset : db.setCustomer organizationId customerId now = .ok ((), db'))
    (hnone : truthy ((db.findSubscription organizationId).bind
      Subscription.stripeCustomerId) = none) (hcustomer : customerId ≠ []) : Billed owner db' := by
  have hfree := setCustomer_free hset
  rw [Db.setCustomer_ok hset]
  refine ⟨h.ids.update fun _ _ _ => rfl, h.organizations.update fun _ _ _ => rfl,
    fun s hs s' hs' c hc hc' => ?_, fun s hs id hid => ?_, fun s hs => ?_⟩
  · obtain ⟨old, hold, hoid, _, hcase⟩ := mem_setCustomer hs
    obtain ⟨old', hold', hoid', _, hcase'⟩ := mem_setCustomer hs'
    rw [hoid, hoid']
    rcases hcase with ⟨hoc, horg⟩ | ⟨hnew, horg⟩
    · rcases hcase' with ⟨hoc', horg'⟩ | ⟨hnew', horg'⟩
      · exact h.customers old hold old' hold' c (hoc ▸ hc) (hoc' ▸ hc')
      · have heq : c = customerId := Option.some.inj (hc'.symm.trans hnew')
        exact absurd (hfree old hold (heq ▸ hoc ▸ hc)) horg
    · rcases hcase' with ⟨hoc', horg'⟩ | ⟨hnew', horg'⟩
      · have heq : c = customerId := Option.some.inj (hc.symm.trans hnew)
        exact absurd (hfree old' hold' (heq ▸ hoc' ▸ hc')) horg'
      · exact congrArg _ (h.organizations.eq_of_key_eq hold hold' (horg.trans horg'.symm))
  · obtain ⟨old, hold, _, hsub, ⟨hoc, _⟩ | ⟨_, horg⟩⟩ := mem_setCustomer hs
    · exact hoc.trans (h.linked old hold id (hsub.symm.trans hid))
    · have hlinked := h.linked old hold id (hsub.symm.trans hid)
      rw [h.unset hnone old hold horg] at hlinked
      cases hlinked
  · obtain ⟨old, hold, _, _, ⟨hoc, _⟩ | ⟨hnew, _⟩⟩ := mem_setCustomer hs
    · exact hoc ▸ h.named old hold
    · rw [hnew]
      exact fun hnil => hcustomer (Option.some.inj hnil)

end Customer

/-- The customers that Stripe creates have ids. -/
def Stripe.Names (stripe : Stripe) : Prop :=
  ∀ name organizationId, stripe.createCustomer name organizationId ≠ .ok []

theorem Billed.createCheckout (h : Billed owner w.db) {stripe : Stripe} (hnames : stripe.Names)
    (organizationId : JsString) (plan : PaidPlan) (now : Date) :
    Billed owner (createCheckout env stripe organizationId plan now w).2.db := by
  rcases createCheckout_stored env stripe organizationId plan now w with
    hsame | ⟨name, customerId, db, hcreate, hnone, hset, hres⟩
  · rw [hsame]
    exact h
  · rw [hres]
    refine h.setCustomer hset hnone ?_
    rintro rfl
    exact hnames name organizationId hcreate

end Webhooks

/-! ### Several subscriptions of a customer -/

/-- Billing, and what Stripe last said of each subscription. -/
structure Billing where
  world : World
  latest : JsString → Option StripeSubscription

inductive BillingAction where
  | checkout (stripe : Stripe) (organizationId : JsString) (plan : PaidPlan) (now : Date)
  | deliver (d : Delivery)

def StripeSubscription.Canceled (sub : StripeSubscription) : Prop := sub.status = js "canceled"

/-- Active, with the price of a paid plan. -/
def StripeSubscription.PaidFor (env : BillingEnv) (sub : StripeSubscription) : Prop :=
  sub.status = js "active" ∧ BillingService.planOf env sub.priceId ≠ .FREE

/-- The event says that its subscription is over. -/
def Delivery.Ends (d : Delivery) : Prop := d.kind = .deleted ∨ d.sub.Canceled

namespace Billing

/-- Events come in the order in which things happen at Stripe. -/
def next (env : BillingEnv) (s : Billing) : BillingAction → Billing
  | .checkout stripe organizationId plan now =>
      ⟨(BillingService.createCheckout env stripe organizationId plan now s.world).2, s.latest⟩
  | .deliver d =>
      ⟨PmSaas.deliver env s.world d, Function.update s.latest d.sub.id (some d.sub)⟩

/-- Subscriptions are created on stored customers, and Stripe deletes canceled subscriptions. -/
def Enabled (owner : JsString → JsString) (s : Billing) : BillingAction → Prop
  | .checkout stripe _ _ _ => stripe.Names
  | .deliver d => owner d.sub.id = d.sub.customer ∧
      (s.world.db.customerRow d.sub.customer).isSome = true ∧
      (d.kind = .deleted → d.sub.Canceled)

/-- Another subscription of the customer is active with a paid price. -/
def OtherPaid (env : BillingEnv) (s : Billing) (d : Delivery) : Prop :=
  ∃ id sub, id ≠ d.sub.id ∧ s.latest id = some sub ∧ sub.customer = d.sub.customer ∧
    sub.PaidFor env

/-- The condition on an event: no subscription ends while another one of the customer is active
with a paid price. -/
def EndsAlone (env : BillingEnv) (s : Billing) (d : Delivery) : Prop := d.Ends → ¬s.OtherPaid env d

/-- The end of a subscription sets the plan to `FREE` only if no other one of the customer is
active with a paid price. -/
def KeepsPaid (env : BillingEnv) (s : Billing) (d : Delivery) : Prop :=
  d.Ends → ∀ row ∈ (s.next env (.deliver d)).world.db.customerRow d.sub.customer,
    row.plan = .FREE → ¬s.OtherPaid env d

end Billing

abbrev BillingStep (env : BillingEnv) (owner : JsString → JsString) :
    Billing → BillingAction → Billing → Prop :=
  Steps (Billing.Enabled owner) (Billing.next env)

theorem Billing.billed_step {env : BillingEnv} {owner : JsString → JsString}
    (hconfigured : (truthy (some env.STRIPE_SECRET_KEY)).isSome = true) {s : Billing}
    (h : Billed owner s.world.db) {a : BillingAction} (ha : s.Enabled owner a) :
    Billed owner (s.next env a).world.db := by
  cases a with
  | checkout stripe organizationId plan now => exact h.createCheckout ha organizationId plan now
  | deliver d =>
      obtain ⟨row, hrow⟩ := Option.isSome_iff_exists.1 ha.2.1
      exact h.deliver hconfigured ha.1 hrow

instance (env : BillingEnv) (sub : StripeSubscription) : Decidable (sub.PaidFor env) :=
  inferInstanceAs (Decidable (_ ∧ _))

/-- **The end of a subscription spares the other ones exactly when there is none to spare.**  In
every run of checkouts and events, an event that ends a subscription keeps the plan of the other
subscriptions of the customer if and only if none of them is active with a paid price. -/
theorem keepsPaid_iff_endsAlone {env : BillingEnv} {owner : JsString → JsString}
    (hconfigured : (truthy (some env.STRIPE_SECRET_KEY)).isSome = true) {s₀ s : Billing}
    {as : List BillingAction} (hbilled : Billed owner s₀.world.db)
    (hrun : Run (BillingStep env owner) s₀ as s) {d : Delivery}
    (hd : s.Enabled owner (.deliver d)) : s.KeepsPaid env d ↔ s.EndsAlone env d := by
  have hnow : Billed owner s.world.db := hrun.invariant
    (P := fun s => Billed owner s.world.db) (fun s a s' hs hstep => by
      obtain ⟨ha, rfl⟩ := hstep
      exact Billing.billed_step hconfigured hs ha) hbilled
  obtain ⟨howner, hrow, hdeleted⟩ := hd
  obtain ⟨row, hrow⟩ := Option.isSome_iff_exists.1 hrow
  have hafter := deliver_customerRow hconfigured hnow howner hrow
  constructor
  · intro hkeeps hends
    refine hkeeps hends _ hafter ?_
    have hcanceled : d.sub.status = js "canceled" := hends.elim hdeleted id
    simp only [Reconciled.apply, BillingService.reconciled, if_pos hcanceled]
  · exact fun halone hends _ _ _ => halone hends

/-! ### An upgrade -/

namespace Webhooks.Samples

def env : BillingEnv :=
  ⟨js "https://demo.test", js "sk", js "price_pro", js "price_business"⟩

/-- Every customer is `cus`, and every session has the same URL. -/
def stripe : Stripe := ⟨fun _ _ => .ok (js "cus"), fun _ => .ok (js "https://stripe.test")⟩

theorem stripe_names : stripe.Names := fun _ _ h =>
  absurd (Except.ok.inj h) (by decide)

def owner (_ : JsString) : JsString := js "cus"

/-- The demo organization, with no customer or with `cus`. -/
def world (customer : Option JsString) : World :=
  { Demo.world with db := { Demo.world.db with
      subscriptions :=
        [⟨js "csub", Demo.orgId.val, customer, none, .FREE, .ACTIVE, 1, none, false, 0⟩] } }

theorem world_billed (customer : Option JsString) (h : customer ≠ some []) :
    Billed owner (world customer).db where
  ids := List.nodup_singleton _
  organizations := List.nodup_singleton _
  customers s hs s' hs' c _ _ := by
    rw [List.mem_singleton.1 hs, List.mem_singleton.1 hs']
  linked s hs id hid := by
    rw [List.mem_singleton.1 hs] at hid
    cases hid
  named s hs := by
    rw [List.mem_singleton.1 hs]
    exact h

def gen : Gen := ⟨0, fun _ => Demo.userId, fun _ => []⟩

def subscription (id status price : String) : StripeSubscription :=
  ⟨js id, js "cus", js status, some (js price), false, none⟩

def pro : Delivery := ⟨.created, subscription "sub1" "active" "price_pro", gen⟩
def business : Delivery := ⟨.created, subscription "sub2" "active" "price_business", gen⟩
def proEnds : Delivery := ⟨.deleted, subscription "sub1" "canceled" "price_pro", gen⟩

def upgradeTo (plan : PaidPlan) : BillingAction := .checkout stripe Demo.orgId.val plan 0

def start : Billing := ⟨world none, fun _ => none⟩

/-- One plan is bought and canceled. -/
def visit : List BillingAction := [upgradeTo ⟨.PRO, by decide⟩, .deliver pro]

/-- One plan is bought, and then a bigger one. -/
def upgrade : List BillingAction :=
  visit ++ [upgradeTo ⟨.BUSINESS, by decide⟩, .deliver business]

theorem upgrade_run :
    Run (BillingStep env owner) start upgrade (upgrade.foldl (Billing.next env) start) :=
  Along.run ⟨stripe_names, ⟨rfl, by decide, nofun⟩, stripe_names, ⟨rfl, by decide, nofun⟩, trivial⟩

theorem otherPaid_upgrade : (upgrade.foldl (Billing.next env) start).OtherPaid env proEnds :=
  ⟨js "sub2", business.sub, by decide, by decide, rfl, by decide⟩

end Webhooks.Samples

open Webhooks.Samples

theorem columns_of_last_delivery_twice :
    ([pro, proEnds, proEnds].foldl (deliver env) (world (some (js "cus")))).db.columnsOf
        (js "cus") = some ⟨some (js "sub1"), .FREE, .CANCELED, false, none⟩ ∧
      ([pro, proEnds, proEnds].foldl (deliver env) (world (some (js "cus")))).db.columnsOf
          (js "cus") =
        ([proEnds].foldl (deliver env) (world (some (js "cus")))).db.columnsOf (js "cus") := by
  have hconfigured : (truthy (some env.STRIPE_SECRET_KEY)).isSome = true := by decide
  have hlast := columns_of_last_delivery hconfigured (world_billed (some (js "cus")) (by decide))
    (js "cus") [pro, proEnds] [] proEnds proEnds (by decide) (by decide)
  exact ⟨hlast.1.trans (by decide), hlast.2.2 (.inr rfl)⟩

/-- The same two events in the two orders leave different rows. -/
theorem order_of_delivery_matters :
    Billed owner (world (some (js "cus"))).db ∧
      (∀ x ∈ [pro, proEnds], x.Of owner (js "cus")) ∧
      ([pro, proEnds].foldl (deliver env) (world (some (js "cus")))).db.columnsOf (js "cus") ≠
        ([proEnds, pro].foldl (deliver env) (world (some (js "cus")))).db.columnsOf
          (js "cus") :=
  ⟨world_billed _ (by decide), by decide, by decide⟩

theorem keepsPaid_visit :
    proEnds.Ends ∧ (visit.foldl (Billing.next env) start).KeepsPaid env proEnds := by
  have hrun : Run (BillingStep env owner) start visit (visit.foldl (Billing.next env) start) :=
    Along.run ⟨stripe_names, ⟨rfl, by decide, nofun⟩, trivial⟩
  have hiff := keepsPaid_iff_endsAlone (by decide) (world_billed none (by decide)) hrun
    (d := proEnds) ⟨rfl, by decide, fun _ => rfl⟩
  refine ⟨.inl rfl, hiff.2 fun _ ⟨id, sub, hid, hlatest, _⟩ => ?_⟩
  have hnone : (visit.foldl (Billing.next env) start).latest id = none :=
    Function.update_of_ne hid ..
  rw [hnone] at hlatest
  cases hlatest

/-- When the old subscription of an upgrade ends, so does the plan of the new one. -/
theorem upgrade_lost :
    Billed owner start.world.db ∧
      Run (BillingStep env owner) start upgrade (upgrade.foldl (Billing.next env) start) ∧
      (upgrade.foldl (Billing.next env) start).Enabled owner (.deliver proEnds) ∧
      ¬(upgrade.foldl (Billing.next env) start).KeepsPaid env proEnds := by
  refine ⟨world_billed none (by decide), upgrade_run, ⟨rfl, by decide, fun _ => rfl⟩,
    fun hkeeps => ?_⟩
  have hrow : ∃ row, ((upgrade.foldl (Billing.next env) start).next env
      (.deliver proEnds)).world.db.customerRow (js "cus") = some row ∧ row.plan = .FREE :=
    ⟨_, rfl, by decide⟩
  obtain ⟨row, hrow, hfree⟩ := hrow
  exact hkeeps (.inl rfl) row hrow hfree otherPaid_upgrade

end PmSaas
