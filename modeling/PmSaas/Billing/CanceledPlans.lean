import PmSaas.Api.Changes
import PmSaas.Billing.Webhooks

/-!
# The plan of a canceled subscription

`reconcileSubscription` computes the status of a row and its plan apart from each other.  Both
`canceled` and `incomplete_expired` become `CANCELED`, and the plan is `FREE` for `canceled` only.

`canceled_free_iff`: canceled subscriptions are on the free plan in every state of a run exactly
when no event about an `incomplete_expired` subscription with a paid price is written.
-/

namespace PmSaas

open Table TransitionSystem

/-- Every canceled subscription is on the free plan. -/
def CanceledFree (db : Db) : Prop :=
  ∀ s ∈ db.subscriptions, s.status = .CANCELED → s.plan = .FREE

instance CanceledFree.decidable (db : Db) : Decidable (CanceledFree db) :=
  inferInstanceAs (Decidable (∀ s ∈ db.subscriptions, s.status = .CANCELED → s.plan = .FREE))

/-- The first payment of a subscription to a paid plan was never made, and the event that says so is
written: its customer has a row, and no other row holds the subscription. -/
structure StripeSubscription.ExpiresPaid (env : BillingEnv) (db : Db) (sub : StripeSubscription) :
    Prop where
  status : sub.status = js "incomplete_expired"
  price : sub.priceId = some env.STRIPE_PRICE_BUSINESS ∨ sub.priceId = some env.STRIPE_PRICE_PRO
  row : ∃ found ∈ db.customerRow sub.customer,
    ∀ s ∈ db.subscriptions, s.stripeSubscriptionId = some sub.id → s.id = found.id

/-- The call is the webhook's, billing is configured, and the event is such a one. -/
def ApiCall.ExpiresPaid (env : BillingEnv) (db : Db) : ApiCall → Prop
  | .webhook (.ok event) => (truthy (some env.STRIPE_SECRET_KEY)).isSome = true ∧
      ∃ sub ∈ event.subscription, sub.ExpiresPaid env db
  | _ => False

namespace CanceledFree

variable {db db' : Db}

theorem congr (heq : db'.subscriptions = db.subscriptions) :
    CanceledFree db' ↔ CanceledFree db := by
  rw [CanceledFree, CanceledFree, heq]

theorem of_subscriptions (h : CanceledFree db) (heq : db'.subscriptions = db.subscriptions) :
    CanceledFree db' := (congr heq).2 h

theorem createOrganization (h : CanceledFree db) {userId name slug : JsString} {g : Gen}
    {org : Organization}
    (hc : db.createOrganization (newOrganization userId name slug g) = .ok (org, db')) :
    CanceledFree db' := by
  obtain ⟨-, rfl, -⟩ := Db.createOrganization_ok hc
  intro s hs hcanceled
  obtain hs | hs := List.mem_append.1 hs
  · exact h s hs hcanceled
  · rw [List.mem_singleton.1 hs]
    rfl

theorem setCustomer (h : CanceledFree db) {organizationId customerId : JsString} {now : Date}
    (hc : db.setCustomer organizationId customerId now = .ok ((), db')) : CanceledFree db' := by
  rw [Db.setCustomer_ok hc]
  intro s hs hcanceled
  obtain ⟨s', hs', hrow⟩ := mem_updateWhere.1 hs
  have hcolumns : s.status = s'.status ∧ s.plan = s'.plan := by
    rw [← hrow]
    split
    · exact ⟨rfl, rfl⟩
    · exact ⟨rfl, rfl⟩
  rw [hcolumns.1] at hcanceled
  rw [hcolumns.2]
  exact h s' hs' hcanceled

theorem createUser (h : CanceledFree db) {row u : User} (hc : db.createUser row = .ok (u, db')) :
    CanceledFree db' := by
  obtain ⟨-, rfl, -⟩ := Db.createUser_ok hc
  exact h.of_subscriptions rfl

theorem upsertMembership (h : CanceledFree db) {userId organizationId : JsString} {role : Role}
    {id : Cuid} {now : Date} {m : Membership}
    (hu : db.upsertMembership userId organizationId role id now = .ok (m, db')) :
    CanceledFree db' := by
  rcases Db.upsertMembership_ok hu with rfl | ⟨rfl, -⟩
  · exact h.of_subscriptions rfl
  · exact h.of_subscriptions rfl

end CanceledFree

/-! ### The other calls -/

theorem TenantChange.canceledFree {organizationId actorId : JsString} {g : Gen} {w w' : World}
    {call : TenantWrite} (hchange : TenantChange organizationId actorId g w call w')
    (h : CanceledFree w.db) : CanceledFree w'.db := by
  obtain ⟨-, -, -, hsame | ⟨customerId, hset⟩⟩ := hchange.tables
  · exact h.of_subscriptions hsame
  · exact h.setCustomer hset

/-- The other calls write neither the status nor the plan of a row, and a new row is `ACTIVE`. -/
theorem ApiCall.canceledFree (env : ApiEnv) (g : Gen) {call : ApiCall} {w : World}
    (hother : ∀ event, call ≠ .webhook event) (h : CanceledFree w.db) :
    CanceledFree (call.exec env g w).db := by
  rcases call.exec_cases env g w with hsame | ⟨w', organizationId, hchange, hafter⟩
  · rw [hsame]
    exact h
  · refine CanceledFree.of_subscriptions ?_ hafter.subscriptions
    cases hchange with
    | register committed => exact (h.createUser committed).of_subscriptions rfl
    | registerOrg committed owned =>
        exact ((h.createUser committed).createOrganization owned).of_subscriptions rfl
    | login => exact h.of_subscriptions rfl
    | refresh => exact h.of_subscriptions rfl
    | logout => exact h.of_subscriptions rfl
    | createOrg committed => exact h.createOrganization committed
    | acceptInvite found pending addressee committed burnt =>
        obtain ⟨invites, rfl⟩ := Db.burnInvite_ok burnt
        exact (h.upsertMembership committed).of_subscriptions rfl
    | tenant member allowed change => exact change.canceledFree h
    | markRead user ids => exact h.of_subscriptions rfl
    | markAllRead user => exact h.of_subscriptions rfl
    | updatePrefs committed =>
        obtain ⟨users, rfl⟩ := Db.updatePrefs_ok committed
        exact h.of_subscriptions rfl
    | webhook known customer committed => exact absurd rfl (hother _)
    | upload url => exact h.of_subscriptions rfl
    | work queued => exact h.of_subscriptions rfl

/-! ### The webhook -/

section Webhook

open BillingService

theorem statusMap_canceled_iff {status : JsString} : statusMap status = .CANCELED ↔
    status = js "canceled" ∨ status = js "incomplete_expired" := by
  unfold statusMap
  split_ifs with h₁ h₂ h₃ h₄ h₅ h₆ h₇
  · exact iff_of_false nofun (by rw [h₁]; decide)
  · exact iff_of_false nofun (by rw [h₂]; decide)
  · exact iff_of_false nofun (by rw [h₃]; decide)
  · exact iff_of_true rfl (.inl h₄)
  · exact iff_of_false nofun (by rw [h₅]; decide)
  · exact iff_of_false nofun (by rw [h₆]; decide)
  · exact iff_of_true rfl (.inr h₇)
  · exact iff_of_false nofun (not_or_intro h₄ h₇)

theorem planOf_free_iff {env : BillingEnv} {priceId : Option JsString} :
    planOf env priceId = .FREE ↔
      ¬(priceId = some env.STRIPE_PRICE_BUSINESS ∨ priceId = some env.STRIPE_PRICE_PRO) := by
  unfold planOf
  split_ifs with hbusiness hpro
  · exact iff_of_false nofun (not_not_intro (.inl hbusiness))
  · exact iff_of_false nofun (not_not_intro (.inr hpro))
  · exact iff_of_true rfl (not_or_intro hbusiness hpro)

/-- The two mappings disagree on one status. -/
theorem reconciled_free_iff {env : BillingEnv} {sub : StripeSubscription} :
    ((reconciled env sub).status = .CANCELED → (reconciled env sub).plan = .FREE) ↔
      ¬(sub.status = js "incomplete_expired" ∧
        (sub.priceId = some env.STRIPE_PRICE_BUSINESS ∨ sub.priceId = some env.STRIPE_PRICE_PRO)) := by
  rw [show (reconciled env sub).status = statusMap sub.status from rfl,
    show (reconciled env sub).plan = if sub.status = js "canceled" then .FREE
      else planOf env sub.priceId from rfl, statusMap_canceled_iff]
  by_cases hcanceled : sub.status = js "canceled"
  · rw [if_pos hcanceled, hcanceled]
    exact iff_of_true (fun _ => rfl) fun h => absurd h.1 (by decide)
  · rw [if_neg hcanceled, or_iff_right hcanceled, planOf_free_iff, not_and]

theorem CanceledFree.reconcile_iff {db db' : Db} (h : CanceledFree db) {found : Subscription}
    (hfound : found ∈ db.subscriptions) {r : Reconciled} {now : Date}
    (hr : db.reconcile found.id r now = .ok ((), db')) :
    CanceledFree db' ↔ (r.status = .CANCELED → r.plan = .FREE) := by
  rw [Db.reconcile_ok hr]
  constructor
  · intro hfree
    have hrow := hfree _ (mem_updateWhere.2 ⟨found, hfound, rfl⟩)
    rw [if_pos (beq_self_eq_true found.id)] at hrow
    exact hrow
  · intro hfree s hs
    obtain ⟨s', hs', rfl⟩ := mem_updateWhere.1 hs
    split
    · exact hfree
    · exact h s' hs'

/-- **One event.** -/
theorem reconcileSubscription_canceledFree {env : BillingEnv} {sub : StripeSubscription} {g : Gen}
    {w : World} (h : CanceledFree w.db) :
    CanceledFree (reconcileSubscription env sub g w).2.db ↔ ¬sub.ExpiresPaid env w.db := by
  cases hrow : w.db.customerRow sub.customer with
  | none =>
      rw [reconcileSubscription_of_none hrow]
      refine iff_of_true h fun hexpires => ?_
      obtain ⟨found, hfound, -⟩ := hexpires.row
      rw [hrow] at hfound
      cases hfound
  | some found =>
      have hmem := (Db.customerRow_mem hrow).1
      cases hr : w.db.reconcile found.id (reconciled env sub) g.now with
      | error e =>
          rw [reconcileSubscription_of_error hrow hr]
          refine iff_of_true h fun hexpires => ?_
          obtain ⟨found', hfound', honly⟩ := hexpires.row
          obtain rfl := Option.some.inj (hrow.symm.trans hfound')
          have hok : ∃ db', w.db.reconcile found.id (reconciled env sub) g.now = .ok ((), db') :=
            (Db.reconcile_ok_iff hmem).2 honly
          obtain ⟨db', hok⟩ := hok
          rw [hr] at hok
          cases hok
      | ok r =>
          have honly := (Db.reconcile_ok_iff hmem).1 ⟨r.2, hr⟩
          rw [CanceledFree.congr (reconcileSubscription_of_ok hrow hr), h.reconcile_iff hmem hr,
            reconciled_free_iff]
          exact not_congr ⟨fun hpaid => ⟨hpaid.1, hpaid.2, found, hrow, honly⟩,
            fun hexpires => ⟨hexpires.status, hexpires.price⟩⟩

/-- **One call.** -/
theorem ApiCall.canceledFree_iff {env : ApiEnv} {g : Gen} {call : ApiCall} {w : World}
    (h : CanceledFree w.db) :
    CanceledFree (call.exec env g w).db ↔ ¬call.ExpiresPaid env.billing w.db := by
  cases call with
  | webhook event =>
      show CanceledFree (handleWebhook env.billing event g w).2.db ↔ _
      cases event with
      | error e =>
          rw [handleWebhook_unchanged (.inr ⟨e, rfl⟩)]
          exact iff_of_true h id
      | ok event =>
          rw [ApiCall.ExpiresPaid]
          cases hconfigured : (truthy (some env.billing.STRIPE_SECRET_KEY)).isSome with
          | false =>
              rw [handleWebhook_unchanged (.inl hconfigured)]
              exact iff_of_true h fun hexpires => Bool.false_ne_true hexpires.1
          | true =>
              rw [handleWebhook_ok event w hconfigured]
              cases event.subscription with
              | none => exact iff_of_true h (by simp)
              | some sub => simpa using reconcileSubscription_canceledFree h
  | _ => exact iff_of_true (ApiCall.canceledFree env g nofun h) id

end Webhook

/-- **When canceled subscriptions are on the free plan.**  They are at the start of a run.  Then
they are in every state the run leads through if and only if none of its calls is a written event
about an `incomplete_expired` subscription with a paid price. -/
theorem canceled_free_iff {env : ApiEnv} {w₀ : World} {calls : List (ApiCall × Gen)}
    (h₀ : CanceledFree w₀.db) :
    (∀ served, served <+: calls → CanceledFree (ApiCall.serveAll env w₀ served).db) ↔
      Along (fun w call => ¬call.1.ExpiresPaid env.billing w.db)
        (fun w call => call.1.exec env call.2 w) w₀ calls := by
  have hstates : Along (fun w (call : ApiCall × Gen) => CanceledFree (call.1.exec env call.2 w).db)
      (fun w call => call.1.exec env call.2 w) w₀ calls ↔
        ∀ served, served <+: calls → CanceledFree (ApiCall.serveAll env w₀ served).db :=
    along_iff_states (P := fun w : World => CanceledFree w.db) h₀
  rw [← hstates]
  exact Along.congr (P := fun w : World => CanceledFree w.db)
    (fun w call h => ApiCall.canceledFree_iff h)
    (fun w call h hcalm => (ApiCall.canceledFree_iff h).2 hcalm) h₀

/-! ### An unpaid subscription -/

namespace CanceledPlans.Samples

def env : ApiEnv := ⟨TokenService.Samples.env, Webhooks.Samples.env⟩

/-- The demo organization is the customer `cus`. -/
def world : World := Webhooks.Samples.world (some (js "cus"))

def update (status : String) : ApiCall × Gen :=
  (.webhook (.ok (.subscriptionUpdated (Webhooks.Samples.subscription "sub1" status "price_pro"))),
    Webhooks.Samples.gen)

theorem update_calm {status : String} (h : js status ≠ js "incomplete_expired") (db : Db) :
    ¬(update status).1.ExpiresPaid env.billing db := by
  rintro ⟨-, sub, hsub, hexpires⟩
  obtain rfl := Option.some.inj hsub
  exact h hexpires.status

end CanceledPlans.Samples

open CanceledPlans.Samples

theorem canceled_free_ended :
    CanceledFree (ApiCall.serveAll env world [update "active", update "canceled"]).db ∧
      (ApiCall.serveAll env world [update "active", update "canceled"]).db.subscriptions.map
        (fun s => (s.status, s.plan)) = [(.CANCELED, .FREE)] := by
  have hcalm : Along (fun w call => ¬call.1.ExpiresPaid env.billing w.db)
      (fun w call => call.1.exec env call.2 w) world [update "active", update "canceled"] :=
    ⟨update_calm (by decide) _, update_calm (by decide) _, trivial⟩
  exact ⟨(canceled_free_iff (by decide)).2 hcalm _ (List.prefix_refl _), by decide⟩

/-- A subscription that was never paid for is recorded as canceled, on the plan of its price. -/
theorem expired_keeps_plan :
    CanceledFree world.db ∧
      ¬CanceledFree (ApiCall.serveAll env world [update "incomplete_expired"]).db ∧
      (ApiCall.serveAll env world [update "incomplete_expired"]).db.subscriptions.map
        (fun s => (s.status, s.plan)) = [(.CANCELED, .PRO)] :=
  ⟨by decide, by decide, by decide⟩

end PmSaas
