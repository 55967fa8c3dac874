import PmSaas.Api.Referential
import PmSaas.Api.TenantReads
import PmSaas.Billing.CheckoutRaces
import PmSaas.Orgs.InviteRaces

/-!
# Rows that can be told apart by tenant

A tenant's part of the database can only be looked at by itself if no row hangs on a row that is not
there and if the columns requests are looked up by are unique: the token of an invite, the Stripe
customer of a subscription.  `Separated` collects what the schema declares about that, together with
`TenantSound` and `Referential`; every call keeps it, as long as the random strings it draws are new
(`Gen.Fresh`).
-/

namespace PmSaas

open Table TransitionSystem

/-- Label links and comments hang on issues, and the look-up columns are unique. -/
structure Attached (db : Db) : Prop where
  invites : InviteTable db
  customers : CustomerKeys db
  linked : ∀ l ∈ db.issueLabels, ∃ i ∈ db.issues, i.id = l.issueId
  commented : ∀ c ∈ db.comments, ∃ i ∈ db.issues, i.id = c.issueId

structure Separated (db : Db) : Prop extends Attached db where
  sound : TenantSound db
  refs : Referential db

/-- No row has an id or a token that `g` draws. -/
structure Gen.Fresh (g : Gen) (db : Db) : Prop where
  organizations : ∀ k, ∀ o ∈ db.organizations, o.id ≠ (g.cuid k).val
  memberships : ∀ k, ∀ m ∈ db.memberships, m.id ≠ (g.cuid k).val
  invites : ∀ k, ∀ i ∈ db.invites, i.id ≠ (g.cuid k).val ∧
    i.tokenHash ≠ OrgsService.hashToken (g.random k)
  projects : ∀ k, ∀ p ∈ db.projects, p.id ≠ (g.cuid k).val
  issues : ∀ k, ∀ i ∈ db.issues, i.id ≠ (g.cuid k).val
  attachments : ∀ k, ∀ a ∈ db.attachments, a.id ≠ (g.cuid k).val
  notifications : ∀ k, ∀ n ∈ db.notifications, n.id ≠ (g.cuid k).val
  auditLogs : ∀ k, ∀ a ∈ db.auditLogs, a.id ≠ (g.cuid k).val

/-- The tables `Attached` is about. -/
def Db.attachedTables (db : Db) :=
  (db.invites, db.subscriptions, db.issueLabels, db.comments, db.issues)

namespace Attached

variable {db db' : Db}

theorem congr (h : Attached db) (heq : db'.attachedTables = db.attachedTables) : Attached db' := by
  simp only [Db.attachedTables, Prod.mk.injEq] at heq
  obtain ⟨hi, hs, hl, hc, hissues⟩ := heq
  refine ⟨h.invites.congr hi, ⟨?_, ?_⟩, ?_, ?_⟩ <;> simp only [hs, hl, hc, hissues]
  · exact h.customers.organizations
  · exact h.customers.customers
  · exact h.linked
  · exact h.commented

theorem after {organizationId : JsString} {w w' : World} (h : Attached w.db)
    (ha : Aftermath organizationId w w') : Attached w'.db := by
  obtain ⟨logs, -, hdb⟩ := ha.db
  rw [hdb]
  exact h.congr rfl

/-- Rewriting rows keeps the rows that others hang on. -/
theorem rewriteIssue (h : Attached db) (issueId : JsString) {f : Issue → Issue}
    (hf : ∀ i, (f i).id = i.id) : Attached (db.rewriteIssue issueId f) := by
  have hkept : ∀ id, (∃ i ∈ db.issues, i.id = id) →
      ∃ i ∈ (db.rewriteIssue issueId f).issues, i.id = id := by
    rintro id ⟨i, hi, rfl⟩
    refine ⟨_, mem_updateWhere.2 ⟨i, hi, rfl⟩, ?_⟩
    split
    · exact hf i
    · rfl
  exact ⟨h.invites.congr rfl, ⟨h.customers.organizations, h.customers.customers⟩,
    fun l hl => hkept _ (h.linked l hl), fun c hc => hkept _ (h.commented c hc)⟩

theorem insertIssue (h : Attached db) (row : Issue) (labelIds : List JsString) :
    Attached (db.insertIssue row labelIds) := by
  have hkept : ∀ id, (∃ i ∈ db.issues, i.id = id) →
      ∃ i ∈ (db.insertIssue row labelIds).issues, i.id = id := by
    rintro id ⟨i, hi, hid⟩
    exact ⟨i, List.mem_append_left _ hi, hid⟩
  refine ⟨h.invites.congr rfl, ⟨h.customers.organizations, h.customers.customers⟩, fun l hl => ?_,
    fun c hc => hkept _ (h.commented c hc)⟩
  rcases List.mem_append.1 hl with hl | hl
  · exact hkept _ (h.linked l hl)
  · obtain ⟨label, -, rfl⟩ := List.mem_map.1 hl
    exact ⟨row, List.mem_append_right _ (List.mem_singleton_self _), rfl⟩

/-- The cascades take along what hangs on the issue. -/
theorem dropIssue (h : Attached db) (issueId : JsString) : Attached (db.dropIssue issueId) := by
  have hkept : ∀ id, (id == issueId) = false → (∃ i ∈ db.issues, i.id = id) →
      ∃ i ∈ (db.dropIssue issueId).issues, i.id = id := by
    rintro id hne ⟨i, hi, rfl⟩
    exact ⟨i, mem_deleteWhere.2 ⟨hi, hne⟩, rfl⟩
  refine ⟨h.invites.congr rfl, ⟨h.customers.organizations, h.customers.customers⟩, fun l hl => ?_,
    fun c hc => ?_⟩
  · obtain ⟨hmem, hne⟩ := mem_deleteWhere.1 hl
    exact hkept _ hne (h.linked l hmem)
  · obtain ⟨hmem, hne⟩ := mem_deleteWhere.1 hc
    exact hkept _ hne (h.commented c hmem)

theorem upsertMembership (h : Attached db) {userId organizationId : JsString} {role : Role}
    {id : Cuid} {now : Date} {m : Membership}
    (hu : db.upsertMembership userId organizationId role id now = .ok (m, db')) : Attached db' := by
  rcases Db.upsertMembership_ok hu with rfl | ⟨rfl, -⟩
  · exact h.congr rfl
  · exact h.congr rfl

theorem upsertInvite (h : Attached db) {row invite : Invite}
    (hu : db.upsertInvite row = .ok (invite, db'))
    (hfresh : ∀ i ∈ db.invites, i.tokenHash ≠ row.tokenHash) : Attached db' := by
  have hinvites := h.invites.upsertInvite hu hfresh
  rcases Db.upsertInvite_ok hu with rfl | rfl
  · exact ⟨hinvites, ⟨h.customers.organizations, h.customers.customers⟩, h.linked, h.commented⟩
  · exact ⟨hinvites, ⟨h.customers.organizations, h.customers.customers⟩, h.linked, h.commented⟩

theorem burnInvite (h : Attached db) {id : JsString} {now : Date}
    (hb : db.burnInvite id now = .ok ((), db')) : Attached db' := by
  have hinvites := h.invites.burnInvite hb
  obtain ⟨rows, rfl⟩ := Db.burnInvite_ok hb
  exact ⟨hinvites, ⟨h.customers.organizations, h.customers.customers⟩, h.linked, h.commented⟩

theorem createOrganization (h : Attached db) (hrefs : Referential db)
    {userId name slug : JsString} {g : Gen} {org : Organization}
    (hc : db.createOrganization (newOrganization userId name slug g) = .ok (org, db')) :
    Attached db' := by
  obtain ⟨-, rfl, hfresh, -, -⟩ := Db.createOrganization_ok hc
  refine ⟨h.invites.congr rfl, ⟨h.customers.organizations.insert fun s hs heq => ?_,
    fun s hs s' hs' c hsc hsc' => ?_⟩, h.linked, h.commented⟩
  · obtain ⟨o, ho, hid⟩ := hrefs.subscribers s hs
    exact (hfresh o ho).1 (hid.trans heq)
  · rcases List.mem_append.1 hs with hs | hs
    · rcases List.mem_append.1 hs' with hs' | hs'
      · exact h.customers.customers s hs s' hs' c hsc hsc'
      · rw [List.mem_singleton.1 hs'] at hsc'
        cases hsc'
    · rw [List.mem_singleton.1 hs] at hsc
      cases hsc

theorem setCustomer (h : Attached db) {organizationId customerId : JsString} {now : Date}
    (hset : db.setCustomer organizationId customerId now = .ok ((), db')) : Attached db' := by
  have hkeys := h.customers.setCustomer hset
  rw [Db.setCustomer_ok hset] at hkeys ⊢
  exact ⟨h.invites.congr rfl, hkeys, h.linked, h.commented⟩

theorem reconcile (h : Attached db) {id : JsString} {r : Reconciled} {now : Date}
    (hr : db.reconcile id r now = .ok ((), db')) : Attached db' := by
  rw [Db.reconcile_ok hr]
  refine ⟨h.invites.congr rfl, ⟨h.customers.organizations.update fun _ _ _ => rfl,
    fun s hs s' hs' c hc hc' => ?_⟩, h.linked, h.commented⟩
  have hrow : ∀ s ∈ (db.rewriteSubscription (·.id == id) (r.apply now)).subscriptions,
      ∃ old ∈ db.subscriptions, s.organizationId = old.organizationId ∧
        s.stripeCustomerId = old.stripeCustomerId := by
    intro s hs
    obtain ⟨old, hold, rfl⟩ := mem_updateWhere.1 hs
    refine ⟨old, hold, ?_⟩
    split
    · exact ⟨rfl, rfl⟩
    · exact ⟨rfl, rfl⟩
  obtain ⟨old, hold, horg, hcustomer⟩ := hrow s hs
  obtain ⟨old', hold', horg', hcustomer'⟩ := hrow s' hs'
  rw [horg, horg']
  exact h.customers.customers old hold old' hold' c (hcustomer ▸ hc) (hcustomer' ▸ hc')

end Attached

/-! ### Runs -/

theorem TenantChange.attached {organizationId actorId : JsString} {g : Gen} {w w' : World}
    {write : TenantWrite} (hc : TenantChange organizationId actorId g w write w')
    (h : Attached w.db) (hfresh : g.Fresh w.db) : Attached w'.db := by
  cases hc with
  | @createIssue projectKey input project issue db found committed =>
      obtain ⟨_, rank, _, _, hins⟩ := Db.createIssueTx_ok committed
      obtain ⟨_, rfl, _⟩ := Db.createIssue_ok hins
      have hbump : Attached (w.db.bumpProject project.id g.now) := h.congr rfl
      exact hbump.insertIssue _ _
  | @updateIssue issueId input before row db found committed =>
      obtain ⟨_, _, _, rfl⟩ := Db.updateIssue_ok committed
      exact h.rewriteIssue (f := input.apply g.now) issueId fun _ => rfl
  | @moveIssue issueId rank input issue row db found dropped committed =>
      obtain ⟨_, _, _, rfl⟩ := Db.updateIssue_ok committed
      exact h.rewriteIssue (f := IssuesService.place input.status rank g.now) issue.id fun _ => rfl
  | removeIssue found committed =>
      obtain rfl := Db.deleteIssue_ok committed
      exact h.dropIssue _
  | createProject committed team =>
      obtain ⟨_, rfl, _⟩ := Db.createProject_ok committed
      exact h.congr rfl
  | addMember found committed => exact h.upsertMembership committed
  | invite unknown committed => exact h.upsertInvite committed fun i hi => (hfresh.invites 0 i hi).2
  | updateMemberRole found notOwner => exact h.congr rfl
  | removeMember found notOwner => exact h.congr rfl
  | confirm found key committed =>
      obtain ⟨_, rfl, _⟩ := Db.createAttachment_ok committed
      exact h.congr rfl
  | @removeAttachment storageUp issueId attachmentId issue a found attachment =>
      cases storageUp with
      | false => exact h.congr rfl
      | true => exact h.congr rfl
  | createCheckout committed => exact h.setCustomer committed

theorem ApiChange.attached {env : ApiEnv} {g : Gen} {w w' : World} {call : ApiCall}
    (hc : ApiChange env g w call w') (h : Attached w.db) (hrefs : Referential w.db)
    (hfresh : g.Fresh w.db) : Attached w'.db := by
  cases hc with
  | register committed =>
      obtain ⟨_, rfl, _⟩ := Db.createUser_ok committed
      exact h.congr rfl
  | @registerOrg input device db db' name slug org tokens committed owned =>
      have husers := hrefs.createUser committed
      obtain ⟨_, rfl, _⟩ := Db.createUser_ok committed
      have hdb : Attached { w.db with users := w.db.users ++ [AuthService.newUser input g] } :=
        h.congr rfl
      exact (hdb.createOrganization husers owned).congr rfl
  | login => exact h.congr rfl
  | refresh => exact h.congr rfl
  | logout => exact h.congr rfl
  | createOrg committed => exact h.createOrganization hrefs committed
  | acceptInvite found pending addressee committed burnt =>
      exact (h.upsertMembership committed).burnInvite burnt
  | tenant member allowed change => exact change.attached h hfresh
  | markRead user ids => exact h.congr rfl
  | markAllRead user => exact h.congr rfl
  | updatePrefs committed =>
      obtain ⟨users, rfl⟩ := Db.updatePrefs_ok committed
      exact h.congr rfl
  | webhook known customer committed => exact h.reconcile committed
  | upload url => exact h
  | work queued => exact h.congr rfl

/-- **A call with new ids and tokens keeps the rows apart.** -/
theorem Separated.exec {env : ApiEnv} {g : Gen} {w : World} (h : Separated w.db)
    (hfresh : g.Fresh w.db) (call : ApiCall) : Separated (call.exec env g w).db := by
  have hattached : Attached (call.exec env g w).db := by
    rcases call.exec_cases env g w with hsame | ⟨w', organizationId, hchange, hafter⟩
    · rw [hsame]
      exact h.toAttached
    · exact (hchange.attached h.toAttached h.refs hfresh).after hafter
  refine ⟨hattached, call.sound env g h.sound, ?_⟩
  exact referential_of_run h.refs (Run.nil.snoc (a := (call, g)) (show ApiStep env w _ _ from rfl))

end PmSaas
