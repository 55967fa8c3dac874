import PmSaas.Api.Changes

/-!
# Foreign keys of members and subscriptions

A membership names a user and an organization, a subscription an organization, and the ids of
invites and subscriptions are unique.  The schema declares it; every call keeps it, because users
and organizations are never deleted.
-/

namespace PmSaas

open Table TransitionSystem

structure Referential (db : Db) : Prop where
  inviteIds : UniqueKey Invite.id db.invites
  subscriptionIds : UniqueKey Subscription.id db.subscriptions
  members : ∀ m ∈ db.memberships, (∃ u ∈ db.users, u.id = m.userId) ∧
    ∃ o ∈ db.organizations, o.id = m.organizationId
  subscribers : ∀ s ∈ db.subscriptions, ∃ o ∈ db.organizations, o.id = s.organizationId

/-- The tables `Referential` is about. -/
def Db.referents (db : Db) :=
  (db.users, db.organizations, db.memberships, db.invites, db.subscriptions)

namespace Referential

variable {db db' : Db}

theorem empty : Referential Db.empty := by
  constructor <;> simp [Db.empty, UniqueKey]

theorem congr (h : Referential db) (heq : db'.referents = db.referents) : Referential db' := by
  simp only [Db.referents, Prod.mk.injEq] at heq
  obtain ⟨hu, ho, hm, hi, hs⟩ := heq
  constructor <;> simp only [hu, ho, hm, hi, hs]
  · exact h.inviteIds
  · exact h.subscriptionIds
  · exact h.members
  · exact h.subscribers

theorem after {organizationId : JsString} {w w' : World} (h : Referential w.db)
    (ha : Aftermath organizationId w w') : Referential w'.db := by
  obtain ⟨logs, _, hdb⟩ := ha.db
  rw [hdb]
  exact h.congr rfl

/-! ### Users and organizations -/

/-- The ids of the users stay. -/
theorem users (h : Referential db) {rows : List User}
    (hids : ∀ u ∈ db.users, ∃ u' ∈ rows, u'.id = u.id) : Referential { db with users := rows } := by
  refine { h with members := fun m hm => ?_ }
  obtain ⟨⟨u, hu, huser⟩, horg⟩ := h.members m hm
  obtain ⟨u', hu', hid⟩ := hids u hu
  exact ⟨⟨u', hu', hid.trans huser⟩, horg⟩

theorem createUser (h : Referential db) {row u : User} (hc : db.createUser row = .ok (u, db')) :
    Referential db' := by
  obtain ⟨_, rfl, _⟩ := Db.createUser_ok hc
  exact h.users fun u hu => ⟨u, List.mem_append_left _ hu, rfl⟩

theorem updatePrefs (h : Referential db) {userId : JsString} {prefs : NotificationPrefsInput}
    {now : Date} {u : User} (hc : db.updatePrefs userId prefs now = .ok (u, db')) :
    Referential db' := by
  unfold Db.updatePrefs at hc
  split at hc
  · cases hc
  · cases hc
    refine h.users fun u hu => ⟨_, mem_updateWhere.2 ⟨u, hu, rfl⟩, ?_⟩
    split <;> rfl

theorem createOrganization (h : Referential db) {userId name slug : JsString} {g : Gen}
    {org : Organization}
    (hc : db.createOrganization (newOrganization userId name slug g) = .ok (org, db')) :
    Referential db' := by
  have hsubs := Db.createOrganization_subscriptions hc
  obtain ⟨_, rfl, _, _, huser⟩ := Db.createOrganization_ok hc
  refine ⟨h.inviteIds, h.subscriptionIds.insert hsubs, fun m hm => ?_, fun s hs => ?_⟩
  · rcases List.mem_append.1 hm with hm | hm
    · obtain ⟨hknown, o, ho, horg⟩ := h.members m hm
      exact ⟨hknown, o, List.mem_append_left _ ho, horg⟩
    · rw [List.mem_singleton.1 hm]
      exact ⟨huser, _, List.mem_append_right _ (List.mem_singleton_self _), rfl⟩
  · rcases List.mem_append.1 hs with hs | hs
    · obtain ⟨o, ho, horg⟩ := h.subscribers s hs
      exact ⟨o, List.mem_append_left _ ho, horg⟩
    · rw [List.mem_singleton.1 hs]
      exact ⟨_, List.mem_append_right _ (List.mem_singleton_self _), rfl⟩

/-! ### Members, invites and subscriptions -/

theorem updateMembers (h : Referential db) (p : Membership → Bool) (role : Role) :
    Referential { db with
      memberships := updateWhere p (fun m => { m with role := role }) db.memberships } := by
  refine { h with members := fun m hm => ?_ }
  obtain ⟨old, hold, rfl⟩ := mem_updateWhere.1 hm
  split
  · exact h.members old hold
  · exact h.members old hold

theorem upsertMembership (h : Referential db) {userId organizationId : JsString} {role : Role}
    {id : Cuid} {now : Date} {m : Membership}
    (hu : db.upsertMembership userId organizationId role id now = .ok (m, db')) :
    Referential db' := by
  rcases Db.upsertMembership_ok hu with rfl | ⟨rfl, -, huser, horg⟩
  · exact h.updateMembers _ role
  · refine { h with members := fun m hm => ?_ }
    rcases List.mem_append.1 hm with hm | hm
    · exact h.members m hm
    · rw [List.mem_singleton.1 hm]
      exact ⟨huser, horg⟩

theorem dropMembership (h : Referential db) (id : JsString) : Referential (db.dropMembership id) :=
  { h with members := fun m hm => h.members m (mem_deleteWhere.1 hm).1 }

theorem upsertInvite (h : Referential db) {row invite : Invite}
    (hu : db.upsertInvite row = .ok (invite, db')) : Referential db' := by
  unfold Db.upsertInvite at hu
  split at hu
  · split at hu
    · cases hu
    · cases hu
      exact { h with inviteIds := h.inviteIds.update fun _ _ _ => rfl }
  · split_ifs at hu with hused
    cases hu
    refine { h with inviteIds := h.inviteIds.insert fun i hi hid => hused ?_ }
    exact List.any_eq_true.2 ⟨i, hi, by simp [hid]⟩

theorem burnInvite (h : Referential db) {id : JsString} {now : Date}
    (hb : db.burnInvite id now = .ok ((), db')) : Referential db' := by
  unfold Db.burnInvite at hb
  split at hb
  · cases hb
    exact { h with inviteIds := h.inviteIds.update fun _ _ _ => rfl }
  · cases hb

theorem rewriteSubscription (h : Referential db) (p : Subscription → Bool)
    {f : Subscription → Subscription}
    (hf : ∀ s, (f s).id = s.id ∧ (f s).organizationId = s.organizationId) :
    Referential (db.rewriteSubscription p f) := by
  refine { h with
    subscriptionIds := h.subscriptionIds.update fun s _ _ => (hf s).1
    subscribers := fun s hs => ?_ }
  obtain ⟨old, hold, rfl⟩ := mem_updateWhere.1 hs
  split
  · rw [(hf old).2]
    exact h.subscribers old hold
  · exact h.subscribers old hold

end Referential

/-! ### Runs -/

theorem TenantChange.referential {organizationId actorId : JsString} {g : Gen} {w w' : World}
    {call : TenantWrite} (hc : TenantChange organizationId actorId g w call w')
    (h : Referential w.db) : Referential w'.db := by
  cases hc with
  | createIssue found committed =>
      obtain ⟨_, rank, _, _, hins⟩ := Db.createIssueTx_ok committed
      obtain ⟨_, rfl, _⟩ := Db.createIssue_ok hins
      exact h.congr rfl
  | updateIssue found committed =>
      obtain ⟨_, _, _, rfl⟩ := Db.updateIssue_ok committed
      exact h.congr rfl
  | moveIssue found dropped committed =>
      obtain ⟨_, _, _, rfl⟩ := Db.updateIssue_ok committed
      exact h.congr rfl
  | removeIssue found committed =>
      obtain rfl := Db.deleteIssue_ok committed
      exact h.congr rfl
  | createProject committed team =>
      obtain ⟨_, rfl, _⟩ := Db.createProject_ok committed
      exact h.congr rfl
  | addMember found committed => exact h.upsertMembership committed
  | invite unknown committed => exact h.upsertInvite committed
  | updateMemberRole found notOwner => exact h.updateMembers _ _
  | removeMember found notOwner => exact h.dropMembership _
  | confirm found key committed =>
      obtain ⟨_, rfl, _⟩ := Db.createAttachment_ok committed
      exact h.congr rfl
  | @removeAttachment storageUp issueId attachmentId issue a found attachment =>
      cases storageUp with
      | false => exact h.congr rfl
      | true => exact h.congr rfl
  | createCheckout committed =>
      rw [Db.setCustomer_ok committed]
      exact h.rewriteSubscription _ fun _ => ⟨rfl, rfl⟩

theorem ApiChange.referential {env : ApiEnv} {g : Gen} {w w' : World} {call : ApiCall}
    (hc : ApiChange env g w call w') (h : Referential w.db) : Referential w'.db := by
  cases hc with
  | register committed => exact (h.createUser committed).congr rfl
  | registerOrg committed owned =>
      exact ((h.createUser committed).createOrganization owned).congr rfl
  | login => exact h.congr rfl
  | refresh => exact h.congr rfl
  | logout => exact h.congr rfl
  | createOrg committed => exact h.createOrganization committed
  | acceptInvite found pending addressee committed burnt =>
      exact (h.upsertMembership committed).burnInvite burnt
  | tenant member allowed change => exact change.referential h
  | markRead user ids => exact h.congr rfl
  | markAllRead user => exact h.congr rfl
  | updatePrefs committed => exact h.updatePrefs committed
  | webhook known customer committed =>
      rw [Db.reconcile_ok committed]
      exact h.rewriteSubscription _ fun _ => ⟨rfl, rfl⟩
  | upload url => exact h
  | work queued => exact h.congr rfl

theorem referential_of_run {env : ApiEnv} {w₀ w : World} {calls : List (ApiCall × Gen)}
    (h₀ : Referential w₀.db) (hrun : Run (ApiStep env) w₀ calls w) : Referential w.db := by
  refine hrun.invariant (P := fun w => Referential w.db) ?_ h₀
  intro w call w' h hstep
  rw [show w' = _ from hstep]
  rcases call.1.exec_cases env call.2 w with hsame | ⟨w'', organizationId, hchange, hafter⟩
  · rw [hsame]
    exact h
  · exact (hchange.referential h).after hafter

end PmSaas
