import PmSaas.Api.Answers
import PmSaas.Api.Referential
import PmSaas.Api.TenantFrame
import PmSaas.Common.AuditService

/-!
# What each method adds to the audit trail

The methods of the tenant's routes have the shape `Service.Audits`.  The others are
about an organization that is only found or created on the way; `Service.Accounts` says of them that
they change the audited rows of one organization and record it, or change none.
-/

namespace PmSaas

open Table TransitionSystem

/-- The answer's value is no part of the audit. -/
theorem Service.Audits.forget {α : Type} {organizationId : JsString} {actorId : Option JsString}
    {s : Service α} {w : World} (h : s.Audits organizationId actorId w) :
    s.forget.Audits organizationId actorId w := by
  rw [Audits, Records, forget_apply]
  rcases h with ⟨e, he⟩ | ⟨⟨a, hok⟩, hlog⟩
  · rw [he]
    exact .inl ⟨e, rfl⟩
  · rw [hok]
    exact .inr ⟨⟨(), rfl⟩, hlog⟩

/-! ### The methods of the services -/

section Methods

variable {g : Gen} {organizationId actorId : JsString} {w : World}

namespace IssuesService

theorem resolveProject_audits {β : Type} {actorId : Option JsString} {projectKey : JsString}
    {k : Project → Service β}
    (h : ∀ project, w.db.findProject organizationId projectKey = some project →
      (k project).Audits organizationId actorId w) :
    (resolveProject organizationId projectKey >>= k).Audits organizationId actorId w := by
  cases hp : w.db.findProject organizationId projectKey with
  | none => exact .inl ⟨_, by rw [resolveProject_bind, hp]⟩
  | some project => exact .of_eq (by rw [resolveProject_bind, hp]) (h project hp)

theorem create_audits (h : w.db.Auditable g organizationId (some actorId)) (projectKey : JsString)
    (input : CreateIssueInput) :
    (create organizationId actorId projectKey input g).Audits organizationId (some actorId) w := by
  refine resolveProject_audits fun project hp => .write h ?_ fun issue db hready => ?_
  · intro issue db htx
    obtain ⟨_, rank, _, _, hins⟩ := Db.createIssueTx_ok htx
    obtain ⟨_, rfl, _⟩ := Db.createIssue_ok hins
    rfl
  · refine .record 1 hready fun w' => ?_
    cases truthy issue.assigneeId with
    | none => exact ⟨_, rfl, rfl⟩
    | some recipientId => exact ⟨_, rfl, World.enqueued_db ..⟩

theorem update_audits (h : w.db.Auditable g organizationId (some actorId)) (issueId : JsString)
    (input : UpdateIssueInput) :
    (update organizationId actorId issueId input g).Audits organizationId (some actorId) w := by
  refine .query (.orThrow fun before hb => .write h ?_ fun row db hready => ?_)
  · intro row db hu
    obtain ⟨_, _, _, rfl⟩ := Db.updateIssue_ok hu
    rfl
  · refine .record 0 hready fun w' => ?_
    cases connectedUser input with
    | none => exact ⟨_, rfl, rfl⟩
    | some recipientId =>
        dsimp only
        split
        · exact ⟨_, rfl, rfl⟩
        · exact ⟨_, rfl, World.enqueued_db ..⟩

theorem move_audits (h : w.db.Auditable g organizationId (some actorId)) (issueId : JsString)
    (input : MoveIssueInput) :
    (move organizationId actorId issueId input g).Audits organizationId (some actorId) w := by
  refine .query (.orThrow fun issue hissue => .query (.query (.compute fun rank hrank =>
    .write h ?_ fun row db hready => ?_)))
  · intro row db hu
    obtain ⟨_, _, _, rfl⟩ := Db.updateIssue_ok hu
    rfl
  · exact .record 0 hready fun w' => ⟨_, rfl, rfl⟩

theorem remove_audits (h : w.db.Auditable g organizationId (some actorId)) (issueId : JsString) :
    (remove organizationId actorId issueId g).Audits organizationId (some actorId) w := by
  refine .query (.orThrow fun issue hissue => .write h ?_ fun _ db hready => ?_)
  · intro _ db hdel
    obtain rfl := Db.deleteIssue_ok hdel
    rfl
  · exact .record 0 hready fun w' => ⟨_, rfl, rfl⟩

end IssuesService

theorem ProjectsService.create_audits (h : w.db.Auditable g organizationId (some actorId))
    (input : CreateProjectInput) :
    (create organizationId actorId input g).Audits organizationId (some actorId) w := by
  refine .query (.throwIf fun hclash => ?_)
  by_cases hteam : ((truthy input.teamId).all fun id =>
      (w.db.findTeam organizationId id).isSome) = true
  · refine .of_eq (by rw [checkTeam_bind, if_pos hteam]) (.write h ?_ fun project db hready => ?_)
    · intro project db hc
      obtain ⟨_, rfl, _⟩ := Db.createProject_ok hc
      rfl
    · exact .record 1 hready fun w' => ⟨_, rfl, rfl⟩
  · exact .inl ⟨_, by rw [checkTeam_bind, if_neg hteam]⟩

namespace OrgsService

theorem upsertMembership_ledger {userId : JsString} {role : Role} {id : Cuid} {now : Date}
    {db db' : Db} {m : Membership}
    (hu : db.upsertMembership userId organizationId role id now = .ok (m, db')) :
    db'.ledger = db.ledger := by
  rcases Db.upsertMembership_ok hu with rfl | ⟨rfl, _⟩ <;> rfl

theorem addMember_audits (h : w.db.Auditable g organizationId (some actorId)) (env : Env)
    (email : JsString) (role : GrantableRole) :
    (addMember env organizationId actorId email role g).Audits organizationId (some actorId) w := by
  refine .query ?_
  cases hu : w.db.findUserByEmail (JsString.toLowerCase email) with
  | some user =>
      refine .write h (fun m db hm => upsertMembership_ledger hm) fun m db hready => ?_
      exact .record 1 hready fun w' => ⟨_, rfl, rfl⟩
  | none =>
      refine .write h ?_ fun invite db hready => ?_
      · intro invite db hi
        rcases Db.upsertInvite_ok hi with rfl | rfl <;> rfl
      · -- the organization is still there to be named in the mail
        obtain ⟨o, ho⟩ : ∃ o, db.organizations.find? (·.id == organizationId) = some o := by
          simpa [List.find?_isSome, ← Option.isSome_iff_exists] using hready.organization
        refine .silent ⟨_, rfl, rfl⟩ fun org w₁ horg hdb₁ => ?_
        obtain rfl : some o = org := ho.symm.trans (Except.ok.inj horg)
        refine .silent ⟨o, rfl, rfl⟩ fun o' w₂ ho' hdb₂ => .silent ⟨(), rfl, rfl⟩
          fun _ w₃ _ hdb₃ => .record 1 ?_ fun w' => ⟨_, rfl, rfl⟩
        rw [hdb₃, hdb₂, hdb₁]
        exact hready

theorem updateMemberRole_audits (h : w.db.Auditable g organizationId (some actorId))
    (targetUserId : JsString) (role : GrantableRole) :
    (updateMemberRole organizationId actorId targetUserId role g).Audits organizationId
      (some actorId) w := by
  refine .query (.orThrow fun m hm => .throwIf fun hrole => .write h ?_ fun updated db hready => ?_)
  · intro updated db hu
    obtain rfl := Db.updateMembership_ok hu
    rfl
  · exact .record 0 hready fun w' => ⟨_, rfl, rfl⟩

theorem removeMember_audits (h : w.db.Auditable g organizationId (some actorId))
    (targetUserId : JsString) :
    (removeMember organizationId actorId targetUserId g).Audits organizationId (some actorId) w := by
  refine .query (.orThrow fun m hm => .throwIf fun hrole => .write h ?_ fun _ db hready => ?_)
  · intro _ db hd
    obtain rfl := Db.deleteMembership_ok hd
    rfl
  · exact .last 0 hready

end OrgsService

namespace AttachmentsService

theorem resolveIssue_audits {β : Type} {actorId : Option JsString} {issueId : JsString}
    {k : Issue → Service β}
    (h : ∀ issue, w.db.findIssue organizationId issueId = some issue →
      (k issue).Audits organizationId actorId w) :
    (resolveIssue organizationId issueId >>= k).Audits organizationId actorId w := by
  cases hi : w.db.findIssue organizationId issueId with
  | none => exact .inl ⟨_, by rw [resolveIssue_bind, hi]⟩
  | some issue => exact .of_eq (by rw [resolveIssue_bind, hi]) (h issue hi)

theorem confirm_audits (h : w.db.Auditable g organizationId (some actorId)) (issueId : JsString)
    (input : ConfirmAttachmentInput) :
    (confirm organizationId actorId issueId input g).Audits organizationId (some actorId) w := by
  refine resolveIssue_audits fun issue hi => .throwIf fun hkey => .write h ?_
    fun attachment db hready => ?_
  · intro attachment db hc
    obtain ⟨_, rfl, _⟩ := Db.createAttachment_ok hc
    rfl
  · exact .record 1 hready fun w' => ⟨_, rfl, rfl⟩

theorem remove_audits (h : w.db.Auditable g organizationId (some actorId)) (storageUp : Bool)
    (issueId attachmentId : JsString) :
    (remove storageUp organizationId actorId issueId attachmentId g).Audits organizationId
      (some actorId) w := by
  refine resolveIssue_audits fun issue hi => .query (.orThrow fun a ha => .write h ?_
    fun _ db hready => ?_)
  · intro _ db hd
    unfold Db.deleteAttachment at hd
    split at hd
    · cases hd
      rfl
    · cases hd
  · refine .silent ?_ fun _ w' _ hdb => .last 0 ?_
    · cases storageUp with
      | true => exact ⟨(), rfl, rfl⟩
      | false => exact ⟨(), rfl, rfl⟩
    · rw [hdb]
      exact hready

end AttachmentsService

end Methods

/-! ### What a call changes -/

/-- The rows of an organization that are audited. -/
def Db.tenantRows (organizationId : JsString) (db : Db) :=
  ((db.ownedBy organizationId).organizations, (db.ownedBy organizationId).memberships,
    (db.ownedBy organizationId).invites, (db.ownedBy organizationId).projects,
    (db.ownedBy organizationId).issues, (db.ownedBy organizationId).attachments,
    (db.ownedBy organizationId).subscriptions)

/-- Neither audited rows nor audit rows differ. -/
structure Db.Unaltered (db db' : Db) : Prop where
  rows : ∀ organizationId, db'.tenantRows organizationId = db.tenantRows organizationId
  logs : db'.auditLogs = db.auditLogs

/-- The method leaves the audited rows alone, or changes those of one organization and records
it. -/
def Service.Accounts {α : Type} (actorId : Option JsString) (s : Service α) (w : World) : Prop :=
  w.db.Unaltered (s w).2.db ∨
  ∃ organizationId, RowsConfined organizationId w.db (s w).2.db ∧ s.Records organizationId actorId w

theorem Db.Unaltered.refl (db : Db) : db.Unaltered db := ⟨fun _ => rfl, rfl⟩

namespace RowsConfined

variable {db db' : Db}

theorem insertOrganization (userId name slug : JsString) (g : Gen) (db : Db) :
    RowsConfined (g.cuid 0).val db
      (db.insertOrganization (newOrganization userId name slug g)) := by
  intro other hne
  have hother : ((g.cuid 0).val == other) = false := by simpa using hne.symm
  simp only [Db.ownedBy, Db.ownsIssue, Db.insertOrganization]
  rw [filter_insert (x := (newOrganization userId name slug g).organization) hother,
    filter_insert (x := (newOrganization userId name slug g).membership) hother,
    filter_insert (x := (newOrganization userId name slug g).subscription) hother]

theorem burnInvite (hids : UniqueKey Invite.id db.invites) {invite : Invite}
    (hi : invite ∈ db.invites) {now : Date} (hb : db.burnInvite invite.id now = .ok ((), db')) :
    RowsConfined invite.organizationId db db' := by
  intro other hne
  unfold Db.burnInvite at hb
  split at hb
  · cases hb
    simp only [Db.ownedBy, Db.ownsIssue]
    rw [filter_updateWhere]
    intro i hmem hid
    rw [hids.eq_of_key_eq hmem hi (beq_iff_eq.1 hid)]
    simpa using hne.symm
  · cases hb

theorem reconcile (hids : UniqueKey Subscription.id db.subscriptions) {found : Subscription}
    (hmem : found ∈ db.subscriptions) {r : Reconciled} {now : Date}
    (hr : db.reconcile found.id r now = .ok ((), db')) :
    RowsConfined found.organizationId db db' := by
  intro other hne
  rw [Db.reconcile_ok hr]
  simp only [Db.ownedBy, Db.ownsIssue, Db.rewriteSubscription]
  rw [filter_updateWhere]
  intro s hs hid
  rw [hids.eq_of_key_eq hs hmem (beq_iff_eq.1 hid)]
  simpa [Reconciled.apply] using hne.symm

end RowsConfined

/-- No audit row and no token has a key that `g` draws, so that no insert of one fails. -/
structure Gen.Unused (g : Gen) (db : Db) : Prop where
  logs : ∀ k, ∀ a ∈ db.auditLogs, a.id ≠ (g.cuid k).val
  tokens : ∀ k, ∀ t ∈ db.refreshTokens, t.id ≠ (g.cuid k).val ∧
    t.tokenHash ≠ TokenService.hash (g.random k)

namespace Service

variable {α : Type} {organizationId : JsString} {actorId : Option JsString} {w : World}

theorem Audits.accounts {s : Service α} (h : s.Audits organizationId actorId w)
    (hrows : RowsConfined organizationId w.db (s w).2.db) : s.Accounts actorId w := by
  rcases h with ⟨e, he⟩ | hrecords
  · left
    rw [he]
    exact .refl _
  · exact .inr ⟨organizationId, hrows, hrecords⟩

theorem Records.forget {s : Service α} (h : s.Records organizationId actorId w) :
    s.forget.Records organizationId actorId w := by
  obtain ⟨⟨a, hok⟩, hlogged⟩ := h
  rw [Records, forget_apply, hok]
  exact ⟨⟨(), rfl⟩, hlogged⟩

theorem Accounts.of_eq {s s' : Service α} (heq : s w = s' w) (h : s'.Accounts actorId w) :
    s.Accounts actorId w := by
  simp only [Accounts, Records, heq]
  exact h

theorem Accounts.throwIf {c : Bool} {e : Exn} {k : Unit → Service α}
    (h : c = false → (k ()).Accounts actorId w) :
    (Service.throwIf c e >>= k).Accounts actorId w := by
  cases c with
  | true => exact .inl (.refl _)
  | false => exact h rfl

/-- A write to tables that no organization owns. -/
theorem Accounts.aside {β : Type} {f : Db → Except Exn (α × Db)} {k : α → Service β}
    (h : ∀ a db, f w.db = .ok (a, db) → (∀ other, db.ownedBy other = w.db.ownedBy other) ∧
      db.auditLogs = w.db.auditLogs ∧ (k a).Accounts actorId { w with db := db }) :
    (Service.exec f >>= k).Accounts actorId w := by
  cases hf : f w.db with
  | error e =>
      left
      rw [exec_bind, hf]
      exact .refl _
  | ok r =>
      obtain ⟨a, db⟩ := r
      obtain ⟨howned, hlogs, hrest⟩ := h a db hf
      have hrun : (Service.exec f >>= k) w = k a { w with db := db } := by rw [exec_bind, hf]
      rw [Accounts, hrun]
      rcases hrest with hsame | ⟨organizationId, hrows, hok, log, hlog, hentry⟩
      · left
        refine ⟨fun other => (hsame.rows other).trans ?_, hsame.logs.trans hlogs⟩
        simp only [Db.tenantRows, howned other]
      · refine .inr ⟨organizationId, fun other hne => (hrows other hne).trans (howned other), ?_⟩
        rw [Records, hrun]
        exact ⟨hok, log, by rw [hlog, hlogs], hentry⟩

theorem Accounts.forget {s : Service α} (h : s.Accounts actorId w) : s.forget.Accounts actorId w := by
  rw [Accounts, forget_world]
  rcases h with hsame | ⟨organizationId, hrows, hrecords⟩
  · exact .inl hsame
  · exact .inr ⟨organizationId, hrows, hrecords.forget⟩

end Service

/-! ### Calls outside the tenant's routes -/

section Calls

variable {g : Gen} {w : World}

namespace OrgsService

theorem create_accounts (hunused : g.Unused w.db) (userId : JsString) (input : CreateOrgInput) :
    (create userId input g).Accounts (some userId) w := by
  have haudits : (create userId input g).Audits (g.cuid 0).val (some userId) w := by
    refine .query (.throwIf fun hclash => .exec ?_ fun org db hc => ?_)
    · intro org db hc
      obtain ⟨_, rfl, _⟩ := Db.createOrganization_ok hc
      rfl
    · obtain ⟨rfl, rfl, -, -, huser⟩ := Db.createOrganization_ok hc
      refine .record 3 ⟨hunused.logs, ?_, fun id hid => ?_⟩ fun w' => ⟨_, rfl, rfl⟩
      · exact ⟨_, List.mem_append_right _ (List.mem_singleton_self _), rfl⟩
      · obtain rfl := Option.some.inj hid
        exact huser
  refine haudits.accounts ?_
  rcases create_cases userId input g w with hsame | ⟨org, db, hc, hafter⟩
  · rw [hsame]
    exact RowsConfined.refl _ _
  · obtain ⟨rfl, rfl, _⟩ := Db.createOrganization_ok hc
    exact (RowsConfined.insertOrganization userId input.name input.slug g w.db).after hafter

/-- The user and the organization of a membership that is upserted exist. -/
theorem upsertMembership_known (h : Referential w.db) {userId organizationId : JsString} {role : Role}
    {id : Cuid} {now : Date} {m : Membership} {db : Db}
    (hu : w.db.upsertMembership userId organizationId role id now = .ok (m, db)) :
    (∃ u ∈ w.db.users, u.id = userId) ∧ ∃ o ∈ w.db.organizations, o.id = organizationId := by
  cases hm : w.db.findMembership userId organizationId with
  | some old =>
      obtain ⟨hmem, rfl, rfl⟩ := Db.findMembership_some hm
      exact h.members old hmem
  | none =>
      simp only [Db.upsertMembership, hm] at hu
      split at hu
      · cases hu
      · split at hu
        · cases hu
        · rename_i hfk
          simpa using hfk

theorem acceptInviteTx_ledger {userId : JsString} {invite : Invite} {db db' : Db} {m : Membership}
    (h : acceptInviteTx userId invite g db = .ok (m, db')) : db'.ledger = db.ledger := by
  obtain ⟨db₁, hu, hb⟩ := acceptInviteTx_ok h
  obtain ⟨invites, hdb⟩ := Db.burnInvite_ok hb
  rw [show db' = { db₁ with invites := invites } from hdb]
  show db₁.ledger = db.ledger
  exact upsertMembership_ledger hu

theorem acceptInvite_accounts (hunused : g.Unused w.db) (h : Referential w.db)
    (userId userEmail token : JsString) :
    (acceptInvite userId userEmail token g).Accounts (some userId) w := by
  cases hi : (w.db.findInvite (hashToken token)).filter (pending g.now) with
  | none =>
      left
      rw [acceptInvite, Service.query_bind, Service.orThrow_bind, hi]
      exact .refl _
  | some invite =>
      have haudits : (acceptInvite userId userEmail token g).Audits invite.organizationId
          (some userId) w := by
        refine .query (.orThrow fun invite' hi' => ?_)
        obtain rfl := Option.some.inj (hi.symm.trans hi')
        refine .throwIf fun haddressed => .exec ?_ fun m db htx => ?_
        · intro m db htx
          exact congrArg (fun l => l.2.2) (acceptInviteTx_ledger htx)
        · obtain ⟨db₁, hu, -⟩ := acceptInviteTx_ok htx
          obtain ⟨huser, horg⟩ := upsertMembership_known h hu
          have hready : w.db.Auditable g invite.organizationId (some userId) :=
            ⟨hunused.logs, horg, fun id hid => by cases hid; exact huser⟩
          exact .record 1 (hready.congr (acceptInviteTx_ledger htx)) fun w' => ⟨_, rfl, rfl⟩
      refine haudits.accounts ?_
      rcases acceptInvite_cases userId userEmail token g w with
        hsame | ⟨invite', m, db₁, db, hfound, hpending, haddressed, hu, hb, hafter⟩
      · rw [hsame]
        exact RowsConfined.refl _ _
      · rw [hfound, Option.filter_some, if_pos hpending] at hi
        obtain rfl := Option.some.inj hi
        have hinvites : db₁.invites = w.db.invites := by
          rcases Db.upsertMembership_ok hu with rfl | ⟨rfl, _⟩ <;> rfl
        have hmem : invite' ∈ db₁.invites := by
          rw [hinvites]
          exact List.mem_of_find?_eq_some hfound
        have hids : UniqueKey Invite.id db₁.invites := by
          rw [hinvites]
          exact h.inviteIds
        exact ((RowsConfined.upsertMembership hu).trans (.burnInvite hids hmem hb)).after hafter

end OrgsService

namespace BillingService

theorem reconcileSubscription_accounts (hunused : g.Unused w.db) (h : Referential w.db)
    (env : BillingEnv) (sub : StripeSubscription) :
    (reconcileSubscription env sub g).Accounts none w := by
  cases hf : w.db.subscriptions.find? (·.stripeCustomerId == some sub.customer) with
  | none =>
      left
      rw [reconcileSubscription, Service.query_bind, hf]
      exact .refl _
  | some found =>
      have hmem := List.mem_of_find?_eq_some hf
      have haudits : (reconcileSubscription env sub g).Audits found.organizationId none w := by
        refine .query ?_
        rw [hf]
        have hready : w.db.Auditable g found.organizationId none :=
          ⟨hunused.logs, h.subscribers found hmem, fun _ hid => by cases hid⟩
        refine .write hready ?_ fun _ db hready' => .last 0 hready'
        intro _ db hr
        rw [Db.reconcile_ok hr]
        rfl
      refine haudits.accounts ?_
      rw [reconcileSubscription, Service.query_bind, hf]
      dsimp only
      rw [Service.exec_bind]
      cases hr : w.db.reconcile found.id (reconciled env sub) g.now with
      | error e => exact RowsConfined.refl _ _
      | ok r =>
          dsimp only
          exact (RowsConfined.reconcile h.subscriptionIds hmem hr).after (w := { w with db := r.2 })
            (.recorded ..)

theorem handleWebhook_accounts (hunused : g.Unused w.db) (h : Referential w.db) (env : BillingEnv)
    (event : Except Exn StripeEvent) : (handleWebhook env event g).Accounts none w := by
  unfold handleWebhook
  refine .throwIf fun hon => ?_
  cases event with
  | error e => exact .inl (.refl _)
  | ok event =>
      cases event with
      | other => exact .inl (.refl _)
      | _ => exact reconcileSubscription_accounts hunused h env _

end BillingService

namespace AuthService

/-- The organization of a new user. -/
theorem createOrgForUser_audits (hlogs : ∀ k, ∀ a ∈ w.db.auditLogs, a.id ≠ (g.cuid k).val)
    (userId name : JsString) :
    (createOrgForUser userId name g).Audits (g.cuid 0).val (some userId) w := by
  refine .query (.exec ?_ fun org db hc => ?_)
  · intro org db hc
    obtain ⟨_, rfl, _⟩ := Db.createOrganization_ok hc
    rfl
  · obtain ⟨rfl, rfl, -, -, huser⟩ := Db.createOrganization_ok hc
    refine .last 3 ⟨hlogs, ?_, fun id hid => ?_⟩
    · exact ⟨_, List.mem_append_right _ (List.mem_singleton_self _), rfl⟩
    · obtain rfl := Option.some.inj hid
      exact huser

theorem createOrgForUser_effect (userId name : JsString) :
    RowsConfined (g.cuid 0).val w.db (createOrgForUser userId name g w).2.db ∧
      (createOrgForUser userId name g w).2.db.users = w.db.users ∧
      (createOrgForUser userId name g w).2.db.refreshTokens = w.db.refreshTokens := by
  rcases createOrgForUser_cases userId name g w with hsame | ⟨slug, org, db, hc, hafter⟩
  · rw [hsame]
    exact ⟨RowsConfined.refl _ _, rfl, rfl⟩
  · obtain ⟨rfl, rfl, _⟩ := Db.createOrganization_ok hc
    refine ⟨(RowsConfined.insertOrganization userId name slug g w.db).after hafter, ?_⟩
    obtain ⟨logs, -, hdb⟩ := hafter.db
    rw [hdb]
    exact ⟨rfl, rfl⟩

/-- The last step of `register`. -/
theorem issue_returns (env : Env) {user : User} (device : DeviceInfo) (huser : user ∈ w.db.users)
    (htokens : ∀ t ∈ w.db.refreshTokens, t.id ≠ (g.cuid 0).val ∧
      t.tokenHash ≠ TokenService.hash (g.random 1)) {β : Type} (f : IssuedTokens → β) :
    ∃ b, ((TokenService.issueForUser env ⟨user.id, user.email⟩ device g >>= fun tokens =>
        (pure (f tokens) : Service β)) w).1 = .ok b ∧
      ((TokenService.issueForUser env ⟨user.id, user.email⟩ device g >>= fun tokens =>
        (pure (f tokens) : Service β)) w).2.db.auditLogs = w.db.auditLogs := by
  have hfree : w.db.refreshTokens.any (fun t => t.id == (g.cuid 0).val ||
      t.tokenHash == TokenService.hash (TokenService.randomToken g)) = false := by
    simp only [List.any_eq_false, Bool.or_eq_true, beq_iff_eq, not_or]
    exact htokens
  have hissued := TokenService.issueForUser_answer env ⟨user.id, user.email⟩ device g
    ⟨user, huser, rfl⟩
  rw [hfree, if_neg (by simp)] at hissued
  obtain ⟨tokens, hworld⟩ :=
    TokenService.issueForUser_frame env ⟨user.id, user.email⟩ device g w
  have hrun : TokenService.issueForUser env ⟨user.id, user.email⟩ device g w =
      (.ok (TokenService.issued env g ⟨user.id, user.email⟩), TokenService.withTokens w tokens) :=
    Prod.ext hissued hworld
  rw [Service.bind_apply, hrun]
  exact ⟨_, rfl, rfl⟩

theorem register_accounts (hunused : g.Unused w.db) (env : Env) (input : RegisterInput)
    (device : DeviceInfo) : (register env input device g).Accounts (some (g.cuid 0).val) w := by
  unfold register
  refine Service.Accounts.throwIf fun hunknown => .aside fun user db hu => ?_
  obtain ⟨rfl, rfl, -⟩ := Db.createUser_ok hu
  refine ⟨fun _ => rfl, rfl, ?_⟩
  generalize hw₁ : { w with db := { w.db with users := w.db.users ++ [newUser input g] } } = w₁
  have hstored : newUser input g ∈ w₁.db.users := by
    rw [← hw₁]
    exact List.mem_append_right _ (List.mem_singleton_self _)
  cases truthy input.orgName with
  | none =>
      obtain ⟨tokens, hworld⟩ :=
        register_finish env (newUser input g) device (g.skip 5) w₁ (pure ())
      left
      exact (congrArg (fun w' : World => w₁.db.Unaltered w'.db) hworld).mpr ⟨fun _ => rfl, rfl⟩
  | some name =>
      obtain ⟨hrows, husers, htokens⟩ :=
        createOrgForUser_effect (g := g.skip 1) (w := w₁) (newUser input g).id name
      obtain ⟨tokens, hworld⟩ := register_finish env (newUser input g) device (g.skip 5) w₁
        (createOrgForUser (newUser input g).id name (g.skip 1))
      have hlogs : ∀ k, ∀ a ∈ w₁.db.auditLogs, a.id ≠ ((g.skip 1).cuid k).val := by
        rw [← hw₁]
        exact fun k => hunused.logs (1 + k)
      rcases createOrgForUser_audits hlogs (newUser input g).id name with ⟨e, he⟩ | hrecords
      · left
        refine (congrArg (fun w' : World => w₁.db.Unaltered w'.db) hworld).mpr ?_
        rw [he]
        exact ⟨fun _ => rfl, rfl⟩
      · right
        refine ⟨((g.skip 1).cuid 0).val, ?_, hrecords.andThen fun _ => ?_⟩
        · exact (congrArg (fun w' : World => RowsConfined _ w₁.db w'.db) hworld).mpr hrows
        · refine issue_returns env device (by rw [husers]; exact hstored) ?_ _
          rw [htokens, ← hw₁]
          exact fun t ht => ⟨(hunused.tokens 5 t ht).1, (hunused.tokens 6 t ht).2⟩

end AuthService

end Calls

end PmSaas
