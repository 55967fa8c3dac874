import PmSaas.Api.AuditedMethods
import PmSaas.Api.TenantSlice

/-!
# Each tenant-scoped method in equal slices

A method that runs for an organization in two worlds with equal slices cannot tell them apart
(`TenantWrite.exec_slice`), and one that runs for another organization leaves the slice as it is
(`TenantWrite.exec_outside`).
-/

namespace PmSaas

open Table

/-- Two worlds with equal slices, and new ids and tokens in both. -/
structure Paired (organizationId : JsString) (g : Gen) (w w' : World) : Prop where
  slice : w.slice organizationId = w'.slice organizationId
  separated : Separated w.db
  separated' : Separated w'.db
  fresh : g.Fresh w.db
  fresh' : g.Fresh w'.db

namespace Paired

variable {organizationId : JsString} {g : Gen} {w w' : World}

theorem alike (h : Paired organizationId g w w') : Alike organizationId g w w' :=
  ⟨h.slice, h.fresh.auditLogs, h.fresh'.auditLogs⟩

/-- A query on the organization's own rows. -/
theorem query_eq (h : Paired organizationId g w w') {α : Type} {q : Db → α}
    (hq : ∀ db, Separated db → q (db.tenantView organizationId) = q db) : q w.db = q w'.db := by
  rw [← hq _ h.separated, ← hq _ h.separated', World.view_eq h.slice]

end Paired

theorem organization_eq {organizationId : JsString} {w w' : World}
    (h : w.slice organizationId = w'.slice organizationId) :
    w.db.organizations.find? (·.id == organizationId) =
      w'.db.organizations.find? (·.id == organizationId) := by
  have hview : ∀ db : Db, (db.tenantView organizationId).organizations.find?
      (·.id == organizationId) = db.organizations.find? (·.id == organizationId) :=
    fun db => find?_view fun _ _ h => h
  rw [← hview, World.view_eq h, hview]

section Methods

variable {organizationId actorId : JsString} {g : Gen} {w w' : World}

namespace IssuesService

theorem resolveProject_respects {β : Type} (h : Paired organizationId g w w') {projectKey : JsString}
    {k : Project → Service β}
    (hk : ∀ project, w.db.findProject organizationId projectKey = some project →
      w'.db.findProject organizationId projectKey = some project →
      (k project).Respects organizationId w w') :
    (resolveProject organizationId projectKey >>= k).Respects organizationId w w' := by
  have heq : w.db.findProject organizationId projectKey =
      w'.db.findProject organizationId projectKey :=
    h.query_eq fun db _ => Db.findProject_view projectKey
  rw [Service.Respects, resolveProject_bind, resolveProject_bind, ← heq]
  cases hp : w.db.findProject organizationId projectKey with
  | none => exact ⟨rfl, h.slice⟩
  | some project => exact hk project hp (heq ▸ hp)

theorem create_respects (h : Paired organizationId g w w') (projectKey : JsString)
    {input : CreateIssueInput}
    (hlabels : ∀ l ∈ input.labelIds, ∀ b ∈ w.db.labels, b.id = l →
      b.organizationId = organizationId)
    (hlabels' : ∀ l ∈ input.labelIds, ∀ b ∈ w'.db.labels, b.id = l →
      b.organizationId = organizationId) :
    (create organizationId actorId projectKey input g).Respects organizationId w w' := by
  refine resolveProject_respects h fun project hp hp' => ?_
  obtain ⟨hmem, horg, -⟩ := Db.findProject_some hp
  obtain ⟨hmem', -, -⟩ := Db.findProject_some hp'
  refine .write h.alike
    (Db.createIssueTx_viewed h.separated.toAttached h.separated.sound hmem horg actorId
      (h.fresh.issues 0) hlabels)
    (Db.createIssueTx_viewed h.separated'.toAttached h.separated'.sound hmem' horg actorId
      (h.fresh'.issues 0) hlabels') ?_ fun issue v v' hv => ?_
  · intro db issue db' htx
    obtain ⟨_, _, _, _, hins⟩ := Db.createIssueTx_ok htx
    obtain ⟨_, rfl, _⟩ := Db.createIssue_ok hins
    rfl
  · refine .record 1 rfl hv fun v v' hv => .emit hv fun v v' hv => ?_
    cases truthy issue.assigneeId with
    | none => exact .done hv issue
    | some recipientId => exact .enqueue rfl hv

/-- The organization owns every row with the id of an issue it found. -/
theorem own_of_findIssue {db : Db} (h : TenantSound db) {issueId : JsString} {issue : Issue}
    (hfound : db.findIssue organizationId issueId = some issue) :
    ∀ i ∈ db.issues, i.id = issueId → i.organizationId = organizationId := by
  obtain ⟨hmem, rfl, rfl⟩ := Db.findIssue_some hfound
  intro i hi hid
  rw [h.issueIds.eq_of_key_eq hi hmem hid]

theorem findIssue_eq (h : Paired organizationId g w w') (issueId : JsString) :
    w.db.findIssue organizationId issueId = w'.db.findIssue organizationId issueId :=
  h.query_eq fun _ _ => Db.findIssue_view issueId

theorem update_respects (h : Paired organizationId g w w') (issueId : JsString)
    (input : UpdateIssueInput) :
    (update organizationId actorId issueId input g).Respects organizationId w w' := by
  refine .query (findIssue_eq h issueId) (.orThrow h.slice fun before hb => ?_)
  have hb' := (findIssue_eq h issueId) ▸ hb
  have hcols : ∀ i : Issue, (input.apply g.now i).id = i.id ∧
      (input.apply g.now i).organizationId = i.organizationId := fun _ => ⟨rfl, rfl⟩
  refine .write h.alike
    (Db.updateIssue_viewed _ hcols (own_of_findIssue h.separated.sound hb))
    (Db.updateIssue_viewed _ hcols (own_of_findIssue h.separated'.sound hb')) ?_
    fun row v v' hv => ?_
  · intro db row db' hu
    obtain ⟨_, _, _, rfl⟩ := Db.updateIssue_ok hu
    rfl
  · refine .record 0 rfl hv fun v v' hv => .emit hv fun v v' hv => ?_
    cases connectedUser input with
    | none => exact .done hv _
    | some recipientId =>
        dsimp only
        split
        · exact .done hv _
        · exact .enqueue rfl hv

/-- The neighbours of a drop are issues of the project, which is the organization's. -/
theorem neighbourRank_view {db : Db} (h : TenantSound db) {issue : Issue} (hissue : issue ∈ db.issues)
    (horg : issue.organizationId = organizationId) (status : IssueStatus) (id : Option JsString) :
    (db.tenantView organizationId).neighbourRank issue.projectId status id =
      db.neighbourRank issue.projectId status id := by
  have hown : ∀ i ∈ db.issues, i.projectId = issue.projectId →
      i.organizationId = organizationId := by
    intro i hi hproject
    obtain ⟨p, hp, hpid, hporg⟩ := h.issueProjects i hi
    obtain ⟨q, hq, hqid, hqorg⟩ := h.issueProjects issue hissue
    rw [← hporg, h.projectIds.eq_of_key_eq hp hq (by rw [hpid, hqid, hproject]), hqorg, horg]
  unfold Db.neighbourRank
  congr 1
  funext id
  congr 1
  refine find?_view fun i hi hkey => ?_
  simp only [Bool.and_eq_true, beq_iff_eq] at hkey ⊢
  exact hown i hi hkey.1.2

theorem move_respects (h : Paired organizationId g w w') (issueId : JsString)
    (input : MoveIssueInput) :
    (move organizationId actorId issueId input g).Respects organizationId w w' := by
  refine .query (findIssue_eq h issueId) (.orThrow h.slice fun issue hi => ?_)
  have hi' := (findIssue_eq h issueId) ▸ hi
  obtain ⟨hmem, hid, horg⟩ := Db.findIssue_some hi
  obtain ⟨hmem', -, -⟩ := Db.findIssue_some hi'
  have hrank : ∀ id, w.db.neighbourRank issue.projectId input.status id =
      w'.db.neighbourRank issue.projectId input.status id := by
    intro id
    rw [← neighbourRank_view h.separated.sound hmem horg, World.view_eq h.slice,
      neighbourRank_view h.separated'.sound hmem' horg]
  have hcols : ∀ (rank : JsString) (i : Issue), (place input.status rank g.now i).id = i.id ∧
      (place input.status rank g.now i).organizationId = i.organizationId := fun _ _ => ⟨rfl, rfl⟩
  subst hid
  refine .query (hrank input.aboveId) (.query (hrank input.belowId) (.compute h.slice
    fun rank hdrop => .write h.alike
      (Db.updateIssue_viewed _ (hcols rank) (own_of_findIssue h.separated.sound hi))
      (Db.updateIssue_viewed _ (hcols rank) (own_of_findIssue h.separated'.sound hi')) ?_
      fun row v v' hv => .record 0 rfl hv fun v v' hv => .emit hv fun v v' hv => .done hv _))
  intro db row db' hu
  obtain ⟨_, _, _, rfl⟩ := Db.updateIssue_ok hu
  rfl

theorem remove_respects (h : Paired organizationId g w w') (issueId : JsString) :
    (remove organizationId actorId issueId g).Respects organizationId w w' := by
  refine .query (findIssue_eq h issueId) (.orThrow h.slice fun issue hi => ?_)
  have hi' := (findIssue_eq h issueId) ▸ hi
  obtain ⟨hmem, -, horg⟩ := Db.findIssue_some hi
  obtain ⟨hmem', -, -⟩ := Db.findIssue_some hi'
  refine .write h.alike (Db.deleteIssue_viewed hmem horg) (Db.deleteIssue_viewed hmem' horg) ?_
    fun _ v v' hv => .record 0 rfl hv fun v v' hv => ⟨rfl, World.emitted_slice hv ..⟩
  intro db _ db' hdel
  obtain rfl := Db.deleteIssue_ok hdel
  rfl

end IssuesService

theorem ProjectsService.create_respects (h : Paired organizationId g w w')
    (input : CreateProjectInput) :
    (create organizationId actorId input g).Respects organizationId w w' := by
  have hproject : w.db.findProject organizationId input.key =
      w'.db.findProject organizationId input.key :=
    h.query_eq fun db _ => Db.findProject_view input.key
  have hfind : ∀ id, w.db.findTeam organizationId id = w'.db.findTeam organizationId id := by
    refine fun id => h.query_eq fun db _ => find?_view fun t _ ht => ?_
    simp only [Bool.and_eq_true] at ht
    exact ht.2
  refine .query hproject (.throwIf h.slice fun _ => ?_)
  by_cases hteam : ((truthy input.teamId).all fun id =>
      (w.db.findTeam organizationId id).isSome) = true
  · have hteam' : ((truthy input.teamId).all fun id =>
        (w'.db.findTeam organizationId id).isSome) = true := by
      simpa only [← hfind] using hteam
    -- the team that was found is the only one with its id, and no team has the empty one
    have hown : ∀ {db : Db}, TenantSound db → (∀ id, db.findTeam organizationId id =
        w.db.findTeam organizationId id) → ∀ id ∈ input.teamId, ∀ t ∈ db.teams, t.id = id →
        t.organizationId = organizationId := by
      intro db hsound heq id hid t ht htid
      have htruthy : truthy input.teamId = some id := by
        rw [hid, truthy]
        simpa [← htid] using hsound.teamsNamed t ht
      rw [htruthy, Option.all_some, ← heq] at hteam
      obtain ⟨t', hfound⟩ := Option.isSome_iff_exists.1 hteam
      obtain ⟨ht', hid', horg⟩ := Db.findTeam_some hfound
      rw [hsound.teamIds.eq_of_key_eq ht ht' (htid.trans hid'.symm)]
      exact horg
    refine .of_eq (by rw [checkTeam_bind, if_pos hteam]) (by rw [checkTeam_bind, if_pos hteam'])
      (.write h.alike
        (Db.createProject_viewed rfl (h.fresh.projects 0) (hown h.separated.sound fun _ => rfl))
        (Db.createProject_viewed rfl (h.fresh'.projects 0)
          (hown h.separated'.sound fun id => (hfind id).symm)) ?_
        fun project v v' hv => .record 1 rfl hv fun v v' hv => .done hv project)
    intro db project db' hc
    obtain ⟨_, rfl, _⟩ := Db.createProject_ok hc
    rfl
  · have hteam' : ¬((truthy input.teamId).all fun id =>
        (w'.db.findTeam organizationId id).isSome) = true := by
      simpa only [← hfind] using hteam
    rw [Service.Respects, checkTeam_bind, checkTeam_bind, if_neg hteam, if_neg hteam']
    exact ⟨rfl, h.slice⟩

namespace OrgsService

theorem findMembership_eq (h : Paired organizationId g w w') (userId : JsString) :
    w.db.findMembership userId organizationId = w'.db.findMembership userId organizationId := by
  refine h.query_eq fun db _ => find?_view fun m _ hm => ?_
  simp only [Bool.and_eq_true] at hm
  exact hm.2

theorem addMember_respects (h : Paired organizationId g w w') (env : Env) (email : JsString)
    (role : GrantableRole) :
    (addMember env organizationId actorId email role g).Respects organizationId w w' := by
  have huser : w.db.findUserByEmail (JsString.toLowerCase email) =
      w'.db.findUserByEmail (JsString.toLowerCase email) := h.query_eq fun _ _ => rfl
  refine .query huser ?_
  cases w.db.findUserByEmail (JsString.toLowerCase email) with
  | some user =>
      refine .write h.alike (Db.upsertMembership_viewed _ _ _ (h.fresh.memberships 0))
        (Db.upsertMembership_viewed _ _ _ (h.fresh'.memberships 0)) ?_
        fun m v v' hv => .record 1 rfl hv fun v v' hv => .done hv _
      intro db m db' hm
      exact congrArg (fun l => l.2.2) (upsertMembership_ledger hm)
  | none =>
      refine .write h.alike (Db.upsertInvite_viewed rfl (h.fresh.invites 0))
        (Db.upsertInvite_viewed rfl (h.fresh'.invites 0)) ?_ fun invite v v' hv => ?_
      · intro db invite db' hi
        rcases Db.upsertInvite_ok hi with rfl | rfl <;> rfl
      · exact .query (organization_eq hv.slice) (.orThrow hv.slice fun org _ => .mail hv fun v v' hv =>
          .record 1 rfl hv fun v v' hv => .done hv _)

/-- The organization owns every row with the id of a membership it found. -/
theorem own_of_findMembership {db : Db} (h : TenantSound db) {userId : JsString} {m : Membership}
    (hfound : db.findMembership userId organizationId = some m) :
    ∀ m' ∈ db.memberships, m'.id = m.id → m'.organizationId = organizationId := by
  obtain ⟨hmem, -, rfl⟩ := Db.findMembership_some hfound
  intro m' hm' hid
  rw [h.membershipIds.eq_of_key_eq hm' hmem hid]

theorem updateMemberRole_respects (h : Paired organizationId g w w') (targetUserId : JsString)
    (role : GrantableRole) :
    (updateMemberRole organizationId actorId targetUserId role g).Respects organizationId w w' := by
  refine .query (findMembership_eq h targetUserId) (.orThrow h.slice fun m hm =>
    .throwIf h.slice fun _ => ?_)
  have hm' := (findMembership_eq h targetUserId) ▸ hm
  refine .write h.alike
    (Db.updateMembership_viewed role.val (own_of_findMembership h.separated.sound hm))
    (Db.updateMembership_viewed role.val (own_of_findMembership h.separated'.sound hm')) ?_
    fun updated v v' hv => .record 0 rfl hv fun v v' hv => .done hv updated
  intro db updated db' hu
  obtain rfl := Db.updateMembership_ok hu
  rfl

theorem removeMember_respects (h : Paired organizationId g w w') (targetUserId : JsString) :
    (removeMember organizationId actorId targetUserId g).Respects organizationId w w' := by
  refine .query (findMembership_eq h targetUserId) (.orThrow h.slice fun m hm =>
    .throwIf h.slice fun _ => ?_)
  have hm' := (findMembership_eq h targetUserId) ▸ hm
  refine .write h.alike
    (Db.deleteMembership_viewed (own_of_findMembership h.separated.sound hm))
    (Db.deleteMembership_viewed (own_of_findMembership h.separated'.sound hm')) ?_
    fun _ v v' hv => .last 0 rfl hv
  intro db _ db' hd
  obtain rfl := Db.deleteMembership_ok hd
  rfl

end OrgsService

namespace AttachmentsService

theorem resolveIssue_respects {β : Type} (h : Paired organizationId g w w') {issueId : JsString}
    {k : Issue → Service β}
    (hk : ∀ issue, w.db.findIssue organizationId issueId = some issue →
      w'.db.findIssue organizationId issueId = some issue →
      (k issue).Respects organizationId w w') :
    (resolveIssue organizationId issueId >>= k).Respects organizationId w w' := by
  have heq := IssuesService.findIssue_eq h issueId
  rw [Service.Respects, resolveIssue_bind, resolveIssue_bind, ← heq]
  cases hi : w.db.findIssue organizationId issueId with
  | none => exact ⟨rfl, h.slice⟩
  | some issue => exact hk issue hi (heq ▸ hi)

theorem confirm_respects (h : Paired organizationId g w w') (issueId : JsString)
    (input : ConfirmAttachmentInput) :
    (confirm organizationId actorId issueId input g).Respects organizationId w w' := by
  refine resolveIssue_respects h fun issue hi hi' => .throwIf h.slice fun _ => ?_
  refine .write h.alike
    (Db.createAttachment_viewed (h.fresh.attachments 0)
      (IssuesService.own_of_findIssue h.separated.sound hi))
    (Db.createAttachment_viewed (h.fresh'.attachments 0)
      (IssuesService.own_of_findIssue h.separated'.sound hi')) ?_
    fun a v v' hv => .record 1 rfl hv fun v v' hv => ⟨?_, hv⟩
  · intro db a db' hc
    obtain ⟨_, rfl, _⟩ := Db.createAttachment_ok hc
    rfl
  · have hview : ∀ db : Db, withUrl a (db.tenantView organizationId) = withUrl a db := fun _ => rfl
    show (.ok (withUrl a v.db) : Except Exn AttachmentView) = .ok (withUrl a v'.db)
    rw [← hview v.db, World.view_eq hv, hview]

theorem findAttachment_view {db : Db} {issue : Issue} {issueId : JsString}
    (hi : db.findIssue organizationId issueId = some issue) (attachmentId : JsString) :
    (db.tenantView organizationId).findAttachment issueId attachmentId =
      db.findAttachment issueId attachmentId := by
  obtain ⟨hmem, rfl, horg⟩ := Db.findIssue_some hi
  refine find?_view fun a _ ha => ?_
  simp only [Bool.and_eq_true, beq_iff_eq] at ha
  rw [ha.2]
  exact Db.ownsIssue_of_mem hmem horg

theorem remove_respects (h : Paired organizationId g w w') (storageUp : Bool)
    (issueId attachmentId : JsString) :
    (remove storageUp organizationId actorId issueId attachmentId g).Respects organizationId w w' := by
  refine resolveIssue_respects h fun issue hi hi' => ?_
  have hfind : w.db.findAttachment issueId attachmentId =
      w'.db.findAttachment issueId attachmentId := by
    rw [← findAttachment_view hi, World.view_eq h.slice, findAttachment_view hi']
  refine .query hfind (.orThrow h.slice fun a ha => ?_)
  have hdelete : ∀ {db : Db}, db.findIssue organizationId issueId = some issue →
      db.findAttachment issueId attachmentId = some a → viewed organizationId
        (db.deleteAttachment a.id) = (db.tenantView organizationId).deleteAttachment a.id := by
    intro db hi ha
    obtain ⟨hmem, hid, horg⟩ := Db.findIssue_some hi
    obtain ⟨hamem, -, haissue⟩ := Db.findAttachment_some ha
    refine Db.deleteAttachment_viewed hamem ?_
    rw [haissue, ← hid]
    exact Db.ownsIssue_of_mem hmem horg
  refine .write h.alike (hdelete hi ha) (hdelete hi' (hfind ▸ ha)) ?_ fun _ v v' hv =>
    .deleteObject hv fun v v' hv => .last 0 rfl hv
  intro db _ db' hd
  unfold Db.deleteAttachment at hd
  split at hd
  · cases hd
    rfl
  · cases hd

end AttachmentsService

namespace BillingService

theorem findSubscription_view (db : Db) :
    (db.tenantView organizationId).findSubscription organizationId =
      db.findSubscription organizationId := find?_view fun _ _ h => h

/-- Only the organization's customer is looked at and stored, so the customer Stripe creates must
not be one of another organization. -/
theorem createCheckout_respects (h : Paired organizationId g w w') (env : BillingEnv)
    {stripe : Stripe} (plan : PaidPlan)
    (hnames : ∀ name customerId, stripe.createCustomer name organizationId = .ok customerId →
      ∀ s ∈ w.db.subscriptions, s.stripeCustomerId = some customerId →
        s.organizationId = organizationId)
    (hnames' : ∀ name customerId, stripe.createCustomer name organizationId = .ok customerId →
      ∀ s ∈ w'.db.subscriptions, s.stripeCustomerId = some customerId →
        s.organizationId = organizationId) :
    (createCheckout env stripe organizationId plan g.now).Respects organizationId w w' := by
  have horg : w.db.organizations.find? (·.id == organizationId) =
      w'.db.organizations.find? (·.id == organizationId) :=
    organization_eq h.slice
  have hsubscription : w.db.findSubscription organizationId =
      w'.db.findSubscription organizationId := h.query_eq fun db _ => findSubscription_view db
  have hrest : ∀ org customerId v v', v.slice organizationId = v'.slice organizationId →
      (do
        let price ← priceFor env plan
        call (stripe.createSession
          { customer := customerId
            price := price
            quantity := ((w.db.findSubscription organizationId).map Subscription.seats).getD 1
            success_url := env.WEB_ORIGIN ++ js "/" ++ org ++
              js "/settings/billing?status=success"
            cancel_url := env.WEB_ORIGIN ++ js "/" ++ org ++
              js "/settings/billing?status=cancelled"
            organizationId := organizationId
            plan := plan.val }) : Service JsString).Respects organizationId v v' :=
    fun org customerId v v' hv => .orThrow hv fun price _ => ⟨rfl, hv⟩
  refine .throwIf h.slice fun _ => .query horg (.query hsubscription (.orThrow h.slice
    fun org ho => ?_))
  have hid : org.id = organizationId := by simpa using List.find?_some ho
  unfold ensureCustomer
  cases truthy ((w.db.findSubscription organizationId).bind Subscription.stripeCustomerId) with
  | some customerId => exact hrest org.slug customerId w w' h.slice
  | none =>
      rw [hid]
      simp only [Service.Respects, Service.bind_apply, call]
      cases hc : stripe.createCustomer org.name organizationId with
      | error e => exact ⟨rfl, h.slice⟩
      | ok customerId =>
          simp only [Service.exec]
          rcases World.exec_alike h.slice (Db.setCustomer_viewed g.now (hnames _ _ hc))
            (Db.setCustomer_viewed g.now (hnames' _ _ hc)) with
            ⟨e, he, he'⟩ | ⟨_, db, db', hok, hok', hslice⟩
          · rw [he, he']
            exact ⟨rfl, h.slice⟩
          · rw [hok, hok']
            exact hrest org.slug customerId _ _ hslice

end BillingService

end Methods

/-! ### Broadcasts and jobs of other organizations -/

/-- The broadcasts to the organization's rooms and its notification jobs. -/
def World.signals (organizationId : JsString) (w : World) :=
  (w.broadcasts.filter (Broadcast.ownedBy organizationId),
    w.queue.filter (·.organizationId == organizationId))

/-- The method sends nothing to the organization. -/
structure Service.Quiet {α : Type} (organizationId : JsString) (s : Service α) : Prop where
  same : ∀ w, (s w).2.signals organizationId = w.signals organizationId

/-- The rooms of another organization have other names. -/
theorem projectRoom_not_owned {organizationId other projectId : JsString}
    (h : cuidFormat organizationId = true) (hother : cuidFormat other = true)
    (hne : other ≠ organizationId) (event : IssueEvent) :
    Broadcast.ownedBy organizationId ⟨projectRoom other projectId, event⟩ = false := by
  rw [Broadcast.ownedBy, Bool.eq_false_iff, ne_eq, List.isPrefixOf_iff_prefix]
  rintro ⟨rest, hrest⟩
  have horg : js "org:" = js "org" ++ [colon] := by decide
  have hcolon : js ":" = [colon] := by decide
  rw [projectRoom_eq_colons, roomPrefix, horg, hcolon] at hrest
  simp only [List.append_assoc, List.cons_append, List.nil_append] at hrest
  exact hne (eq_of_append_colon (colon_notMem_of_cuidFormat h) (colon_notMem_of_cuidFormat hother)
    (List.tail_eq_of_cons_eq (List.append_cancel_left hrest))).1.symm

namespace Service.Quiet

variable {α β : Type} {organizationId other : JsString}

theorem done (a : α) : (pure a : Service α).Quiet organizationId := ⟨fun _ => rfl⟩

theorem bind {s : Service α} {k : α → Service β} (hs : s.Quiet organizationId)
    (hk : ∀ a, (k a).Quiet organizationId) : (s >>= k).Quiet organizationId := by
  refine ⟨fun w => ?_⟩
  rw [bind_apply]
  have hfirst := hs.same w
  cases hr : s w with
  | mk r w' =>
      rw [hr] at hfirst
      cases r with
      | error e => exact hfirst
      | ok a => exact ((hk a).same w').trans hfirst

theorem query (f : Db → α) : (Service.query f).Quiet organizationId := ⟨fun _ => rfl⟩

theorem exec (f : Db → Except Exn (α × Db)) : (Service.exec f).Quiet organizationId := by
  refine ⟨fun w => ?_⟩
  unfold Service.exec
  cases f w.db <;> rfl

theorem orThrow (o : Option α) (e : Exn) : (Service.orThrow o e).Quiet organizationId := by
  cases o <;> exact ⟨fun _ => rfl⟩

theorem throwIf (c : Bool) (e : Exn) : (Service.throwIf c e).Quiet organizationId := by
  cases c <;> exact ⟨fun _ => rfl⟩

theorem record (entry : AuditEntry) (id : Cuid) (now : Date) :
    (PmSaas.record entry id now).Quiet organizationId := by
  refine ⟨fun w => ?_⟩
  unfold PmSaas.record
  cases w.db.createAuditLog entry id.val now <;> rfl

theorem mail (msg : MailMessage) : (sendMail msg).Quiet organizationId := ⟨fun _ => rfl⟩

theorem deleteObject (up : Bool) (key : JsString) :
    (StorageService.delete up key).Quiet organizationId := by
  cases up <;> exact ⟨fun _ => rfl⟩

theorem call (answer : Except Exn α) : (BillingService.call answer).Quiet organizationId :=
  ⟨fun _ => rfl⟩

theorem emit (h : cuidFormat organizationId = true) (hother : cuidFormat other = true)
    (hne : other ≠ organizationId) (projectId : JsString) (event : IssueEvent) :
    (emitToProject other projectId event).Quiet organizationId := by
  refine ⟨fun w => ?_⟩
  simp only [emitToProject, World.signals, World.emitted,
    filter_insert (projectRoom_not_owned h hother hne event)]

theorem enqueue {job : NotificationJob} (hne : job.organizationId ≠ organizationId) :
    (PmSaas.enqueue job).Quiet organizationId := by
  have hnot : (job.organizationId == organizationId) = false := beq_eq_false_iff_ne.2 hne
  refine ⟨fun w => ?_⟩
  simp only [PmSaas.enqueue, World.enqueued]
  split
  · rfl
  · have hqueue : (w.queue ++ [job]).filter (·.organizationId == organizationId) =
        w.queue.filter (·.organizationId == organizationId) := filter_insert hnot
    simp only [World.signals, hqueue]

end Service.Quiet

/-- A tenant-scoped write sends nothing to another organization. -/
theorem TenantWrite.exec_signals {organizationId other : JsString}
    (h : cuidFormat organizationId = true) (hother : cuidFormat other = true)
    (hne : other ≠ organizationId) (env : ApiEnv) (call : TenantWrite) (actorId : JsString)
    (g : Gen) (w : World) :
    (call.exec env other actorId g w).signals organizationId = w.signals organizationId := by
  have hemit : ∀ projectId event, (emitToProject other projectId event).Quiet organizationId :=
    Service.Quiet.emit h hother hne
  have hassigned : ∀ recipientId issue, (PmSaas.enqueue
      (IssuesService.assignedJob other actorId recipientId issue)).Quiet organizationId :=
    fun recipientId issue => .enqueue hne
  have hresolve : ∀ issueId, (AttachmentsService.resolveIssue other issueId).Quiet organizationId :=
    fun issueId => .bind (.query _) fun _ => .orThrow _ _
  cases call with
  | createIssue projectKey input =>
      refine Service.Quiet.same (.bind (.bind (.query _) fun _ => .orThrow _ _) (fun project => .bind (.exec _)
        fun issue => .bind (.record ..) fun _ => .bind (hemit ..) fun _ => ?_)) w
      cases truthy issue.assigneeId with
      | none => exact .done issue
      | some recipientId => exact .bind (hassigned ..) fun _ => .done issue
  | updateIssue issueId input =>
      refine Service.Quiet.same (.bind (.query _) (fun _ => .bind (.orThrow _ _) fun before =>
        .bind (.exec _) fun row => .bind (.record ..) fun _ => .bind (hemit ..) fun _ => ?_)) w
      cases IssuesService.connectedUser input with
      | none => exact .done _
      | some recipientId =>
          dsimp only
          split
          · exact .done _
          · exact .bind (hassigned ..) fun _ => .done _
  | moveIssue issueId input =>
      exact Service.Quiet.same (.bind (.query _) (fun _ => .bind (.orThrow _ _) fun issue =>
        .bind (.query _) fun _ => .bind (.query _) fun _ => .bind (.exec _) fun rank =>
        .bind (.exec _) fun row => .bind (.record ..) fun _ => .bind (hemit ..) fun _ => .done _)) w
  | removeIssue issueId =>
      exact Service.Quiet.same (.bind (.query _) (fun _ => .bind (.orThrow _ _) fun issue =>
        .bind (.exec _) fun _ => .bind (.record ..) fun _ => hemit ..)) w
  | createProject input =>
      refine Service.Quiet.same (.bind (.query _) (fun _ => .bind (.throwIf _ _) fun _ => .bind ?_ fun _ =>
        .bind (.exec _) fun project => .bind (.record ..) fun _ => .done _)) w
      unfold ProjectsService.checkTeam
      cases truthy input.teamId with
      | none => exact .done ()
      | some id => exact .bind (.query _) fun _ => .throwIf _ _
  | addMember email role =>
      refine Service.Quiet.same (.bind (.query _) (fun user => ?_)) w
      cases user with
      | some user => exact .bind (.exec _) fun m => .bind (.record ..) fun _ => .done _
      | none =>
          exact .bind (.exec _) fun invite => .bind (.query _) fun _ => .bind (.orThrow _ _)
            fun org => .bind (.mail _) fun _ => .bind (.record ..) fun _ => .done _
  | updateMemberRole userId role =>
      exact Service.Quiet.same (.bind (.query _) (fun _ => .bind (.orThrow _ _) fun m =>
        .bind (.throwIf _ _) fun _ => .bind (.exec _) fun _ => .bind (.record ..) fun _ => .done _)) w
  | removeMember userId =>
      exact Service.Quiet.same (.bind (.query _) (fun _ => .bind (.orThrow _ _) fun m =>
        .bind (.throwIf _ _) fun _ => .bind (.exec _) fun _ => .record ..)) w
  | presign issueId input => exact Service.Quiet.same (.bind (hresolve issueId) (fun _ => .done _)) w
  | confirm issueId input =>
      exact Service.Quiet.same (.bind (hresolve issueId) (fun _ => .bind (.throwIf _ _) fun _ =>
        .bind (.exec _) fun a => .bind (.record ..) fun _ => .query _)) w
  | removeAttachment storageUp issueId attachmentId =>
      exact Service.Quiet.same (.bind (hresolve issueId) (fun _ => .bind (.query _) fun _ =>
        .bind (.orThrow _ _) fun a => .bind (.exec _) fun _ => .bind (.deleteObject ..) fun _ =>
        .record ..)) w
  | createCheckout stripe plan =>
      refine Service.Quiet.same (.bind (.throwIf _ _) (fun _ => .bind (.query _) fun _ => .bind (.query _)
        fun subscription => .bind (.orThrow _ _) fun org => .bind ?_ fun customerId =>
        .bind (.orThrow _ _) fun price => .call _)) w
      unfold BillingService.ensureCustomer
      cases truthy (subscription.bind Subscription.stripeCustomerId) with
      | some customerId => exact .done customerId
      | none => exact .bind (.call _) fun customerId => .bind (.exec _) fun _ => .done _

theorem World.slice_eq {organizationId : JsString} {w w' : World}
    (hview : w'.db.tenantView organizationId = w.db.tenantView organizationId)
    (hobjects : w'.objects.filter (StoredObject.ownedBy organizationId) =
      w.objects.filter (StoredObject.ownedBy organizationId))
    (hsignals : w'.signals organizationId = w.signals organizationId) :
    w'.slice organizationId = w.slice organizationId := by
  simp only [World.signals, Prod.mk.injEq] at hsignals
  simp only [World.slice, hview, hobjects, hsignals.1, hsignals.2]

/-! ### The routes -/

/-- What a request names of the outside belongs to the organization: the labels of a new issue, and
the customer Stripe creates. -/
def TenantWrite.NamesOwn (organizationId : JsString) (db : Db) : TenantWrite → Prop
  | .createIssue _ input => ∀ l ∈ input.labelIds, ∀ b ∈ db.labels, b.id = l →
      b.organizationId = organizationId
  | .createCheckout stripe _ => ∀ name customerId,
      stripe.createCustomer name organizationId = .ok customerId →
      ∀ s ∈ db.subscriptions, s.stripeCustomerId = some customerId →
        s.organizationId = organizationId
  | _ => True

/-- **A write on behalf of the organization looks at its slice only.** -/
theorem TenantWrite.exec_slice {organizationId : JsString} {g : Gen} {w w' : World}
    (h : Paired organizationId g w w') (env : ApiEnv) (actorId : JsString) {call : TenantWrite}
    (hown : call.NamesOwn organizationId w.db) (hown' : call.NamesOwn organizationId w'.db) :
    (call.exec env organizationId actorId g w).slice organizationId =
      (call.exec env organizationId actorId g w').slice organizationId := by
  cases call with
  | createIssue projectKey input =>
      exact (IssuesService.create_respects h projectKey hown hown').2
  | updateIssue issueId input => exact (IssuesService.update_respects h issueId input).2
  | moveIssue issueId input => exact (IssuesService.move_respects h issueId input).2
  | removeIssue issueId => exact (IssuesService.remove_respects h issueId).2
  | createProject input => exact (ProjectsService.create_respects h input).2
  | addMember email role => exact (OrgsService.addMember_respects h env.auth email role).2
  | updateMemberRole userId role => exact (OrgsService.updateMemberRole_respects h userId role).2
  | removeMember userId => exact (OrgsService.removeMember_respects h userId).2
  | presign issueId input =>
      rw [exec, exec, AttachmentsService.presign_world, AttachmentsService.presign_world]
      exact h.slice
  | confirm issueId input => exact (AttachmentsService.confirm_respects h issueId input).2
  | removeAttachment storageUp issueId attachmentId =>
      exact (AttachmentsService.remove_respects h storageUp issueId attachmentId).2
  | createCheckout stripe plan =>
      exact (BillingService.createCheckout_respects h env.billing plan hown hown').2

/-- **A write on behalf of another organization leaves the slice as it is.** -/
theorem TenantWrite.exec_outside {organizationId other : JsString} {w : World}
    (h : TenantSound w.db) (horg : ∃ o ∈ w.db.organizations, o.id = organizationId)
    (hother : ∃ o ∈ w.db.organizations, o.id = other) (hne : other ≠ organizationId) (env : ApiEnv)
    (call : TenantWrite) (actorId : JsString) (g : Gen) :
    (call.exec env other actorId g w).slice organizationId = w.slice organizationId := by
  have heffect := call.effect env other actorId g h
  obtain ⟨o, ho, rfl⟩ := horg
  obtain ⟨o', ho', rfl⟩ := hother
  have husers : (call.exec env o'.id actorId g w).db.users = w.db.users := by
    rcases call.exec_cases env o'.id actorId g w with hsame | ⟨w', hchange, hafter⟩
    · rw [hsame]
    · obtain ⟨logs, -, hdb⟩ := hafter.db
      rw [hdb]
      exact hchange.tables.1
  refine World.slice_eq ?_ (heffect.objects o ho hne.symm)
    (call.exec_signals (h.orgIds o ho) (h.orgIds o' ho') hne env actorId g w)
  unfold Db.tenantView
  rw [heffect.rows o.id hne.symm, husers]

end PmSaas
