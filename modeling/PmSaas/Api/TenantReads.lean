import PmSaas.Api.TenantFrame

/-!
# What a member reads depends on the tenant's own rows

Every read of a tenant-scoped route gives the same answer on `Db.tenantView`, the users and the
rows the organization owns, as on the whole database — as long as the label links of its issues
lead to its own labels.  `IssuesService.create` does not check that: it stores whatever label ids
the request names, and `getByNumber` then shows a label of another organization
(`foreign_label_read`).

`reads_isolated_of_ownLabels`: two states that agree on an organization answer its members alike if
no `create` on its behalf named a label of another organization.
-/

namespace PmSaas

open Table TransitionSystem

/-- The users and what one organization owns. -/
def Db.tenantView (organizationId : JsString) (db : Db) : Db :=
  { db.ownedBy organizationId with users := db.users }

/-- The label links of the organization's issues lead to labels of the organization. -/
structure OwnLabels (organizationId : JsString) (db : Db) : Prop where
  linked : ∀ l ∈ db.issueLabels, ∃ i ∈ db.issues, i.id = l.issueId
  own : ∀ l ∈ db.issueLabels, ∀ i ∈ db.issues, i.id = l.issueId →
    i.organizationId = organizationId →
    ∀ b ∈ db.labels, b.id = l.labelId → b.organizationId = organizationId

/-! ### Each query on the view -/

section Views

variable {organizationId : JsString} {db : Db}

theorem Db.findProject_view (projectKey : JsString) :
    (db.tenantView organizationId).findProject organizationId projectKey =
      db.findProject organizationId projectKey := by
  refine find?_view fun p _ hp => ?_
  simp only [Bool.and_eq_true] at hp
  exact hp.1

theorem Db.findIssue_view (issueId : JsString) :
    (db.tenantView organizationId).findIssue organizationId issueId =
      db.findIssue organizationId issueId := by
  refine find?_view fun i _ hi => ?_
  simp only [Bool.and_eq_true] at hi
  exact hi.2

theorem Db.issuePage_view (ilike : JsString → JsString → Bool) (projectId : JsString)
    (filter : IssueFilter) :
    (db.tenantView organizationId).issuePage ilike organizationId projectId filter =
      db.issuePage ilike organizationId projectId filter := by
  unfold Db.issuePage
  congr 2
  refine filter_view fun i _ hi => ?_
  simp only [Bool.and_eq_true] at hi
  exact hi.1.1

theorem Db.findIssueByNumber_view (projectId : JsString) (number : ℤ) :
    (db.tenantView organizationId).findIssueByNumber organizationId projectId number =
      db.findIssueByNumber organizationId projectId number := by
  refine find?_view fun i _ hi => ?_
  simp only [Bool.and_eq_true] at hi
  exact hi.1.1

theorem Db.ownsIssue_of_mem {i : Issue} (hi : i ∈ db.issues)
    (horg : i.organizationId = organizationId) : db.ownsIssue organizationId i.id = true :=
  List.any_eq_true.2 ⟨i, hi, by simp [horg]⟩

/-- An issue of the organization is shown with what is the organization's. -/
theorem Db.detail_view (h : OwnLabels organizationId db) {i : Issue} (hi : i ∈ db.issues)
    (horg : i.organizationId = organizationId) :
    (db.tenantView organizationId).detail i = db.detail i := by
  have howns := Db.ownsIssue_of_mem hi horg
  have hhangs : ∀ id, (id == i.id) = true → db.ownsIssue organizationId id = true := by
    intro id hid
    rw [beq_iff_eq.1 hid]
    exact howns
  have hlinks : (db.tenantView organizationId).issueLabels.filter (·.issueId == i.id) =
      db.issueLabels.filter (·.issueId == i.id) := filter_view fun l _ hl => hhangs l.issueId hl
  have hcomments : (db.tenantView organizationId).comments.filter (·.issueId == i.id) =
      db.comments.filter (·.issueId == i.id) := filter_view fun c _ hc => hhangs c.issueId hc
  have hattachments : (db.tenantView organizationId).attachments.filter (·.issueId == i.id) =
      db.attachments.filter (·.issueId == i.id) := filter_view fun a _ ha => hhangs a.issueId ha
  have hlabels : ∀ l ∈ db.issueLabels.filter (·.issueId == i.id),
      (db.tenantView organizationId).labels.find? (·.id == l.labelId) =
        db.labels.find? (·.id == l.labelId) := by
    intro l hl
    obtain ⟨hmem, hid⟩ := List.mem_filter.1 hl
    refine find?_view fun b hb hbl => ?_
    simpa using h.own l hmem i hi (beq_iff_eq.1 hid).symm horg b hb (beq_iff_eq.1 hbl)
  unfold Db.detail
  rw [hlinks, hcomments, hattachments]
  congr 1
  refine List.map_congr_left fun l hl => ?_
  rw [hlabels l hl]

/-- A project of the organization has a team and issues of the organization. -/
theorem Db.teamOf_view (h : TenantSound db) {p : Project} (hp : p ∈ db.projects)
    (horg : p.organizationId = organizationId) :
    (db.tenantView organizationId).teamOf p = db.teamOf p := by
  unfold Db.teamOf
  cases hteam : p.teamId with
  | none => rfl
  | some id =>
      have hfind : (db.tenantView organizationId).teams.find? (·.id == id) =
          db.teams.find? (·.id == id) := by
        refine find?_view fun t ht hid => ?_
        rw [beq_iff_eq] at hid
        subst hid
        simpa [horg] using h.projectTeams p hp t ht hteam
      simp only [Option.bind_some, hfind]

theorem Db.summary_view (h : TenantSound db) {p : Project} (hp : p ∈ db.projects)
    (horg : p.organizationId = organizationId) :
    (db.tenantView organizationId).summary p = db.summary p := by
  have hissues : (db.tenantView organizationId).issues.filter (·.projectId == p.id) =
      db.issues.filter (·.projectId == p.id) := by
    refine filter_view fun i hi hid => ?_
    obtain ⟨q, hq, hqid, hqorg⟩ := h.issueProjects i hi
    rw [beq_iff_eq] at hid
    rw [h.projectIds.eq_of_key_eq hq hp (hqid.trans hid), horg] at hqorg
    exact beq_iff_eq.2 hqorg.symm
  unfold Db.summary
  rw [Db.teamOf_view h hp horg, hissues]

theorem Db.projectList_view (h : TenantSound db) :
    (db.tenantView organizationId).projectList organizationId =
      db.projectList organizationId := by
  have hrows : (db.tenantView organizationId).projects.filter
      (fun p => p.organizationId == organizationId && p.archivedAt.isNone) =
        db.projects.filter fun p => p.organizationId == organizationId && p.archivedAt.isNone := by
    refine filter_view fun p _ hp => ?_
    simp only [Bool.and_eq_true] at hp
    exact hp.1
  unfold Db.projectList
  rw [hrows]
  refine List.map_congr_left fun p hp => ?_
  obtain ⟨hmem, hcols⟩ := List.mem_filter.1 (SortBy.mem_sortBy.1 hp)
  simp only [Bool.and_eq_true, beq_iff_eq] at hcols
  exact Db.summary_view h hmem hcols.1

theorem Db.findMembershipBySlug_view (h : TenantSound db) {o : Organization}
    (ho : o ∈ db.organizations) (hid : o.id = organizationId) (userId : JsString) :
    (db.tenantView organizationId).findMembershipBySlug userId o.slug =
      db.findMembershipBySlug userId o.slug := by
  have hany : ∀ m : Membership, (db.tenantView organizationId).organizations.any
      (fun o' => o'.id == m.organizationId && o'.slug == o.slug) =
        db.organizations.any fun o' => o'.id == m.organizationId && o'.slug == o.slug := by
    intro m
    rw [Bool.eq_iff_iff, List.any_eq_true, List.any_eq_true]
    constructor
    · rintro ⟨o', ho', hm⟩
      exact ⟨o', List.mem_of_mem_filter ho', hm⟩
    · rintro ⟨o', ho', hm⟩
      refine ⟨o', List.mem_filter.2 ⟨ho', ?_⟩, hm⟩
      simp only [Bool.and_eq_true, beq_iff_eq] at hm ⊢
      rw [h.slugs.eq_of_key_eq ho' ho hm.2, hid]
  unfold Db.findMembershipBySlug
  simp only [hany]
  refine find?_view fun m _ hm => ?_
  simp only [Bool.and_eq_true, List.any_eq_true, beq_iff_eq] at hm
  obtain ⟨-, o', ho', horg, hslug⟩ := hm
  rw [h.slugs.eq_of_key_eq ho' ho hslug, hid] at horg
  exact beq_iff_eq.2 horg.symm

end Views

/-- The world as far as an organization can see it. -/
def World.tenantView (organizationId : JsString) (w : World) : World :=
  { World.empty with db := w.db.tenantView organizationId }

theorem AttachmentsService.views_view {organizationId : JsString} {db : Db} {i : Issue}
    (hi : i ∈ db.issues) (horg : i.organizationId = organizationId) :
    AttachmentsService.views i.id (db.tenantView organizationId) =
      AttachmentsService.views i.id db := by
  have hrows : (db.tenantView organizationId).attachments.filter (·.issueId == i.id) =
      db.attachments.filter (·.issueId == i.id) := by
    refine filter_view fun a _ ha => ?_
    rw [beq_iff_eq.1 ha]
    exact Db.ownsIssue_of_mem hi horg
  unfold AttachmentsService.views
  rw [hrows]
  rfl

/-- **A read sees the tenant's view only.** -/
theorem TenantRead.handler_view {organizationId : JsString} {w : World}
    (ilike : JsString → JsString → Bool) (request : TenantRead) (h : TenantSound w.db)
    (hlabels : OwnLabels organizationId w.db) :
    (request.handler ilike organizationId (w.tenantView organizationId)).1 =
      (request.handler ilike organizationId w).1 := by
  have hdb : (w.tenantView organizationId).db = w.db.tenantView organizationId := rfl
  cases request with
  | listIssues projectKey filter =>
      simp only [handler, Service.bind_apply, IssuesService.list_apply, hdb, Db.findProject_view]
      cases w.db.findProject organizationId projectKey with
      | none => rfl
      | some project => simp only [Db.issuePage_view, Service.pure_apply]
  | getIssue projectKey number =>
      simp only [handler, Service.bind_apply, IssuesService.getByNumber_apply, hdb,
        Db.findProject_view]
      cases w.db.findProject organizationId projectKey with
      | none => rfl
      | some project =>
          simp only [Db.findIssueByNumber_view]
          cases hi : w.db.findIssueByNumber organizationId project.id number with
          | none => rfl
          | some i =>
              have hcols := List.find?_some hi
              simp only [Bool.and_eq_true, beq_iff_eq] at hcols
              simp only [Db.detail_view hlabels (List.mem_of_find?_eq_some hi) hcols.1.1,
                Service.pure_apply]
  | listProjects =>
      simp only [handler, ProjectsService.list, Service.query_bind, hdb, Db.projectList_view h,
        Service.pure_apply]
  | getProject projectKey =>
      simp only [handler, Service.bind_apply, ProjectsService.getByKey_apply, hdb,
        Db.findProject_view]
      cases hp : w.db.findProject organizationId projectKey with
      | none => rfl
      | some p =>
          obtain ⟨hmem, horg, _⟩ := Db.findProject_some hp
          simp only [Db.teamOf_view h hmem horg, Service.pure_apply]
  | listMembers =>
      have hrows : (w.db.tenantView organizationId).memberships.filter
          (·.organizationId == organizationId) =
            w.db.memberships.filter (·.organizationId == organizationId) :=
        filter_view fun _ _ hm => hm
      simp only [handler, OrgsService.listMembers, Service.query_bind, hdb, hrows,
        Service.pure_apply]
      rfl
  | listInvites =>
      have hrows : (w.db.tenantView organizationId).invites.filter
          (fun i => i.organizationId == organizationId && i.acceptedAt.isNone) =
            w.db.invites.filter
              fun i => i.organizationId == organizationId && i.acceptedAt.isNone := by
        refine filter_view fun i _ hi => ?_
        simp only [Bool.and_eq_true] at hi
        exact hi.1
      simp only [handler, OrgsService.listInvites, Service.query_bind, hdb, hrows,
        Service.pure_apply]
  | listAttachments issueId =>
      simp only [handler, Service.bind_apply, AttachmentsService.list_apply, hdb,
        Db.findIssue_view]
      cases hi : w.db.findIssue organizationId issueId with
      | none => rfl
      | some i =>
          obtain ⟨hmem, rfl, horg⟩ := Db.findIssue_some hi
          simp only [AttachmentsService.views_view hmem horg, Service.pure_apply]

/-! ### Runs that link own labels only -/

/-- The tables `OwnLabels` is about. -/
def Db.labelling (db : Db) := (db.issues, db.issueLabels, db.labels)

theorem Db.labelling_upsertMembership {userId organizationId : JsString} {role : Role} {id : Cuid}
    {now : Date} {db db' : Db} {m : Membership}
    (h : db.upsertMembership userId organizationId role id now = .ok (m, db')) :
    db'.labelling = db.labelling := by
  rcases Db.upsertMembership_ok h with rfl | ⟨rfl, -⟩
  · rfl
  · rfl

namespace OwnLabels

variable {organizationId : JsString} {db db' : Db}

theorem congr (h : OwnLabels organizationId db) (heq : db'.labelling = db.labelling) :
    OwnLabels organizationId db' := by
  simp only [Db.labelling, Prod.mk.injEq] at heq
  obtain ⟨hi, hl, hb⟩ := heq
  constructor <;> simp only [hi, hl, hb]
  · exact h.linked
  · exact h.own

theorem after {other : JsString} {w w' : World} (h : OwnLabels organizationId w.db)
    (ha : Aftermath other w w') : OwnLabels organizationId w'.db := by
  obtain ⟨logs, _, hdb⟩ := ha.db
  rw [hdb]
  exact h.congr rfl

/-- A new issue of the organization is linked to own labels. -/
theorem insertIssue (h : OwnLabels organizationId db) {row : Issue} {labelIds : List JsString}
    (hfresh : ∀ i ∈ db.issues, i.id ≠ row.id)
    (hown : row.organizationId = organizationId →
      ∀ l ∈ labelIds, ∀ b ∈ db.labels, b.id = l → b.organizationId = organizationId) :
    OwnLabels organizationId (db.insertIssue row labelIds) := by
  have hold : ∀ l ∈ db.issueLabels, l.issueId ≠ row.id := by
    intro l hl hid
    obtain ⟨i, hi, hil⟩ := h.linked l hl
    exact hfresh i hi (hil.trans hid)
  refine ⟨fun l hl => ?_, fun l hl i hi hid horg b hb hbl => ?_⟩
  · rcases List.mem_append.1 hl with hl | hl
    · obtain ⟨i, hi, hil⟩ := h.linked l hl
      exact ⟨i, List.mem_append_left _ hi, hil⟩
    · obtain ⟨id, -, rfl⟩ := List.mem_map.1 hl
      exact ⟨row, List.mem_append_right _ (List.mem_singleton_self row), rfl⟩
  · rcases List.mem_append.1 hl with hl | hl
    · rcases List.mem_append.1 hi with hi | hi
      · exact h.own l hl i hi hid horg b hb hbl
      · rw [List.mem_singleton.1 hi] at hid
        exact absurd hid.symm (hold l hl)
    · obtain ⟨id, hlabel, rfl⟩ := List.mem_map.1 hl
      rcases List.mem_append.1 hi with hi | hi
      · exact absurd hid (hfresh i hi)
      · rw [List.mem_singleton.1 hi] at horg
        exact hown horg id hlabel b hb hbl

theorem rewriteIssue (h : OwnLabels organizationId db) (issueId : JsString) {f : Issue → Issue}
    (hf : ∀ i, (f i).id = i.id ∧ (f i).organizationId = i.organizationId) :
    OwnLabels organizationId (db.rewriteIssue issueId f) := by
  refine ⟨fun l hl => ?_, fun l hl i hi hid horg => ?_⟩
  · obtain ⟨i, hi, hil⟩ := h.linked l hl
    refine ⟨_, mem_updateWhere.2 ⟨i, hi, rfl⟩, ?_⟩
    split
    · exact (hf i).1.trans hil
    · exact hil
  · obtain ⟨j, hj, rfl⟩ := mem_updateWhere.1 hi
    refine h.own l hl j hj ?_ ?_
    · rw [← hid]
      split
      · exact (hf j).1.symm
      · rfl
    · rw [← horg]
      split
      · exact (hf j).2.symm
      · rfl

theorem dropIssue (h : OwnLabels organizationId db) (issueId : JsString) :
    OwnLabels organizationId (db.dropIssue issueId) := by
  refine ⟨fun l hl => ?_, fun l hl i hi => ?_⟩
  · obtain ⟨hmem, hne⟩ := mem_deleteWhere.1 hl
    obtain ⟨i, hi, hil⟩ := h.linked l hmem
    refine ⟨i, mem_deleteWhere.2 ⟨hi, ?_⟩, hil⟩
    rw [hil]
    exact hne
  · exact h.own l (mem_deleteWhere.1 hl).1 i (mem_deleteWhere.1 hi).1

end OwnLabels

/-- The labels a call wants to link to an issue of the organization it acts for. -/
def TenantWrite.labelIds : TenantWrite → List JsString
  | .createIssue _ input => input.labelIds
  | _ => []

/-- A tenant-scoped write keeps `OwnLabels` if it links own labels. -/
theorem TenantChange.ownLabels {organizationId tenant actorId : JsString} {g : Gen} {w w' : World}
    {call : TenantWrite} (hc : TenantChange tenant actorId g w call w')
    (h : OwnLabels organizationId w.db)
    (hown : tenant = organizationId → ∀ l ∈ call.labelIds, ∀ b ∈ w.db.labels, b.id = l →
      b.organizationId = organizationId) : OwnLabels organizationId w'.db := by
  cases hc with
  | @createIssue projectKey input project issue db found committed =>
      obtain ⟨_, rank, _, _, hins⟩ := Db.createIssueTx_ok committed
      obtain ⟨_, rfl, hfresh, _, _⟩ := Db.createIssue_ok hins
      have hbump : OwnLabels organizationId (w.db.bumpProject project.id g.now) := h.congr rfl
      exact hbump.insertIssue hfresh hown
  | @updateIssue issueId input before row db found committed =>
      obtain ⟨_, _, _, rfl⟩ := Db.updateIssue_ok committed
      exact h.rewriteIssue (f := input.apply g.now) issueId fun _ => ⟨rfl, rfl⟩
  | @moveIssue issueId rank input issue row db found dropped committed =>
      obtain ⟨_, _, _, rfl⟩ := Db.updateIssue_ok committed
      have hplace : ∀ i : Issue, (IssuesService.place input.status rank g.now i).id = i.id ∧
          (IssuesService.place input.status rank g.now i).organizationId = i.organizationId :=
        fun _ => ⟨rfl, rfl⟩
      exact h.rewriteIssue issue.id hplace
  | @removeIssue issueId issue db found committed =>
      obtain rfl := Db.deleteIssue_ok committed
      exact h.dropIssue issue.id
  | createProject committed team =>
      obtain ⟨_, rfl, _⟩ := Db.createProject_ok committed
      exact h.congr rfl
  | addMember found committed => exact h.congr (Db.labelling_upsertMembership committed)
  | invite unknown committed =>
      rcases Db.upsertInvite_ok committed with rfl | rfl
      · exact h.congr rfl
      · exact h.congr rfl
  | updateMemberRole found notOwner => exact h.congr rfl
  | removeMember found notOwner => exact h.congr rfl
  | confirm found key committed =>
      obtain ⟨_, rfl, _⟩ := Db.createAttachment_ok committed
      exact h.congr rfl
  | @removeAttachment storageUp issueId attachmentId issue a found attachment =>
      cases storageUp with
      | false => exact h.congr rfl
      | true => exact h.congr rfl
  | createCheckout committed =>
      show OwnLabels organizationId _
      rw [Db.setCustomer_ok committed]
      exact h.congr rfl

/-- Every change keeps `OwnLabels` if its tenant-scoped write links own labels. -/
theorem ApiChange.ownLabels {organizationId : JsString} {env : ApiEnv} {g : Gen} {w w' : World}
    {call : ApiCall} (hc : ApiChange env g w call w') (h : OwnLabels organizationId w.db)
    (hown : ∀ user orgSlug write m, call = .tenant user orgSlug write →
      w.db.findMembershipBySlug user.sub orgSlug = some m → m.organizationId = organizationId →
      ∀ l ∈ write.labelIds, ∀ b ∈ w.db.labels, b.id = l → b.organizationId = organizationId) :
    OwnLabels organizationId w'.db := by
  cases hc with
  | register committed =>
      obtain ⟨_, rfl, _⟩ := Db.createUser_ok committed
      exact h.congr rfl
  | registerOrg committed owned =>
      obtain ⟨_, rfl, _⟩ := Db.createUser_ok committed
      obtain ⟨_, rfl, _⟩ := Db.createOrganization_ok owned
      exact h.congr rfl
  | login => exact h.congr rfl
  | refresh => exact h.congr rfl
  | logout => exact h.congr rfl
  | createOrg committed =>
      obtain ⟨_, rfl, _⟩ := Db.createOrganization_ok committed
      exact h.congr rfl
  | acceptInvite found pending addressee committed burnt =>
      obtain ⟨invites, rfl⟩ := Db.burnInvite_ok burnt
      have hmember := h.congr (Db.labelling_upsertMembership committed)
      exact hmember.congr rfl
  | @tenant user orgSlug write m _ member allowed change =>
      exact change.ownLabels h (hown user orgSlug write m rfl member)
  | markRead user ids => exact h.congr rfl
  | markAllRead user => exact h.congr rfl
  | updatePrefs committed =>
      obtain ⟨users, rfl⟩ := Db.updatePrefs_ok committed
      exact h.congr rfl
  | webhook known customer committed =>
      obtain rfl := Db.reconcile_ok committed
      exact h.congr rfl
  | upload url => exact h
  | work queued => exact h.congr rfl

theorem ApiCall.ownLabels {organizationId : JsString} (env : ApiEnv) (g : Gen) (call : ApiCall)
    {w : World} (h : OwnLabels organizationId w.db)
    (hown : ∀ user orgSlug write m, call = .tenant user orgSlug write →
      w.db.findMembershipBySlug user.sub orgSlug = some m → m.organizationId = organizationId →
      ∀ l ∈ write.labelIds, ∀ b ∈ w.db.labels, b.id = l → b.organizationId = organizationId) :
    OwnLabels organizationId (call.exec env g w).db := by
  rcases call.exec_cases env g w with hsame | ⟨w', other, hchange, hafter⟩
  · rw [hsame]
    exact h
  · exact (hchange.ownLabels h hown).after hafter

/-- The condition on a call: a `create` for the organization names labels of the organization. -/
def NamesOwnLabels (organizationId : JsString) (w : World) (call : ApiCall × Gen) : Prop :=
  ∀ user orgSlug write m, call.1 = .tenant user orgSlug write →
    w.db.findMembershipBySlug user.sub orgSlug = some m → m.organizationId = organizationId →
    ∀ l ∈ write.labelIds, ∀ b ∈ w.db.labels, b.id = l → b.organizationId = organizationId

/-- A state reached by such calls from a sound database with own labels. -/
def ReachableWithOwnLabels (env : ApiEnv) (organizationId : JsString) (w : World) : Prop :=
  ∃ w₀ calls, TenantSound w₀.db ∧ OwnLabels organizationId w₀.db ∧
    Run (Guarded (ApiStep env) (NamesOwnLabels organizationId)) w₀ calls w

theorem ReachableWithOwnLabels.invariant {env : ApiEnv} {organizationId : JsString} {w : World}
    (h : ReachableWithOwnLabels env organizationId w) :
    TenantSound w.db ∧ OwnLabels organizationId w.db := by
  obtain ⟨w₀, calls, hsound, hlabels, hrun⟩ := h
  refine hrun.invariant (P := fun w => TenantSound w.db ∧ OwnLabels organizationId w.db) ?_
    ⟨hsound, hlabels⟩
  rintro w call w' ⟨hs, hl⟩ ⟨hstep, hown⟩
  rw [show w' = _ from hstep]
  exact ⟨call.1.sound env call.2 hs, call.1.ownLabels env call.2 hl hown⟩

/-! ### Two states that agree on an organization -/

/-- The states agree on users and on all rows the organization owns. -/
def AgreeOn (organizationId : JsString) (db db' : Db) : Prop :=
  db.users = db'.users ∧ db.ownedBy organizationId = db'.ownedBy organizationId

theorem AgreeOn.tenantView {organizationId : JsString} {w w' : World}
    (h : AgreeOn organizationId w.db w'.db) :
    w.tenantView organizationId = w'.tenantView organizationId := by
  unfold World.tenantView Db.tenantView
  rw [h.1, h.2]

/-- `TenantGuard` resolves the request to the organization. -/
def PassesTenantGuard (organizationId : JsString) (user : AuthUser) (orgSlug : JsString)
    (w : World) : Prop :=
  ∃ context, (TenantGuard.canActivate (some user) (some orgSlug) none w).1 = .ok context ∧
    context.organizationId = organizationId

/-- `TenantGuard` looks at the tenant's rows only, once the slug is the organization's. -/
theorem findMembershipBySlug_of_agree {organizationId : JsString} {db db' : Db}
    (h : TenantSound db) (h' : TenantSound db') (hagree : AgreeOn organizationId db db')
    {userId orgSlug : JsString} {m : Membership}
    (hm : db.findMembershipBySlug userId orgSlug = some m)
    (horg : m.organizationId = organizationId) :
    db'.findMembershipBySlug userId orgSlug = some m := by
  obtain ⟨-, -, o, ho, hid, rfl⟩ := Db.findMembershipBySlug_some hm
  rw [horg] at hid
  have ho' : o ∈ (db.ownedBy organizationId).organizations :=
    List.mem_filter.2 ⟨ho, beq_iff_eq.2 hid⟩
  rw [hagree.2] at ho'
  have hview : db.tenantView organizationId = db'.tenantView organizationId := by
    unfold Db.tenantView
    rw [hagree.1, hagree.2]
  rw [← hm, ← Db.findMembershipBySlug_view h ho hid, hview,
    Db.findMembershipBySlug_view h' (List.mem_of_mem_filter ho') hid]

/-- **What a member reads is determined by the tenant's rows.**  Two states reached without linking
foreign labels that agree on the users and on an organization's rows answer every read on behalf of
the organization alike, and every request that passes `TenantGuard` for it too. -/
theorem reads_isolated_of_ownLabels {env : ApiEnv} {organizationId : JsString} {w w' : World}
    (h : ReachableWithOwnLabels env organizationId w)
    (h' : ReachableWithOwnLabels env organizationId w')
    (hagree : AgreeOn organizationId w.db w'.db) (ilike : JsString → JsString → Bool)
    (request : TenantRead) :
    (request.handler ilike organizationId w).1 = (request.handler ilike organizationId w').1 ∧
    ∀ user orgSlug, PassesTenantGuard organizationId user orgSlug w →
      (request.serve ilike user orgSlug w).1 = (request.serve ilike user orgSlug w').1 := by
  obtain ⟨hsound, hlabels⟩ := h.invariant
  obtain ⟨hsound', hlabels'⟩ := h'.invariant
  have hhandler : (request.handler ilike organizationId w).1 =
      (request.handler ilike organizationId w').1 := by
    rw [← request.handler_view ilike hsound hlabels, hagree.tenantView,
      request.handler_view ilike hsound' hlabels']
  refine ⟨hhandler, ?_⟩
  rintro user orgSlug ⟨context, hguard, horg⟩
  obtain ⟨hslug, m, hm, rfl⟩ := TenantGuard.canActivate_ok hguard
  have hm' := findMembershipBySlug_of_agree hsound hsound' hagree hm horg
  rw [TenantRead.serve, tenantScoped_apply, tenantScoped_apply, if_neg hslug, if_neg hslug, hm, hm']
  simp only
  cases RbacGuard.canActivate request.metadata (some m.role) with
  | error e => rfl
  | ok u =>
      rw [show m.organizationId = organizationId from horg]
      exact hhandler

/-! ### One label, two names -/

namespace TwoTenants

theorem seeded_ownLabels (labelName : JsString) :
    OwnLabels Demo.orgId.val (seeded labelName).db := by
  constructor
  · intro l hl
    cases hl
  · intro l hl
    cases hl

/-- Ann's view of her issue. -/
def annReads (labelName : JsString) : Except Exn Answer :=
  ((TenantRead.getIssue (js "PM") 1).serve (fun _ _ => false)
    ⟨Demo.userId.val, Demo.user.email⟩ (js "demo") (labelled labelName)).1

/-- Ann creates an issue without a label. -/
def createPlain : ApiCall :=
  .tenant ⟨Demo.userId.val, Demo.user.email⟩ (js "demo")
    (.createIssue (js "PM") { title := js "Login" })

def plain (labelName : JsString) : World := createPlain.exec env draw (seeded labelName)

theorem plain_reachable (labelName : JsString) :
    ReachableWithOwnLabels env Demo.orgId.val (plain labelName) := by
  refine ⟨seeded labelName, [(createPlain, draw)], seeded_sound labelName,
    seeded_ownLabels labelName, Run.nil.snoc ⟨rfl, ?_⟩⟩
  intro user orgSlug write m hcall _ _ l hl
  obtain ⟨rfl, rfl, rfl⟩ := ApiCall.tenant.inj hcall
  cases hl

end TwoTenants

open TwoTenants in
/-- An issue that is not linked reads the same whatever the other organization calls its label. -/
theorem reads_isolated_without_link :
    ((TenantRead.getIssue (js "PM") 1).handler (fun _ _ => false) Demo.orgId.val
        (plain (js "bug"))).1 =
      ((TenantRead.getIssue (js "PM") 1).handler (fun _ _ => false) Demo.orgId.val
        (plain (js "secret"))).1 :=
  (reads_isolated_of_ownLabels (plain_reachable (js "bug")) (plain_reachable (js "secret"))
    ⟨by decide, by decide⟩ (fun _ _ => false) (.getIssue (js "PM") 1)).1

open TwoTenants in
/-- The name of a label of the second organization shows in what Ann reads of her own issue. -/
theorem foreign_label_read :
    Run (ApiStep env) (seeded (js "bug")) [(createLabelled, draw)] (labelled (js "bug")) ∧
      Run (ApiStep env) (seeded (js "secret")) [(createLabelled, draw)] (labelled (js "secret")) ∧
      AgreeOn Demo.orgId.val (labelled (js "bug")).db (labelled (js "secret")).db ∧
      PassesTenantGuard Demo.orgId.val ⟨Demo.userId.val, Demo.user.email⟩ (js "demo")
        (labelled (js "bug")) ∧
      annReads (js "bug") ≠ annReads (js "secret") := by
  refine ⟨labelled_run _, labelled_run _, ⟨by decide, by decide⟩, ⟨_, rfl, rfl⟩, by decide⟩

end PmSaas
