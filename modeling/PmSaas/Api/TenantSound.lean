import PmSaas.Api.Routes

/-!
# What every database state of the API satisfies

Services look a row up inside the tenant and then write by its bare id.  That this stays inside the
tenant rests on a few facts about the tables: ids are unique, an issue belongs to the organization
of its project, a project's team to the project's organization, and the key of an attachment starts
with the prefix of the issue it hangs on.  `TenantSound` collects them; every call keeps them.
-/

namespace PmSaas

open Table TransitionSystem

structure TenantSound (db : Db) : Prop where
  slugs : UniqueKey Organization.slug db.organizations
  orgIds : ∀ o ∈ db.organizations, cuidFormat o.id = true
  membershipIds : UniqueKey Membership.id db.memberships
  teamIds : UniqueKey Team.id db.teams
  teamsNamed : ∀ t ∈ db.teams, t.id ≠ []
  projectIds : UniqueKey Project.id db.projects
  projectTeams : ∀ p ∈ db.projects, ∀ t ∈ db.teams, p.teamId = some t.id →
    t.organizationId = p.organizationId
  issueIds : UniqueKey Issue.id db.issues
  issueOrgs : ∀ i ∈ db.issues, ∃ o ∈ db.organizations, o.id = i.organizationId
  issueProjects : ∀ i ∈ db.issues, ∃ p ∈ db.projects,
    p.id = i.projectId ∧ p.organizationId = i.organizationId
  commentIds : UniqueKey Comment.id db.comments
  attachmentIds : UniqueKey Attachment.id db.attachments
  attachmentKeys : ∀ a ∈ db.attachments, ∃ i ∈ db.issues,
    i.id = a.issueId ∧ issuePrefix i.organizationId i.id <+: a.fileKey

/-- The tables `TenantSound` is about. -/
def Db.tenancy (db : Db) :=
  (db.organizations, db.memberships, db.teams, db.projects, db.issues, db.comments, db.attachments)

namespace TenantSound

variable {db db' : Db}

theorem empty : TenantSound Db.empty := by
  constructor <;> simp [Db.empty, UniqueKey]

theorem congr (h : TenantSound db) (heq : db'.tenancy = db.tenancy) : TenantSound db' := by
  simp only [Db.tenancy, Prod.mk.injEq] at heq
  obtain ⟨ho, hm, ht, hp, hi, hc, ha⟩ := heq
  constructor <;> simp only [ho, hm, ht, hp, hi, hc, ha]
  · exact h.slugs
  · exact h.orgIds
  · exact h.membershipIds
  · exact h.teamIds
  · exact h.teamsNamed
  · exact h.projectIds
  · exact h.projectTeams
  · exact h.issueIds
  · exact h.issueOrgs
  · exact h.issueProjects
  · exact h.commentIds
  · exact h.attachmentIds
  · exact h.attachmentKeys

theorem after {organizationId : JsString} {w w' : World} (h : TenantSound w.db)
    (ha : Aftermath organizationId w w') : TenantSound w'.db := by
  obtain ⟨logs, _, hdb⟩ := ha.db
  rw [hdb]
  exact h.congr rfl

/-! ### Organizations and members -/

theorem memberships (h : TenantSound db) {rows : List Membership}
    (hids : UniqueKey Membership.id rows) : TenantSound { db with memberships := rows } :=
  { h with membershipIds := hids }

theorem setRole (h : TenantSound db) (p : Membership → Bool) (role : Role) :
    TenantSound { db with
      memberships := updateWhere p (fun m => { m with role := role }) db.memberships } :=
  h.memberships (h.membershipIds.update fun _ _ _ => rfl)

theorem insertOrganization (h : TenantSound db) {userId name slug : JsString} {g : Gen}
    {org : Organization}
    (hc : db.createOrganization (newOrganization userId name slug g) = .ok (org, db')) :
    TenantSound db' := by
  obtain ⟨_, rfl, hfresh, hfresh', _⟩ := Db.createOrganization_ok hc
  refine { h with
    slugs := h.slugs.insert fun o ho => (hfresh o ho).2
    orgIds := fun o ho => ?_
    membershipIds := h.membershipIds.insert hfresh'
    issueOrgs := fun i hi => ?_ }
  · rcases List.mem_append.1 ho with ho | ho
    · exact h.orgIds o ho
    · rw [List.mem_singleton.1 ho]
      exact (g.cuid 0).format
  · obtain ⟨o, ho, hid⟩ := h.issueOrgs i hi
    exact ⟨o, List.mem_append_left _ ho, hid⟩

theorem upsertMembership (h : TenantSound db) {userId organizationId : JsString} {role : Role}
    {id : Cuid} {now : Date} {m : Membership}
    (hu : db.upsertMembership userId organizationId role id now = .ok (m, db')) :
    TenantSound db' := by
  rcases Db.upsertMembership_ok hu with rfl | ⟨rfl, hfresh, -, -⟩
  · exact h.setRole _ role
  · exact h.memberships (h.membershipIds.insert hfresh)

theorem dropMembership (h : TenantSound db) (id : JsString) : TenantSound (db.dropMembership id) :=
  h.memberships (h.membershipIds.delete _)

/-! ### Projects -/

theorem createProject (h : TenantSound db) {organizationId : JsString} {input : CreateProjectInput}
    {g : Gen} {p : Project}
    (hteam : ∀ id ∈ truthy input.teamId, ∃ t, db.findTeam organizationId id = some t)
    (hc : db.createProject (ProjectsService.newProject organizationId input g) = .ok (p, db')) :
    TenantSound db' := by
  obtain ⟨_, rfl, hfresh⟩ := Db.createProject_ok hc
  refine { h with
    projectIds := h.projectIds.insert hfresh
    projectTeams := fun p hp t ht hid => ?_
    issueProjects := fun i hi => ?_ }
  · rcases List.mem_append.1 hp with hp | hp
    · exact h.projectTeams p hp t ht hid
    · rw [List.mem_singleton.1 hp] at hid ⊢
      have htruthy : t.id ∈ truthy input.teamId := by
        rw [show input.teamId = some t.id from hid, truthy]
        simpa using h.teamsNamed t ht
      obtain ⟨t', hfind⟩ := hteam t.id htruthy
      obtain ⟨ht', hid', horg⟩ := Db.findTeam_some hfind
      rw [← h.teamIds.eq_of_key_eq ht' ht hid']
      exact horg
  · obtain ⟨p, hp, hpi⟩ := h.issueProjects i hi
    exact ⟨p, List.mem_append_left _ hp, hpi⟩

theorem bumpProject (h : TenantSound db) (projectId : JsString) (now : Date) :
    TenantSound (db.bumpProject projectId now) := by
  refine { h with
    projectIds := h.projectIds.update fun _ _ _ => rfl
    projectTeams := fun p hp t ht hid => ?_
    issueProjects := fun i hi => ?_ }
  · obtain ⟨q, hq, hqp⟩ := mem_updateWhere.1 hp
    have hcols : p.teamId = q.teamId ∧ p.organizationId = q.organizationId := by
      rw [← hqp]
      split <;> exact ⟨rfl, rfl⟩
    rw [hcols.2]
    exact h.projectTeams q hq t ht (hcols.1 ▸ hid)
  · obtain ⟨p, hp, hid, horg⟩ := h.issueProjects i hi
    refine ⟨_, mem_updateWhere.2 ⟨p, hp, rfl⟩, ?_⟩
    split
    · exact ⟨hid, horg⟩
    · exact ⟨hid, horg⟩

/-! ### Issues -/

theorem insertIssue (h : TenantSound db) {row : Issue} (labelIds : List JsString)
    (hfresh : ∀ i ∈ db.issues, i.id ≠ row.id)
    (horg : ∃ o ∈ db.organizations, o.id = row.organizationId)
    (hproject : ∃ p ∈ db.projects, p.id = row.projectId ∧ p.organizationId = row.organizationId) :
    TenantSound (db.insertIssue row labelIds) := by
  refine { h with
    issueIds := h.issueIds.insert hfresh
    issueOrgs := fun i hi => ?_
    issueProjects := fun i hi => ?_
    attachmentKeys := fun a ha => ?_ }
  · rcases List.mem_append.1 hi with hi | hi
    · exact h.issueOrgs i hi
    · rw [List.mem_singleton.1 hi]
      exact horg
  · rcases List.mem_append.1 hi with hi | hi
    · exact h.issueProjects i hi
    · rw [List.mem_singleton.1 hi]
      exact hproject
  · obtain ⟨i, hi, hkey⟩ := h.attachmentKeys a ha
    exact ⟨i, List.mem_append_left _ hi, hkey⟩

theorem createIssueTx (h : TenantSound db) {organizationId actorId : JsString}
    {input : CreateIssueInput} {g : Gen} {project : Project} {issue : IssueView}
    (hproject : project ∈ db.projects) (horg : project.organizationId = organizationId)
    (htx : db.createIssueTx organizationId actorId project.id input g = .ok (issue, db')) :
    TenantSound db' := by
  obtain ⟨_, rank, _, _, hins⟩ := Db.createIssueTx_ok htx
  obtain ⟨_, rfl, hfresh, hexists, _⟩ := Db.createIssue_ok hins
  have hb := h.bumpProject project.id g.now
  refine hb.insertIssue _ hfresh hexists ?_
  refine ⟨_, mem_updateWhere.2 ⟨project, hproject, rfl⟩, ?_⟩
  rw [if_pos (beq_self_eq_true project.id)]
  exact ⟨rfl, horg⟩

theorem rewriteIssue (h : TenantSound db) (issueId : JsString) {f : Issue → Issue}
    (hf : ∀ i, (f i).id = i.id ∧ (f i).organizationId = i.organizationId ∧
      (f i).projectId = i.projectId) : TenantSound (db.rewriteIssue issueId f) := by
  have hcols : ∀ i ∈ updateWhere (·.id == issueId) f db.issues, ∃ j ∈ db.issues,
      i.id = j.id ∧ i.organizationId = j.organizationId ∧ i.projectId = j.projectId := by
    intro i hi
    obtain ⟨j, hj, rfl⟩ := mem_updateWhere.1 hi
    refine ⟨j, hj, ?_⟩
    split
    · exact hf j
    · exact ⟨rfl, rfl, rfl⟩
  refine { h with
    issueIds := h.issueIds.update fun i _ _ => (hf i).1
    issueOrgs := fun i hi => ?_
    issueProjects := fun i hi => ?_
    attachmentKeys := fun a ha => ?_ }
  · obtain ⟨j, hj, -, horg, -⟩ := hcols i hi
    rw [horg]
    exact h.issueOrgs j hj
  · obtain ⟨j, hj, -, horg, hproject⟩ := hcols i hi
    rw [horg, hproject]
    exact h.issueProjects j hj
  · obtain ⟨i, hi, hid, hkey⟩ := h.attachmentKeys a ha
    refine ⟨_, mem_updateWhere.2 ⟨i, hi, rfl⟩, ?_⟩
    split
    · rw [(hf i).1, (hf i).2.1]
      exact ⟨hid, hkey⟩
    · exact ⟨hid, hkey⟩

theorem dropIssue (h : TenantSound db) (issueId : JsString) : TenantSound (db.dropIssue issueId) := by
  refine { h with
    issueIds := h.issueIds.delete _
    issueOrgs := fun i hi => h.issueOrgs i (mem_deleteWhere.1 hi).1
    issueProjects := fun i hi => h.issueProjects i (mem_deleteWhere.1 hi).1
    commentIds := h.commentIds.delete _
    attachmentIds := h.attachmentIds.delete _
    attachmentKeys := fun a ha => ?_ }
  obtain ⟨hmem, hne⟩ := mem_deleteWhere.1 ha
  obtain ⟨i, hi, hid, hkey⟩ := h.attachmentKeys a hmem
  refine ⟨i, mem_deleteWhere.2 ⟨hi, ?_⟩, hid, hkey⟩
  rw [hid]
  exact hne

/-! ### Attachments -/

theorem createAttachment (h : TenantSound db) {organizationId actorId issueId : JsString}
    {input : ConfirmAttachmentInput} {g : Gen} {issue : Issue} {a : Attachment}
    (hissue : db.findIssue organizationId issueId = some issue)
    (hkey : issuePrefix organizationId issueId <+: input.fileKey)
    (hc : db.createAttachment (AttachmentsService.newAttachment actorId issueId input g) =
      .ok (a, db')) : TenantSound db' := by
  obtain ⟨_, rfl, hfresh⟩ := Db.createAttachment_ok hc
  refine { h with
    attachmentIds := h.attachmentIds.insert hfresh
    attachmentKeys := fun b hb => ?_ }
  rcases List.mem_append.1 hb with hb | hb
  · exact h.attachmentKeys b hb
  · obtain ⟨hi, hid, horg⟩ := Db.findIssue_some hissue
    rw [List.mem_singleton.1 hb]
    refine ⟨issue, hi, hid, ?_⟩
    rw [hid, horg]
    exact hkey

theorem dropAttachment (h : TenantSound db) (id : JsString) : TenantSound (db.dropAttachment id) :=
  { h with
    attachmentIds := h.attachmentIds.delete _
    attachmentKeys := fun a ha => h.attachmentKeys a (mem_deleteWhere.1 ha).1 }

end TenantSound

/-! ### Two tenants -/

namespace TwoTenants

def otherOrgId : Cuid := ⟨js "corg2", by decide⟩
def labelId : Cuid := ⟨js "clabel", by decide⟩
def issueId : Cuid := ⟨js "cissue", by decide⟩

def env : ApiEnv := ⟨TokenService.Samples.env, js "http://localhost:3000", [], [], []⟩

def draw : Gen := ⟨0, fun _ => issueId, fun _ => js "r0"⟩

/-- Ann is a member of the demo organization; a second organization has a label of a given name. -/
def seeded (labelName : JsString) : World :=
  { Demo.world with db := { Demo.world.db with
      organizations := [Demo.organization, ⟨otherOrgId.val, js "other", js "Other", 0, 0⟩]
      memberships := [⟨js "cm", Demo.userId.val, Demo.orgId.val, .MEMBER, 0⟩]
      labels := [⟨labelId.val, otherOrgId.val, labelName, js "#6366f1", 0⟩] } }

theorem seeded_sound (labelName : JsString) : TenantSound (seeded labelName).db := by
  have h : TenantSound (seeded []).db := by constructor <;> decide
  exact h.congr rfl

/-- Ann creates an issue in her own project and names the label of the second organization. -/
def createLabelled : ApiCall :=
  .tenant ⟨Demo.userId.val, Demo.user.email⟩ (js "demo")
    (.createIssue (js "PM") { title := js "Login", labelIds := [labelId.val] })

def labelled (labelName : JsString) : World := createLabelled.exec env draw (seeded labelName)

theorem labelled_run (labelName : JsString) :
    Run (ApiStep env) (seeded labelName) [(createLabelled, draw)] (labelled labelName) :=
  Run.nil.snoc rfl

end TwoTenants

end PmSaas
