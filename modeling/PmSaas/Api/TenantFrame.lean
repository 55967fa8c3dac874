import PmSaas.Api.Changes
import PmSaas.Api.TenantSound

/-!
# A tenant-scoped write stays inside its tenant

`Db.ownedBy` is the part of the database an organization owns: its rows by `organizationId`, and
comments, mentions, attachments and label links by the issue they hang on.  `tenantWrite_confined`:
in every state of the API, a write on behalf of one organization leaves the part of every other
organization as it is, and the objects under that organization's prefix too.
-/

namespace PmSaas

open Table TransitionSystem

/-! ### Ownership -/

/-- The organization has an issue with this id. -/
def Db.ownsIssue (organizationId issueId : JsString) (db : Db) : Bool :=
  db.issues.any fun i => i.id == issueId && i.organizationId == organizationId

/-- The rows an organization owns; users and their tokens belong to no organization. -/
def Db.ownedBy (organizationId : JsString) (db : Db) : Db where
  users := []
  refreshTokens := []
  organizations := db.organizations.filter (·.id == organizationId)
  memberships := db.memberships.filter (·.organizationId == organizationId)
  invites := db.invites.filter (·.organizationId == organizationId)
  teams := db.teams.filter (·.organizationId == organizationId)
  projects := db.projects.filter (·.organizationId == organizationId)
  issues := db.issues.filter (·.organizationId == organizationId)
  labels := db.labels.filter (·.organizationId == organizationId)
  issueLabels := db.issueLabels.filter fun l => db.ownsIssue organizationId l.issueId
  comments := db.comments.filter fun c => db.ownsIssue organizationId c.issueId
  mentions := db.mentions.filter fun m => db.comments.any fun c =>
    c.id == m.commentId && db.ownsIssue organizationId c.issueId
  attachments := db.attachments.filter fun a => db.ownsIssue organizationId a.issueId
  notifications := db.notifications.filter (·.organizationId == organizationId)
  auditLogs := db.auditLogs.filter (·.organizationId == organizationId)
  subscriptions := db.subscriptions.filter (·.organizationId == organizationId)

/-- A new issue does not change who owns the others. -/
theorem Db.ownsIssue_insertIssue {organizationId issueId : JsString} {db : Db} {row : Issue}
    {labelIds : List JsString} (hfresh : ∀ i ∈ db.issues, i.id ≠ row.id)
    (h : ∃ i ∈ db.issues, i.id = issueId) :
    (db.insertIssue row labelIds).ownsIssue organizationId issueId =
      db.ownsIssue organizationId issueId := by
  obtain ⟨i, hi, rfl⟩ := h
  have hne : (row.id == i.id) = false := by simpa using (hfresh i hi).symm
  simp [Db.ownsIssue, Db.insertIssue, hne]

/-- The object is in the organization's part of the bucket. -/
def StoredObject.ownedBy (organizationId : JsString) (object : StoredObject) : Bool :=
  (orgPrefix organizationId).isPrefixOf object.key

/-- Only rows of one organization differ. -/
def RowsConfined (organizationId : JsString) (db db' : Db) : Prop :=
  ∀ other, other ≠ organizationId → db'.ownedBy other = db.ownedBy other

namespace RowsConfined

variable {organizationId : JsString} {db db' db'' : Db}

theorem refl (organizationId : JsString) (db : Db) : RowsConfined organizationId db db :=
  fun _ _ => rfl

theorem trans (h : RowsConfined organizationId db db') (h' : RowsConfined organizationId db' db'') :
    RowsConfined organizationId db db'' :=
  fun other hne => (h' other hne).trans (h other hne)

theorem after {w w' : World} (h : RowsConfined organizationId db w.db)
    (ha : Aftermath organizationId w w') : RowsConfined organizationId db w'.db := by
  refine h.trans fun other hne => ?_
  obtain ⟨logs, hlogs, hdb⟩ := ha.db
  rw [hdb]
  simp only [Db.ownedBy, Db.ownsIssue]
  rw [filter_insertAll fun a h => by simpa [hlogs a h] using hne.symm]

/-! ### Members and invites -/

theorem setMemberRole (userId organizationId : JsString) (role : Role) (db : Db) :
    RowsConfined organizationId db (db.setMemberRole userId organizationId role) := by
  intro other hne
  simp only [Db.ownedBy, Db.ownsIssue, Db.setMemberRole]
  rw [filter_updateWhere]
  intro m _ hp
  simp only [Bool.and_eq_true, beq_iff_eq] at hp
  simpa [hp.2] using hne.symm

theorem insertMembership (row : Membership) (h : row.organizationId = organizationId) (db : Db) :
    RowsConfined organizationId db (db.insertMembership row) := by
  intro other hne
  simp only [Db.ownedBy, Db.ownsIssue, Db.insertMembership]
  rw [filter_insert (by simpa [h] using hne.symm)]

theorem setRoleById (hids : UniqueKey Membership.id db.memberships) {m : Membership}
    (hm : m ∈ db.memberships) (role : Role) :
    RowsConfined m.organizationId db (db.setRoleById m.id role) := by
  intro other hne
  simp only [Db.ownedBy, Db.ownsIssue, Db.setRoleById]
  rw [filter_updateWhere]
  intro m' hm' hid
  rw [hids.eq_of_key_eq hm' hm (beq_iff_eq.1 hid)]
  simpa using hne.symm

theorem dropMembership (hids : UniqueKey Membership.id db.memberships) {m : Membership}
    (hm : m ∈ db.memberships) : RowsConfined m.organizationId db (db.dropMembership m.id) := by
  intro other hne
  simp only [Db.ownedBy, Db.ownsIssue, Db.dropMembership]
  rw [filter_deleteWhere]
  intro m' hm' hid
  rw [hids.eq_of_key_eq hm' hm (beq_iff_eq.1 hid)]
  simpa using hne.symm

theorem upsertMembership {userId : JsString} {role : Role} {id : Cuid} {now : Date} {m : Membership}
    (hu : db.upsertMembership userId organizationId role id now = .ok (m, db')) :
    RowsConfined organizationId db db' := by
  rcases Db.upsertMembership_ok hu with rfl | ⟨rfl, -, -, -⟩
  · exact setMemberRole userId organizationId role db
  · exact insertMembership ⟨id.val, userId, organizationId, role, now⟩ rfl db

theorem upsertInvite {row invite : Invite} (hu : db.upsertInvite row = .ok (invite, db')) :
    RowsConfined row.organizationId db db' := by
  intro other hne
  rcases Db.upsertInvite_ok hu with rfl | rfl
  · simp only [Db.ownedBy, Db.ownsIssue, Db.renewInvite]
    rw [filter_updateWhere]
    intro i _ hp
    simp only [Bool.and_eq_true, beq_iff_eq] at hp
    simpa [hp.1] using hne.symm
  · simp only [Db.ownedBy, Db.ownsIssue, Db.insertInvite]
    rw [filter_insert (by simpa using hne.symm)]

/-! ### Projects and subscriptions -/

theorem insertProject (row : Project) (h : row.organizationId = organizationId) (db : Db) :
    RowsConfined organizationId db (db.insertProject row) := by
  intro other hne
  simp only [Db.ownedBy, Db.ownsIssue, Db.insertProject]
  rw [filter_insert (by simpa [h] using hne.symm)]

theorem bumpProject (hids : UniqueKey Project.id db.projects) {p : Project} (hp : p ∈ db.projects)
    (now : Date) : RowsConfined p.organizationId db (db.bumpProject p.id now) := by
  intro other hne
  simp only [Db.ownedBy, Db.ownsIssue, Db.bumpProject]
  rw [filter_updateWhere]
  intro q hq hid
  rw [hids.eq_of_key_eq hq hp (beq_iff_eq.1 hid)]
  simpa [Project.bump] using hne.symm

theorem setCustomer {customerId : JsString} {now : Date}
    (hs : db.setCustomer organizationId customerId now = .ok ((), db')) :
    RowsConfined organizationId db db' := by
  intro other hne
  rw [Db.setCustomer_ok hs]
  simp only [Db.ownedBy, Db.ownsIssue, Db.rewriteSubscription]
  rw [filter_updateWhere]
  intro s _ hid
  rw [beq_iff_eq] at hid
  simpa [hid] using hne.symm

/-! ### Issues -/

theorem insertIssue {row : Issue} (horg : row.organizationId = organizationId)
    (labelIds : List JsString) (hfresh : ∀ i ∈ db.issues, i.id ≠ row.id) :
    RowsConfined organizationId db (db.insertIssue row labelIds) := by
  intro other hne
  have howns : ∀ id, (db.insertIssue row labelIds).ownsIssue other id = db.ownsIssue other id := by
    intro id
    have hrow : (row.organizationId == other) = false := by simpa [horg] using hne.symm
    simp [Db.ownsIssue, Db.insertIssue, hrow]
  have hlinks : ∀ l ∈ labelIds.map fun l => (⟨row.id, l⟩ : IssueLabel),
      db.ownsIssue other l.issueId = false := by
    intro l hl
    obtain ⟨id, -, rfl⟩ := List.mem_map.1 hl
    refine List.any_eq_false.2 fun i hi => ?_
    simpa using fun h => absurd h (hfresh i hi)
  have hissues : (db.issues ++ [row]).filter (·.organizationId == other) =
      db.issues.filter (·.organizationId == other) :=
    filter_insert (by simpa [horg] using hne.symm)
  simp only [Db.ownedBy, howns]
  simp only [Db.insertIssue, hissues, filter_insertAll hlinks]

theorem rewriteIssue (hids : UniqueKey Issue.id db.issues) {i : Issue} (hi : i ∈ db.issues)
    {f : Issue → Issue} (hf : ∀ i, (f i).id = i.id ∧ (f i).organizationId = i.organizationId) :
    RowsConfined i.organizationId db (db.rewriteIssue i.id f) := by
  intro other hne
  have howns : ∀ id, (db.rewriteIssue i.id f).ownsIssue other id = db.ownsIssue other id := by
    intro id
    refine any_updateWhere fun j _ _ => ?_
    rw [(hf j).1, (hf j).2]
  have hissues : (updateWhere (·.id == i.id) f db.issues).filter (·.organizationId == other) =
      db.issues.filter (·.organizationId == other) := by
    refine filter_updateWhere fun j hj hid => ?_
    rw [(hf j).2, hids.eq_of_key_eq hj hi (beq_iff_eq.1 hid)]
    simpa using hne.symm
  simp only [Db.ownedBy, howns]
  simp only [Db.rewriteIssue, hissues]

theorem ownsIssue_eq_false (hids : UniqueKey Issue.id db.issues) {i : Issue} (hi : i ∈ db.issues)
    {other : JsString} (hne : other ≠ i.organizationId) : db.ownsIssue other i.id = false := by
  refine List.any_eq_false.2 fun j hj => ?_
  simp only [Bool.and_eq_true, beq_iff_eq, not_and]
  intro hid
  rw [hids.eq_of_key_eq hj hi hid]
  exact hne.symm

/-- Everything the cascade deletes hangs on the issue. -/
theorem dropIssue (h : TenantSound db) {i : Issue} (hi : i ∈ db.issues) :
    RowsConfined i.organizationId db (db.dropIssue i.id) := by
  intro other hne
  have hnot := ownsIssue_eq_false h.issueIds hi hne
  have hhangs : ∀ id, (id == i.id) = true → db.ownsIssue other id = false := by
    intro id hid
    rw [beq_iff_eq.1 hid]
    exact hnot
  have howns : ∀ id, (db.dropIssue i.id).ownsIssue other id = db.ownsIssue other id := by
    intro id
    refine any_deleteWhere fun j hj hid => ?_
    rw [h.issueIds.eq_of_key_eq hj hi (beq_iff_eq.1 hid)]
    simpa using fun _ => hne.symm
  have hissues : (deleteWhere (·.id == i.id) db.issues).filter (·.organizationId == other) =
      db.issues.filter (·.organizationId == other) := by
    refine filter_deleteWhere fun j hj hid => ?_
    rw [h.issueIds.eq_of_key_eq hj hi (beq_iff_eq.1 hid)]
    simpa using hne.symm
  have hlinks : (deleteWhere (·.issueId == i.id) db.issueLabels).filter
      (fun l => db.ownsIssue other l.issueId) =
        db.issueLabels.filter fun l => db.ownsIssue other l.issueId :=
    filter_deleteWhere fun l _ hid => hhangs l.issueId hid
  have hcomments : (deleteWhere (·.issueId == i.id) db.comments).filter
      (fun c => db.ownsIssue other c.issueId) =
        db.comments.filter fun c => db.ownsIssue other c.issueId :=
    filter_deleteWhere fun c _ hid => hhangs c.issueId hid
  have hattachments : (deleteWhere (·.issueId == i.id) db.attachments).filter
      (fun a => db.ownsIssue other a.issueId) =
        db.attachments.filter fun a => db.ownsIssue other a.issueId :=
    filter_deleteWhere fun a _ hid => hhangs a.issueId hid
  have hany : ∀ m : Mention, ((deleteWhere (·.issueId == i.id) db.comments).any fun c =>
      c.id == m.commentId && db.ownsIssue other c.issueId) =
        db.comments.any fun c => c.id == m.commentId && db.ownsIssue other c.issueId := by
    intro m
    refine any_deleteWhere fun c _ hid => ?_
    rw [hhangs c.issueId hid, Bool.and_false]
  have hmentions : (deleteWhere (fun m : Mention => db.comments.any fun c =>
      c.id == m.commentId && c.issueId == i.id) db.mentions).filter (fun m => db.comments.any fun c =>
        c.id == m.commentId && db.ownsIssue other c.issueId) =
      db.mentions.filter fun m => db.comments.any fun c =>
        c.id == m.commentId && db.ownsIssue other c.issueId := by
    refine filter_deleteWhere fun m _ hm => List.any_eq_false.2 fun c hc => ?_
    obtain ⟨c', hc', hmatch⟩ := List.any_eq_true.1 hm
    simp only [Bool.and_eq_true, beq_iff_eq, not_and] at hmatch ⊢
    intro hid
    rw [h.commentIds.eq_of_key_eq hc hc' (hid.trans hmatch.1.symm), hmatch.2, hnot]
    exact Bool.false_ne_true
  simp only [Db.ownedBy, howns]
  simp only [Db.dropIssue, hissues, hlinks, hcomments, hattachments, hany, hmentions]

/-! ### Attachments -/

theorem insertAttachment (h : TenantSound db) {i : Issue} (hi : i ∈ db.issues) {row : Attachment}
    (hrow : row.issueId = i.id) : RowsConfined i.organizationId db (db.insertAttachment row) := by
  intro other hne
  have hnot : db.ownsIssue other row.issueId = false := by
    rw [hrow]
    exact ownsIssue_eq_false h.issueIds hi hne
  have hrows : (db.attachments ++ [row]).filter (fun a => db.ownsIssue other a.issueId) =
      db.attachments.filter fun a => db.ownsIssue other a.issueId := filter_insert hnot
  show { db.ownedBy other with
    attachments := (db.attachments ++ [row]).filter fun a => db.ownsIssue other a.issueId } = _
  rw [hrows]
  rfl

theorem dropAttachment (h : TenantSound db) {i : Issue} (hi : i ∈ db.issues) {a : Attachment}
    (ha : a ∈ db.attachments) (hissue : a.issueId = i.id) :
    RowsConfined i.organizationId db (db.dropAttachment a.id) := by
  intro other hne
  have hrows : (deleteWhere (·.id == a.id) db.attachments).filter
      (fun a => db.ownsIssue other a.issueId) =
        db.attachments.filter fun a => db.ownsIssue other a.issueId := by
    refine filter_deleteWhere fun b hb hid => ?_
    rw [h.attachmentIds.eq_of_key_eq hb ha (beq_iff_eq.1 hid), hissue]
    exact ownsIssue_eq_false h.issueIds hi hne
  show { db.ownedBy other with
    attachments := (deleteWhere (fun b : Attachment => b.id == a.id) db.attachments).filter
      fun b => db.ownsIssue other b.issueId } = _
  rw [hrows]
  rfl

end RowsConfined

/-! ### What a call does to the world -/

/-- The world is still sound, and what changed belongs to one organization. -/
structure TenantEffect (organizationId : JsString) (w w' : World) : Prop where
  sound : TenantSound w'.db
  rows : RowsConfined organizationId w.db w'.db
  objects : ∀ o ∈ w.db.organizations, o.id ≠ organizationId →
    w'.objects.filter (StoredObject.ownedBy o.id) = w.objects.filter (StoredObject.ownedBy o.id)

namespace TenantEffect

variable {organizationId : JsString} {w w' : World}

theorem refl (organizationId : JsString) (h : TenantSound w.db) : TenantEffect organizationId w w :=
  ⟨h, fun _ _ => rfl, fun _ _ _ => rfl⟩

/-- The side effects on behalf of the organization. -/
theorem after {w'' : World} (h : TenantEffect organizationId w w')
    (ha : Aftermath organizationId w' w'') : TenantEffect organizationId w w'' :=
  ⟨h.sound.after ha, h.rows.after ha, fun o ho hne => by rw [ha.objects]; exact h.objects o ho hne⟩

/-- The object of an attachment lies in the part of the organization that owns its issue. -/
theorem deleteObject (h : TenantSound w.db) {i : Issue} (hi : i ∈ w.db.issues) {a : Attachment}
    (ha : a ∈ w.db.attachments) (hissue : a.issueId = i.id) :
    ∀ o ∈ w.db.organizations, o.id ≠ i.organizationId →
      (deleteWhere (fun object : StoredObject => object.key == a.fileKey) w.objects).filter
          (StoredObject.ownedBy o.id) =
        w.objects.filter (StoredObject.ownedBy o.id) := by
  intro o ho hne
  obtain ⟨j, hj, hid, hkey⟩ := h.attachmentKeys a ha
  obtain rfl : j = i := h.issueIds.eq_of_key_eq hj hi (hid.trans hissue)
  obtain ⟨own, hown, horg⟩ := h.issueOrgs j hj
  have hprefix : orgPrefix j.organizationId <+: a.fileKey := by
    refine List.IsPrefix.trans ?_ hkey
    simp only [issuePrefix, List.append_assoc]
    exact List.prefix_append ..
  refine filter_deleteWhere fun object _ hobject => ?_
  rw [beq_iff_eq] at hobject
  rw [StoredObject.ownedBy, hobject, Bool.eq_false_iff]
  intro hother
  have hslash : (47 : CodeUnit) ∉ j.organizationId :=
    horg ▸ slash_notMem_of_cuidFormat (h.orgIds own hown)
  exact hne (orgPrefix_disjoint (slash_notMem_of_cuidFormat (h.orgIds o ho)) hslash
    (List.isPrefixOf_iff_prefix.1 hother) hprefix)

end TenantEffect

/-- One case for each route: a tenant-scoped write affects its tenant only. -/
theorem TenantChange.effect {organizationId actorId : JsString} {g : Gen} {w w' : World}
    {call : TenantWrite} (hc : TenantChange organizationId actorId g w call w')
    (h : TenantSound w.db) : TenantEffect organizationId w w' := by
  have hwrite : ∀ {db : Db}, TenantSound db → RowsConfined organizationId w.db db →
      TenantEffect organizationId w { w with db := db } :=
    fun hsound hrows => ⟨hsound, hrows, fun _ _ _ => rfl⟩
  cases hc with
  | createIssue found committed =>
      obtain ⟨hmem, horg, _⟩ := Db.findProject_some found
      have hsound := h.createIssueTx hmem horg committed
      obtain ⟨_, rank, _, _, hins⟩ := Db.createIssueTx_ok committed
      obtain ⟨_, rfl, hfresh, _, _⟩ := Db.createIssue_ok hins
      have hbump := RowsConfined.bumpProject h.projectIds hmem g.now
      rw [horg] at hbump
      exact hwrite hsound (hbump.trans (.insertIssue rfl _ hfresh))
  | @updateIssue issueId input before row db found committed =>
      obtain ⟨hmem, rfl, rfl⟩ := Db.findIssue_some found
      obtain ⟨_, _, _, rfl⟩ := Db.updateIssue_ok committed
      have hcols : ∀ i : Issue, (input.apply g.now i).id = i.id ∧
          (input.apply g.now i).organizationId = i.organizationId ∧
          (input.apply g.now i).projectId = i.projectId := fun _ => ⟨rfl, rfl, rfl⟩
      exact hwrite (h.rewriteIssue _ hcols)
        (.rewriteIssue h.issueIds hmem fun i => ⟨(hcols i).1, (hcols i).2.1⟩)
  | @moveIssue issueId rank input issue row db found dropped committed =>
      obtain ⟨hmem, rfl, rfl⟩ := Db.findIssue_some found
      obtain ⟨_, _, _, rfl⟩ := Db.updateIssue_ok committed
      have hcols : ∀ i : Issue, (IssuesService.place input.status rank g.now i).id = i.id ∧
          (IssuesService.place input.status rank g.now i).organizationId = i.organizationId ∧
          (IssuesService.place input.status rank g.now i).projectId = i.projectId :=
        fun _ => ⟨rfl, rfl, rfl⟩
      exact hwrite (h.rewriteIssue _ hcols)
        (.rewriteIssue h.issueIds hmem fun i => ⟨(hcols i).1, (hcols i).2.1⟩)
  | removeIssue found committed =>
      obtain ⟨hmem, rfl, rfl⟩ := Db.findIssue_some found
      obtain rfl := Db.deleteIssue_ok committed
      exact hwrite (h.dropIssue _) (.dropIssue h hmem)
  | @createProject input db committed team =>
      have hsound := h.createProject team committed
      obtain ⟨_, rfl, _⟩ := Db.createProject_ok committed
      exact hwrite hsound
        (.insertProject (ProjectsService.newProject organizationId input g) rfl _)
  | addMember found committed =>
      exact hwrite (h.upsertMembership committed) (.upsertMembership committed)
  | invite unknown committed =>
      refine hwrite ?_ (.upsertInvite committed)
      rcases Db.upsertInvite_ok committed with rfl | rfl
      · exact h.congr rfl
      · exact h.congr rfl
  | updateMemberRole found notOwner =>
      obtain ⟨hmem, _, rfl⟩ := Db.findMembership_some found
      exact hwrite (h.setRole _ _) (.setRoleById h.membershipIds hmem _)
  | removeMember found notOwner =>
      obtain ⟨hmem, _, rfl⟩ := Db.findMembership_some found
      exact hwrite (h.dropMembership _) (.dropMembership h.membershipIds hmem)
  | confirm found key committed =>
      have hsound := h.createAttachment found key committed
      obtain ⟨_, rfl, _⟩ := Db.createAttachment_ok committed
      obtain ⟨hmem, rfl, rfl⟩ := Db.findIssue_some found
      exact hwrite hsound (.insertAttachment h hmem rfl)
  | @removeAttachment storageUp issueId attachmentId issue a found attachment =>
      obtain ⟨hmem, hid, rfl⟩ := Db.findIssue_some found
      obtain ⟨ha, _, haissue⟩ := Db.findAttachment_some attachment
      rw [← hid] at haissue
      have hrows := RowsConfined.dropAttachment h hmem ha haissue
      cases storageUp with
      | false => exact hwrite (h.dropAttachment _) hrows
      | true => exact ⟨h.dropAttachment _, hrows, TenantEffect.deleteObject h hmem ha haissue⟩
  | createCheckout committed =>
      refine hwrite ?_ (.setCustomer committed)
      rw [Db.setCustomer_ok committed]
      exact h.congr rfl

theorem TenantWrite.effect (env : ApiEnv) (call : TenantWrite) (organizationId actorId : JsString)
    (g : Gen) {w : World} (h : TenantSound w.db) :
    TenantEffect organizationId w (call.exec env organizationId actorId g w) := by
  rcases call.exec_cases env organizationId actorId g w with hsame | ⟨w', hchange, hafter⟩
  · rw [hsame]
    exact .refl _ h
  · exact (hchange.effect h).after hafter

/-! ### Runs -/

/-- Every change keeps the database sound. -/
theorem ApiChange.sound {env : ApiEnv} {g : Gen} {w w' : World} {call : ApiCall}
    (hc : ApiChange env g w call w') (h : TenantSound w.db) : TenantSound w'.db := by
  cases hc with
  | register committed =>
      obtain ⟨_, rfl, _⟩ := Db.createUser_ok committed
      exact h.congr rfl
  | @registerOrg input device db db' name slug org tokens committed owned =>
      obtain ⟨_, rfl, _⟩ := Db.createUser_ok committed
      have hdb : TenantSound { w.db with users := w.db.users ++ [AuthService.newUser input g] } :=
        h.congr rfl
      exact (hdb.insertOrganization owned).congr rfl
  | login => exact h.congr rfl
  | refresh => exact h.congr rfl
  | logout => exact h.congr rfl
  | createOrg committed => exact h.insertOrganization committed
  | acceptInvite found pending addressee committed burnt =>
      obtain ⟨invites, rfl⟩ := Db.burnInvite_ok burnt
      exact (h.upsertMembership committed).congr rfl
  | tenant member allowed change => exact (change.effect h).sound
  | markRead user ids => exact h.congr rfl
  | markAllRead user => exact h.congr rfl
  | updatePrefs committed =>
      obtain ⟨users, rfl⟩ := Db.updatePrefs_ok committed
      exact h.congr rfl
  | webhook known customer committed =>
      rw [Db.reconcile_ok committed]
      exact h.congr rfl
  | upload url => exact h
  | work queued => exact h.congr rfl

theorem ApiCall.sound (env : ApiEnv) (g : Gen) (call : ApiCall) {w : World}
    (h : TenantSound w.db) : TenantSound (call.exec env g w).db := by
  rcases call.exec_cases env g w with hsame | ⟨w', organizationId, hchange, hafter⟩
  · rw [hsame]
    exact h
  · exact (hchange.sound h).after hafter

theorem tenantSound_of_run {env : ApiEnv} {w₀ w : World} {calls : List (ApiCall × Gen)}
    (h₀ : TenantSound w₀.db) (hrun : Run (ApiStep env) w₀ calls w) : TenantSound w.db := by
  refine hrun.invariant (P := fun w => TenantSound w.db) ?_ h₀
  intro w call w' h hstep
  rw [show w' = _ from hstep]
  exact call.1.sound env call.2 h

/-- **Tenant-scoped writes stay inside their tenant.**  Whatever calls were served before, from any
sound database on, a write on behalf of an organization leaves the rows of every other organization
and every object under another organization's prefix as they are. -/
theorem tenantWrite_confined {env : ApiEnv} {w₀ w : World} {calls : List (ApiCall × Gen)}
    (h₀ : TenantSound w₀.db) (hrun : Run (ApiStep env) w₀ calls w) (call : TenantWrite)
    (organizationId actorId : JsString) (g : Gen) :
    (∀ other, other ≠ organizationId →
      (call.exec env organizationId actorId g w).db.ownedBy other = w.db.ownedBy other) ∧
    ∀ o ∈ w.db.organizations, o.id ≠ organizationId →
      (call.exec env organizationId actorId g w).objects.filter (StoredObject.ownedBy o.id) =
        w.objects.filter (StoredObject.ownedBy o.id) := by
  have h := call.effect env organizationId actorId g (tenantSound_of_run h₀ hrun)
  exact ⟨h.rows, h.objects⟩

open TwoTenants in
/-- An admin of the second organization names an issue of the first. -/
theorem tenantWrite_confined_foreign_issue :
    ((TenantWrite.removeIssue issueId.val).exec env otherOrgId.val Demo.userId.val draw
        (labelled (js "bug"))).db.ownedBy Demo.orgId.val =
      (labelled (js "bug")).db.ownedBy Demo.orgId.val :=
  (tenantWrite_confined (seeded_sound (js "bug")) (labelled_run (js "bug"))
    (.removeIssue issueId.val) otherOrgId.val Demo.userId.val draw).1 Demo.orgId.val (by decide)

end PmSaas
