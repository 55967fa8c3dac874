import PmSaas.Api.Separation

/-!
# Writing in the view of a tenant

Every Prisma write a service makes on behalf of an organization can be made in `Db.tenantView`, the
part of the database the organization sees: it goes through there exactly when it goes through in
the whole database, answers the same, and leaves the view of what the other one leaves
(`viewed`).  What lies outside the view matters only through the unique columns, where it is a
matter of fresh ids, and through the ids of labels and the customers of Stripe, which a request can
name.
-/

namespace PmSaas

open Table TransitionSystem

/-- The outcome of a write, seen by the organization. -/
def viewed {α : Type} (organizationId : JsString) (r : Except Exn (α × Db)) :
    Except Exn (α × Db) :=
  r.map fun r => (r.1, r.2.tenantView organizationId)

section Rows

variable {organizationId : JsString} {db : Db}

/-! ### Rows the organization owns -/

theorem Db.setMemberRole_view (userId tenantId : JsString) (role : Role) :
    (db.setMemberRole userId tenantId role).tenantView organizationId =
      (db.tenantView organizationId).setMemberRole userId tenantId role := by
  simp only [Db.tenantView, Db.ownedBy, Db.ownsIssue, Db.setMemberRole]
  rw [filter_updateWhere_comm]
  exact fun _ _ _ => rfl

theorem Db.setRoleById_view (id : JsString) (role : Role) :
    (db.setRoleById id role).tenantView organizationId =
      (db.tenantView organizationId).setRoleById id role := by
  simp only [Db.tenantView, Db.ownedBy, Db.ownsIssue, Db.setRoleById]
  rw [filter_updateWhere_comm]
  exact fun _ _ _ => rfl

theorem Db.insertMembership_view {row : Membership} (hrow : row.organizationId = organizationId) :
    (db.insertMembership row).tenantView organizationId =
      (db.tenantView organizationId).insertMembership row := by
  simp only [Db.tenantView, Db.ownedBy, Db.ownsIssue, Db.insertMembership]
  rw [filter_insert_of (by simpa using hrow)]

theorem Db.dropMembership_view (id : JsString) :
    (db.dropMembership id).tenantView organizationId =
      (db.tenantView organizationId).dropMembership id := by
  simp only [Db.tenantView, Db.ownedBy, Db.ownsIssue, Db.dropMembership]
  rw [filter_deleteWhere_comm]

theorem Db.renewInvite_view (row : Invite) :
    (db.renewInvite row).tenantView organizationId =
      (db.tenantView organizationId).renewInvite row := by
  simp only [Db.tenantView, Db.ownedBy, Db.ownsIssue, Db.renewInvite]
  rw [filter_updateWhere_comm]
  intro i _ hi
  simp only [Bool.and_eq_true, beq_iff_eq] at hi
  simp only [hi.1]

theorem Db.insertInvite_view {row : Invite} (hrow : row.organizationId = organizationId) :
    (db.insertInvite row).tenantView organizationId =
      (db.tenantView organizationId).insertInvite row := by
  simp only [Db.tenantView, Db.ownedBy, Db.ownsIssue, Db.insertInvite]
  rw [filter_insert_of (by simpa using hrow)]

theorem Db.insertProject_view {row : Project} (hrow : row.organizationId = organizationId) :
    (db.insertProject row).tenantView organizationId =
      (db.tenantView organizationId).insertProject row := by
  simp only [Db.tenantView, Db.ownedBy, Db.ownsIssue, Db.insertProject]
  rw [filter_insert_of (by simpa using hrow)]

theorem Db.bumpProject_view (id : JsString) (now : Date) :
    (db.bumpProject id now).tenantView organizationId =
      (db.tenantView organizationId).bumpProject id now := by
  simp only [Db.tenantView, Db.ownedBy, Db.ownsIssue, Db.bumpProject]
  rw [filter_updateWhere_comm]
  exact fun _ _ _ => rfl

theorem Db.rewriteSubscription_view {p : Subscription → Bool} {f : Subscription → Subscription}
    (hf : ∀ s, (f s).organizationId = s.organizationId) :
    (db.rewriteSubscription p f).tenantView organizationId =
      (db.tenantView organizationId).rewriteSubscription p f := by
  simp only [Db.tenantView, Db.ownedBy, Db.ownsIssue, Db.rewriteSubscription]
  rw [filter_updateWhere_comm fun s _ _ => by rw [hf s]]

theorem Db.insertNotification_view {row : Notification}
    (hrow : row.organizationId = organizationId) :
    (db.insertNotification row).tenantView organizationId =
      (db.tenantView organizationId).insertNotification row := by
  simp only [Db.tenantView, Db.ownedBy, Db.ownsIssue, Db.insertNotification]
  rw [filter_insert_of (by simpa using hrow)]

theorem Db.rewriteNotifications_view (p : Notification → Bool) (now : Date) :
    (db.rewriteNotifications p now).tenantView organizationId =
      (db.tenantView organizationId).rewriteNotifications p now := by
  simp only [Db.tenantView, Db.ownedBy, Db.ownsIssue, Db.rewriteNotifications]
  rw [filter_updateWhere_comm]
  exact fun _ _ _ => rfl

/-! ### Issues and what hangs on them -/

theorem Db.rewriteIssue_view (issueId : JsString) {f : Issue → Issue}
    (hf : ∀ i, (f i).id = i.id ∧ (f i).organizationId = i.organizationId) :
    (db.rewriteIssue issueId f).tenantView organizationId =
      (db.tenantView organizationId).rewriteIssue issueId f := by
  have howns : ∀ id, (db.rewriteIssue issueId f).ownsIssue organizationId id =
      db.ownsIssue organizationId id := by
    intro id
    refine any_updateWhere fun j _ _ => ?_
    rw [(hf j).1, (hf j).2]
  simp only [Db.tenantView, Db.ownedBy, howns]
  simp only [Db.rewriteIssue]
  rw [filter_updateWhere_comm fun i _ _ => by rw [(hf i).2]]

/-- A new issue owns its label links, and nothing hung on it before. -/
theorem Db.insertIssue_view (h : Attached db) (hsound : TenantSound db) {row : Issue}
    (hrow : row.organizationId = organizationId) (hfresh : ∀ i ∈ db.issues, i.id ≠ row.id)
    (labelIds : List JsString) :
    (db.insertIssue row labelIds).tenantView organizationId =
      (db.tenantView organizationId).insertIssue row labelIds := by
  have howns : ∀ id, (∃ i ∈ db.issues, i.id = id) →
      (db.insertIssue row labelIds).ownsIssue organizationId id =
        db.ownsIssue organizationId id := fun id h => Db.ownsIssue_insertIssue hfresh h
  have hself : (db.insertIssue row labelIds).ownsIssue organizationId row.id = true := by
    simp [Db.ownsIssue, Db.insertIssue, hrow]
  have hlinks : (db.issueLabels ++ labelIds.map fun l => (⟨row.id, l⟩ : IssueLabel)).filter
      (fun l => (db.insertIssue row labelIds).ownsIssue organizationId l.issueId) =
        db.issueLabels.filter (fun l => db.ownsIssue organizationId l.issueId) ++
          labelIds.map fun l => ⟨row.id, l⟩ := by
    have hnew : (labelIds.map fun l => (⟨row.id, l⟩ : IssueLabel)).filter
        (fun l => (db.insertIssue row labelIds).ownsIssue organizationId l.issueId) =
          labelIds.map fun l => ⟨row.id, l⟩ := by
      refine List.filter_eq_self.2 fun l hl => ?_
      obtain ⟨label, -, rfl⟩ := List.mem_map.1 hl
      exact hself
    rw [List.filter_append, hnew, List.filter_congr fun l hl => howns l.issueId (h.linked l hl)]
  have hcomments : db.comments.filter
      (fun c => (db.insertIssue row labelIds).ownsIssue organizationId c.issueId) =
        db.comments.filter fun c => db.ownsIssue organizationId c.issueId :=
    List.filter_congr fun c hc => howns c.issueId (h.commented c hc)
  have hmentions : ∀ m : Mention, (db.comments.any fun c => c.id == m.commentId &&
      (db.insertIssue row labelIds).ownsIssue organizationId c.issueId) =
        db.comments.any fun c => c.id == m.commentId && db.ownsIssue organizationId c.issueId := by
    intro m
    rw [Bool.eq_iff_iff, List.any_eq_true, List.any_eq_true]
    refine exists_congr fun c => and_congr_right fun hc => ?_
    rw [howns c.issueId (h.commented c hc)]
  have hattachments : db.attachments.filter
      (fun a => (db.insertIssue row labelIds).ownsIssue organizationId a.issueId) =
        db.attachments.filter fun a => db.ownsIssue organizationId a.issueId := by
    refine List.filter_congr fun a ha => howns a.issueId ?_
    obtain ⟨i, hi, hid, -⟩ := hsound.attachmentKeys a ha
    exact ⟨i, hi, hid⟩
  have hissues : (db.issues ++ [row]).filter (·.organizationId == organizationId) =
      db.issues.filter (·.organizationId == organizationId) ++ [row] :=
    filter_insert_of (by simpa using hrow)
  simp only [Db.tenantView, Db.ownedBy]
  congr 1
  exact List.filter_congr fun m _ => hmentions m

/-- The cascades stay in the view when the issue is the organization's. -/
theorem Db.dropIssue_view {issueId : JsString}
    (hown : db.ownsIssue organizationId issueId = true) :
    (db.dropIssue issueId).tenantView organizationId =
      (db.tenantView organizationId).dropIssue issueId := by
  have howns : ∀ id, (id == issueId) = false →
      (db.dropIssue issueId).ownsIssue organizationId id = db.ownsIssue organizationId id := by
    intro id hne
    refine any_deleteWhere fun j _ hid => ?_
    rw [beq_iff_eq.1 hid, Bool.and_eq_false_iff]
    left
    rw [beq_eq_false_iff_ne] at hne ⊢
    exact hne.symm
  have hrest : ∀ {α : Type} (key : α → JsString) (t : List α),
      (deleteWhere (fun x => key x == issueId) t).filter
          (fun x => (db.dropIssue issueId).ownsIssue organizationId (key x)) =
        deleteWhere (fun x => key x == issueId)
          (t.filter fun x => db.ownsIssue organizationId (key x)) := by
    intro α key t
    rw [← filter_deleteWhere_comm]
    exact List.filter_congr fun x hx => howns (key x) (mem_deleteWhere.1 hx).2
  have hissues : (deleteWhere (·.id == issueId) db.issues).filter
      (·.organizationId == organizationId) =
        deleteWhere (·.id == issueId) (db.issues.filter (·.organizationId == organizationId)) :=
    filter_deleteWhere_comm
  -- a comment of the issue is in the view, so a mention goes in the view when it goes in the table
  have hgone : ∀ m : Mention, (db.comments.any fun c =>
      c.id == m.commentId && c.issueId == issueId) =
        (db.comments.filter fun c => db.ownsIssue organizationId c.issueId).any fun c =>
          c.id == m.commentId && c.issueId == issueId := by
    intro m
    rw [List.any_filter, Bool.eq_iff_iff, List.any_eq_true, List.any_eq_true]
    refine exists_congr fun c => and_congr_right fun _ => ?_
    simp only [Bool.and_eq_true, beq_iff_eq]
    constructor
    · rintro ⟨hid, rfl⟩
      exact ⟨hown, hid, rfl⟩
    · rintro ⟨-, hid, hissue⟩
      exact ⟨hid, hissue⟩
  have hmentions : ∀ m : Mention, (db.comments.any fun c =>
      c.id == m.commentId && c.issueId == issueId) = false →
      ((deleteWhere (·.issueId == issueId) db.comments).any fun c => c.id == m.commentId &&
        (db.dropIssue issueId).ownsIssue organizationId c.issueId) =
          db.comments.any fun c => c.id == m.commentId && db.ownsIssue organizationId c.issueId := by
    intro m hm
    rw [Bool.eq_iff_iff, List.any_eq_true, List.any_eq_true]
    constructor
    · rintro ⟨c, hc, hcm⟩
      obtain ⟨hmem, hne⟩ := mem_deleteWhere.1 hc
      rw [howns _ hne] at hcm
      exact ⟨c, hmem, hcm⟩
    · rintro ⟨c, hc, hcm⟩
      have hne : (c.issueId == issueId) = false := by
        have hnot := List.any_eq_false.1 hm c hc
        simp only [Bool.and_eq_true, not_and] at hnot hcm
        simpa using hnot hcm.1
      refine ⟨c, mem_deleteWhere.2 ⟨hc, hne⟩, ?_⟩
      rw [howns _ hne]
      exact hcm
  have hlost : (deleteWhere (fun m : Mention => db.comments.any fun c =>
      c.id == m.commentId && c.issueId == issueId) db.mentions).filter (fun m =>
        (deleteWhere (·.issueId == issueId) db.comments).any fun c => c.id == m.commentId &&
          (db.dropIssue issueId).ownsIssue organizationId c.issueId) =
      deleteWhere (fun m : Mention =>
        (db.comments.filter fun c => db.ownsIssue organizationId c.issueId).any fun c =>
          c.id == m.commentId && c.issueId == issueId)
        (db.mentions.filter fun m => db.comments.any fun c =>
          c.id == m.commentId && db.ownsIssue organizationId c.issueId) := by
    simp only [← hgone]
    rw [← filter_deleteWhere_comm]
    exact List.filter_congr fun m hm => hmentions m (mem_deleteWhere.1 hm).2
  have hlinks := hrest IssueLabel.issueId db.issueLabels
  have hcomments := hrest Comment.issueId db.comments
  have hattachments := hrest Attachment.issueId db.attachments
  simp only [Db.tenantView, Db.ownedBy, Db.dropIssue]
  congr 1

theorem Db.insertAttachment_view {row : Attachment}
    (hown : db.ownsIssue organizationId row.issueId = true) :
    (db.insertAttachment row).tenantView organizationId =
      (db.tenantView organizationId).insertAttachment row := by
  have hrows : (db.attachments ++ [row]).filter (fun a => db.ownsIssue organizationId a.issueId) =
      (db.attachments.filter fun a => db.ownsIssue organizationId a.issueId) ++ [row] :=
    filter_insert_of hown
  show { db.tenantView organizationId with
    attachments := (db.attachments ++ [row]).filter
      fun a => db.ownsIssue organizationId a.issueId } = _
  rw [hrows]
  rfl

theorem Db.dropAttachment_view (id : JsString) :
    (db.dropAttachment id).tenantView organizationId =
      (db.tenantView organizationId).dropAttachment id := by
  have hrows : (deleteWhere (·.id == id) db.attachments).filter
      (fun a => db.ownsIssue organizationId a.issueId) =
        deleteWhere (·.id == id)
          (db.attachments.filter fun a => db.ownsIssue organizationId a.issueId) :=
    filter_deleteWhere_comm
  show { db.tenantView organizationId with
    attachments := (deleteWhere (fun a : Attachment => a.id == id) db.attachments).filter
      fun a => db.ownsIssue organizationId a.issueId } = _
  rw [hrows]
  rfl

end Rows

/-! ### The Prisma calls -/

section Calls

variable {organizationId : JsString} {db : Db}

theorem viewed_ok {α : Type} (a : α) (db : Db) :
    viewed organizationId (.ok (a, db)) = .ok (a, db.tenantView organizationId) := rfl

theorem Db.users_view : (db.tenantView organizationId).users = db.users := rfl

theorem Db.organizations_any_view :
    (db.tenantView organizationId).organizations.any (·.id == organizationId) =
      db.organizations.any (·.id == organizationId) :=
  any_view fun _ _ h => h

theorem Db.createAuditLog_viewed {entry : AuditEntry} {id : JsString} (now : Date)
    (hentry : entry.organizationId = organizationId) (hfresh : ∀ a ∈ db.auditLogs, a.id ≠ id) :
    viewed organizationId (db.createAuditLog entry id now) =
      (db.tenantView organizationId).createAuditLog entry id now := by
  have hid : db.auditLogs.any (·.id == id) = false :=
    List.any_eq_false.2 fun a ha => by simpa using hfresh a ha
  have hid' : (db.tenantView organizationId).auditLogs.any (·.id == id) = false :=
    List.any_eq_false.2 fun a ha => by simpa using hfresh a (List.mem_of_mem_filter ha)
  have hrow : ∀ log : AuditLog, log.organizationId = organizationId →
      ({ db with auditLogs := db.auditLogs ++ [log] }).tenantView organizationId =
        { db.tenantView organizationId with
          auditLogs := (db.tenantView organizationId).auditLogs ++ [log] } := by
    intro log hlog
    simp only [Db.tenantView, Db.ownedBy, Db.ownsIssue]
    rw [filter_insert_of (by simpa using hlog)]
  unfold Db.createAuditLog
  rw [hid, hid', hentry, Db.organizations_any_view, Db.users_view]
  simp only [Bool.false_eq_true, if_false]
  split_ifs
  · rfl
  · rfl
  · rw [viewed_ok, hrow _ rfl]
    rfl

theorem Db.upsertMembership_viewed (userId : JsString) (role : Role) {id : Cuid} (now : Date)
    (hfresh : ∀ m ∈ db.memberships, m.id ≠ id.val) :
    viewed organizationId (db.upsertMembership userId organizationId role id now) =
      (db.tenantView organizationId).upsertMembership userId organizationId role id now := by
  have hfind : (db.tenantView organizationId).findMembership userId organizationId =
      db.findMembership userId organizationId := by
    refine find?_view fun m _ hm => ?_
    simp only [Bool.and_eq_true] at hm
    exact hm.2
  have hid : db.memberships.any (·.id == id.val) = false :=
    List.any_eq_false.2 fun m hm => by simpa using hfresh m hm
  have hid' : (db.tenantView organizationId).memberships.any (·.id == id.val) = false :=
    List.any_eq_false.2 fun m hm => by simpa using hfresh m (List.mem_of_mem_filter hm)
  unfold Db.upsertMembership
  rw [hfind, hid, hid', Db.organizations_any_view, Db.users_view]
  cases db.findMembership userId organizationId with
  | some m => rw [viewed_ok, Db.setMemberRole_view]
  | none =>
      simp only [Bool.false_eq_true, if_false]
      split_ifs
      · rfl
      · rw [viewed_ok, @Db.insertMembership_view organizationId db _ rfl]

theorem Db.updateMembership_viewed {id : JsString} (role : Role)
    (hown : ∀ m ∈ db.memberships, m.id = id → m.organizationId = organizationId) :
    viewed organizationId (db.updateMembership id role) =
      (db.tenantView organizationId).updateMembership id role := by
  have hfind : (db.tenantView organizationId).memberships.find? (·.id == id) =
      db.memberships.find? (·.id == id) :=
    find?_view fun m hm hid => by simpa using hown m hm (beq_iff_eq.1 hid)
  unfold Db.updateMembership
  rw [hfind]
  cases db.memberships.find? (·.id == id) with
  | none => rfl
  | some m => rw [viewed_ok, Db.setRoleById_view]

theorem Db.deleteMembership_viewed {id : JsString}
    (hown : ∀ m ∈ db.memberships, m.id = id → m.organizationId = organizationId) :
    viewed organizationId (db.deleteMembership id) =
      (db.tenantView organizationId).deleteMembership id := by
  have hany : (db.tenantView organizationId).memberships.any (·.id == id) =
      db.memberships.any (·.id == id) :=
    any_view fun m hm hid => by simpa using hown m hm (beq_iff_eq.1 hid)
  unfold Db.deleteMembership
  rw [hany]
  split_ifs
  · rw [viewed_ok, Db.dropMembership_view]
  · rfl

theorem Db.upsertInvite_viewed {row : Invite} (hrow : row.organizationId = organizationId)
    (hfresh : ∀ i ∈ db.invites, i.id ≠ row.id ∧ i.tokenHash ≠ row.tokenHash) :
    viewed organizationId (db.upsertInvite row) =
      (db.tenantView organizationId).upsertInvite row := by
  have hfind : (db.tenantView organizationId).invites.find?
      (fun i => i.organizationId == row.organizationId && i.email == row.email) =
        db.invites.find? fun i => i.organizationId == row.organizationId && i.email == row.email := by
    refine find?_view fun i _ hi => ?_
    simp only [Bool.and_eq_true] at hi
    rw [← hrow]
    exact hi.1
  have hrenew : ∀ id, db.invites.any (fun i => i.tokenHash == row.tokenHash && i.id != id) =
      false := fun id => List.any_eq_false.2 fun i hi => by simp [(hfresh i hi).2]
  have hrenew' : ∀ id, (db.tenantView organizationId).invites.any
      (fun i => i.tokenHash == row.tokenHash && i.id != id) = false :=
    fun id => List.any_eq_false.2 fun i hi => by simp [(hfresh i (List.mem_of_mem_filter hi)).2]
  have hnew : db.invites.any (fun i => i.id == row.id || i.tokenHash == row.tokenHash) = false :=
    List.any_eq_false.2 fun i hi => by simp [hfresh i hi]
  have hnew' : (db.tenantView organizationId).invites.any
      (fun i => i.id == row.id || i.tokenHash == row.tokenHash) = false :=
    List.any_eq_false.2 fun i hi => by simp [hfresh i (List.mem_of_mem_filter hi)]
  have horg : (db.tenantView organizationId).organizations.any (·.id == row.organizationId) =
      db.organizations.any (·.id == row.organizationId) := by
    rw [hrow, Db.organizations_any_view]
  unfold Db.upsertInvite
  rw [hfind]
  cases db.invites.find? fun i => i.organizationId == row.organizationId && i.email == row.email with
  | some old =>
      simp only [hrenew, hrenew']
      rw [← Db.renewInvite_view]
      rfl
  | none =>
      simp only [hnew, hnew', horg, Bool.false_eq_true, if_false]
      split_ifs
      · rfl
      · rw [viewed_ok, Db.insertInvite_view hrow]

theorem Db.burnInvite_viewed {id : JsString} (now : Date)
    (hown : ∀ i ∈ db.invites, i.id = id → i.organizationId = organizationId) :
    viewed organizationId (db.burnInvite id now) =
      (db.tenantView organizationId).burnInvite id now := by
  have hany : (db.tenantView organizationId).invites.any (·.id == id) =
      db.invites.any (·.id == id) :=
    any_view fun i hi hid => by simpa using hown i hi (beq_iff_eq.1 hid)
  have hrows : (updateWhere (·.id == id) (fun i : Invite => { i with acceptedAt := some now })
      db.invites).filter (·.organizationId == organizationId) =
        updateWhere (·.id == id) (fun i => { i with acceptedAt := some now })
          (db.invites.filter (·.organizationId == organizationId)) :=
    filter_updateWhere_comm fun _ _ _ => rfl
  unfold Db.burnInvite
  rw [hany]
  split_ifs
  · rw [viewed_ok]
    simp only [Db.tenantView, Db.ownedBy, Db.ownsIssue]
    rw [hrows]
  · rfl

theorem Db.createProject_viewed {row : Project} (hrow : row.organizationId = organizationId)
    (hfresh : ∀ p ∈ db.projects, p.id ≠ row.id)
    (hteam : ∀ id ∈ row.teamId, ∀ t ∈ db.teams, t.id = id → t.organizationId = organizationId) :
    viewed organizationId (db.createProject row) =
      (db.tenantView organizationId).createProject row := by
  have hunique : (db.tenantView organizationId).projects.any (fun p => p.id == row.id ||
      p.organizationId == row.organizationId && p.key == row.key) =
        db.projects.any fun p => p.id == row.id ||
          p.organizationId == row.organizationId && p.key == row.key := by
    refine any_view fun p hp hkey => ?_
    simp only [Bool.or_eq_true, Bool.and_eq_true, beq_iff_eq] at hkey
    rcases hkey with hid | hkey
    · exact absurd hid (hfresh p hp)
    · rw [beq_iff_eq, hkey.1, hrow]
  have horg : (db.tenantView organizationId).organizations.any (·.id == row.organizationId) =
      db.organizations.any (·.id == row.organizationId) := by
    rw [hrow, Db.organizations_any_view]
  have hteams : row.teamId.any (fun t => !(db.tenantView organizationId).teams.any (·.id == t)) =
      row.teamId.any fun t => !db.teams.any (·.id == t) := by
    cases hid : row.teamId with
    | none => rfl
    | some id =>
        have hany : (db.tenantView organizationId).teams.any (·.id == id) =
            db.teams.any (·.id == id) :=
          any_view fun t ht htid => by simpa using hteam id hid t ht (beq_iff_eq.1 htid)
        simp only [Option.any_some, hany]
  unfold Db.createProject
  rw [hunique, horg, hteams]
  split_ifs
  · rfl
  · rfl
  · rw [viewed_ok, Db.insertProject_view hrow]

theorem Db.updateIssue_viewed {issueId : JsString} (connect : Option JsString) {f : Issue → Issue}
    (hf : ∀ i, (f i).id = i.id ∧ (f i).organizationId = i.organizationId)
    (hown : ∀ i ∈ db.issues, i.id = issueId → i.organizationId = organizationId) :
    viewed organizationId (db.updateIssue issueId connect f) =
      (db.tenantView organizationId).updateIssue issueId connect f := by
  have hfind : (db.tenantView organizationId).issues.find? (·.id == issueId) =
      db.issues.find? (·.id == issueId) :=
    find?_view fun i hi hid => by simpa using hown i hi (beq_iff_eq.1 hid)
  unfold Db.updateIssue
  rw [hfind, Db.users_view]
  split_ifs
  · rfl
  · cases db.issues.find? (·.id == issueId) with
    | none => rfl
    | some i => rw [viewed_ok, Db.rewriteIssue_view issueId hf]

theorem Db.deleteIssue_viewed {issue : Issue} (hissue : issue ∈ db.issues)
    (horg : issue.organizationId = organizationId) :
    viewed organizationId (db.deleteIssue issue.id) =
      (db.tenantView organizationId).deleteIssue issue.id := by
  have hany : db.issues.any (·.id == issue.id) = true :=
    List.any_eq_true.2 ⟨issue, hissue, beq_self_eq_true _⟩
  have hany' : (db.tenantView organizationId).issues.any (·.id == issue.id) = true :=
    List.any_eq_true.2 ⟨issue, List.mem_filter.2 ⟨hissue, by simpa using horg⟩, beq_self_eq_true _⟩
  unfold Db.deleteIssue
  rw [if_pos hany, if_pos hany', viewed_ok, Db.dropIssue_view (Db.ownsIssue_of_mem hissue horg)]

/-- A new issue of a project of the organization, linked to labels of the organization. -/
theorem Db.createIssue_viewed (h : Attached db) (hsound : TenantSound db) {row : Issue}
    {labelIds : List JsString} (hrow : row.organizationId = organizationId) (hfresh : ∀ i ∈ db.issues, i.id ≠ row.id)
    (hproject : ∀ p ∈ db.projects, p.id = row.projectId → p.organizationId = organizationId)
    (hlabels : ∀ l ∈ labelIds, ∀ b ∈ db.labels, b.id = l → b.organizationId = organizationId) :
    viewed organizationId (db.createIssue row labelIds) =
      (db.tenantView organizationId).createIssue row labelIds := by
  have hid : db.issues.any (·.id == row.id) = false :=
    List.any_eq_false.2 fun i hi => by simpa using hfresh i hi
  have hid' : (db.tenantView organizationId).issues.any (·.id == row.id) = false :=
    List.any_eq_false.2 fun i hi => by simpa using hfresh i (List.mem_of_mem_filter hi)
  have hnumber : (db.tenantView organizationId).issues.any
      (fun i => i.projectId == row.projectId && i.number == row.number) =
        db.issues.any fun i => i.projectId == row.projectId && i.number == row.number := by
    refine any_view fun i hi hkey => ?_
    simp only [Bool.and_eq_true, beq_iff_eq] at hkey ⊢
    obtain ⟨p, hp, hpid, hporg⟩ := hsound.issueProjects i hi
    rw [← hporg]
    exact hproject p hp (hpid.trans hkey.1)
  have horg : (db.tenantView organizationId).organizations.any (·.id == row.organizationId) =
      db.organizations.any (·.id == row.organizationId) := by
    rw [hrow, Db.organizations_any_view]
  have hprojects : (db.tenantView organizationId).projects.any (·.id == row.projectId) =
      db.projects.any (·.id == row.projectId) :=
    any_view fun p hp hpid => by simpa using hproject p hp (beq_iff_eq.1 hpid)
  have hlinked : labelIds.any (fun l => !(db.tenantView organizationId).labels.any (·.id == l)) =
      labelIds.any fun l => !db.labels.any (·.id == l) := by
    rw [Bool.eq_iff_iff, List.any_eq_true, List.any_eq_true]
    refine exists_congr fun l => and_congr_right fun hl => ?_
    have hany : (db.tenantView organizationId).labels.any (·.id == l) =
        db.labels.any (·.id == l) :=
      any_view fun b hb hbl => by simpa using hlabels l hl b hb (beq_iff_eq.1 hbl)
    rw [hany]
  unfold Db.createIssue
  rw [hid, hid', hnumber, horg, hprojects, hlinked, Db.users_view]
  split_ifs
  · rfl
  · rfl
  · rw [viewed_ok, Db.insertIssue_view h hsound hrow hfresh]

theorem Db.createIssueTx_viewed (h : Attached db) (hsound : TenantSound db) {project : Project}
    (hproject : project ∈ db.projects) (horg : project.organizationId = organizationId)
    (actorId : JsString) {input : CreateIssueInput} {g : Gen}
    (hfresh : ∀ i ∈ db.issues, i.id ≠ (g.cuid 0).val)
    (hlabels : ∀ l ∈ input.labelIds, ∀ b ∈ db.labels, b.id = l →
      b.organizationId = organizationId) :
    viewed organizationId (db.createIssueTx organizationId actorId project.id input g) =
      (db.tenantView organizationId).createIssueTx organizationId actorId project.id input g := by
  have hown : ∀ p ∈ db.projects, p.id = project.id → p.organizationId = organizationId :=
    fun p hp hid => by rw [hsound.projectIds.eq_of_key_eq hp hproject hid, horg]
  have hfind : (db.tenantView organizationId).projects.find? (·.id == project.id) =
      db.projects.find? (·.id == project.id) :=
    find?_view fun p hp hid => by simpa using hown p hp (beq_iff_eq.1 hid)
  have hlast : ((db.bumpProject project.id g.now).tenantView organizationId).lastInColumn
      project.id input.status =
        (db.bumpProject project.id g.now).lastInColumn project.id input.status := by
    have hrows : ((db.bumpProject project.id g.now).tenantView organizationId).columnRows
        project.id input.status =
          (db.bumpProject project.id g.now).columnRows project.id input.status := by
      refine filter_view fun i hi hcol => ?_
      simp only [Bool.and_eq_true, beq_iff_eq] at hcol ⊢
      obtain ⟨p, hp, hpid, hporg⟩ := hsound.issueProjects i hi
      rw [← hporg]
      exact hown p hp (hpid.trans hcol.1)
    unfold Db.lastInColumn
    rw [hrows]
  have hbump : ∀ p ∈ (db.bumpProject project.id g.now).projects, p.id = project.id →
      p.organizationId = organizationId := by
    intro p hp hid
    obtain ⟨q, hq, rfl⟩ := mem_updateWhere.1 hp
    split at hid
    · rename_i hqid
      rw [if_pos hqid]
      exact hown q hq hid
    · rename_i hqid
      rw [if_neg hqid]
      exact hown q hq hid
  have hattached : Attached (db.bumpProject project.id g.now) := h.congr rfl
  have hbumped := hsound.bumpProject project.id g.now
  unfold Db.createIssueTx Db.incrementIssueCounter
  rw [hfind]
  cases db.projects.find? (·.id == project.id) with
  | none => rfl
  | some p =>
      simp only [bind, Except.bind]
      rw [← Db.bumpProject_view, hlast]
      cases appendRank ((db.bumpProject project.id g.now).lastInColumn project.id input.status) with
      | error e => rfl
      | ok rank =>
          exact Db.createIssue_viewed hattached hbumped rfl hfresh hbump hlabels

theorem Db.createAttachment_viewed {row : Attachment}
    (hfresh : ∀ a ∈ db.attachments, a.id ≠ row.id)
    (hown : ∀ i ∈ db.issues, i.id = row.issueId → i.organizationId = organizationId) :
    viewed organizationId (db.createAttachment row) =
      (db.tenantView organizationId).createAttachment row := by
  have hid : db.attachments.any (·.id == row.id) = false :=
    List.any_eq_false.2 fun a ha => by simpa using hfresh a ha
  have hid' : (db.tenantView organizationId).attachments.any (·.id == row.id) = false :=
    List.any_eq_false.2 fun a ha => by simpa using hfresh a (List.mem_of_mem_filter ha)
  have hissue : (db.tenantView organizationId).issues.any (·.id == row.issueId) =
      db.issues.any (·.id == row.issueId) :=
    any_view fun i hi hid => by simpa using hown i hi (beq_iff_eq.1 hid)
  unfold Db.createAttachment
  rw [hid, hid', hissue, Db.users_view]
  simp only [Bool.false_eq_true, if_false]
  split_ifs with hmissing
  · rfl
  · have hexists : db.issues.any (·.id == row.issueId) = true := by
      simp only [Bool.or_eq_true, Bool.not_eq_true', not_or, Bool.not_eq_false] at hmissing
      exact hmissing.1
    obtain ⟨i, hi, hii⟩ := List.any_eq_true.1 hexists
    rw [beq_iff_eq] at hii
    rw [viewed_ok, Db.insertAttachment_view (hii ▸ Db.ownsIssue_of_mem hi (hown i hi hii))]

theorem Db.deleteAttachment_viewed {a : Attachment} (ha : a ∈ db.attachments)
    (hown : db.ownsIssue organizationId a.issueId = true) :
    viewed organizationId (db.deleteAttachment a.id) =
      (db.tenantView organizationId).deleteAttachment a.id := by
  have hany : db.attachments.any (·.id == a.id) = true :=
    List.any_eq_true.2 ⟨a, ha, beq_self_eq_true _⟩
  have hany' : (db.tenantView organizationId).attachments.any (·.id == a.id) = true :=
    List.any_eq_true.2 ⟨a, List.mem_filter.2 ⟨ha, hown⟩, beq_self_eq_true _⟩
  unfold Db.deleteAttachment
  rw [if_pos hany, if_pos hany', viewed_ok, Db.dropAttachment_view]

/-- The customer is not the customer of another organization. -/
theorem Db.setCustomer_viewed {customerId : JsString} (now : Date)
    (hown : ∀ s ∈ db.subscriptions, s.stripeCustomerId = some customerId →
      s.organizationId = organizationId) :
    viewed organizationId (db.setCustomer organizationId customerId now) =
      (db.tenantView organizationId).setCustomer organizationId customerId now := by
  have hany : (db.tenantView organizationId).subscriptions.any
      (·.organizationId == organizationId) =
        db.subscriptions.any (·.organizationId == organizationId) := any_view fun _ _ h => h
  have hheld : ∀ t : List Subscription, (∀ s ∈ t, s.stripeCustomerId = some customerId →
      s.organizationId = organizationId) → (t.any fun s =>
        s.stripeCustomerId == some customerId && s.organizationId != organizationId) = false := by
    intro t ht
    refine List.any_eq_false.2 fun s hs => ?_
    simp only [Bool.and_eq_true, beq_iff_eq, bne_iff_ne, not_and, not_not]
    exact ht s hs
  unfold Db.setCustomer
  rw [hany, hheld _ hown, hheld (db.tenantView organizationId).subscriptions
    fun s hs => hown s (List.mem_of_mem_filter hs)]
  simp only [Bool.false_eq_true, if_false]
  split_ifs
  · rfl
  · rw [viewed_ok, Db.rewriteSubscription_view]
    exact fun _ => rfl

/-- The Stripe subscription is not held by another organization. -/
theorem Db.reconcile_viewed {id : JsString} {r : Reconciled} (now : Date)
    (hid : ∀ s ∈ db.subscriptions, s.id = id → s.organizationId = organizationId)
    (hown : ∀ s ∈ db.subscriptions, s.stripeSubscriptionId = some r.stripeSubscriptionId →
      s.organizationId = organizationId) :
    viewed organizationId (db.reconcile id r now) =
      (db.tenantView organizationId).reconcile id r now := by
  have hany : (db.tenantView organizationId).subscriptions.any (·.id == id) =
      db.subscriptions.any (·.id == id) :=
    any_view fun s hs hsid => by simpa using hid s hs (beq_iff_eq.1 hsid)
  have hheld : (db.tenantView organizationId).subscriptions.any (fun s =>
      s.stripeSubscriptionId == some r.stripeSubscriptionId && s.id != id) =
        db.subscriptions.any fun s =>
          s.stripeSubscriptionId == some r.stripeSubscriptionId && s.id != id := by
    refine any_view fun s hs hkey => ?_
    simp only [Bool.and_eq_true, beq_iff_eq] at hkey ⊢
    exact hown s hs hkey.1
  unfold Db.reconcile
  rw [hany, hheld]
  split_ifs
  · rfl
  · rfl
  · rw [viewed_ok, Db.rewriteSubscription_view]
    exact fun _ => rfl

theorem Db.createNotification_viewed {row : Notification}
    (hrow : row.organizationId = organizationId) (hfresh : ∀ n ∈ db.notifications, n.id ≠ row.id) :
    viewed organizationId (db.createNotification row) =
      (db.tenantView organizationId).createNotification row := by
  have hid : db.notifications.any (·.id == row.id) = false :=
    List.any_eq_false.2 fun n hn => by simpa using hfresh n hn
  have hid' : (db.tenantView organizationId).notifications.any (·.id == row.id) = false :=
    List.any_eq_false.2 fun n hn => by simpa using hfresh n (List.mem_of_mem_filter hn)
  have horg : (db.tenantView organizationId).organizations.any (·.id == row.organizationId) =
      db.organizations.any (·.id == row.organizationId) := by
    rw [hrow, Db.organizations_any_view]
  unfold Db.createNotification
  rw [hid, hid', horg, Db.users_view]
  simp only [Bool.false_eq_true, if_false]
  split_ifs
  · rfl
  · rw [viewed_ok, Db.insertNotification_view hrow]

end Calls

end PmSaas
