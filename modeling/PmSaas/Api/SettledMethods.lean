import PmSaas.Api.AuditedMethods
import PmSaas.Api.Permalinks
import PmSaas.Api.Refusals

/-!
# How each method fails

What the checks before a write have left open decides which of the constraints of the schema can
still stop it.  Every method but two settles in the sense of `Service.Settles`; `rotate` may revoke
a family on the way to its 401 (`TokenService.rotate_settles`), and a checkout keeps the customer it
has created.
-/

namespace PmSaas

open Table TransitionSystem

/-! ### What a request starts from -/

/-- What the tables of an installation satisfy. -/
structure Db.InOrder (db : Db) : Prop where
  tenants : TenantSound db
  refs : Referential db
  addressed : Addressed db
  invited : ∀ i ∈ db.invites, ∃ o ∈ db.organizations, o.id = i.organizationId

/-- No row has an id or a token that `g` draws, users and subscriptions included. -/
structure Gen.New (g : Gen) (db : Db) : Prop extends g.Fresh db, g.Unused db where
  users : ∀ k, ∀ u ∈ db.users, u.id ≠ (g.cuid k).val
  subscriptions : ∀ k, ∀ s ∈ db.subscriptions, s.id ≠ (g.cuid k).val

/-- The request of a member that passed the guards. -/
structure Db.Serves (organizationId actorId : JsString) (db : Db) : Prop where
  organization : ∃ o ∈ db.organizations, o.id = organizationId
  actor : ∃ u ∈ db.users, u.id = actorId

/-- The assignee and the labels of a new issue exist, and no label is named twice. -/
structure CreateIssueInput.Resolves (input : CreateIssueInput) (db : Db) : Prop where
  distinct : input.labelIds.Nodup
  labels : ∀ l ∈ input.labelIds, ∃ b ∈ db.labels, b.id = l
  assignee : ∀ a ∈ input.assigneeId, ∃ u ∈ db.users, u.id = a

/-! ### The Prisma calls -/

section Prisma

variable {organizationId actorId : JsString} {g : Gen} {db : Db}

theorem appendRank_returns (last : Option Issue) : ∃ rank, appendRank last = .ok rank := by
  cases last with
  | none => exact ⟨_, rfl⟩
  | some last =>
      refine ⟨rankMid (some last.rank) none, ?_⟩
      rw [appendRank, rankBetween_ok fun _ _ _ hy => by cases hy]
      rfl

/-- The transaction of `create` comes down to its insert. -/
theorem Db.createIssueTx_insert {project : Project} (h : db.InOrder)
    (hproject : project ∈ db.projects) (organizationId actorId : JsString) (input : CreateIssueInput) (g : Gen) :
    ∃ rank, db.createIssueTx organizationId actorId project.id input g =
      (db.bumpProject project.id g.now).createIssue
        (newIssue organizationId actorId project.id input g (project.issueCounter + 1) rank)
        input.labelIds := by
  obtain ⟨rank, hrank⟩ := appendRank_returns (db.lastInColumn project.id input.status)
  have hfind : db.projects.find? (·.id == project.id) = some project :=
    h.tenants.projectIds.find?_iff.2 ⟨hproject, rfl⟩
  have hlast : (db.bumpProject project.id g.now).lastInColumn project.id input.status =
      db.lastInColumn project.id input.status := rfl
  refine ⟨rank, ?_⟩
  simp only [createIssueTx, incrementIssueCounter, hfind, bind, Except.bind, hlast, hrank]

theorem Db.createIssueTx_error {project : Project} {input : CreateIssueInput} (h : db.InOrder)
    (hproject : project ∈ db.projects) (hinput : ¬input.Resolves db) :
    ∃ code, db.createIssueTx organizationId actorId project.id input g =
      .error (.prisma code) := by
  obtain ⟨rank, htx⟩ := Db.createIssueTx_insert h hproject organizationId actorId input g
  rw [htx, createIssue]
  split
  · exact ⟨_, rfl⟩
  · rename_i huniq
    split
    · exact ⟨_, rfl⟩
    · rename_i hfk
      refine absurd ⟨?_, ?_, ?_⟩ hinput
      · simp only [Bool.or_eq_true, not_or] at huniq
        simpa using huniq.2
      · simp only [Bool.or_eq_true, not_or] at hfk
        have hlabels : ¬(input.labelIds.any fun l => !db.labels.any (·.id == l)) = true := hfk.2
        simpa using hlabels
      · simp only [Bool.or_eq_true, not_or] at hfk
        have hassignee : ¬(input.assigneeId.any fun a => !db.users.any (·.id == a)) = true :=
          hfk.1.2
        intro a ha
        rw [Option.mem_def.1 ha] at hassignee
        simpa using hassignee

theorem Db.createIssueTx_returns {project : Project} {input : CreateIssueInput} (h : db.InOrder)
    (hnew : g.New db) (hserves : db.Serves organizationId actorId)
    (hproject : project ∈ db.projects) (hinput : input.Resolves db) :
    ∃ issue db', db.createIssueTx organizationId actorId project.id input g = .ok (issue, db') := by
  obtain ⟨rank, htx⟩ := Db.createIssueTx_insert h hproject organizationId actorId input g
  have hid : ∀ i ∈ db.issues, i.id ≠ (g.cuid 0).val := hnew.issues 0
  have hnumber : ∀ i ∈ db.issues, i.projectId = project.id →
      i.number ≠ project.issueCounter + 1 := by
    intro i hi hin heq
    obtain ⟨p, hp, hpid, hle⟩ := h.addressed.counted i hi
    rw [h.tenants.projectIds.eq_of_key_eq hp hproject (hpid.trans hin), heq] at hle
    exact absurd hle (Nat.not_succ_le_self _)
  have hkept : ∃ p ∈ (db.bumpProject project.id g.now).projects, p.id = project.id := by
    refine ⟨_, mem_updateWhere.2 ⟨project, hproject, rfl⟩, ?_⟩
    split <;> rfl
  obtain ⟨p, hp, hpid⟩ := hkept
  obtain ⟨o, ho, hoid⟩ := hserves.organization
  obtain ⟨u, hu, huid⟩ := hserves.actor
  rw [htx, createIssue, if_neg, if_neg]
  · exact ⟨_, _, rfl⟩
  · simp only [Bool.or_eq_true, not_or, Bool.not_eq_true', Bool.not_eq_false]
    refine ⟨⟨⟨⟨List.any_eq_true.2 ⟨o, ho, beq_iff_eq.2 hoid⟩,
      List.any_eq_true.2 ⟨p, hp, beq_iff_eq.2 hpid⟩⟩,
      List.any_eq_true.2 ⟨u, hu, beq_iff_eq.2 huid⟩⟩, ?_⟩, ?_⟩
    · show ¬(input.assigneeId.any fun a => !db.users.any (·.id == a)) = true
      cases ha : input.assigneeId with
      | none => simp
      | some a => simpa using hinput.assignee a ha
    · show ¬(input.labelIds.any fun l => !db.labels.any (·.id == l)) = true
      simpa using hinput.labels
  · simp only [Bool.or_eq_true, not_or, List.any_eq_true, not_exists, not_and, Bool.and_eq_true,
      beq_iff_eq]
    refine ⟨⟨hid, fun i hi hin => hnumber i hi hin⟩, ?_⟩
    simpa using hinput.distinct

theorem Db.updateIssue_settles {issueId : JsString} {i : Issue} (connect : Option JsString)
    (f : Issue → Issue) (hi : i ∈ db.issues) (hid : i.id = issueId) :
    ((∃ u ∈ connect, ∀ v ∈ db.users, v.id ≠ u) →
      ∃ code, db.updateIssue issueId connect f = .error (.prisma code)) ∧
    (¬(∃ u ∈ connect, ∀ v ∈ db.users, v.id ≠ u) →
      ∃ row db', db.updateIssue issueId connect f = .ok (row, db')) := by
  have hfind : ∃ j, db.issues.find? (·.id == issueId) = some j :=
    Option.isSome_iff_exists.1 (List.find?_isSome.2 ⟨i, hi, beq_iff_eq.2 hid⟩)
  obtain ⟨j, hj⟩ := hfind
  have hunknown : (connect.any fun u => !db.users.any (·.id == u)) = true ↔
      ∃ u ∈ connect, ∀ v ∈ db.users, v.id ≠ u := by
    cases connect <;> simp
  refine ⟨fun h => ?_, fun h => ?_⟩
  · rw [updateIssue, if_pos (hunknown.2 h)]
    exact ⟨_, rfl⟩
  · rw [updateIssue, if_neg fun hany => h (hunknown.1 hany), hj]
    exact ⟨_, _, rfl⟩

theorem Db.createProject_returns {input : CreateProjectInput} (hnew : g.New db)
    (horg : ∃ o ∈ db.organizations, o.id = organizationId)
    (hclash : db.findProject organizationId input.key = none)
    (hteam : ∀ id ∈ truthy input.teamId, ∃ t, db.findTeam organizationId id = some t)
    (hne : input.teamId ≠ some []) :
    ∃ p db', db.createProject (ProjectsService.newProject organizationId input g) =
      .ok (p, db') := by
  obtain ⟨o, ho, hoid⟩ := horg
  rw [createProject, if_neg, if_neg]
  · exact ⟨_, _, rfl⟩
  · simp only [Bool.or_eq_true, not_or, Bool.not_eq_true', Bool.not_eq_false]
    refine ⟨List.any_eq_true.2 ⟨o, ho, beq_iff_eq.2 hoid⟩, ?_⟩
    show ¬(input.teamId.any fun t => !db.teams.any (·.id == t)) = true
    cases hid : input.teamId with
    | none => simp
    | some id =>
        have htruthy : truthy input.teamId = some id := by
          rw [hid, truthy]
          simpa using fun hnil : id = [] => hne (hid.trans (congrArg some hnil))
        obtain ⟨t, ht⟩ := hteam id htruthy
        obtain ⟨hmem, htid, -⟩ := Db.findTeam_some ht
        simpa using ⟨t, hmem, htid⟩
  · simp only [List.any_eq_true, Bool.or_eq_true, Bool.and_eq_true, beq_iff_eq, not_exists,
      not_and, not_or]
    intro p hp
    refine ⟨hnew.projects 0 p hp, fun horg hkey => ?_⟩
    have hnone := List.find?_eq_none.1 hclash p hp
    simp only [Bool.and_eq_true, beq_iff_eq] at hnone
    exact hnone ⟨horg, hkey⟩

theorem Db.upsertMembership_returns {userId : JsString} (hnew : g.New db)
    (huser : ∃ u ∈ db.users, u.id = userId) (horg : ∃ o ∈ db.organizations, o.id = organizationId)
    (role : Role) (now : Date) :
    ∃ m db', db.upsertMembership userId organizationId role (g.cuid 0) now = .ok (m, db') := by
  rw [upsertMembership]
  cases db.findMembership userId organizationId with
  | some m => exact ⟨_, _, rfl⟩
  | none =>
      dsimp only
      rw [if_neg, if_neg]
      · exact ⟨_, _, rfl⟩
      · simpa using ⟨huser, horg⟩
      · simpa using hnew.memberships 0

theorem Db.upsertInvite_returns (hnew : g.New db)
    (horg : ∃ o ∈ db.organizations, o.id = organizationId) (actorId email : JsString)
    (role : GrantableRole) :
    ∃ invite db', db.upsertInvite (OrgsService.newInvite organizationId actorId email role g) =
      .ok (invite, db') := by
  have hhash : ∀ i ∈ db.invites,
      i.tokenHash ≠ (OrgsService.newInvite organizationId actorId email role g).tokenHash :=
    fun i hi => (hnew.invites 0 i hi).2
  rw [upsertInvite]
  split
  · rw [if_neg]
    · exact ⟨_, _, rfl⟩
    · simp only [List.any_eq_true, Bool.and_eq_true, beq_iff_eq, not_exists, not_and]
      exact fun i hi heq => absurd heq (hhash i hi)
  · rw [if_neg, if_neg]
    · exact ⟨_, _, rfl⟩
    · simpa [OrgsService.newInvite] using horg
    · simp only [List.any_eq_true, Bool.or_eq_true, beq_iff_eq, not_exists, not_and, not_or]
      exact fun i hi => ⟨(hnew.invites 0 i hi).1, hhash i hi⟩

theorem Db.createOrganization_returns {userId slug : JsString} (name : JsString)
    (horgs : ∀ o ∈ db.organizations, o.id ≠ (g.cuid 0).val)
    (hmembers : ∀ m ∈ db.memberships, m.id ≠ (g.cuid 1).val)
    (hsubs : ∀ s ∈ db.subscriptions, s.id ≠ (g.cuid 2).val) (hfree : db.slugTaken slug = false)
    (huser : ∃ u ∈ db.users, u.id = userId) :
    ∃ org db', db.createOrganization (newOrganization userId name slug g) = .ok (org, db') := by
  have hslugs : ∀ o ∈ db.organizations, o.slug ≠ slug := by
    simpa [slugTaken, List.any_eq_false] using hfree
  rw [createOrganization, if_neg, if_neg]
  · exact ⟨_, _, rfl⟩
  · simpa [newOrganization] using huser
  · simp only [Bool.or_eq_true, not_or, List.any_eq_true, not_exists, not_and, beq_iff_eq]
    exact ⟨⟨fun o ho => ⟨horgs o ho, hslugs o ho⟩, hmembers⟩, hsubs⟩

end Prisma

/-! ### The methods of the tenant's routes -/

section Methods

variable {g : Gen} {organizationId actorId : JsString} {w : World}

namespace IssuesService

theorem create_settles (h : w.db.InOrder) (hnew : g.New w.db)
    (hserves : w.db.Serves organizationId actorId) (projectKey : JsString)
    (input : CreateIssueInput) :
    (create organizationId actorId projectKey input g).Settles
      ((w.db.findProject organizationId projectKey).isSome ∧ ¬input.Resolves w.db) w := by
  cases hp : w.db.findProject organizationId projectKey with
  | none =>
      refine .inr ⟨.notFound (js "Project not found"), ?_, by simp⟩
      rw [create, resolveProject_bind, hp]
  | some project =>
      have hproject := (Db.findProject_some hp).1
      refine .of_eq (by rw [create, resolveProject_bind, hp]) (.exec ?_ ?_)
      · rintro ⟨-, hinput⟩
        exact Db.createIssueTx_error h hproject hinput
      · intro hsound
        have hinput : input.Resolves w.db := by simpa using hsound
        obtain ⟨issue, db, htx⟩ := Db.createIssueTx_returns h hnew hserves hproject hinput
        refine ⟨issue, db, htx, .record ?_⟩
        rw [Service.Returns, Service.emit_bind]
        cases truthy issue.assigneeId with
        | none => exact ⟨_, rfl⟩
        | some recipientId => exact ⟨_, rfl⟩

theorem update_settles (issueId : JsString) (input : UpdateIssueInput) :
    (update organizationId actorId issueId input g).Settles
      ((w.db.findIssue organizationId issueId).isSome ∧
        ∃ u ∈ connectedUser input, ∀ v ∈ w.db.users, v.id ≠ u) w := by
  refine .query (.orThrow (by simp) (fun hnone hfaulty => ?_) fun before hb => ?_)
  · rw [hnone] at hfaulty
    cases hfaulty.1
  · obtain ⟨hmem, hid, -⟩ := Db.findIssue_some hb
    obtain ⟨hunknown, hknown⟩ :=
      Db.updateIssue_settles (connectedUser input) (input.apply g.now) hmem hid
    refine .exec (fun hfaulty => hunknown hfaulty.2) fun hsound => ?_
    obtain ⟨row, db, hu⟩ := hknown fun hu => hsound ⟨by rw [hb]; rfl, hu⟩
    refine ⟨row, db, hu, .record ?_⟩
    rw [Service.Returns, Service.emit_bind]
    cases connectedUser input with
    | none => exact ⟨_, rfl⟩
    | some recipientId =>
        dsimp only
        split
        · exact ⟨_, rfl⟩
        · exact ⟨_, rfl⟩

/-- `move` turns an inverted gap into a 400. -/
theorem dropRank_badRequest {above below : Option JsString} {e : Exn}
    (h : dropRank above below = .error e) : ¬e.Violation := by
  rw [dropRank] at h
  cases hr : rankBetween above below with
  | ok rank =>
      rw [hr] at h
      cases h
  | error e' =>
      rw [hr] at h
      cases h
      simp

theorem move_settles (issueId : JsString) (input : MoveIssueInput) :
    (move organizationId actorId issueId input g).Settles False w := by
  refine .query (.orThrow (by simp) (fun _ => id) fun issue hissue => .query (.query (.compute
    (fun e he => ⟨dropRank_badRequest he, id⟩) fun rank hrank => .exec False.elim fun _ => ?_)))
  obtain ⟨hmem, -, -⟩ := Db.findIssue_some hissue
  obtain ⟨row, db, hu⟩ := (Db.updateIssue_settles none (place input.status rank g.now) hmem rfl).2
    (by simp)
  exact ⟨row, db, hu, .record ⟨_, rfl⟩⟩

theorem remove_settles (issueId : JsString) :
    (remove organizationId actorId issueId g).Settles False w := by
  refine .query (.orThrow (by simp) (fun _ => id) fun issue hissue => .exec False.elim fun _ => ?_)
  obtain ⟨hmem, -, -⟩ := Db.findIssue_some hissue
  have hdel : w.db.deleteIssue issue.id = .ok ((), w.db.dropIssue issue.id) :=
    if_pos (List.any_eq_true.2 ⟨issue, hmem, by simp⟩)
  exact ⟨(), _, hdel, .record ⟨_, rfl⟩⟩

end IssuesService

/-- `createProjectSchema` takes no empty team id. -/
theorem ProjectsService.create_settles (hnew : g.New w.db)
    (hserves : w.db.Serves organizationId actorId) {input : CreateProjectInput}
    (hteamId : input.teamId ≠ some []) :
    (create organizationId actorId input g).Settles False w := by
  refine .query (.throwIf (by simp) (fun _ => id) fun hclash => ?_)
  rw [Option.isSome_eq_false_iff, Option.isNone_iff_eq_none] at hclash
  by_cases hteam : ((truthy input.teamId).all fun id =>
      (w.db.findTeam organizationId id).isSome) = true
  · have hfound : ∀ id ∈ truthy input.teamId, ∃ t, w.db.findTeam organizationId id = some t := by
      intro id hid
      rw [Option.mem_def.1 hid] at hteam
      exact Option.isSome_iff_exists.1 (by simpa using hteam)
    obtain ⟨p, db, hc⟩ :=
      Db.createProject_returns hnew hserves.organization hclash hfound hteamId
    exact .of_eq (by rw [checkTeam_bind, if_pos hteam])
      (.exec False.elim fun _ => ⟨p, db, hc, .record ⟨_, rfl⟩⟩)
  · exact .refuse (by rw [checkTeam_bind, if_neg hteam]) (by simp)

namespace OrgsService

theorem addMember_settles (hnew : g.New w.db) (hserves : w.db.Serves organizationId actorId)
    (env : Env) (email : JsString) (role : GrantableRole) :
    (addMember env organizationId actorId email role g).Settles False w := by
  refine .query ?_
  cases hu : w.db.findUserByEmail (JsString.toLowerCase email) with
  | some user =>
      have huser := List.mem_of_find?_eq_some hu
      refine .exec False.elim fun _ => ?_
      obtain ⟨m, db, hm⟩ := Db.upsertMembership_returns hnew ⟨user, huser, rfl⟩
        hserves.organization role.val g.now
      exact ⟨m, db, hm, .record ⟨_, rfl⟩⟩
  | none =>
      refine .exec False.elim fun _ => ?_
      obtain ⟨invite, db, hi⟩ := Db.upsertInvite_returns hnew hserves.organization actorId
        (JsString.toLowerCase email) role
      have horgs : db.organizations = w.db.organizations := by
        rcases Db.upsertInvite_ok hi with rfl | rfl <;> rfl
      obtain ⟨o, ho⟩ : ∃ o, db.organizations.find? (·.id == organizationId) = some o := by
        rw [horgs, ← Option.isSome_iff_exists]
        simpa [List.find?_isSome] using hserves.organization
      refine ⟨invite, db, hi, ?_⟩
      rw [Service.Returns, Service.query_bind, Service.orThrow_bind]
      simp only [ho]
      rw [Service.sendMail_bind]
      exact Service.Returns.record ⟨_, rfl⟩

theorem updateMemberRole_settles (targetUserId : JsString) (role : GrantableRole) :
    (updateMemberRole organizationId actorId targetUserId role g).Settles False w := by
  refine .query (.orThrow (by simp) (fun _ => id) fun m hm => .throwIf (by simp) (fun _ => id)
    fun _ => .exec False.elim fun _ => ?_)
  obtain ⟨m', hm'⟩ : ∃ m', w.db.memberships.find? (·.id == m.id) = some m' :=
    Option.isSome_iff_exists.1 (List.find?_isSome.2 ⟨m, (Db.findMembership_some hm).1, by simp⟩)
  have hupdated : w.db.updateMembership m.id role.val =
      .ok ({ m' with role := role.val }, w.db.setRoleById m.id role.val) := by
    rw [Db.updateMembership, hm']
  exact ⟨_, _, hupdated, .record ⟨_, rfl⟩⟩

theorem removeMember_settles (targetUserId : JsString) :
    (removeMember organizationId actorId targetUserId g).Settles False w := by
  refine .query (.orThrow (by simp) (fun _ => id) fun m hm => .throwIf (by simp) (fun _ => id)
    fun _ => .exec False.elim fun _ => ?_)
  have hdel : w.db.deleteMembership m.id = .ok ((), w.db.dropMembership m.id) :=
    if_pos (List.any_eq_true.2 ⟨m, (Db.findMembership_some hm).1, by simp⟩)
  exact ⟨(), _, hdel, (), by rw [Service.record_apply]⟩

end OrgsService

namespace AttachmentsService

theorem resolveIssue_settles {β : Type} {issueId : JsString} {k : Issue → Service β}
    (h : ∀ issue, w.db.findIssue organizationId issueId = some issue → (k issue).Settles False w) :
    (resolveIssue organizationId issueId >>= k).Settles False w := by
  cases hi : w.db.findIssue organizationId issueId with
  | none => exact .refuse (by rw [resolveIssue_bind, hi]) (by simp)
  | some issue => exact .of_eq (by rw [resolveIssue_bind, hi]) (h issue hi)

theorem presign_settles (issueId : JsString) (input : PresignAttachmentInput) :
    (presign organizationId issueId input g).Settles False w :=
  resolveIssue_settles fun _ _ => .returns ⟨_, rfl⟩

theorem confirm_settles (hnew : g.New w.db) (hserves : w.db.Serves organizationId actorId)
    (issueId : JsString) (input : ConfirmAttachmentInput) :
    (confirm organizationId actorId issueId input g).Settles False w := by
  refine resolveIssue_settles fun issue hi => .throwIf (by simp) (fun _ => id) fun hkey =>
    .exec False.elim fun _ => ?_
  obtain ⟨hmem, hid, -⟩ := Db.findIssue_some hi
  have hcreated : w.db.createAttachment (newAttachment actorId issueId input g) =
      .ok (newAttachment actorId issueId input g,
        w.db.insertAttachment (newAttachment actorId issueId input g)) := by
    rw [Db.createAttachment, if_neg, if_neg]
    · simpa [newAttachment] using ⟨⟨issue, hmem, hid⟩, hserves.actor⟩
    · simpa [newAttachment] using hnew.attachments 0
  exact ⟨_, _, hcreated, .record ⟨_, rfl⟩⟩

theorem remove_settles (storageUp : Bool) (issueId attachmentId : JsString) :
    (remove storageUp organizationId actorId issueId attachmentId g).Settles False w := by
  refine resolveIssue_settles fun issue hi => .query (.orThrow (by simp) (fun _ => id) fun a ha =>
    .exec False.elim fun _ => ?_)
  have hdel : w.db.deleteAttachment a.id = .ok ((), w.db.dropAttachment a.id) :=
    if_pos (List.any_eq_true.2 ⟨a, (Db.findAttachment_some ha).1, by simp⟩)
  exact ⟨(), _, hdel, (), by rw [StorageService.delete_bind, Service.record_apply]⟩

end AttachmentsService

end Methods

/-! ### The other methods -/

section Calls

variable {g : Gen} {w : World}

namespace TokenService

theorem createRefresh_returns (env : Env) {user : AuthUser} (familyId : JsString)
    (device : DeviceInfo) (db : Db) (huser : ∃ u ∈ db.users, u.id = user.sub)
    (hnew : ∀ t ∈ db.refreshTokens, t.id ≠ (g.cuid 0).val ∧ t.tokenHash ≠ hash (g.random 1)) :
    ∃ db', createRefresh env g user familyId device db =
      (.done (.ok (some (issued env g user))), db') := by
  have hcreated : db.createRefreshToken (newToken env g user familyId device) =
      .ok ((), db.insertRefreshToken (newToken env g user familyId device)) := by
    rw [Db.createRefreshToken, if_neg, if_neg]
    · simpa [newToken] using huser
    · simpa [newToken, randomToken] using hnew
  rw [createRefresh, hcreated]
  exact ⟨_, rfl⟩

theorem rotate_settles (hnew : g.New w.db) (env : Env) (token : JsString) (device : DeviceInfo) :
    (rotate env token device g).Settles False w ∨
    ∃ familyId, Spent token g.now w.db familyId ∧ rotate env token device g w =
      (.error (.unauthorized (js "Refresh token expired or reused")),
        { w with db := w.db.revokeFamily familyId g.now }) := by
  cases hfound : w.db.findRefreshTokenWithUser (hash token) with
  | none =>
      refine .inl (.refuse (e := .unauthorized (js "Invalid refresh token")) ?_ (by simp))
      simp only [rotate, Service.bind_apply, call, exec, step, hfound, Pc.answer]
  | some found =>
      obtain ⟨existing, user⟩ := found
      by_cases hreused : (existing.revokedAt.isSome || existing.expiresAt < g.now) = true
      · refine .inr ⟨existing.familyId, ⟨existing, user, hfound, hreused, rfl⟩, ?_⟩
        simp only [rotate, Service.bind_apply, call, exec, step, hfound, if_pos hreused, Pc.answer]
      · left
        have hpresent : w.db.refreshTokens.any (·.id == existing.id) = true :=
          List.any_eq_true.2 ⟨existing, (Db.mem_of_findRefreshTokenWithUser hfound).1, by simp⟩
        have hrevoke : w.db.revokeToken existing.id g.now =
            .ok ((), w.db.markRevoked existing.id g.now) := if_pos hpresent
        have huser : ∃ u ∈ w.db.users, u.id = user.sub := by
          obtain ⟨t, -, hmap⟩ := Option.bind_eq_some_iff.1 hfound
          obtain ⟨u, hu, heq⟩ := Option.map_eq_some_iff.1 hmap
          cases heq
          exact ⟨u, List.mem_of_find?_eq_some hu, rfl⟩
        have hkept : ∀ t ∈ (w.db.markRevoked existing.id g.now).refreshTokens,
            t.id ≠ (g.cuid 0).val ∧ t.tokenHash ≠ hash (g.random 1) := by
          intro t ht
          obtain ⟨t', ht', rfl⟩ := mem_updateWhere.1 ht
          split
          · exact ⟨(hnew.tokens 0 t' ht').1, (hnew.tokens 1 t' ht').2⟩
          · exact ⟨(hnew.tokens 0 t' ht').1, (hnew.tokens 1 t' ht').2⟩
        obtain ⟨db', hcreate⟩ := createRefresh_returns env existing.familyId device
          (w.db.markRevoked existing.id g.now) huser hkept
        refine .returns ⟨issued env g user, ?_⟩
        simp only [rotate, Service.bind_apply, call, exec, step, hfound, if_neg hreused, hrevoke,
          hcreate, Pc.answer]
        rfl

end TokenService

namespace AuthService

/-- The organization of a new user is created: its slug is free. -/
theorem createOrgForUser_returns (horgs : ∀ k, ∀ o ∈ w.db.organizations, o.id ≠ (g.cuid k).val)
    (hmembers : ∀ k, ∀ m ∈ w.db.memberships, m.id ≠ (g.cuid k).val)
    (hsubs : ∀ k, ∀ s ∈ w.db.subscriptions, s.id ≠ (g.cuid k).val) {userId : JsString}
    (huser : ∃ u ∈ w.db.users, u.id = userId) (name : JsString) :
    (createOrgForUser userId name g).Returns w := by
  generalize hbase : (if slugify name = [] then js "org" else slugify name) = base
  obtain ⟨org, db, hc⟩ := Db.createOrganization_returns name (horgs 0) (hmembers 1)
    (hsubs 2) (freeSlug_free base w.db) huser
  refine ⟨(), ?_⟩
  rw [createOrgForUser, hbase, Service.query_bind, Service.exec_bind, hc]
  exact congrArg Prod.fst (Service.record_apply ..)

theorem register_settles (hnew : g.New w.db) (env : Env) (input : RegisterInput)
    (device : DeviceInfo) : (register env input device g).Settles False w := by
  unfold register
  refine .query (.throwIf (by simp) (fun _ => id) fun hunknown => .exec False.elim fun _ => ?_)
  rw [Option.isSome_eq_false_iff, Option.isNone_iff_eq_none] at hunknown
  have hcreated : w.db.createUser (newUser input g) =
      .ok (newUser input g, { w.db with users := w.db.users ++ [newUser input g] }) := by
    rw [Db.createUser, if_neg]
    simp only [List.any_eq_true, Bool.or_eq_true, beq_iff_eq, not_exists, not_and, not_or]
    exact fun u hu => ⟨hnew.users 0 u hu, by
      simpa [newUser] using List.find?_eq_none.1 hunknown u hu⟩
  refine ⟨_, _, hcreated, ?_⟩
  generalize hw₁ : { w with db := { w.db with users := w.db.users ++ [newUser input g] } } = w₁
  have hstored : newUser input g ∈ w₁.db.users := by
    rw [← hw₁]
    exact List.mem_append_right _ (List.mem_singleton_self _)
  have htokens : ∀ t ∈ w₁.db.refreshTokens, t.id ≠ ((g.skip 5).cuid 0).val ∧
      t.tokenHash ≠ TokenService.hash ((g.skip 5).random 1) := by
    rw [← hw₁]
    exact fun t ht => ⟨(hnew.tokens 5 t ht).1, (hnew.tokens 6 t ht).2⟩
  cases truthy input.orgName with
  | none =>
      obtain ⟨b, hb, -⟩ := issue_returns env device hstored htokens
        fun tokens => (tokens, (newUser input g).id)
      exact ⟨b, hb⟩
  | some name =>
      obtain ⟨-, husers, hkept⟩ :=
        createOrgForUser_effect (g := g.skip 1) (w := w₁) (newUser input g).id name
      obtain ⟨a, hok⟩ : (createOrgForUser (newUser input g).id name (g.skip 1)).Returns w₁ := by
        refine createOrgForUser_returns (fun k => ?_) (fun k => ?_) (fun k => ?_)
          ⟨_, hstored, rfl⟩ name
        · rw [← hw₁]
          exact hnew.organizations (1 + k)
        · rw [← hw₁]
          exact hnew.memberships (1 + k)
        · rw [← hw₁]
          exact hnew.subscriptions (1 + k)
      have hrun : createOrgForUser (newUser input g).id name (g.skip 1) w₁ =
          (.ok a, (createOrgForUser (newUser input g).id name (g.skip 1) w₁).2) := Prod.ext hok rfl
      obtain ⟨b, hb, -⟩ := issue_returns env device (by rw [husers]; exact hstored)
        (by rw [hkept]; exact htokens) fun tokens => (tokens, (newUser input g).id)
      have hrest : ((createOrgForUser (newUser input g).id name (g.skip 1) >>= fun _ =>
          TokenService.issueForUser env ⟨(newUser input g).id, (newUser input g).email⟩ device
            (g.skip 5) >>= fun tokens => pure (tokens, (newUser input g).id)) w₁).1 = .ok b := by
        rw [Service.bind_apply, hrun]
        exact hb
      exact ⟨b, hrest⟩

theorem login_settles (hnew : g.New w.db) (env : Env) (input : LoginInput) (device : DeviceInfo) :
    (login env input device g).Settles False w := by
  refine .query (.orThrow (by simp) (fun _ => id) fun user huser => .returns ?_)
  have hmem : user ∈ w.db.users :=
    List.mem_of_find?_eq_some (Option.filter_eq_some_iff.1 huser).1
  obtain ⟨b, hb, -⟩ := issue_returns env device hmem
    (fun t ht => ⟨(hnew.tokens 0 t ht).1, (hnew.tokens 1 t ht).2⟩) fun tokens => (tokens, user.id)
  exact ⟨b, hb⟩

theorem logout_settles (env : Env) (token : Option JsString) :
    (logout env token g).Settles False w := by
  rw [logout]
  cases truthy token with
  | none => exact .returns ⟨(), rfl⟩
  | some token => exact .returns ⟨(), TokenService.revoke_returns env token⟩

end AuthService

namespace OrgsService

theorem create_settles (hnew : g.New w.db) {userId : JsString}
    (huser : ∃ u ∈ w.db.users, u.id = userId) (input : CreateOrgInput) :
    (create userId input g).Settles False w := by
  refine .query (.throwIf (by simp) (fun _ => id) fun hfree => .exec False.elim fun _ => ?_)
  obtain ⟨org, db, hc⟩ := Db.createOrganization_returns input.name
    (hnew.organizations 0) (hnew.memberships 1) (hnew.subscriptions 2) hfree huser
  exact ⟨org, db, hc, .record ⟨_, rfl⟩⟩

theorem acceptInvite_settles (h : w.db.InOrder) (hnew : g.New w.db) {userId : JsString}
    (huser : ∃ u ∈ w.db.users, u.id = userId) (userEmail token : JsString) :
    (acceptInvite userId userEmail token g).Settles False w := by
  refine .query (.orThrow (by simp) (fun _ => id) fun invite hinvite => .throwIf (by simp)
    (fun _ => id) fun _ => .exec False.elim fun _ => ?_)
  have hmem : invite ∈ w.db.invites :=
    List.mem_of_find?_eq_some (Option.filter_eq_some_iff.1 hinvite).1
  obtain ⟨m, db₁, hm⟩ := Db.upsertMembership_returns hnew huser (h.invited invite hmem)
    invite.role g.now
  have hkept : db₁.invites = w.db.invites := by
    rcases Db.upsertMembership_ok hm with rfl | ⟨rfl, -⟩ <;> rfl
  have hburnt : ∃ db', db₁.burnInvite invite.id g.now = .ok ((), db') :=
    ⟨_, if_pos (List.any_eq_true.2 ⟨invite, by rw [hkept]; exact hmem, by simp⟩)⟩
  obtain ⟨db', hb⟩ := hburnt
  refine ⟨m, db', ?_, .record ⟨_, rfl⟩⟩
  simp only [acceptInviteTx, hm, bind, Except.bind, hb, pure, Except.pure]

end OrgsService

theorem NotificationsService.updatePrefs_settles {userId : JsString}
    (huser : ∃ u ∈ w.db.users, u.id = userId) (prefs : NotificationPrefsInput) (now : Date) :
    (updatePrefs userId prefs now).Settles False w := by
  obtain ⟨u, hu⟩ : ∃ u, w.db.users.find? (·.id == userId) = some u := by
    rw [← Option.isSome_iff_exists]
    simpa [List.find?_isSome] using huser
  refine .returns ⟨prefs.apply now u, ?_⟩
  rw [updatePrefs, Service.exec, Db.updatePrefs, hu]

namespace BillingService

/-- The subscription of the event is already another customer's. -/
def WebhookFails (db : Db) : Except Exn StripeEvent → Prop
  | .error _ => False
  | .ok event => ∃ sub ∈ event.subscription, ∃ found,
      db.subscriptions.find? (·.stripeCustomerId == some sub.customer) = some found ∧
      ∃ s ∈ db.subscriptions, s.stripeSubscriptionId = some sub.id ∧ s.id ≠ found.id

theorem reconcileSubscription_settles (env : BillingEnv) (sub : StripeSubscription) :
    (reconcileSubscription env sub g).Settles
      (∃ found, w.db.subscriptions.find? (·.stripeCustomerId == some sub.customer) = some found ∧
        ∃ s ∈ w.db.subscriptions, s.stripeSubscriptionId = some sub.id ∧ s.id ≠ found.id) w := by
  refine .query ?_
  cases hfound : w.db.subscriptions.find? (·.stripeCustomerId == some sub.customer) with
  | none => exact .congr (by simp) (.returns ⟨(), rfl⟩)
  | some found =>
      have hmem := List.mem_of_find?_eq_some hfound
      have hpresent : (!w.db.subscriptions.any (·.id == found.id)) = false := by
        simpa using ⟨found, hmem, rfl⟩
      have htaken : (w.db.subscriptions.any fun s =>
          s.stripeSubscriptionId == some (reconciled env sub).stripeSubscriptionId &&
            s.id != found.id) = true ↔
          ∃ s ∈ w.db.subscriptions, s.stripeSubscriptionId = some sub.id ∧ s.id ≠ found.id := by
        simp [reconciled]
      refine .exec (fun hfaulty => ?_) fun hsound => ?_
      · obtain ⟨_, hsome, htakes⟩ := hfaulty
        obtain rfl := Option.some.inj hsome
        refine ⟨.uniqueConstraint, ?_⟩
        rw [Db.reconcile, hpresent, if_neg (by simp), if_pos (htaken.2 htakes)]
      · have hfree := fun hany => hsound ⟨found, rfl, htaken.1 hany⟩
        have hreconciled : w.db.reconcile found.id (reconciled env sub) g.now = .ok ((),
            w.db.rewriteSubscription (·.id == found.id) ((reconciled env sub).apply g.now)) := by
          rw [Db.reconcile, hpresent, if_neg (by simp), if_neg hfree]
        exact ⟨(), _, hreconciled, (), by rw [Service.record_apply]⟩

theorem handleWebhook_settles (env : BillingEnv) {event : Except Exn StripeEvent}
    (hverified : ∀ code, event ≠ .error (.prisma code)) :
    (handleWebhook env event g).Settles
      ((truthy (some env.STRIPE_SECRET_KEY)).isSome ∧ WebhookFails w.db event) w := by
  refine .throwIf (by simp) (fun hnone hfaulty => ?_) fun hsome => ?_
  · rw [Option.isNone_iff_eq_none] at hnone
    rw [hnone] at hfaulty
    cases hfaulty.1
  · have hconfigured : (truthy (some env.STRIPE_SECRET_KEY)).isSome = true := by
      simpa [Option.isSome_iff_ne_none] using hsome
    refine .congr (and_iff_right hconfigured).symm ?_
    cases event with
    | error e =>
        refine .inr ⟨e, rfl, iff_of_false (fun hviolation => ?_) id⟩
        obtain ⟨code, rfl⟩ := Exn.violation_iff.1 hviolation
        exact hverified code rfl
    | ok event =>
        cases event with
        | other =>
            exact .congr (by simp [WebhookFails, StripeEvent.subscription]) (.returns ⟨(), rfl⟩)
        | _ =>
            refine .congr ?_ (reconcileSubscription_settles env _)
            simp [WebhookFails, StripeEvent.subscription]

end BillingService

end Calls

end PmSaas
