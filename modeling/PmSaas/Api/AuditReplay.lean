import PmSaas.Api.AuditBooks
import PmSaas.Api.AuditTrail
import PmSaas.Api.TenantWrites
import PmSaas.Notifications.JobRetries
import PmSaas.Orgs.Removal

/-!
# The audit trail tells the state

Each method of a service records what it has written, so that the books kept from the trail
(`Books.apply`) and the tables go together (`Service.Tells`).

`trail_tells`: after every run of calls with new ids, what the audit trail of an organization tells
is what its tables hold.
-/

namespace PmSaas

open Table TransitionSystem

/-! ### Methods that record what they wrote -/

/-- One audit row more, which tells what else has changed for the organization. -/
def Db.Told (organizationId : JsString) (db db' : Db) : Prop :=
  ∃ log : AuditLog, log.organizationId = organizationId ∧ db'.auditLogs = db.auditLogs ++ [log] ∧
    (db'.tenantView organizationId).books = (db.tenantView organizationId).books.apply log

namespace Service

variable {α β : Type} {g : Gen} {organizationId : JsString} {actorId : Option JsString} {w : World}

/-- The method writes no audit row, or one that tells what it wrote. -/
def Tells (s : Service α) (w : World) : Prop :=
  (s w).2.db.auditLogs = w.db.auditLogs ∨ ∃ organizationId, w.db.Told organizationId (s w).2.db

/-- What is left of the method records the entry. -/
def Enters (g : Gen) (k : ℕ) (entry : AuditEntry) (s : Service α) (w : World) : Prop :=
  (s w).2.db = (w.recorded entry (g.cuid k) g.now).db

theorem Enters.record {k : ℕ} {entry : AuditEntry} {f : Unit → Service α}
    (hf : ∀ w', (f () w').2.db = w'.db) :
    (PmSaas.record entry (g.cuid k) g.now >>= f).Enters g k entry w := by
  rw [Enters, record_bind, hf]

/-- A silent step on the way to the record. -/
theorem Enters.silent {n : ℕ} {entry : AuditEntry} {s : Service α} {k : α → Service β}
    (hs : s.Silent w) (h : ∀ a w', (s w).1 = .ok a → w'.db = w.db → (k a).Enters g n entry w') :
    (s >>= k).Enters g n entry w := by
  obtain ⟨a, hok, hdb⟩ := hs
  have hrun : s w = (.ok a, (s w).2) := Prod.ext hok rfl
  have hsame : ((s w).2.recorded entry (g.cuid n) g.now).db =
      (w.recorded entry (g.cuid n) g.now).db := by
    rw [World.recorded, World.recorded, PmSaas.record, PmSaas.record, hdb]
    cases w.db.createAuditLog entry (g.cuid n).val g.now with
    | error e => exact hdb
    | ok r => rfl
  rw [Enters, bind_apply, hrun]
  exact (h a (s w).2 hok hdb).trans hsame

theorem Enters.last {k : ℕ} {entry : AuditEntry} :
    (PmSaas.record entry (g.cuid k) g.now).Enters g k entry w := rfl

namespace Tells

theorem of_eq {s s' : Service α} (heq : s w = s' w) (h : s'.Tells w) : s.Tells w := by
  rw [Tells, heq]
  exact h

theorem error {s : Service α} {e : Exn} (h : s w = (.error e, w)) : s.Tells w := by
  left
  rw [h]

theorem query {f : Db → α} {k : α → Service β} (h : (k (f w.db)).Tells w) :
    (Service.query f >>= k).Tells w := h

theorem orThrow {o : Option α} {e : Exn} {k : α → Service β}
    (h : ∀ a, o = some a → (k a).Tells w) : (Service.orThrow o e >>= k).Tells w := by
  cases o with
  | none => exact .inl rfl
  | some a => exact h a rfl

theorem throwIf {c : Bool} {e : Exn} {k : Unit → Service β} (h : c = false → (k ()).Tells w) :
    (Service.throwIf c e >>= k).Tells w := by
  cases c with
  | true => exact .inl rfl
  | false => exact h rfl

theorem compute {x : Except Exn α} {k : α → Service β} (h : ∀ a, x = .ok a → (k a).Tells w) :
    (Service.exec (fun db => x.map fun a => (a, db)) >>= k).Tells w := by
  cases hx : x with
  | error e => exact .inl rfl
  | ok a => exact h a hx

/-- The write of a method, and the entry that tells it. -/
theorem write (g : Gen) (organizationId : JsString) {f : Db → Except Exn (α × Db)}
    {k : α → Service β}
    (h : ∀ a db, f w.db = .ok (a, db) → ∃ n entry,
      (k a).Enters g n entry { w with db := db } ∧ entry.organizationId = organizationId ∧
      db.Auditable g organizationId entry.actorId ∧ db.auditLogs = w.db.auditLogs ∧
      ∀ id now, (db.tenantView organizationId).books =
        (w.db.tenantView organizationId).books.apply (entry.row id now)) :
    (Service.exec f >>= k).Tells w := by
  cases hf : f w.db with
  | error e =>
      left
      rw [exec_bind, hf]
  | ok r =>
      obtain ⟨a, db⟩ := r
      obtain ⟨n, entry, henters, rfl, hready, hlogs, hbooks⟩ := h a db hf
      have hdb : ((Service.exec f >>= k) w).2.db =
          { db with auditLogs := w.db.auditLogs ++ [entry.row (g.cuid n).val g.now] } := by
        rw [exec_bind, hf, ← hlogs]
        exact henters.trans (World.recorded_row n hready)
      rw [Tells, hdb]
      exact .inr ⟨entry.organizationId, _, rfl, rfl, hbooks _ _⟩

/-- A write to tables that are in no books. -/
theorem aside {f : Db → Except Exn (α × Db)} {k : α → Service β}
    (h : ∀ a db, f w.db = .ok (a, db) →
      (∀ o, (db.tenantView o).books = (w.db.tenantView o).books) ∧
        db.auditLogs = w.db.auditLogs ∧ (k a).Tells { w with db := db }) :
    (Service.exec f >>= k).Tells w := by
  cases hf : f w.db with
  | error e => exact .error (by rw [exec_bind, hf])
  | ok r =>
      obtain ⟨a, db⟩ := r
      obtain ⟨hbooks, hlogs, hrest⟩ := h a db hf
      rw [Tells, exec_bind, hf, ← hlogs]
      rcases hrest with hsame | ⟨organizationId, log, hlog, hlogged, htold⟩
      · exact .inl hsame
      · exact .inr ⟨organizationId, log, hlog, hlogs ▸ hlogged, hbooks organizationId ▸ htold⟩

/-- Tokens are in no books. -/
theorem withTokens {s : Service α} {s' : Service β} {tokens : List RefreshToken}
    (hworld : (s' w).2 = TokenService.withTokens (s w).2 tokens) (h : s.Tells w) : s'.Tells w := by
  rw [Tells, hworld]
  exact h

theorem forget {s : Service α} (h : s.Tells w) : s.forget.Tells w := by
  rw [Tells, forget_world]
  exact h

end Tells

end Service

/-! ### The methods of the services -/

section Methods

variable {g : Gen} {organizationId actorId : JsString} {w : World}

namespace IssuesService

theorem resolveProject_tells {β : Type} {projectKey : JsString} {k : Project → Service β}
    (h : ∀ project, (k project).Tells w) :
    (resolveProject organizationId projectKey >>= k).Tells w := by
  cases hp : w.db.findProject organizationId projectKey with
  | none => exact .error (by rw [resolveProject_bind, hp])
  | some project => exact .of_eq (by rw [resolveProject_bind, hp]) (h project)

theorem create_tells (h : w.db.Auditable g organizationId (some actorId)) (hsep : Separated w.db)
    (projectKey : JsString) (input : CreateIssueInput) :
    (create organizationId actorId projectKey input g).Tells w := by
  refine resolveProject_tells fun project => .write g organizationId fun issue db htx => ?_
  obtain ⟨stored, rank, -, -, hins⟩ := Db.createIssueTx_ok htx
  obtain ⟨rfl, rfl, hfresh, -⟩ := Db.createIssue_ok hins
  have hattached : Attached (w.db.bumpProject project.id g.now) := hsep.toAttached.congr rfl
  have hrow : (newIssue organizationId actorId project.id input g (stored.issueCounter + 1)
    rank).organizationId = organizationId := rfl
  refine ⟨1, _, .record fun w' => ?_, rfl, h.congr rfl, rfl, fun id now => ?_⟩
  · cases truthy (issueSelect _).assigneeId with
    | none => rfl
    | some recipientId => exact World.enqueued_db ..
  · rw [Db.insertIssue_view hattached (hsep.sound.bumpProject project.id g.now) hrow hfresh,
      Db.books_insertIssue, Db.bumpProject_view, Db.books_bumpProject]
    rfl

theorem update_tells (h : w.db.Auditable g organizationId (some actorId)) (issueId : JsString)
    (input : UpdateIssueInput) : (update organizationId actorId issueId input g).Tells w := by
  refine .query (.orThrow fun before hb => .write g organizationId fun row db hu => ?_)
  obtain ⟨_, -, -, rfl⟩ := Db.updateIssue_ok hu
  refine ⟨0, _, .record fun w' => ?_, rfl, h.congr rfl, rfl, fun id now => ?_⟩
  · cases connectedUser input with
    | none => rfl
    | some recipientId =>
        dsimp only
        split
        · rfl
        · exact World.enqueued_db ..
  · rw [Db.rewriteIssue_view (f := input.apply g.now) issueId fun _ => ⟨rfl, rfl⟩,
      Db.books_rewriteIssue (f := input.apply g.now) issueId fun _ => ⟨rfl, rfl⟩]
    rfl

theorem move_tells (h : w.db.Auditable g organizationId (some actorId)) (issueId : JsString)
    (input : MoveIssueInput) : (move organizationId actorId issueId input g).Tells w := by
  refine .query (.orThrow fun issue hissue => .query (.query (.compute fun rank hrank =>
    .write g organizationId fun row db hu => ?_)))
  obtain ⟨_, -, -, rfl⟩ := Db.updateIssue_ok hu
  refine ⟨0, _, .record fun w' => rfl, rfl, h.congr rfl, rfl, fun id now => ?_⟩
  rw [Db.rewriteIssue_view (f := place input.status rank g.now) issue.id fun _ => ⟨rfl, rfl⟩,
    Db.books_rewriteIssue (f := place input.status rank g.now) issue.id fun _ => ⟨rfl, rfl⟩]
  rfl

theorem remove_tells (h : w.db.Auditable g organizationId (some actorId)) (issueId : JsString) :
    (remove organizationId actorId issueId g).Tells w := by
  refine .query (.orThrow fun issue hissue => .write g organizationId fun _ db hdel => ?_)
  obtain rfl := Db.deleteIssue_ok hdel
  obtain ⟨hmem, -, horg⟩ := Db.findIssue_some hissue
  refine ⟨0, _, .record fun w' => rfl, rfl, h.congr rfl, rfl, fun id now => ?_⟩
  rw [Db.dropIssue_view (Db.ownsIssue_of_mem hmem horg), Db.books_dropIssue]
  rfl

end IssuesService

theorem ProjectsService.create_tells (h : w.db.Auditable g organizationId (some actorId))
    (input : CreateProjectInput) : (create organizationId actorId input g).Tells w := by
  refine .query (.throwIf fun hclash => ?_)
  by_cases hteam : ((truthy input.teamId).all fun id =>
      (w.db.findTeam organizationId id).isSome) = true
  · refine .of_eq (by rw [checkTeam_bind, if_pos hteam]) (.write g organizationId fun project db hc => ?_)
    obtain ⟨rfl, rfl, -⟩ := Db.createProject_ok hc
    refine ⟨1, _, .record fun w' => rfl, rfl, h.congr rfl, rfl, fun id now => ?_⟩
    have hrow : (newProject organizationId input g).organizationId = organizationId := rfl
    rw [Db.insertProject_view hrow, Db.books_insertProject]
    rfl
  · exact .error (by rw [checkTeam_bind, if_neg hteam])

namespace AttachmentsService

theorem resolveIssue_tells {β : Type} {issueId : JsString} {k : Issue → Service β}
    (h : ∀ issue, w.db.findIssue organizationId issueId = some issue → (k issue).Tells w) :
    (resolveIssue organizationId issueId >>= k).Tells w := by
  cases hi : w.db.findIssue organizationId issueId with
  | none => exact .error (by rw [resolveIssue_bind, hi])
  | some issue => exact .of_eq (by rw [resolveIssue_bind, hi]) (h issue hi)

theorem confirm_tells (h : w.db.Auditable g organizationId (some actorId)) (issueId : JsString)
    (input : ConfirmAttachmentInput) :
    (confirm organizationId actorId issueId input g).Tells w := by
  refine resolveIssue_tells fun issue hi => .throwIf fun hkey => .write g organizationId
    fun attachment db hc => ?_
  obtain ⟨rfl, rfl, -⟩ := Db.createAttachment_ok hc
  obtain ⟨hmem, rfl, horg⟩ := Db.findIssue_some hi
  have hown : w.db.ownsIssue organizationId (newAttachment actorId issue.id input g).issueId = true :=
    Db.ownsIssue_of_mem hmem horg
  refine ⟨1, _, .record fun w' => rfl, rfl, h.congr rfl, rfl, fun id now => ?_⟩
  rw [Db.insertAttachment_view hown, Db.books_insertAttachment]
  rfl

theorem remove_tells (h : w.db.Auditable g organizationId (some actorId)) (storageUp : Bool)
    (issueId attachmentId : JsString) :
    (remove storageUp organizationId actorId issueId attachmentId g).Tells w := by
  refine resolveIssue_tells fun issue hi => .query (.orThrow fun a ha =>
    .write g organizationId fun _ db hd => ?_)
  unfold Db.deleteAttachment at hd
  split at hd
  · cases hd
    have hsilent : ∀ w', (StorageService.delete storageUp a.fileKey).Silent w' := by
      cases storageUp with
      | true => exact fun _ => ⟨(), rfl, rfl⟩
      | false => exact fun _ => ⟨(), rfl, rfl⟩
    refine ⟨0, _, .silent (hsilent _) fun _ w' _ _ => .last, rfl, h.congr rfl, rfl,
      fun id now => ?_⟩
    rw [Db.dropAttachment_view, Db.books_dropAttachment]
    rfl
  · cases hd

end AttachmentsService

/-! ### Members and invites -/

/-- What the books rest on: no person is a member twice, and no invite makes an owner. -/
structure Db.Granting (db : Db) : Prop extends Separated db where
  pairs : UniqueKey (fun m : Membership => (m.userId, m.organizationId)) db.memberships
  granted : ∀ i ∈ db.invites, i.role ≠ .OWNER

theorem Db.Granting.members {db : Db} (h : db.Granting) : MemberTables db :=
  ⟨h.sound.membershipIds, h.pairs, fun m hm => (h.refs.members m hm).1,
    fun m hm => (h.refs.members m hm).2⟩

namespace OrgsService

/-- An upsert gives the member's row the role. -/
theorem upsertMembership_books (h : w.db.Granting) {userId : JsString} {role : Role} {id : Cuid}
    {now : Date} {m : Membership} {db : Db} (hrole : role ≠ .OWNER)
    (hu : w.db.upsertMembership userId organizationId role id now = .ok (m, db)) :
    (db.tenantView organizationId).books =
      { (w.db.tenantView organizationId).books with
        roles := Function.update (w.db.tenantView organizationId).books.roles m.id (some role) } := by
  cases hold : w.db.findMembership userId organizationId with
  | some old =>
      have hm : m.id = old.id := by
        simp only [Db.upsertMembership, hold] at hu
        cases hu
        rfl
      obtain ⟨hmem, huser, horg⟩ := Db.findMembership_some hold
      have hview : old ∈ (w.db.tenantView organizationId).memberships :=
        List.mem_filter.2 ⟨hmem, by simpa using horg⟩
      rw [Db.upsertMembership_member hu hold, Db.setMemberRole_view, hm]
      refine Db.books_setRole hview (fun x hx => ?_) hrole
      have hx' := List.mem_of_mem_filter hx
      rw [Bool.and_eq_true, beq_iff_eq, beq_iff_eq]
      constructor
      · rintro ⟨hxu, hxo⟩
        exact congrArg Membership.id (h.pairs.eq_of_key_eq hx' hmem
          (by simp [hxu, hxo, huser, horg]))
      · intro hid
        obtain rfl := h.sound.membershipIds.eq_of_key_eq hx' hmem hid
        exact ⟨huser, horg⟩
  | none =>
      obtain ⟨rfl, hfresh, hm⟩ : db = w.db.insertMembership ⟨id.val, userId, organizationId, role,
          now⟩ ∧ (∀ x ∈ w.db.memberships, x.id ≠ id.val) ∧
          m = ⟨id.val, userId, organizationId, role, now⟩ := by
        simp only [Db.upsertMembership, hold] at hu
        split_ifs at hu with huniq hfk
        cases hu
        exact ⟨rfl, by simpa using huniq, rfl⟩
      have hrow : (⟨id.val, userId, organizationId, role, now⟩ : Membership).organizationId =
        organizationId := rfl
      rw [Db.insertMembership_view hrow, Db.books_insertMembership fun x hx =>
        hfresh x (List.mem_of_mem_filter hx), hm, if_neg hrole]

/-- An upsert writes the invite down under the id it has. -/
theorem upsertInvite_books (h : w.db.Granting) {row invite : Invite} {db : Db}
    (hrow : row.organizationId = organizationId)
    (hu : w.db.upsertInvite row = .ok (invite, db)) :
    (db.tenantView organizationId).books =
      { (w.db.tenantView organizationId).books with
        invites := Books.noteInvite ⟨invite.id, row.email, some row.role, row.acceptedAt.isSome⟩
          (w.db.tenantView organizationId).books.invites } := by
  unfold Db.upsertInvite at hu
  split at hu
  · rename_i old hold
    split at hu
    · cases hu
    · cases hu
      have hmem := List.mem_of_find?_eq_some hold
      have hpair := List.find?_some hold
      simp only [Bool.and_eq_true, beq_iff_eq] at hpair
      have hids : UniqueKey Invite.id (w.db.tenantView organizationId).invites :=
        h.refs.inviteIds.sublist (List.filter_sublist.map _)
      have hpairs : UniqueKey (fun i : Invite => (i.organizationId, i.email))
          (w.db.tenantView organizationId).invites :=
        h.invites.pairs.sublist (List.filter_sublist.map _)
      rw [Db.renewInvite_view, Db.books_renewInvite hids hpairs
        (List.mem_filter.2 ⟨hmem, by simpa [hrow] using hpair.1⟩) hpair.1 hpair.2]
  · split_ifs at hu with huniq hfk
    cases hu
    have hfresh : ∀ i ∈ w.db.invites, i.id ≠ row.id := by
      simp only [Bool.or_eq_true, List.any_eq_true, beq_iff_eq, not_exists, not_and, not_or] at huniq
      exact fun i hi => (huniq i hi).1
    rw [Db.insertInvite_view hrow, Db.books_insertInvite fun i hi =>
      hfresh i (List.mem_of_mem_filter hi)]

theorem addMember_tells (h : w.db.Auditable g organizationId (some actorId))
    (hgranting : w.db.Granting) (env : Env) (email : JsString) (role : GrantableRole) :
    (addMember env organizationId actorId email role g).Tells w := by
  refine .query ?_
  cases hu : w.db.findUserByEmail (JsString.toLowerCase email) with
  | some user =>
      refine .write g organizationId fun m db hm => ?_
      refine ⟨1, _, .record fun w' => rfl, rfl, h.congr (upsertMembership_ledger hm),
        congrArg (fun l => l.2.2) (upsertMembership_ledger hm), fun id now => ?_⟩
      rw [upsertMembership_books hgranting role.property hm, ← Role.ofText_text]
      rfl
  | none =>
      refine .write g organizationId fun invite db hi => ?_
      have hready : db.Auditable g organizationId (some actorId) := by
        rcases Db.upsertInvite_ok hi with rfl | rfl <;> exact h.congr rfl
      have hlogs : db.auditLogs = w.db.auditLogs := by
        rcases Db.upsertInvite_ok hi with rfl | rfl <;> rfl
      -- the organization is still there to be named in the mail
      obtain ⟨o, ho⟩ : ∃ o, db.organizations.find? (·.id == organizationId) = some o := by
        simpa [List.find?_isSome, ← Option.isSome_iff_exists] using hready.organization
      refine ⟨1, OrgTask.memberEntry organizationId actorId "member.invited" "Invite" invite.id
        [("email", .str (JsString.toLowerCase email)), ("role", .str role.val.text)],
        .silent ⟨_, rfl, rfl⟩ fun org w₁ horg hdb₁ => ?_, rfl, hready, hlogs, fun id now => ?_⟩
      · obtain rfl : some o = org := ho.symm.trans (Except.ok.inj horg)
        exact .silent ⟨o, rfl, rfl⟩ fun _ w₂ _ _ => .silent ⟨(), rfl, rfl⟩
          fun _ w₃ _ _ => .record fun w' => rfl
      · have hrow : (newInvite organizationId actorId (JsString.toLowerCase email) role
          g).organizationId = organizationId := rfl
        rw [upsertInvite_books hgranting hrow hi]
        refine congrArg (fun role : Option Role =>
          ({ (w.db.tenantView organizationId).books with
            invites := Books.noteInvite ⟨invite.id, JsString.toLowerCase email, role, false⟩
              (w.db.tenantView organizationId).books.invites } : Books)) ?_
        exact (Role.ofText_text role.val).symm

theorem updateMemberRole_tells (h : w.db.Auditable g organizationId (some actorId))
    (targetUserId : JsString) (role : GrantableRole) :
    (updateMemberRole organizationId actorId targetUserId role g).Tells w := by
  refine .query (.orThrow fun m hm => .throwIf fun hrole => .write g organizationId
    fun updated db hu => ?_)
  obtain rfl := Db.updateMembership_ok hu
  obtain ⟨hmem, huser, horg⟩ := Db.findMembership_some hm
  have hview : m ∈ (w.db.tenantView organizationId).memberships :=
    List.mem_filter.2 ⟨hmem, by simpa using horg⟩
  have hbooks := Db.books_setRole hview (p := (·.id == m.id)) (fun x hx => beq_iff_eq)
    role.property
  refine ⟨0, _, .record fun w' => rfl, rfl, h.congr rfl, rfl, fun id now => ?_⟩
  rw [Db.setRoleById_view, Db.setRoleById, hbooks, ← Role.ofText_text]
  rfl

theorem removeMember_tells (h : w.db.Auditable g organizationId (some actorId))
    (targetUserId : JsString) : (removeMember organizationId actorId targetUserId g).Tells w := by
  refine .query (.orThrow fun m hm => .throwIf fun hrole => .write g organizationId
    fun _ db hd => ?_)
  obtain rfl := Db.deleteMembership_ok hd
  refine ⟨0, _, .last, rfl, h.congr rfl, rfl, fun id now => ?_⟩
  rw [Db.dropMembership_view, Db.books_dropMembership]
  rfl

theorem acceptInvite_tells (hunused : g.Unused w.db) (hgranting : w.db.Granting)
    (userId userEmail token : JsString) : (acceptInvite userId userEmail token g).Tells w := by
  refine .query (.orThrow fun invite hi => .throwIf fun haddressed =>
    .write g invite.organizationId fun m db htx => ?_)
  obtain ⟨db₁, hu, hb⟩ := acceptInviteTx_ok htx
  obtain ⟨hfound, -⟩ := Option.filter_eq_some_iff.1 hi
  have hmem : invite ∈ w.db.invites := List.mem_of_find?_eq_some hfound
  obtain ⟨huser, horg⟩ := upsertMembership_known hgranting.refs hu
  have hready : w.db.Auditable g invite.organizationId (some userId) :=
    ⟨hunused.logs, horg, fun id hid => by cases hid; exact huser⟩
  have hinvites : db₁.invites = w.db.invites := by
    rcases Db.upsertMembership_ok hu with rfl | ⟨rfl, _⟩ <;> rfl
  have hburnt : (db₁.tenantView invite.organizationId).burnInvite invite.id g.now =
      .ok ((), db.tenantView invite.organizationId) := by
    rw [← Db.burnInvite_viewed, hb]
    · rfl
    · intro i hi hid
      rw [hgranting.refs.inviteIds.eq_of_key_eq (hinvites ▸ hi) hmem hid]
  have hrole : ((w.db.tenantView invite.organizationId).books.invites.find?
      (·.id == invite.id)).bind (·.role) = some invite.role := by
    have hids : UniqueKey Invite.id (w.db.tenantView invite.organizationId).invites :=
      hgranting.refs.inviteIds.sublist (List.filter_sublist.map _)
    have hview : (w.db.tenantView invite.organizationId).invites.find? (·.id == invite.id) =
        some invite :=
      hids.find?_iff.2 ⟨List.mem_filter.2 ⟨hmem, beq_self_eq_true _⟩, rfl⟩
    simp only [Db.books, List.find?_map]
    exact (congrArg (fun o : Option Invite => (o.map fun i : Invite =>
      (⟨i.id, i.email, some i.role, i.acceptedAt.isSome⟩ : InviteNote)).bind (·.role)) hview)
  refine ⟨1, _, .record fun w' => rfl, rfl, hready.congr (acceptInviteTx_ledger htx),
    congrArg (fun l => l.2.2) (acceptInviteTx_ledger htx), fun id now => ?_⟩
  rw [Db.books_burnInvite hburnt, upsertMembership_books hgranting (hgranting.granted _ hmem) hu,
    ← hrole]
  rfl

end OrgsService

namespace BillingService

theorem reconcileSubscription_tells (hunused : g.Unused w.db) (hsep : Separated w.db)
    (env : BillingEnv) (sub : StripeSubscription) :
    (reconcileSubscription env sub g).Tells w := by
  refine .query ?_
  cases hf : w.db.subscriptions.find? (·.stripeCustomerId == some sub.customer) with
  | none => exact .inl rfl
  | some found =>
      have hmem := List.mem_of_find?_eq_some hf
      refine .write g found.organizationId fun _ db hr => ?_
      have hready : w.db.Auditable g found.organizationId none :=
        ⟨hunused.logs, hsep.refs.subscribers found hmem, fun _ hid => by cases hid⟩
      have hone : (w.db.tenantView found.organizationId).subscriptions = [found] :=
        hsep.customers.organizations.filter_eq hmem
      obtain rfl := Db.reconcile_ok hr
      refine ⟨0, _, .last, rfl, hready.congr rfl, rfl, fun id now => ?_⟩
      rw [Db.rewriteSubscription_view (f := (reconciled env sub).apply g.now) fun _ => rfl,
        Db.books_reconciled hone]
      refine congrArg (fun plan : Option SubscriptionPlan =>
        ({ (w.db.tenantView found.organizationId).books with plan := plan } : Books)) ?_
      show some (if sub.status = js "canceled" then .FREE else planOf env sub.priceId) =
        if sub.status = js "canceled" then some .FREE
        else SubscriptionPlan.ofText (planOf env sub.priceId).text
      rw [SubscriptionPlan.ofText_text]
      split <;> rfl

theorem handleWebhook_tells (hunused : g.Unused w.db) (hsep : Separated w.db) (env : BillingEnv)
    (event : Except Exn StripeEvent) : (handleWebhook env event g).Tells w := by
  unfold handleWebhook
  refine .throwIf fun hon => ?_
  cases event with
  | error e => exact .inl rfl
  | ok event =>
      cases event with
      | other => exact .inl rfl
      | _ => exact reconcileSubscription_tells hunused hsep env _

end BillingService

/-! ### New organizations -/

/-- The trail of an organization begins with it. -/
theorem Db.insertOrganization_books {db : Db} (h : Referential db) {userId name slug : JsString}
    (hfresh : ∀ o ∈ db.organizations, o.id ≠ (g.cuid 0).val)
    (hmembers : ∀ m ∈ db.memberships, m.id ≠ (g.cuid 1).val) :
    ((db.insertOrganization (newOrganization userId name slug g)).tenantView
        (g.cuid 0).val).books =
      { (db.tenantView (g.cuid 0).val).books with plan := some .FREE } := by
  have hnone : db.subscriptions.filter (·.organizationId == (g.cuid 0).val) = [] := by
    refine List.filter_eq_nil_iff.2 fun s hs hid => ?_
    obtain ⟨o, ho, horg⟩ := h.subscribers s hs
    exact hfresh o ho (horg.trans (beq_iff_eq.1 hid))
  have hview : (db.insertOrganization (newOrganization userId name slug g)).tenantView
      (g.cuid 0).val =
        { (db.tenantView (g.cuid 0).val).insertMembership
            (newOrganization userId name slug g).membership with
          organizations := (db.tenantView (g.cuid 0).val).organizations ++
            [(newOrganization userId name slug g).organization]
          subscriptions := [(newOrganization userId name slug g).subscription] } := by
    simp only [tenantView, ownedBy, ownsIssue, insertOrganization, insertMembership]
    rw [filter_insert_of (by simp [newOrganization]), filter_insert_of (by simp [newOrganization]),
      filter_insert_of (by simp [newOrganization]), hnone]
    rfl
  have hbooks : ((db.tenantView (g.cuid 0).val).insertMembership
      (newOrganization userId name slug g).membership).books =
        (db.tenantView (g.cuid 0).val).books :=
    books_insertOwner (fun m hm => hmembers m (List.mem_of_mem_filter hm)) rfl
  rw [hview, ← hbooks]
  rfl

namespace OrgsService

theorem create_tells (hunused : g.Unused w.db) (hrefs : Referential w.db) (userId : JsString)
    (input : CreateOrgInput) : (create userId input g).Tells w := by
  refine .query (.throwIf fun hclash => .write g (g.cuid 0).val fun org db hc => ?_)
  obtain ⟨rfl, rfl, hfresh, hmembers, huser⟩ := Db.createOrganization_ok hc
  refine ⟨3, _, .record fun w' => rfl, rfl, ⟨hunused.logs, ?_, fun id hid => ?_⟩, rfl,
    fun id now => ?_⟩
  · exact ⟨_, List.mem_append_right _ (List.mem_singleton_self _), rfl⟩
  · obtain rfl := Option.some.inj hid
    exact huser
  · rw [Db.insertOrganization_books hrefs (fun o ho => (hfresh o ho).1) hmembers]
    rfl

end OrgsService

namespace AuthService

theorem createOrgForUser_tells (hlogs : ∀ k, ∀ a ∈ w.db.auditLogs, a.id ≠ (g.cuid k).val)
    (hrefs : Referential w.db) (userId name : JsString) :
    (createOrgForUser userId name g).Tells w := by
  refine .query (.write g (g.cuid 0).val fun org db hc => ?_)
  obtain ⟨rfl, rfl, hfresh, hmembers, huser⟩ := Db.createOrganization_ok hc
  refine ⟨3, _, .last, rfl, ⟨hlogs, ?_, fun id hid => ?_⟩, rfl, fun id now => ?_⟩
  · exact ⟨_, List.mem_append_right _ (List.mem_singleton_self _), rfl⟩
  · obtain rfl := Option.some.inj hid
    exact huser
  · rw [Db.insertOrganization_books hrefs (fun o ho => (hfresh o ho).1) hmembers]
    rfl

/-- Users and tokens are no organization's. -/
theorem register_tells (hunused : g.Unused w.db) (hrefs : Referential w.db) (env : Env)
    (input : RegisterInput) (device : DeviceInfo) : (register env input device g).Tells w := by
  refine .query (.throwIf fun hunknown => .aside fun user db hu => ?_)
  have husers := hrefs.createUser hu
  obtain ⟨rfl, rfl, -⟩ := Db.createUser_ok hu
  refine ⟨fun _ => rfl, rfl, ?_⟩
  cases truthy input.orgName with
  | none =>
      obtain ⟨tokens, hworld⟩ := register_finish env (newUser input g) device (g.skip 5)
        { w with db := { w.db with users := w.db.users ++ [newUser input g] } } (pure ())
      exact .withTokens hworld (.inl rfl)
  | some name =>
      obtain ⟨tokens, hworld⟩ := register_finish env (newUser input g) device (g.skip 5)
        { w with db := { w.db with users := w.db.users ++ [newUser input g] } }
        (createOrgForUser (newUser input g).id name (g.skip 1))
      exact .withTokens hworld
        (createOrgForUser_tells (fun k => hunused.logs (1 + k)) husers (newUser input g).id name)

end AuthService

end Methods

/-! ### Calls -/

/-- The routes of a tenant tell what they wrote; checkouts write no audit row. -/
theorem TenantWrite.handler_tells (env : ApiEnv) {organizationId actorId : JsString} {g : Gen}
    {w : World} (hgranting : w.db.Granting)
    (h : w.db.Auditable g organizationId (some actorId)) (call : TenantWrite) :
    (call.handler env organizationId actorId g).Tells w := by
  cases call with
  | createIssue projectKey input =>
      exact (IssuesService.create_tells h hgranting.toSeparated ..).forget
  | updateIssue issueId input => exact (IssuesService.update_tells h ..).forget
  | moveIssue issueId input => exact (IssuesService.move_tells h ..).forget
  | removeIssue issueId => exact IssuesService.remove_tells h ..
  | createProject input => exact (ProjectsService.create_tells h ..).forget
  | addMember email role => exact (OrgsService.addMember_tells h hgranting ..).forget
  | updateMemberRole userId role => exact (OrgsService.updateMemberRole_tells h ..).forget
  | removeMember userId => exact OrgsService.removeMember_tells h ..
  | presign issueId input =>
      left
      rw [handler, Service.forget_world, AttachmentsService.presign_world]
  | confirm issueId input => exact (AttachmentsService.confirm_tells h ..).forget
  | removeAttachment storageUp issueId attachmentId => exact AttachmentsService.remove_tells h ..
  | createCheckout stripe plan =>
      left
      rw [handler, Service.forget_world]
      exact BillingService.createCheckout_logs

/-- **Every call tells what it wrote.** -/
theorem ApiCall.tells (env : ApiEnv) {g : Gen} {w : World} (hgranting : w.db.Granting)
    (hunused : g.Unused w.db) (call : ApiCall) : (call.serve env g).Tells w := by
  have hrefs := hgranting.refs
  cases call with
  | register input device => exact (AuthService.register_tells hunused hrefs ..).forget
  | login input device =>
      obtain ⟨tokens, hworld⟩ := AuthService.login_frame env.auth input device g w
      exact .inl (by rw [serve_world, exec, hworld]; rfl)
  | refresh token device =>
      obtain ⟨tokens, hworld⟩ := TokenService.rotate_frame env.auth token device g w
      exact .inl (by rw [serve_world, exec, AuthService.refresh, hworld]; rfl)
  | logout token =>
      obtain ⟨tokens, hworld⟩ := AuthService.logout_frame env.auth token g w
      exact .inl (by rw [serve_world, exec, hworld]; rfl)
  | createOrg user input => exact (OrgsService.create_tells hunused hrefs ..).forget
  | acceptInvite user token => exact (OrgsService.acceptInvite_tells hunused hgranting ..).forget
  | tenant user orgSlug call =>
      rcases tenantScoped_cases user orgSlug call.metadata
        (fun organizationId => call.handler env organizationId user.sub g) w with
        ⟨e, hrun⟩ | ⟨m, hm, -, hrun⟩
      · exact .error hrun
      · obtain ⟨hmem, huser, -⟩ := Db.findMembershipBySlug_some hm
        obtain ⟨hknown, horg⟩ := hrefs.members m hmem
        refine .of_eq hrun (call.handler_tells env hgranting ⟨hunused.logs, horg, fun id hid => ?_⟩)
        obtain rfl := Option.some.inj hid
        exact huser ▸ hknown
  | markRead user ids => exact .inl rfl
  | markAllRead user => exact .inl rfl
  | updatePrefs user prefs =>
      left
      rw [serve_world, exec, NotificationsService.updatePrefs, Service.exec]
      cases hu : w.db.updatePrefs user.sub prefs g.now with
      | error e => rfl
      | ok r =>
          obtain ⟨users, hdb⟩ := Db.updatePrefs_ok hu
          dsimp only
          rw [hdb]
  | webhook event => exact BillingService.handleWebhook_tells hunused hgranting.toSeparated ..
  | upload url => exact .inl rfl
  | work job =>
      left
      rw [serve_world, exec]
      split
      · rw [NotificationsProcessor.process_db]
        cases hc : w.db.createNotification (NotificationsProcessor.newNotification job g) with
        | error e => rfl
        | ok r =>
            rw [Db.createNotification_ok hc]
            rfl
      · rfl

/-! ### What a call keeps -/

theorem TenantChange.granting {organizationId actorId : JsString} {g : Gen} {w w' : World}
    {write : TenantWrite} (hc : TenantChange organizationId actorId g w write w')
    (h : MemberTables w.db) (hgranted : ∀ i ∈ w.db.invites, i.role ≠ .OWNER) :
    UniqueKey (fun m : Membership => (m.userId, m.organizationId)) w'.db.memberships ∧
      ∀ i ∈ w'.db.invites, i.role ≠ .OWNER := by
  cases hc with
  | createIssue found committed =>
      obtain ⟨_, _, _, _, hins⟩ := Db.createIssueTx_ok committed
      obtain ⟨-, rfl, -⟩ := Db.createIssue_ok hins
      exact ⟨h.pairs, hgranted⟩
  | updateIssue found committed =>
      obtain ⟨_, -, -, rfl⟩ := Db.updateIssue_ok committed
      exact ⟨h.pairs, hgranted⟩
  | moveIssue found dropped committed =>
      obtain ⟨_, -, -, rfl⟩ := Db.updateIssue_ok committed
      exact ⟨h.pairs, hgranted⟩
  | removeIssue found committed =>
      rw [Db.deleteIssue_ok committed]
      exact ⟨h.pairs, hgranted⟩
  | createProject committed team =>
      obtain ⟨-, rfl, -⟩ := Db.createProject_ok committed
      exact ⟨h.pairs, hgranted⟩
  | addMember found committed =>
      refine ⟨(h.upsert committed).pairs, ?_⟩
      rcases Db.upsertMembership_ok committed with rfl | ⟨rfl, -⟩ <;> exact hgranted
  | @invite email role invite db unknown committed =>
      refine ⟨?_, fun i hi => ?_⟩
      · rcases Db.upsertInvite_ok committed with rfl | rfl <;> exact h.pairs
      · rcases Db.mem_upsertInvite committed hi with hold | ⟨id, createdAt, rfl⟩
        · exact hgranted i hold
        · exact role.property
  | updateMemberRole found notOwner => exact ⟨(h.rewrite _ _).pairs, hgranted⟩
  | removeMember found notOwner => exact ⟨(h.drop _).pairs, hgranted⟩
  | confirm found key committed =>
      obtain ⟨-, rfl, -⟩ := Db.createAttachment_ok committed
      exact ⟨h.pairs, hgranted⟩
  | @removeAttachment storageUp issueId attachmentId issue a found attachment =>
      cases storageUp with
      | true => exact ⟨h.pairs, hgranted⟩
      | false => exact ⟨h.pairs, hgranted⟩
  | createCheckout committed =>
      rw [Db.setCustomer_ok committed]
      exact ⟨h.pairs, hgranted⟩

theorem ApiChange.granting {env : ApiEnv} {g : Gen} {w w' : World} {call : ApiCall}
    (hc : ApiChange env g w call w') (h : MemberTables w.db)
    (hgranted : ∀ i ∈ w.db.invites, i.role ≠ .OWNER) :
    UniqueKey (fun m : Membership => (m.userId, m.organizationId)) w'.db.memberships ∧
      ∀ i ∈ w'.db.invites, i.role ≠ .OWNER := by
  cases hc with
  | register committed =>
      refine ⟨(h.createUser committed).pairs, ?_⟩
      obtain ⟨_, rfl, _⟩ := Db.createUser_ok committed
      exact hgranted
  | registerOrg committed owned =>
      refine ⟨((h.createUser committed).createOrganization owned).pairs, ?_⟩
      obtain ⟨_, rfl, _⟩ := Db.createUser_ok committed
      obtain ⟨_, rfl, _⟩ := Db.createOrganization_ok owned
      exact hgranted
  | login => exact ⟨h.pairs, hgranted⟩
  | refresh => exact ⟨h.pairs, hgranted⟩
  | logout => exact ⟨h.pairs, hgranted⟩
  | createOrg committed =>
      refine ⟨(h.createOrganization committed).pairs, ?_⟩
      obtain ⟨_, rfl, _⟩ := Db.createOrganization_ok committed
      exact hgranted
  | @acceptInvite user token invite m db db' found pending addressee committed burnt =>
      have hmembers := h.upsert committed
      have hinvites : db.invites = w.db.invites := by
        rcases Db.upsertMembership_ok committed with rfl | ⟨rfl, -⟩ <;> rfl
      refine ⟨?_, fun i hi => ?_⟩
      · obtain ⟨invites, rfl⟩ := Db.burnInvite_ok burnt
        exact hmembers.pairs
      · obtain ⟨old, hold, ⟨-, rfl⟩ | ⟨-, rfl⟩⟩ := Db.mem_burnInvite burnt hi
        · exact hgranted _ (hinvites ▸ hold)
        · exact hgranted old (hinvites ▸ hold)
  | tenant member allowed change => exact change.granting h hgranted
  | markRead user ids => exact ⟨h.pairs, hgranted⟩
  | markAllRead user => exact ⟨h.pairs, hgranted⟩
  | updatePrefs committed =>
      obtain ⟨_, rfl⟩ := Db.updatePrefs_ok committed
      exact ⟨h.pairs, hgranted⟩
  | webhook known customer committed =>
      rw [Db.reconcile_ok committed]
      exact ⟨h.pairs, hgranted⟩
  | upload url => exact ⟨h.pairs, hgranted⟩
  | work queued => exact ⟨h.pairs, hgranted⟩

namespace Db.Granting

theorem empty : Granting .empty where
  invites := ⟨List.nodup_nil, List.nodup_nil⟩
  customers := ⟨List.nodup_nil, nofun⟩
  linked := nofun
  commented := nofun
  sound := .empty
  refs := .empty
  pairs := List.nodup_nil
  granted := nofun

/-- A call with new ids and tokens keeps what the books rest on. -/
theorem exec {env : ApiEnv} {g : Gen} {w : World} (h : Granting w.db) (hfresh : g.Fresh w.db)
    (call : ApiCall) : Granting (call.exec env g w).db := by
  have hkept : UniqueKey (fun m : Membership => (m.userId, m.organizationId))
      (call.exec env g w).db.memberships ∧ ∀ i ∈ (call.exec env g w).db.invites, i.role ≠ .OWNER := by
    rcases call.exec_cases env g w with hsame | ⟨w', organizationId, hchange, hafter⟩
    · rw [hsame]
      exact ⟨h.pairs, h.granted⟩
    · obtain ⟨logs, -, hdb⟩ := hafter.db
      rw [hdb]
      exact hchange.granting h.members h.granted
  exact ⟨h.toSeparated.exec hfresh call, hkept.1, hkept.2⟩

end Db.Granting

/-! ### Runs -/

/-- What the audit trail of the organization tells, row by row. -/
def Db.trailBooks (organizationId : JsString) (db : Db) : Books :=
  (db.auditLogs.filter (·.organizationId == organizationId)).foldl Books.apply .empty

/-- Rows of other organizations are not read. -/
theorem Db.trailBooks_append {db db' : Db} {log : AuditLog}
    (h : db'.auditLogs = db.auditLogs ++ [log]) (organizationId : JsString) :
    db'.trailBooks organizationId =
      if log.organizationId = organizationId then (db.trailBooks organizationId).apply log
      else db.trailBooks organizationId := by
  rw [trailBooks, h]
  split
  · rename_i hlog
    rw [filter_insert_of (by simpa using hlog), List.foldl_append]
    rfl
  · rename_i hlog
    rw [filter_insert (by simpa using hlog)]
    rfl

/-- The books are kept of the audited rows. -/
theorem Db.books_congr {db db' : Db} {organizationId : JsString}
    (h : db'.tenantRows organizationId = db.tenantRows organizationId) :
    (db'.tenantView organizationId).books = (db.tenantView organizationId).books := by
  simp only [tenantRows, Prod.mk.injEq] at h
  obtain ⟨-, hmembers, hinvites, hprojects, hissues, hattachments, hsubs⟩ := h
  simp only [books, tenantView, hmembers, hinvites, hprojects, hissues, hattachments, hsubs]

/-- A call that tells what it wrote, and writes nothing else, keeps the trail and the tables
together. -/
theorem ApiCall.Audited.trailBooks {env : ApiEnv} {g : Gen} {w : World} {call : ApiCall}
    (haudited : call.Audited env g w) (htells : (call.serve env g).Tells w)
    (h : ∀ o, w.db.trailBooks o = (w.db.tenantView o).books) (o : JsString) :
    (call.serve env g w).2.db.trailBooks o = ((call.serve env g w).2.db.tenantView o).books := by
  have hunchanged : (¬∃ log : AuditLog, log.organizationId = o ∧
      (call.serve env g w).2.db.auditLogs = w.db.auditLogs ++ [log]) →
        ((call.serve env g w).2.db.tenantView o).books = (w.db.tenantView o).books := by
    intro hnone
    refine Db.books_congr (by_contra fun hne => hnone ?_)
    obtain ⟨log, hlogged, hlog, -⟩ := haudited.changes o hne
    exact ⟨log, hlog, hlogged⟩
  rcases htells with hsame | ⟨organizationId, log, rfl, hlogged, htold⟩
  · rw [hunchanged, Db.trailBooks, hsame]
    · exact h o
    · rintro ⟨log, -, hlogged⟩
      rw [hsame] at hlogged
      simp at hlogged
  · rw [Db.trailBooks_append hlogged]
    split
    · rename_i hself
      rw [← hself, htold, h]
    · rename_i hother
      rw [hunchanged, h]
      rintro ⟨log', hlog', hlogged'⟩
      rw [hlogged] at hlogged'
      obtain rfl : log = log' := by simpa using hlogged'
      exact hother hlog'

/-- A checkout changes neither. -/
theorem ApiCall.checkout_trailBooks {env : ApiEnv} {g : Gen} {w : World} (user : AuthUser)
    (orgSlug : JsString) (stripe : Stripe) (plan : PaidPlan)
    (h : ∀ o, w.db.trailBooks o = (w.db.tenantView o).books) (o : JsString) :
    ((ApiCall.tenant user orgSlug (.createCheckout stripe plan)).exec env g w).db.trailBooks o =
      (((ApiCall.tenant user orgSlug (.createCheckout stripe plan)).exec env g w).db.tenantView
        o).books := by
  rcases TenantWrite.serve_cases env user orgSlug (.createCheckout stripe plan) g w with
    hsame | ⟨m, -, -, hrun⟩
  · rw [exec, hsame]
    exact h o
  · rw [exec, hrun, TenantWrite.exec]
    rcases BillingService.createCheckout_cases env.billing stripe m.organizationId plan g.now w with
      hsame | ⟨customerId, db, hset, hres⟩
    · rw [hsame]
      exact h o
    · rw [hres, Db.setCustomer_ok hset]
      refine (h o).trans (Eq.symm ?_)
      refine (congrArg Db.books (Db.rewriteSubscription_view ?_)).trans
        (Db.books_rewriteSubscription ?_)
      · exact fun _ => rfl
      · exact fun _ => rfl

/-- **The audit trail tells the state.**  After every run of calls with new ids and tokens, what the
audit trail of an organization tells, row by row, is what its tables hold of it: the projects and
their keys, the issues and their numbers, the attachments, the invites, the plan, and the role in
each membership that is not the owner's. -/
theorem trail_tells {env : ApiEnv} {calls : List (ApiCall × Gen)} {w : World}
    (hrun : Run (Guarded (ApiStep env) fun w call => call.2.Fresh w.db ∧ call.2.Unused w.db)
      World.empty calls w) (organizationId : JsString) :
    w.db.trailBooks organizationId = (w.db.tenantView organizationId).books := by
  have hinv : w.db.Granting ∧ ∀ o, w.db.trailBooks o = (w.db.tenantView o).books := by
    refine hrun.invariant (P := fun w => w.db.Granting ∧
      ∀ o, w.db.trailBooks o = (w.db.tenantView o).books) ?_ ⟨.empty, fun _ => rfl⟩
    rintro w ⟨call, g⟩ w' ⟨hgranting, hbooks⟩ ⟨hstep, hfresh, hunused⟩
    rw [show w' = _ from hstep]
    refine ⟨hgranting.exec hfresh call, fun o => ?_⟩
    by_cases hcheckout : ∃ user orgSlug stripe plan,
        call = .tenant user orgSlug (.createCheckout stripe plan)
    · obtain ⟨user, orgSlug, stripe, plan, rfl⟩ := hcheckout
      exact ApiCall.checkout_trailBooks user orgSlug stripe plan hbooks o
    · have haudited : call.Audited env g w := ApiCall.audited hgranting.sound hgranting.refs hunused
        fun user orgSlug stripe plan heq => hcheckout ⟨user, orgSlug, stripe, plan, heq⟩
      rw [← call.serve_world env g w]
      exact haudited.trailBooks (call.tells env hgranting hunused) hbooks o
  exact hinv.2 organizationId

/-! ### Ann's trail -/

namespace AuditReplay.Samples

open TokenService.Samples (device draw)
open TwoTenants (env otherOrgId labelId)

def ann : AuthUser := ⟨Demo.orgId.val, js "ann@demo.test"⟩
def bob : AuthUser := ⟨Demo.secondId.val, js "bob@demo.test"⟩

def route (call : TenantWrite) : ApiCall := .tenant ann (js "demo") call

/-- Ann founds an organization, which Bob joins, and removes the first of two issues. -/
def calls : List (ApiCall × Gen) :=
  [(.register ⟨ann.email, js "password", js "Ann", some (js "Demo")⟩ device,
      draw Demo.orgId (js "t0")),
    (route (.addMember bob.email ⟨.MEMBER, member_ne_owner⟩), draw Demo.firstId (js "t1")),
    (.register ⟨bob.email, js "password", js "Bob", none⟩ device, draw Demo.secondId (js "t2")),
    (.acceptInvite bob (js "t1"), draw Demo.thirdId (js "t3")),
    (route (.createProject ⟨js "Plan", js "PM", none, none⟩), draw Demo.projectId (js "t4")),
    (route (.createIssue (js "PM") { title := js "Login" }), draw Demo.userId (js "t5")),
    (route (.createIssue (js "PM") { title := js "Logout" }), draw otherOrgId (js "t6")),
    (route (.removeIssue Demo.userId.val), draw labelId (js "t7"))]

def world : World := ApiCall.serveAll env World.empty calls

/-- Neither the id nor the token is in the tables. -/
def Undrawn (id : Cuid) (token : JsString) (db : Db) : Prop :=
  (∀ o ∈ db.organizations, o.id ≠ id.val) ∧ (∀ m ∈ db.memberships, m.id ≠ id.val) ∧
    (∀ i ∈ db.invites, i.id ≠ id.val ∧ i.tokenHash ≠ OrgsService.hashToken token) ∧
    (∀ p ∈ db.projects, p.id ≠ id.val) ∧ (∀ i ∈ db.issues, i.id ≠ id.val) ∧
    (∀ a ∈ db.attachments, a.id ≠ id.val) ∧ (∀ n ∈ db.notifications, n.id ≠ id.val) ∧
    (∀ a ∈ db.auditLogs, a.id ≠ id.val) ∧
    ∀ t ∈ db.refreshTokens, t.id ≠ id.val ∧ t.tokenHash ≠ TokenService.hash token

instance (id : Cuid) (token : JsString) (db : Db) : Decidable (Undrawn id token db) :=
  inferInstanceAs (Decidable (_ ∧ _))

theorem Undrawn.gen {id : Cuid} {token : JsString} {db : Db} (h : Undrawn id token db) :
    (draw id token).Fresh db ∧ (draw id token).Unused db := by
  obtain ⟨ho, hm, hi, hp, hissues, ha, hn, hlogs, ht⟩ := h
  exact ⟨⟨fun _ => ho, fun _ => hm, fun _ => hi, fun _ => hp, fun _ => hissues, fun _ => ha,
    fun _ => hn, fun _ => hlogs⟩, ⟨fun _ => hlogs, fun _ => ht⟩⟩

theorem world_run :
    Run (Guarded (ApiStep env) fun w call => call.2.Fresh w.db ∧ call.2.Unused w.db)
      World.empty calls world := by
  have hnew : ∀ {w : World} {call : ApiCall} {id : Cuid} {token : JsString},
      Undrawn id token w.db → Guarded (ApiStep env)
        (fun w call => call.2.Fresh w.db ∧ call.2.Unused w.db) w (call, draw id token)
        (call.exec env (draw id token) w) := fun h => ⟨rfl, h.gen⟩
  exact (((((((Run.nil.snoc (hnew (by decide))).snoc (hnew (by decide))).snoc
    (hnew (by decide))).snoc (hnew (by decide))).snoc (hnew (by decide))).snoc
    (hnew (by decide))).snoc (hnew (by decide))).snoc (hnew (by decide))

end AuditReplay.Samples

open AuditReplay.Samples in
theorem trail_tells_demo :
    world.db.trailBooks Demo.orgId.val = (world.db.tenantView Demo.orgId.val).books ∧
    (world.db.trailBooks Demo.orgId.val).issues = [(TwoTenants.otherOrgId.val, 2)] ∧
    (world.db.trailBooks Demo.orgId.val).roles Demo.thirdId.val = some .MEMBER :=
  ⟨trail_tells world_run _, by decide, by decide⟩

end PmSaas
