import PmSaas.Attachments.AttachmentsService
import PmSaas.Billing.BillingService
import PmSaas.Orgs.OrgsService
import PmSaas.Projects.ProjectsService

/-!
# What the audit trail tells

An audit row says what was created, deleted or given to whom, by id and with some metadata.
`Books` is what an auditor can keep of an organization who reads nothing but its trail, row by row
(`Books.apply`): its projects and their keys, its issues and their numbers, its attachments, its
invites, the roles that were handed out, and its plan.  `Db.books` is what the tables hold of it, and
there is one lemma for each write of a service.
-/

namespace PmSaas

open Table

/-! ### Reading an audit row -/

/-- The string in a field of the metadata. -/
def AuditLog.str (log : AuditLog) (field : String) : JsString :=
  match log.metadata.bind (·.lookup field) with
  | some (.str s) => s
  | _ => []

/-- The number in a field of the metadata. -/
def AuditLog.num (log : AuditLog) (field : String) : ℤ :=
  match log.metadata.bind (·.lookup field) with
  | some (.num n) => n
  | _ => 0

/-- The role with this text. -/
def Role.ofText (s : JsString) : Option Role :=
  [Role.OWNER, .ADMIN, .MEMBER, .GUEST].find? (·.text == s)

/-- The plan with this text. -/
def SubscriptionPlan.ofText (s : JsString) : Option SubscriptionPlan :=
  [SubscriptionPlan.FREE, .PRO, .BUSINESS].find? (·.text == s)

theorem Role.ofText_text (role : Role) : Role.ofText role.text = some role := by
  cases role <;> rfl

theorem SubscriptionPlan.ofText_text (plan : SubscriptionPlan) :
    SubscriptionPlan.ofText plan.text = some plan := by
  cases plan <;> rfl

structure AttachmentNote where
  id : JsString
  issueId : JsString
  fileName : JsString
  size : ℤ
  deriving DecidableEq, Repr

structure InviteNote where
  id : JsString
  email : JsString
  role : Option Role
  accepted : Bool
  deriving DecidableEq, Repr

/-- What the trail of an organization tells. -/
structure Books where
  /-- The id and the key of each project. -/
  projects : List (JsString × JsString)
  /-- The id and the number of each issue. -/
  issues : List (JsString × ℤ)
  attachments : List AttachmentNote
  invites : List InviteNote
  /-- The role of a membership that somebody was given; the founder's is not recorded. -/
  roles : JsString → Option Role
  plan : Option SubscriptionPlan

namespace Books

/-- Before the first row. -/
def empty : Books := ⟨[], [], [], [], fun _ => none, none⟩

/-- An invite is written down, over an earlier one of the same id. -/
def noteInvite (note : InviteNote) (invites : List InviteNote) : List InviteNote :=
  if invites.any (·.id == note.id) then updateWhere (·.id == note.id) (fun _ => note) invites
  else invites ++ [note]

/-- The books after one more row. -/
def apply (b : Books) (log : AuditLog) : Books :=
  match log.action with
  | "org.created" => { b with plan := some .FREE }
  | "project.created" => { b with projects := b.projects ++ [(log.entityId, log.str "key")] }
  | "issue.created" => { b with issues := b.issues ++ [(log.entityId, log.num "number")] }
  | "issue.deleted" =>
      { b with
        issues := deleteWhere (·.1 == log.entityId) b.issues
        attachments := deleteWhere (·.issueId == log.entityId) b.attachments }
  | "attachment.created" =>
      { b with
        attachments := b.attachments ++
          [⟨log.entityId, log.str "issueId", log.str "fileName", log.num "size"⟩] }
  | "attachment.deleted" =>
      { b with attachments := deleteWhere (·.id == log.entityId) b.attachments }
  | "member.added" =>
      { b with roles := Function.update b.roles log.entityId (Role.ofText (log.str "role")) }
  | "member.invited" =>
      { b with
        invites := noteInvite
          ⟨log.entityId, log.str "email", Role.ofText (log.str "role"), false⟩ b.invites }
  | "invite.accepted" =>
      { b with
        roles := Function.update b.roles log.entityId
          ((b.invites.find? (·.id == log.str "inviteId")).bind (·.role))
        invites := updateWhere (·.id == log.str "inviteId")
          (fun i => { i with accepted := true }) b.invites }
  | "member.role_updated" =>
      { b with roles := Function.update b.roles log.entityId (Role.ofText (log.str "to")) }
  | "member.removed" => { b with roles := Function.update b.roles log.entityId none }
  | "billing.subscription_updated" =>
      { b with
        plan := if log.str "status" = js "canceled" then some .FREE
          else SubscriptionPlan.ofText (log.str "plan") }
  | _ => b

end Books

/-- What the tables hold of it. -/
def Db.books (db : Db) : Books where
  projects := db.projects.map fun p => (p.id, p.key)
  issues := db.issues.map fun i => (i.id, (i.number : ℤ))
  attachments := db.attachments.map fun a => ⟨a.id, a.issueId, a.fileName, a.size⟩
  invites := db.invites.map fun i => ⟨i.id, i.email, some i.role, i.acceptedAt.isSome⟩
  roles id := ((db.memberships.find? (·.id == id)).map Membership.role).filter (· != .OWNER)
  plan := (db.subscriptions.map Subscription.plan).head?

/-! ### What each write does to the books -/

namespace Db

variable {db : Db}

theorem books_insertProject (row : Project) :
    (db.insertProject row).books =
      { db.books with projects := db.books.projects ++ [(row.id, row.key)] } := by
  simp [books, insertProject]

/-- The counter is not in the books. -/
theorem books_bumpProject (id : JsString) (now : Date) : (db.bumpProject id now).books = db.books := by
  have hprojects : (db.bumpProject id now).projects.map (fun p => (p.id, p.key)) =
      db.projects.map fun p => (p.id, p.key) := map_updateWhere fun _ _ _ => rfl
  simp only [books, hprojects]
  rfl

theorem books_insertIssue (row : Issue) (labelIds : List JsString) :
    (db.insertIssue row labelIds).books =
      { db.books with issues := db.books.issues ++ [(row.id, (row.number : ℤ))] } := by
  simp [books, insertIssue]

/-- A rewrite keeps the id and the number. -/
theorem books_rewriteIssue (issueId : JsString) {f : Issue → Issue}
    (hf : ∀ i, (f i).id = i.id ∧ (f i).number = i.number) :
    (db.rewriteIssue issueId f).books = db.books := by
  have hissues : (db.rewriteIssue issueId f).issues.map (fun i => (i.id, (i.number : ℤ))) =
      db.issues.map fun i => (i.id, (i.number : ℤ)) :=
    map_updateWhere fun i _ _ => by rw [(hf i).1, (hf i).2]
  simp only [books, hissues]
  rfl

/-- The attachments of an issue go with it. -/
theorem books_dropIssue (issueId : JsString) :
    (db.dropIssue issueId).books =
      { db.books with
        issues := deleteWhere (·.1 == issueId) db.books.issues
        attachments := deleteWhere (·.issueId == issueId) db.books.attachments } := by
  simp only [books, dropIssue, map_deleteWhere]

theorem books_insertAttachment (row : Attachment) :
    (db.insertAttachment row).books =
      { db.books with
        attachments := db.books.attachments ++
          [⟨row.id, row.issueId, row.fileName, row.size⟩] } := by
  simp [books, insertAttachment]

theorem books_dropAttachment (id : JsString) :
    (db.dropAttachment id).books =
      { db.books with attachments := deleteWhere (·.id == id) db.books.attachments } := by
  simp only [books, dropAttachment, map_deleteWhere]

/-- A role other than `OWNER` is written into the row of one membership. -/
theorem books_setRole {p : Membership → Bool} {m : Membership} {role : Role}
    (hm : m ∈ db.memberships) (hp : ∀ x ∈ db.memberships, p x = true ↔ x.id = m.id)
    (hrole : role ≠ .OWNER) :
    ({ db with memberships := updateWhere p (fun x => { x with role := role }) db.memberships }
        : Db).books =
      { db.books with roles := Function.update db.books.roles m.id (some role) } := by
  simp only [books, Books.mk.injEq, true_and, and_true]
  funext id
  have hfind : (updateWhere p (fun x => { x with role := role }) db.memberships).find?
      (·.id == id) = (db.memberships.find? (·.id == id)).map
        fun x => if p x then { x with role := role } else x :=
    find?_updateWhere fun _ _ _ => rfl
  rw [hfind]
  by_cases hid : id = m.id
  · subst hid
    obtain ⟨x, hx⟩ : ∃ x, db.memberships.find? (·.id == m.id) = some x :=
      Option.isSome_iff_exists.1 (List.find?_isSome.2 ⟨m, hm, beq_self_eq_true _⟩)
    have hxid := List.find?_some hx
    have hpx : p x = true := (hp x (List.mem_of_find?_eq_some hx)).2 (beq_iff_eq.1 hxid)
    simp [hx, hpx, hrole]
  · rw [Function.update_of_ne hid]
    cases hx : db.memberships.find? (·.id == id) with
    | none => rfl
    | some x =>
        have hxid := List.find?_some hx
        have hpx : ¬p x = true := fun h =>
          hid ((beq_iff_eq.1 hxid).symm.trans ((hp x (List.mem_of_find?_eq_some hx)).1 h))
        simp [hpx]

/-- A role is noted unless it is a founder's. -/
theorem books_insertMembership {row : Membership} (hfresh : ∀ m ∈ db.memberships, m.id ≠ row.id) :
    (db.insertMembership row).books =
      { db.books with
        roles := Function.update db.books.roles row.id
          (if row.role = .OWNER then none else some row.role) } := by
  simp only [books, insertMembership, Books.mk.injEq, true_and, and_true]
  funext id
  rw [List.find?_append]
  by_cases hid : id = row.id
  · subst hid
    have hnone : db.memberships.find? (·.id == row.id) = none :=
      List.find?_eq_none.2 fun m hm => by simpa using hfresh m hm
    by_cases howner : row.role = .OWNER
    · simp [hnone, howner]
    · simp [hnone, howner]
  · rw [Function.update_of_ne hid]
    have hnone : [row].find? (·.id == id) = none := by simpa using Ne.symm hid
    rw [hnone, Option.or_none]

/-- The row of a founder does not show in the books. -/
theorem books_insertOwner {row : Membership} (hfresh : ∀ m ∈ db.memberships, m.id ≠ row.id)
    (howner : row.role = .OWNER) : (db.insertMembership row).books = db.books := by
  have hnone : db.books.roles row.id = none := by
    have hfind : db.memberships.find? (·.id == row.id) = none :=
      List.find?_eq_none.2 fun m hm => by simpa using hfresh m hm
    simp only [books, hfind]
    rfl
  rw [books_insertMembership hfresh, if_pos howner, Function.update_eq_self_iff.2 hnone.symm]

theorem books_dropMembership (id : JsString) :
    (db.dropMembership id).books =
      { db.books with roles := Function.update db.books.roles id none } := by
  simp only [books, dropMembership, Books.mk.injEq, true_and, and_true]
  funext other
  rw [deleteWhere, List.find?_filter]
  by_cases hid : other = id
  · subst hid
    rw [List.find?_eq_none.2 fun m _ => by simp, Function.update_self]
    rfl
  · rw [Function.update_of_ne hid]
    congr 3
    funext m
    by_cases hm : m.id = other
    · simp [hm, hid]
    · simp [hm]

theorem books_insertInvite {row : Invite} (hfresh : ∀ i ∈ db.invites, i.id ≠ row.id) :
    (db.insertInvite row).books =
      { db.books with
        invites := Books.noteInvite ⟨row.id, row.email, some row.role, row.acceptedAt.isSome⟩
          db.books.invites } := by
  have hnew : (db.books.invites.any (·.id == row.id)) = false := by
    simpa [books] using hfresh
  rw [Books.noteInvite, if_neg (by simp [hnew])]
  simp [books, insertInvite]

/-- The invite of the address is renewed under its old id. -/
theorem books_renewInvite {row old : Invite} (hids : UniqueKey Invite.id db.invites)
    (hpairs : UniqueKey (fun i : Invite => (i.organizationId, i.email)) db.invites)
    (hold : old ∈ db.invites) (horg : old.organizationId = row.organizationId)
    (hemail : old.email = row.email) :
    (db.renewInvite row).books =
      { db.books with
        invites := Books.noteInvite ⟨old.id, row.email, some row.role, row.acceptedAt.isSome⟩
          db.books.invites } := by
  have hknown : (db.books.invites.any (·.id == old.id)) = true := by
    simpa [books] using ⟨old, hold, rfl⟩
  have hrows : updateWhere (fun i => i.organizationId == row.organizationId && i.email == row.email)
      (fun i => { row with id := i.id, createdAt := i.createdAt }) db.invites =
        updateWhere (·.id == old.id)
          (fun i => { row with id := old.id, createdAt := i.createdAt }) db.invites := by
    refine List.map_congr_left fun i hi => ?_
    by_cases hid : i.id = old.id
    · obtain rfl := hids.eq_of_key_eq hi hold hid
      simp [horg, hemail]
    · have hpair : ¬(i.organizationId = row.organizationId ∧ i.email = row.email) := by
        rintro ⟨ho, he⟩
        exact hid (congrArg Invite.id (hpairs.eq_of_key_eq hi hold (by simp [ho, he, horg, hemail])))
      rw [if_neg (by simpa using hpair), if_neg (by simpa using hid)]
  rw [Books.noteInvite, if_pos hknown]
  simp only [books, renewInvite, hrows, Books.mk.injEq, true_and, and_true]
  exact map_updateWhere_of (fun _ => rfl) fun _ => rfl

theorem books_burnInvite {id : JsString} {now : Date} {db' : Db}
    (h : db.burnInvite id now = .ok ((), db')) :
    db'.books = { db.books with
      invites := updateWhere (·.id == id) (fun i => { i with accepted := true })
        db.books.invites } := by
  unfold burnInvite at h
  split at h
  · cases h
    simp only [books, Books.mk.injEq, true_and, and_true]
    exact map_updateWhere_of (fun _ => rfl) fun _ => rfl
  · cases h

/-- A rewrite that keeps the plan. -/
theorem books_rewriteSubscription {p : Subscription → Bool} {f : Subscription → Subscription}
    (hf : ∀ s, (f s).plan = s.plan) : (db.rewriteSubscription p f).books = db.books := by
  have hplans : (db.rewriteSubscription p f).subscriptions.map Subscription.plan =
      db.subscriptions.map Subscription.plan := map_updateWhere fun s _ _ => hf s
  simp only [books, hplans]
  rfl

/-- The one subscription is reconciled. -/
theorem books_reconciled {found : Subscription} (hone : db.subscriptions = [found]) (r : Reconciled)
    (now : Date) :
    (db.rewriteSubscription (·.id == found.id) (r.apply now)).books =
      { db.books with plan := some r.plan } := by
  simp [books, rewriteSubscription, hone, updateWhere, Reconciled.apply]

end Db

end PmSaas
