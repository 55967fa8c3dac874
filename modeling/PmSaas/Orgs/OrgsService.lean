import PmSaas.Auth.AuthService
import PmSaas.Lib.SortBy

/-!
# `orgs.service.ts`: organizations, members and invites

A membership row is written in two ways: `addMember` and `acceptInvite` upsert it by
`(userId, organizationId)`, `updateMemberRole` and `removeMember` look it up by the same pair and
then write by its id.
-/

namespace PmSaas

open SortBy Table JsString

/-! ### The Prisma calls -/

/-- `membership.findUnique({ where: { userId_organizationId } })`. -/
def Db.findMembership (userId organizationId : JsString) (db : Db) : Option Membership :=
  db.memberships.find? fun m => m.userId == userId && m.organizationId == organizationId

def Db.setMemberRole (userId organizationId : JsString) (role : Role) (db : Db) : Db :=
  { db with
    memberships := updateWhere (fun m => m.userId == userId && m.organizationId == organizationId)
      (fun m => { m with role := role }) db.memberships }

def Db.insertMembership (row : Membership) (db : Db) : Db :=
  { db with memberships := db.memberships ++ [row] }

/-- `membership.upsert({ where: { userId_organizationId }, update: { role }, create: … })`. -/
def Db.upsertMembership (userId organizationId : JsString) (role : Role) (id : Cuid) (now : Date)
    (db : Db) : Except Exn (Membership × Db) :=
  match db.findMembership userId organizationId with
  | some m => .ok ({ m with role := role }, db.setMemberRole userId organizationId role)
  | none =>
      if db.memberships.any (·.id == id.val) then .error (.prisma .uniqueConstraint)
      else if !db.users.any (·.id == userId) || !db.organizations.any (·.id == organizationId) then
        .error (.prisma .foreignKey)
      else .ok (⟨id.val, userId, organizationId, role, now⟩,
        db.insertMembership ⟨id.val, userId, organizationId, role, now⟩)

def Db.setRoleById (id : JsString) (role : Role) (db : Db) : Db :=
  { db with
    memberships := updateWhere (·.id == id) (fun m => { m with role := role }) db.memberships }

/-- `membership.update({ where: { id }, data: { role } })`. -/
def Db.updateMembership (id : JsString) (role : Role) (db : Db) : Except Exn (Membership × Db) :=
  match db.memberships.find? (·.id == id) with
  | none => .error (.prisma .recordNotFound)
  | some m => .ok ({ m with role := role }, db.setRoleById id role)

def Db.dropMembership (id : JsString) (db : Db) : Db :=
  { db with memberships := deleteWhere (·.id == id) db.memberships }

/-- `membership.delete({ where: { id } })`. -/
def Db.deleteMembership (id : JsString) (db : Db) : Except Exn (Unit × Db) :=
  if db.memberships.any (·.id == id) then .ok ((), db.dropMembership id)
  else .error (.prisma .recordNotFound)

/-- `invite.findUnique({ where: { tokenHash } })`. -/
def Db.findInvite (tokenHash : Sha256) (db : Db) : Option Invite :=
  db.invites.find? (·.tokenHash == tokenHash)

/-- The row with the new columns on the pending invite of the same address. -/
def Db.renewInvite (row : Invite) (db : Db) : Db :=
  { db with
    invites := updateWhere
      (fun i => i.organizationId == row.organizationId && i.email == row.email)
      (fun i => { row with id := i.id, createdAt := i.createdAt }) db.invites }

def Db.insertInvite (row : Invite) (db : Db) : Db := { db with invites := db.invites ++ [row] }

/-- `invite.upsert({ where: { organizationId_email }, … })`: the pending invite of an address is
renewed in place. -/
def Db.upsertInvite (row : Invite) (db : Db) : Except Exn (Invite × Db) :=
  match db.invites.find? fun i =>
      i.organizationId == row.organizationId && i.email == row.email with
  | some old =>
      if db.invites.any fun i => i.tokenHash == row.tokenHash && i.id != old.id then
        .error (.prisma .uniqueConstraint)
      else .ok ({ row with id := old.id, createdAt := old.createdAt }, db.renewInvite row)
  | none =>
      if db.invites.any fun i => i.id == row.id || i.tokenHash == row.tokenHash then
        .error (.prisma .uniqueConstraint)
      else if !db.organizations.any (·.id == row.organizationId) then .error (.prisma .foreignKey)
      else .ok (row, db.insertInvite row)

/-- `invite.update({ where: { id }, data: { acceptedAt } })`. -/
def Db.burnInvite (id : JsString) (now : Date) (db : Db) : Except Exn (Unit × Db) :=
  if db.invites.any (·.id == id) then .ok ((), { db with
    invites := updateWhere (·.id == id) (fun i => { i with acceptedAt := some now }) db.invites })
  else .error (.prisma .recordNotFound)

/-- A member as `listMembers` shows it. -/
structure MemberView where
  id : JsString
  role : Role
  createdAt : Date
  user : Option (UserBrief × JsString)
  deriving DecidableEq, Repr

/-- `user: { select: { id, name, email, avatarUrl } }` included. -/
def Db.memberView (m : Membership) (db : Db) : MemberView where
  id := m.id
  role := m.role
  createdAt := m.createdAt
  user := (db.users.find? (·.id == m.userId)).map fun u => (⟨u.id, u.name, u.avatarUrl⟩, u.email)

/-! ### What a committed write did -/

theorem Db.findMembership_some {userId organizationId : JsString} {db : Db} {m : Membership}
    (h : db.findMembership userId organizationId = some m) :
    m ∈ db.memberships ∧ m.userId = userId ∧ m.organizationId = organizationId := by
  have hp := List.find?_some h
  simp only [Bool.and_eq_true, beq_iff_eq] at hp
  exact ⟨List.mem_of_find?_eq_some h, hp.1, hp.2⟩

/-- An upsert rewrites the role of the member's row, or inserts one. -/
theorem Db.upsertMembership_ok {userId organizationId : JsString} {role : Role} {id : Cuid}
    {now : Date} {db db' : Db} {m : Membership}
    (h : db.upsertMembership userId organizationId role id now = .ok (m, db')) :
    db' = db.setMemberRole userId organizationId role ∨
      db' = db.insertMembership ⟨id.val, userId, organizationId, role, now⟩ ∧
        (∀ m ∈ db.memberships, m.id ≠ id.val) ∧ (∃ u ∈ db.users, u.id = userId) ∧
        ∃ o ∈ db.organizations, o.id = organizationId := by
  unfold Db.upsertMembership at h
  split at h
  · cases h
    exact .inl rfl
  · right
    split at h
    · cases h
    · rename_i huniq
      split at h
      · cases h
      · rename_i hfk
        cases h
        simp only [Bool.or_eq_true, Bool.not_eq_true', not_or, Bool.not_eq_false,
          List.any_eq_true, beq_iff_eq] at hfk
        exact ⟨rfl, by simpa using huniq, hfk.1, hfk.2⟩

/-- An upsert inserts a row only for a user who is no member. -/
theorem Db.upsertMembership_member {userId organizationId : JsString} {role : Role} {id : Cuid}
    {now : Date} {db db' : Db} {m old : Membership}
    (h : db.upsertMembership userId organizationId role id now = .ok (m, db'))
    (hold : db.findMembership userId organizationId = some old) :
    db' = db.setMemberRole userId organizationId role := by
  simp only [Db.upsertMembership, hold] at h
  cases h
  rfl

theorem Db.updateMembership_ok {id : JsString} {role : Role} {db db' : Db} {m : Membership}
    (h : db.updateMembership id role = .ok (m, db')) : db' = db.setRoleById id role := by
  unfold Db.updateMembership at h
  split at h
  · cases h
  · cases h
    rfl

theorem Db.deleteMembership_ok {id : JsString} {db db' : Db}
    (h : db.deleteMembership id = .ok ((), db')) : db' = db.dropMembership id := by
  unfold Db.deleteMembership at h
  split at h
  · cases h
    rfl
  · cases h

theorem Db.upsertInvite_ok {row invite : Invite} {db db' : Db}
    (h : db.upsertInvite row = .ok (invite, db')) :
    db' = db.renewInvite row ∨ db' = db.insertInvite row := by
  unfold Db.upsertInvite at h
  split at h
  · split at h
    · cases h
    · cases h
      exact .inl rfl
  · split_ifs at h
    cases h
    exact .inr rfl

theorem Db.burnInvite_ok {id : JsString} {now : Date} {db db' : Db}
    (h : db.burnInvite id now = .ok ((), db')) : ∃ invites, db' = { db with invites := invites } := by
  unfold Db.burnInvite at h
  split at h
  · cases h
    exact ⟨_, rfl⟩
  · cases h

/-- A burnt invite is not pending; the others stay. -/
theorem Db.mem_burnInvite {id : JsString} {now : Date} {db db' : Db}
    (h : db.burnInvite id now = .ok ((), db')) {i : Invite} (hi : i ∈ db'.invites) :
    ∃ old ∈ db.invites, (old.id ≠ id ∧ i = old) ∨
      (old.id = id ∧ i = { old with acceptedAt := some now }) := by
  unfold Db.burnInvite at h
  split at h
  · cases h
    obtain ⟨old, hold, rfl⟩ := mem_updateWhere.1 hi
    refine ⟨old, hold, ?_⟩
    by_cases hid : old.id = id
    · rw [if_pos (beq_iff_eq.2 hid)]
      exact .inr ⟨hid, rfl⟩
    · rw [if_neg fun h => hid (beq_iff_eq.1 h)]
      exact .inl ⟨hid, rfl⟩
  · cases h

/-- An upserted invite is the row, but for its id and its date; the others stay. -/
theorem Db.mem_upsertInvite {row invite i : Invite} {db db' : Db}
    (h : db.upsertInvite row = .ok (invite, db')) (hi : i ∈ db'.invites) :
    i ∈ db.invites ∨ ∃ id createdAt, i = { row with id := id, createdAt := createdAt } := by
  rcases Db.upsertInvite_ok h with rfl | rfl
  · obtain ⟨old, hold, rfl⟩ := mem_updateWhere.1 hi
    split
    · exact .inr ⟨old.id, old.createdAt, rfl⟩
    · exact .inl hold
  · rcases List.mem_append.1 hi with hi | hi
    · exact .inl hi
    · rw [List.mem_singleton.1 hi]
      exact .inr ⟨row.id, row.createdAt, rfl⟩

/-! ### The service -/

namespace OrgsService

def INVITE_TTL_MS : ℤ := 7 * 24 * 60 * 60 * 1000

def hashToken (token : JsString) : Sha256 := ⟨token⟩

def create (userId : JsString) (input : CreateOrgInput) (g : Gen) : Service Organization := do
  let clash ← Service.query (Db.slugTaken input.slug)
  Service.throwIf clash (.badRequest (js "Slug already taken"))
  let org ← Service.exec (Db.createOrganization (newOrganization userId input.name input.slug g))
  record
    { organizationId := org.id
      actorId := some userId
      action := "org.created"
      entityType := "Organization"
      entityId := org.id
      metadata := none }
    (g.cuid 3) g.now
  pure org

/-- An invite as `listInvites` shows it. -/
structure InviteView where
  id : JsString
  email : JsString
  role : Role
  expiresAt : Date
  createdAt : Date
  deriving DecidableEq, Repr

/-- The members, oldest membership first. -/
def listMembers (organizationId : JsString) : Service (List MemberView) :=
  Service.query fun db =>
    (sortBy Membership.createdAt
      (db.memberships.filter (·.organizationId == organizationId))).map fun m => db.memberView m

/-- The pending invites, latest first. -/
def listInvites (organizationId : JsString) : Service (List InviteView) :=
  Service.query fun db =>
    (sortBy (fun i : Invite => OrderDual.toDual i.createdAt)
      (db.invites.filter fun i => i.organizationId == organizationId && i.acceptedAt.isNone)).map
        fun i => ⟨i.id, i.email, i.role, i.expiresAt, i.createdAt⟩

/-- What `addMember` answers. -/
inductive AddedMember where
  | added (membershipId : JsString) (role : Role) (userId userEmail userName : JsString)
  | invited (inviteId email : JsString) (role : Role) (expiresAt : Date)
  deriving DecidableEq, Repr

/-- The row `addMember` upserts for an unknown address; the token is the call's random string. -/
def newInvite (organizationId actorId email : JsString) (role : GrantableRole) (g : Gen) :
    Invite where
  id := (g.cuid 0).val
  organizationId := organizationId
  email := email
  role := role.val
  tokenHash := hashToken (g.random 0)
  invitedById := actorId
  expiresAt := g.now + INVITE_TTL_MS
  acceptedAt := none
  createdAt := g.now

def inviteMail (env : Env) (orgName email token : JsString) (role : Role) : MailMessage where
  recipient := email
  subject := js "You've been invited to " ++ orgName
  text := js "You've been invited to join " ++ orgName ++ js " on PM SaaS as " ++ role.text ++
    js ".\n\nAccept your invite:\n" ++ env.WEB_ORIGIN ++ js "/invites/accept?token=" ++ token ++
    js "\n\nThis link expires in 7 days."

/-- Invite a member by email: add an existing user at once, else persist a tokened invite. -/
def addMember (env : Env) (organizationId actorId email : JsString) (role : GrantableRole)
    (g : Gen) : Service AddedMember := do
  let normalizedEmail := toLowerCase email
  let user ← Service.query (Db.findUserByEmail normalizedEmail)
  match user with
  | some user =>
      let membership ← Service.exec
        (Db.upsertMembership user.id organizationId role.val (g.cuid 0) g.now)
      record
        { organizationId := organizationId
          actorId := some actorId
          action := "member.added"
          entityType := "Membership"
          entityId := membership.id
          metadata := some [("email", .str normalizedEmail), ("role", .str role.val.text)] }
        (g.cuid 1) g.now
      pure (.added membership.id membership.role user.id user.email user.name)
  | none =>
      let invite ← Service.exec
        (Db.upsertInvite (newInvite organizationId actorId normalizedEmail role g))
      let org ← Service.query fun db => db.organizations.find? (·.id == organizationId)
      let org ← Service.orThrow org (.prisma .recordNotFound)
      sendMail (inviteMail env org.name normalizedEmail (g.random 0) role.val)
      record
        { organizationId := organizationId
          actorId := some actorId
          action := "member.invited"
          entityType := "Invite"
          entityId := invite.id
          metadata := some [("email", .str normalizedEmail), ("role", .str role.val.text)] }
        (g.cuid 1) g.now
      pure (.invited invite.id invite.email invite.role invite.expiresAt)

/-- `!invite || invite.acceptedAt || invite.expiresAt < new Date()` negated. -/
def pending (now : Date) (invite : Invite) : Bool :=
  invite.acceptedAt.isNone && !decide (invite.expiresAt < now)

/-- The transaction of `acceptInvite`: create the membership and burn the invite. -/
def acceptInviteTx (userId : JsString) (invite : Invite) (g : Gen) (db : Db) :
    Except Exn (Membership × Db) := do
  let (m, db) ← db.upsertMembership userId invite.organizationId invite.role (g.cuid 0) g.now
  let ((), db) ← db.burnInvite invite.id g.now
  pure (m, db)

theorem acceptInviteTx_ok {userId : JsString} {invite : Invite} {g : Gen} {db : Db}
    {r : Membership × Db} (h : acceptInviteTx userId invite g db = .ok r) :
    ∃ db₁, db.upsertMembership userId invite.organizationId invite.role (g.cuid 0) g.now =
        .ok (r.1, db₁) ∧
      db₁.burnInvite invite.id g.now = .ok ((), r.2) := by
  unfold acceptInviteTx at h
  cases hm : db.upsertMembership userId invite.organizationId invite.role (g.cuid 0) g.now with
  | error e =>
      rw [hm] at h
      cases h
  | ok r₁ =>
      simp only [hm, bind, Except.bind, pure, Except.pure] at h
      cases hb : r₁.2.burnInvite invite.id g.now with
      | error e =>
          rw [hb] at h
          cases h
      | ok r₂ =>
          rw [hb] at h
          cases h
          exact ⟨r₁.2, rfl, hb⟩

def acceptInvite (userId userEmail token : JsString) (g : Gen) : Service Membership := do
  let invite ← Service.query (Db.findInvite (hashToken token))
  let invite ← Service.orThrow (invite.filter (pending g.now))
    (.badRequest (js "Invite is invalid or has expired"))
  Service.throwIf (toLowerCase invite.email != toLowerCase userEmail)
    (.forbidden (js "This invite was issued to a different email"))
  let membership ← Service.exec (acceptInviteTx userId invite g)
  record
    { organizationId := invite.organizationId
      actorId := some userId
      action := "invite.accepted"
      entityType := "Membership"
      entityId := membership.id
      metadata := some [("inviteId", .str invite.id)] }
    (g.cuid 1) g.now
  pure membership

def updateMemberRole (organizationId actorId targetUserId : JsString) (role : GrantableRole)
    (g : Gen) : Service Membership := do
  let membership ← Service.query (Db.findMembership targetUserId organizationId)
  let membership ← Service.orThrow membership (.notFound (js "Member not found"))
  Service.throwIf (membership.role == .OWNER) (.forbidden (js "Cannot change the role of an owner"))
  let updated ← Service.exec (Db.updateMembership membership.id role.val)
  record
    { organizationId := organizationId
      actorId := some actorId
      action := "member.role_updated"
      entityType := "Membership"
      entityId := membership.id
      metadata := some [("from", .str membership.role.text), ("to", .str role.val.text)] }
    (g.cuid 0) g.now
  pure updated

def removeMember (organizationId actorId targetUserId : JsString) (g : Gen) : Service Unit := do
  let membership ← Service.query (Db.findMembership targetUserId organizationId)
  let membership ← Service.orThrow membership (.notFound (js "Member not found"))
  Service.throwIf (membership.role == .OWNER) (.forbidden (js "Cannot remove an owner"))
  Service.exec (Db.deleteMembership membership.id)
  record
    { organizationId := organizationId
      actorId := some actorId
      action := "member.removed"
      entityType := "Membership"
      entityId := membership.id
      metadata := some [("userId", .str targetUserId)] }
    (g.cuid 0) g.now

/-! ### What each method can do -/

/-- `create` throws and changes nothing, or its organization is created. -/
theorem create_cases (userId : JsString) (input : CreateOrgInput) (g : Gen) (w : World) :
    (create userId input g w).2 = w ∨
    ∃ org db, w.db.createOrganization (newOrganization userId input.name input.slug g) =
        .ok (org, db) ∧
      Aftermath org.id { w with db := db } (create userId input g w).2 := by
  rw [create, Service.query_bind, Service.throwIf_bind]
  split
  · exact .inl rfl
  · rw [Service.exec_bind]
    cases hc : w.db.createOrganization (newOrganization userId input.name input.slug g) with
    | error e => exact .inl rfl
    | ok r =>
        simp only [Service.record_bind]
        exact .inr ⟨r.1, r.2, rfl, .recorded ..⟩

/-- `addMember` throws and changes nothing, upserts the membership of a known user, or upserts an
invite. -/
theorem addMember_cases (env : Env) (organizationId actorId email : JsString)
    (role : GrantableRole) (g : Gen) (w : World) :
    (addMember env organizationId actorId email role g w).2 = w ∨
    (∃ user m db, w.db.findUserByEmail (toLowerCase email) = some user ∧
      w.db.upsertMembership user.id organizationId role.val (g.cuid 0) g.now = .ok (m, db) ∧
      Aftermath organizationId { w with db := db }
        (addMember env organizationId actorId email role g w).2) ∨
    ∃ invite db, w.db.findUserByEmail (toLowerCase email) = none ∧
      w.db.upsertInvite (newInvite organizationId actorId (toLowerCase email) role g) =
        .ok (invite, db) ∧
      Aftermath organizationId { w with db := db }
        (addMember env organizationId actorId email role g w).2 := by
  rw [addMember, Service.query_bind]
  cases hu : w.db.findUserByEmail (toLowerCase email) with
  | some user =>
      simp only [Service.exec_bind]
      cases hm : w.db.upsertMembership user.id organizationId role.val (g.cuid 0) g.now with
      | error e => exact .inl rfl
      | ok r =>
          simp only [Service.record_bind]
          exact .inr (.inl ⟨user, r.1, r.2, rfl, hm, .recorded ..⟩)
  | none =>
      simp only [Service.exec_bind]
      cases hi : w.db.upsertInvite (newInvite organizationId actorId (toLowerCase email) role g) with
      | error e => exact .inl rfl
      | ok r =>
          right
          right
          refine ⟨r.1, r.2, trivial, rfl, ?_⟩
          simp only [Service.query_bind, Service.orThrow_bind]
          cases r.2.organizations.find? (·.id == organizationId) with
          | none => exact .refl ..
          | some org =>
              simp only [Service.sendMail_bind, Service.record_bind]
              exact (Aftermath.mailed (.refl ..) _).trans (.recorded ..)

/-- `acceptInvite` throws and changes nothing, or upserts the membership a pending invite to the
caller's address names. -/
theorem acceptInvite_cases (userId userEmail token : JsString) (g : Gen) (w : World) :
    (acceptInvite userId userEmail token g w).2 = w ∨
    ∃ invite m db₁ db, w.db.findInvite (hashToken token) = some invite ∧
      pending g.now invite = true ∧ toLowerCase invite.email = toLowerCase userEmail ∧
      w.db.upsertMembership userId invite.organizationId invite.role (g.cuid 0) g.now =
        .ok (m, db₁) ∧
      db₁.burnInvite invite.id g.now = .ok ((), db) ∧
      Aftermath invite.organizationId { w with db := db }
        (acceptInvite userId userEmail token g w).2 := by
  rw [acceptInvite, Service.query_bind, Service.orThrow_bind]
  cases hi : w.db.findInvite (hashToken token) with
  | none => exact .inl rfl
  | some invite =>
      rw [Option.filter_some]
      by_cases hp : pending g.now invite = true
      · simp only [hp, if_true, Service.throwIf_bind]
        by_cases he : toLowerCase invite.email = toLowerCase userEmail
        · simp only [he, bne_self_eq_false, Bool.false_eq_true, if_false, Service.exec_bind]
          cases hm : w.db.upsertMembership userId invite.organizationId invite.role (g.cuid 0)
              g.now with
          | error e =>
              have htx : acceptInviteTx userId invite g w.db = .error e := by
                simp only [acceptInviteTx, hm, bind, Except.bind]
              simp only [htx]
              exact .inl trivial
          | ok r =>
              cases hb : r.2.burnInvite invite.id g.now with
              | error e =>
                  have htx : acceptInviteTx userId invite g w.db = .error e := by
                    simp only [acceptInviteTx, hm, hb, bind, Except.bind]
                  simp only [htx]
                  exact .inl trivial
              | ok r' =>
                  have htx : acceptInviteTx userId invite g w.db = .ok (r.1, r'.2) := by
                    simp only [acceptInviteTx, hm, hb, bind, Except.bind, pure, Except.pure]
                  simp only [htx, Service.record_bind]
                  exact .inr ⟨invite, r.1, r.2, r'.2, rfl, hp, he, hm, hb, .recorded ..⟩
        · have hne : (toLowerCase invite.email != toLowerCase userEmail) = true := by simpa using he
          simp only [hne, if_true]
          exact .inl trivial
      · simp only [hp]
        exact .inl rfl

/-- `updateMemberRole` throws and changes nothing, or writes the role of a member who is not an
owner. -/
theorem updateMemberRole_cases (organizationId actorId targetUserId : JsString)
    (role : GrantableRole) (g : Gen) (w : World) :
    (updateMemberRole organizationId actorId targetUserId role g w).2 = w ∨
    ∃ m, w.db.findMembership targetUserId organizationId = some m ∧ m.role ≠ .OWNER ∧
      Aftermath organizationId { w with db := w.db.setRoleById m.id role.val }
        (updateMemberRole organizationId actorId targetUserId role g w).2 := by
  rw [updateMemberRole, Service.query_bind, Service.orThrow_bind]
  cases hm : w.db.findMembership targetUserId organizationId with
  | none => exact .inl rfl
  | some m =>
      simp only [Service.throwIf_bind]
      split
      · exact .inl rfl
      · rename_i hrole
        simp only [Service.exec_bind]
        cases hu : w.db.updateMembership m.id role.val with
        | error e => exact .inl rfl
        | ok r =>
            simp only [Service.record_bind]
            refine .inr ⟨m, rfl, by simpa using hrole, ?_⟩
            rw [← Db.updateMembership_ok hu]
            exact .recorded ..

/-- `removeMember` throws and changes nothing, or deletes the row of a member who is not an
owner. -/
theorem removeMember_cases (organizationId actorId targetUserId : JsString) (g : Gen) (w : World) :
    (removeMember organizationId actorId targetUserId g w).2 = w ∨
    ∃ m, w.db.findMembership targetUserId organizationId = some m ∧ m.role ≠ .OWNER ∧
      Aftermath organizationId { w with db := w.db.dropMembership m.id }
        (removeMember organizationId actorId targetUserId g w).2 := by
  rw [removeMember, Service.query_bind, Service.orThrow_bind]
  cases hm : w.db.findMembership targetUserId organizationId with
  | none => exact .inl rfl
  | some m =>
      simp only [Service.throwIf_bind]
      split
      · exact .inl rfl
      · rename_i hrole
        simp only [Service.exec_bind]
        cases hd : w.db.deleteMembership m.id with
        | error e => exact .inl rfl
        | ok r =>
            refine .inr ⟨m, rfl, by simpa using hrole, ?_⟩
            rw [← Db.deleteMembership_ok hd]
            exact .recorded ..

end OrgsService

end PmSaas
