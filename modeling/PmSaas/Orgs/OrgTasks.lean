import PmSaas.Orgs.OrgsService

/-!
# Registration and membership requests, one database call at a time

An `OrgTask` is a request of `AuthService.register` or of the member routes stopped between two
database calls; `OrgTask.step` makes the next one.  `OrgTask.Step` lists what a step can do, and a
request that is never interrupted does what its service method does (`alone_eq_serve`).
-/

namespace PmSaas

open Table JsString

inductive OrgRequest where
  | register (input : RegisterInput) (device : DeviceInfo)
  | addMember (organizationId actorId email : JsString) (role : GrantableRole)
  | acceptInvite (userId userEmail token : JsString)
  | updateMemberRole (organizationId actorId targetUserId : JsString) (role : GrantableRole)
  | removeMember (organizationId actorId targetUserId : JsString)

/-- What follows an audit row. -/
inductive AfterAudit where
  | answer
  /-- `createOrgForUser` is through; `register` issues the tokens. -/
  | issue (user : User) (device : DeviceInfo)
  /-- `removeMember` is at its end. -/
  | removed (organizationId userId : JsString)

inductive OrgTask where
  | start (request : OrgRequest)
  /-- The address is not registered. -/
  | creatingUser (input : RegisterInput) (device : DeviceInfo)
  /-- The loop of `createOrgForUser` is at its `turn`-th candidate. -/
  | slugging (user : User) (name : JsString) (device : DeviceInfo) (turn : ℕ)
  | creatingOrg (user : User) (name slug : JsString) (device : DeviceInfo)
  | issuing (user : User) (device : DeviceInfo)
  /-- `addMember` has found a user. -/
  | upserting (user : User) (organizationId actorId email : JsString) (role : GrantableRole)
  /-- `addMember` has found no user of the normalized address. -/
  | inviting (organizationId actorId email : JsString) (role : GrantableRole)
  /-- The invite is stored; its mail names the organization. -/
  | mailing (invite : Invite) (organizationId actorId email token : JsString)
      (role : GrantableRole)
  /-- The invite is pending and the caller's. -/
  | accepting (userId : JsString) (invite : Invite)
  | updating (membership : Membership) (organizationId actorId : JsString) (role : GrantableRole)
  | deleting (membership : Membership) (organizationId actorId targetUserId : JsString)
  | auditing (entry : AuditEntry) (next : AfterAudit)
  | done (answer : Except Exn Unit)

namespace OrgTask

/-- `slugify(name) || 'org'`. -/
def slugBase (name : JsString) : JsString := if slugify name = [] then js "org" else slugify name

def orgCreatedEntry (user : User) (name slug orgId : JsString) : AuditEntry where
  organizationId := orgId
  actorId := some user.id
  action := "org.created"
  entityType := "Organization"
  entityId := orgId
  metadata := some [("slug", .str slug), ("name", .str name)]

def memberEntry (organizationId actorId : JsString) (action entityType : String)
    (entityId : JsString) (metadata : JsonObject) : AuditEntry where
  organizationId := organizationId
  actorId := some actorId
  action := action
  entityType := entityType
  entityId := entityId
  metadata := some metadata

/-- A write: on to the next point, or the error is the answer. -/
def written {α : Type} (result : Except Exn (α × Db)) (next : α → OrgTask) (w : World) :
    OrgTask × World :=
  match result with
  | .ok (a, db) => (next a, { w with db := db })
  | .error e => (.done (.error e), w)

/-- The next call of a task. -/
def step (env : Env) (g : Gen) : OrgTask → World → OrgTask × World
  | .start (.register input device), w =>
      if (w.db.findUserByEmail input.email).isSome then
        (.done (.error (.conflict (js "Email already registered"))), w)
      else (.creatingUser input device, w)
  | .start (.addMember organizationId actorId email role), w =>
      match w.db.findUserByEmail (toLowerCase email) with
      | some user => (.upserting user organizationId actorId (toLowerCase email) role, w)
      | none => (.inviting organizationId actorId (toLowerCase email) role, w)
  | .start (.acceptInvite userId userEmail token), w =>
      match (w.db.findInvite (OrgsService.hashToken token)).filter (OrgsService.pending g.now) with
      | none => (.done (.error (.badRequest (js "Invite is invalid or has expired"))), w)
      | some invite =>
          if toLowerCase invite.email != toLowerCase userEmail then
            (.done (.error (.forbidden (js "This invite was issued to a different email"))), w)
          else (.accepting userId invite, w)
  | .start (.updateMemberRole organizationId actorId targetUserId role), w =>
      match w.db.findMembership targetUserId organizationId with
      | none => (.done (.error (.notFound (js "Member not found"))), w)
      | some m =>
          if m.role == .OWNER then
            (.done (.error (.forbidden (js "Cannot change the role of an owner"))), w)
          else (.updating m organizationId actorId role, w)
  | .start (.removeMember organizationId actorId targetUserId), w =>
      match w.db.findMembership targetUserId organizationId with
      | none => (.done (.error (.notFound (js "Member not found"))), w)
      | some m =>
          if m.role == .OWNER then
            (.done (.error (.forbidden (js "Cannot remove an owner"))), w)
          else (.deleting m organizationId actorId targetUserId, w)
  | .creatingUser input device, w =>
      written (w.db.createUser (AuthService.newUser input g))
        (fun user => match truthy input.orgName with
          | some name => .slugging user name device 0
          | none => .issuing user device) w
  | .slugging user name device turn, w =>
      if w.db.slugTaken (slugCandidate (slugBase name) turn) then
        (.slugging user name device (turn + 1), w)
      else (.creatingOrg user name (slugCandidate (slugBase name) turn) device, w)
  | .creatingOrg user name slug device, w =>
      written (w.db.createOrganization (newOrganization user.id name slug g))
        (fun org => .auditing (orgCreatedEntry user name slug org.id) (.issue user device)) w
  | .issuing user device, w =>
      ((.done ((TokenService.issueForUser env ⟨user.id, user.email⟩ device g w).1.map fun _ => ())),
        (TokenService.issueForUser env ⟨user.id, user.email⟩ device g w).2)
  | .upserting user organizationId actorId email role, w =>
      written (w.db.upsertMembership user.id organizationId role.val (g.cuid 0) g.now)
        (fun membership => .auditing (memberEntry organizationId actorId "member.added"
          "Membership" membership.id [("email", .str email), ("role", .str role.val.text)])
            .answer) w
  | .inviting organizationId actorId email role, w =>
      written (w.db.upsertInvite (OrgsService.newInvite organizationId actorId email role g))
        (fun invite => .mailing invite organizationId actorId email (g.random 0) role) w
  | .mailing invite organizationId actorId email token role, w =>
      match w.db.organizations.find? (·.id == organizationId) with
      | none => (.done (.error (.prisma .recordNotFound)), w)
      | some org =>
          (.auditing (memberEntry organizationId actorId "member.invited" "Invite" invite.id
            [("email", .str email), ("role", .str role.val.text)]) .answer,
            w.mailed (OrgsService.inviteMail env org.name email token role.val))
  | .accepting userId invite, w =>
      written (OrgsService.acceptInviteTx userId invite g w.db)
        (fun membership => .auditing (memberEntry invite.organizationId userId "invite.accepted"
          "Membership" membership.id [("inviteId", .str invite.id)]) .answer) w
  | .updating m organizationId actorId role, w =>
      written (w.db.updateMembership m.id role.val)
        (fun _ => .auditing (memberEntry organizationId actorId "member.role_updated" "Membership"
          m.id [("from", .str m.role.text), ("to", .str role.val.text)]) .answer) w
  | .deleting m organizationId actorId targetUserId, w =>
      written (w.db.deleteMembership m.id)
        (fun _ => .auditing (memberEntry organizationId actorId "member.removed" "Membership" m.id
          [("userId", .str targetUserId)]) (.removed organizationId targetUserId)) w
  | .auditing entry next, w =>
      (match next with
        | .issue user device => .issuing user device
        | _ => .done (.ok ()),
        w.recorded entry (g.cuid 0) g.now)
  | .done answer, w => (.done answer, w)

/-! ### What one step can do -/

/-- The steps of a task, by what they find and write. -/
inductive Step (env : Env) (g : Gen) (w : World) : OrgTask → OrgTask → World → Prop
  /-- A read that finds nothing of a member or an invite, or an answer. -/
  | quiet {task task' : OrgTask} (idle : (∃ answer, task' = .done answer) ∨
        (∃ input device, task' = .creatingUser input device) ∨
        (∃ user name device turn, task = .slugging user name device turn ∧
          ((∃ turn, task' = .slugging user name device turn) ∨
            ∃ slug, task' = .creatingOrg user name slug device)) ∨
        ∃ m organizationId actorId role, task' = .updating m organizationId actorId role) :
      Step env g w task task' w
  | findUser {organizationId actorId email : JsString} {role : GrantableRole} {user : User}
      (known : w.db.findUserByEmail (toLowerCase email) = some user) :
      Step env g w (.start (.addMember organizationId actorId email role))
        (.upserting user organizationId actorId (toLowerCase email) role) w
  | findNobody {organizationId actorId email : JsString} {role : GrantableRole}
      (unknown : w.db.findUserByEmail (toLowerCase email) = none) :
      Step env g w (.start (.addMember organizationId actorId email role))
        (.inviting organizationId actorId (toLowerCase email) role) w
  | findInvite {userId userEmail token : JsString} {invite : Invite}
      (known : w.db.findInvite (OrgsService.hashToken token) = some invite)
      (pending : OrgsService.pending g.now invite = true)
      (addressed : toLowerCase invite.email = toLowerCase userEmail) :
      Step env g w (.start (.acceptInvite userId userEmail token)) (.accepting userId invite) w
  | findMember {organizationId actorId targetUserId : JsString} {m : Membership}
      (known : w.db.findMembership targetUserId organizationId = some m)
      (role : m.role ≠ .OWNER) :
      Step env g w (.start (.removeMember organizationId actorId targetUserId))
        (.deleting m organizationId actorId targetUserId) w
  | createUser {input : RegisterInput} {device : DeviceInfo} {user : User} {db : Db}
      (committed : w.db.createUser (AuthService.newUser input g) = .ok (user, db))
      {task' : OrgTask} (next : (∃ name, task' = .slugging user name device 0) ∨
        task' = .issuing user device) :
      Step env g w (.creatingUser input device) task' { w with db := db }
  | createOrg {user : User} {name slug : JsString} {device : DeviceInfo} {org : Organization}
      {db : Db} (committed : w.db.createOrganization (newOrganization user.id name slug g) =
        .ok (org, db)) :
      Step env g w (.creatingOrg user name slug device)
        (.auditing (orgCreatedEntry user name slug org.id) (.issue user device))
        { w with db := db }
  | issue (user : User) (device : DeviceInfo) (answer : Except Exn Unit) :
      Step env g w (.issuing user device) (.done answer)
        (TokenService.issueForUser env ⟨user.id, user.email⟩ device g w).2
  | upsert {user : User} {organizationId actorId email : JsString} {role : GrantableRole}
      {m : Membership} {db : Db} (committed : w.db.upsertMembership user.id organizationId
        role.val (g.cuid 0) g.now = .ok (m, db)) {entry : AuditEntry} :
      Step env g w (.upserting user organizationId actorId email role) (.auditing entry .answer)
        { w with db := db }
  | invite {organizationId actorId email : JsString} {role : GrantableRole} {invite : Invite}
      {db : Db} (committed : w.db.upsertInvite
        (OrgsService.newInvite organizationId actorId email role g) = .ok (invite, db)) :
      Step env g w (.inviting organizationId actorId email role)
        (.mailing invite organizationId actorId email (g.random 0) role) { w with db := db }
  | mail {invite : Invite} {organizationId actorId email token : JsString}
      {role : GrantableRole} {entry : AuditEntry} (msg : MailMessage) :
      Step env g w (.mailing invite organizationId actorId email token role)
        (.auditing entry .answer) (w.mailed msg)
  | accept {userId : JsString} {invite : Invite} {m : Membership} {db₁ db : Db}
      (member : w.db.upsertMembership userId invite.organizationId invite.role (g.cuid 0) g.now =
        .ok (m, db₁))
      (burned : db₁.burnInvite invite.id g.now = .ok ((), db)) {entry : AuditEntry} :
      Step env g w (.accepting userId invite) (.auditing entry .answer) { w with db := db }
  | update {m : Membership} {organizationId actorId : JsString} {role : GrantableRole}
      {entry : AuditEntry} :
      Step env g w (.updating m organizationId actorId role) (.auditing entry .answer)
        { w with db := w.db.setRoleById m.id role.val }
  | delete {m : Membership} {organizationId actorId targetUserId : JsString}
      {entry : AuditEntry} (known : ∃ row ∈ w.db.memberships, row.id = m.id) :
      Step env g w (.deleting m organizationId actorId targetUserId)
        (.auditing entry (.removed organizationId targetUserId))
        { w with db := w.db.dropMembership m.id }
  | audit (entry : AuditEntry) (next : AfterAudit) {task' : OrgTask}
      (after : (∃ answer, task' = .done answer) ∨ ∃ user device, task' = .issuing user device) :
      Step env g w (.auditing entry next) task' (w.recorded entry (g.cuid 0) g.now)

section Spec

variable {env : Env} {g : Gen} {w : World}

theorem Step.answered {task : OrgTask} (answer : Except Exn Unit) :
    Step env g w task (.done answer) w :=
  .quiet (.inl ⟨answer, rfl⟩)

/-- The first call of a request. -/
theorem step_start (request : OrgRequest) :
    Step env g w (.start request) (step env g (.start request) w).1
      (step env g (.start request) w).2 := by
  cases request with
  | register input device =>
      rw [step]
      split
      · exact .answered _
      · exact .quiet (.inr (.inl ⟨input, device, rfl⟩))
  | addMember organizationId actorId email role =>
      rw [step]
      cases hu : w.db.findUserByEmail (toLowerCase email) with
      | some user => exact .findUser hu
      | none => exact .findNobody hu
  | acceptInvite userId userEmail token =>
      rw [step]
      cases hi : w.db.findInvite (OrgsService.hashToken token) with
      | none => exact .answered _
      | some invite =>
          rw [Option.filter_some]
          by_cases hp : OrgsService.pending g.now invite = true
          · simp only [hp, if_true]
            by_cases he : toLowerCase invite.email = toLowerCase userEmail
            · rw [if_neg (by simpa using he)]
              exact .findInvite hi hp he
            · rw [if_pos (by simpa using he)]
              exact .answered _
          · simp only [hp]
            exact .answered _
  | updateMemberRole organizationId actorId targetUserId role =>
      rw [step]
      cases w.db.findMembership targetUserId organizationId with
      | none => exact .answered _
      | some m =>
          simp only
          split
          · exact .answered _
          · exact .quiet (.inr (.inr (.inr ⟨m, organizationId, actorId, role, rfl⟩)))
  | removeMember organizationId actorId targetUserId =>
      rw [step]
      cases hm : w.db.findMembership targetUserId organizationId with
      | none => exact .answered _
      | some m =>
          simp only
          split
          · exact .answered _
          · rename_i hrole
            exact .findMember hm (by simpa using hrole)

/-- **Nothing but a `Step` happens.** -/
theorem step_spec (task : OrgTask) :
    Step env g w task (step env g task w).1 (step env g task w).2 := by
  cases task with
  | start request => exact step_start request
  | creatingUser input device =>
      rw [step]
      cases hc : w.db.createUser (AuthService.newUser input g) with
      | error e => exact .answered _
      | ok r =>
          refine .createUser hc ?_
          cases truthy input.orgName with
          | some name => exact .inl ⟨name, rfl⟩
          | none => exact .inr rfl
  | slugging user name device turn =>
      rw [step]
      split
      · exact .quiet (.inr (.inr (.inl ⟨user, name, device, turn, rfl, .inl ⟨_, rfl⟩⟩)))
      · exact .quiet (.inr (.inr (.inl ⟨user, name, device, turn, rfl, .inr ⟨_, rfl⟩⟩)))
  | creatingOrg user name slug device =>
      rw [step]
      cases hc : w.db.createOrganization (newOrganization user.id name slug g) with
      | error e => exact .answered _
      | ok r => exact .createOrg hc
  | issuing user device => exact .issue ..
  | upserting user organizationId actorId email role =>
      rw [step]
      cases hm : w.db.upsertMembership user.id organizationId role.val (g.cuid 0) g.now with
      | error e => exact .answered _
      | ok r => exact .upsert hm
  | inviting organizationId actorId email role =>
      rw [step]
      cases hi : w.db.upsertInvite (OrgsService.newInvite organizationId actorId email role g) with
      | error e => exact .answered _
      | ok r => exact .invite hi
  | mailing invite organizationId actorId email token role =>
      rw [step]
      cases w.db.organizations.find? (·.id == organizationId) with
      | none => exact .answered _
      | some org => exact .mail _
  | accepting userId invite =>
      rw [step]
      cases ha : OrgsService.acceptInviteTx userId invite g w.db with
      | error e => exact .answered _
      | ok r =>
          obtain ⟨db₁, hm, hb⟩ := OrgsService.acceptInviteTx_ok ha
          exact .accept hm hb
  | updating m organizationId actorId role =>
      rw [step]
      cases hu : w.db.updateMembership m.id role.val with
      | error e => exact .answered _
      | ok r =>
          obtain ⟨row, db⟩ := r
          obtain rfl := Db.updateMembership_ok hu
          exact .update
  | deleting m organizationId actorId targetUserId =>
      rw [step]
      cases hd : w.db.deleteMembership m.id with
      | error e => exact .answered _
      | ok r =>
          obtain ⟨_, db⟩ := r
          obtain rfl := Db.deleteMembership_ok hd
          refine .delete ?_
          unfold Db.deleteMembership at hd
          split at hd
          · rename_i hany
            simpa using hany
          · cases hd
  | auditing entry next =>
      cases next with
      | answer => exact .audit entry _ (.inl ⟨_, rfl⟩)
      | issue user device => exact .audit entry _ (.inr ⟨user, device, rfl⟩)
      | removed organizationId userId => exact .audit entry _ (.inl ⟨_, rfl⟩)
  | done answer => exact .answered _

end Spec

/-! ### A request on its own -/

/-- The answer without its value. -/
def forget {α : Type} (r : Except Exn α × World) : Except Exn Unit × World :=
  (r.1.map fun _ => (), r.2)

/-- The service method a request calls. -/
def serve (env : Env) (g : Gen) : OrgRequest → World → Except Exn Unit × World
  | .register input device, w => forget (AuthService.register env input device g w)
  | .addMember organizationId actorId email role, w =>
      forget (OrgsService.addMember env organizationId actorId email role g w)
  | .acceptInvite userId userEmail token, w =>
      forget (OrgsService.acceptInvite userId userEmail token g w)
  | .updateMemberRole organizationId actorId targetUserId role, w =>
      forget (OrgsService.updateMemberRole organizationId actorId targetUserId role g w)
  | .removeMember organizationId actorId targetUserId, w =>
      OrgsService.removeMember organizationId actorId targetUserId g w

/-- The values of a whole service call, handed out to its steps: earlier steps have used up ids. -/
def gens (g : Gen) (request : OrgRequest) : OrgTask → Gen
  | .creatingOrg _ _ _ _ => g.skip 1
  | .auditing _ (.issue _ _) => g.skip 4
  | .issuing _ _ => g.skip 5
  | .auditing _ _ =>
      match request with
      | .updateMemberRole _ _ _ _ | .removeMember _ _ _ => g
      | _ => g.skip 1
  | _ => g

/-- A task run on without interruption leads from `s` to `s'`. -/
def Alone (env : Env) (g : Gen) (request : OrgRequest) (s s' : OrgTask × World) : Prop :=
  ∃ n, (fun s : OrgTask × World => step env (gens g request s.1) s.1 s.2)^[n] s = s'

section Alone

variable {env : Env} {g : Gen} {request : OrgRequest} {s s' : OrgTask × World}

theorem Alone.refl (s : OrgTask × World) : Alone env g request s s := ⟨0, rfl⟩

theorem Alone.cons (h : Alone env g request (step env (gens g request s.1) s.1 s.2) s') :
    Alone env g request s s' := by
  obtain ⟨n, hn⟩ := h
  exact ⟨n + 1, (Function.iterate_succ_apply ..).trans hn⟩

/-- The loop over the slugs. -/
theorem alone_slugging (user : User) (name : JsString) (device : DeviceInfo) (w : World)
    (fuel turn : ℕ) (hfree : w.db.slugTaken (slugLoop (slugBase name) w.db fuel turn) = false)
    (h : Alone env g request
      (.creatingOrg user name (slugLoop (slugBase name) w.db fuel turn) device, w) s') :
    Alone env g request (.slugging user name device turn, w) s' := by
  induction fuel generalizing turn with
  | zero =>
      refine .cons ?_
      rw [slugLoop] at hfree h
      rw [step, if_neg (by simp [hfree])]
      exact h
  | succ fuel ih =>
      refine .cons ?_
      rw [slugLoop] at hfree h
      rw [step]
      split
      · rename_i htaken
        rw [if_pos htaken] at hfree h
        exact ih (turn + 1) hfree h
      · rename_i hnot
        rw [if_neg hnot] at h
        exact h

/-- The end of `register`. -/
theorem forget_issue {β : Type} (user : AuthUser) (device : DeviceInfo) (f : IssuedTokens → β)
    (w : World) : forget ((do
        let tokens ← TokenService.issueForUser env user device g
        pure (f tokens) : Service β) w) =
      ((TokenService.issueForUser env user device g w).1.map fun _ => (),
        (TokenService.issueForUser env user device g w).2) := by
  rw [Service.bind_apply]
  rcases TokenService.issueForUser env user device g w with ⟨_ | _, w'⟩ <;> rfl

/-- Left alone, the request does what the service method does. -/
def AsServed (env : Env) (g : Gen) (w : World) (request : OrgRequest) : Prop :=
  Alone env g request (.start request, w)
    (.done (serve env g request w).1, (serve env g request w).2)

variable {w : World}

theorem asServed_register (input : RegisterInput) (device : DeviceInfo) :
    AsServed env g w (.register input device) := by
  refine Alone.cons ?_
  rw [serve, AuthService.register, Service.query_bind, Service.throwIf_bind, step]
  split
  · exact .refl _
  · refine .cons ?_
    simp only [Service.exec_bind, step, gens]
    cases w.db.createUser (AuthService.newUser input g) with
    | error e => exact .refl _
    | ok r =>
        obtain ⟨user, db⟩ := r
        simp only [written]
        cases truthy input.orgName with
        | none =>
            simp only [forget_issue]
            exact .cons (.refl _)
        | some name =>
            refine alone_slugging user name device { w with db := db }
              db.organizations.length 0 (freeSlug_free _ db) (.cons ?_)
            simp only [AuthService.createOrgForUser, Service.bind_assoc, Service.query_bind,
              Service.exec_bind, step, gens]
            show Alone env g _ (written (db.createOrganization (newOrganization user.id name
              (freeSlug (slugBase name) db) (g.skip 1))) _ _) _
            simp only [slugBase, freeSlug]
            cases db.createOrganization (newOrganization user.id name
                (slugLoop (if slugify name = [] then js "org" else slugify name) db
                  db.organizations.length 0) (g.skip 1)) with
            | error e => exact .refl _
            | ok r =>
                simp only [Service.record_bind, forget_issue]
                exact .cons (.cons (.refl _))

theorem asServed_addMember (organizationId actorId email : JsString) (role : GrantableRole) :
    AsServed env g w (.addMember organizationId actorId email role) := by
  refine Alone.cons ?_
  rw [serve, forget, OrgsService.addMember, Service.query_bind, step]
  cases w.db.findUserByEmail (toLowerCase email) with
  | some user =>
      refine .cons ?_
      simp only [Service.exec_bind]
      rw [step]
      simp only [gens]
      cases w.db.upsertMembership user.id organizationId role.val (g.cuid 0) g.now with
      | error e => exact .refl _
      | ok r =>
          simp only [Service.record_bind]
          exact .cons (.refl _)
  | none =>
      refine .cons ?_
      simp only [Service.exec_bind]
      rw [step]
      simp only [gens]
      cases w.db.upsertInvite
          (OrgsService.newInvite organizationId actorId (toLowerCase email) role g) with
      | error e => exact .refl _
      | ok r =>
          refine .cons ?_
          simp only [written, step, Service.query_bind, Service.orThrow_bind]
          cases r.2.organizations.find? (·.id == organizationId) with
          | none => exact .refl _
          | some org =>
              simp only [Service.sendMail_bind, Service.record_bind]
              exact .cons (.refl _)

theorem asServed_acceptInvite (userId userEmail token : JsString) :
    AsServed env g w (.acceptInvite userId userEmail token) := by
  refine Alone.cons ?_
  rw [serve, forget, OrgsService.acceptInvite, Service.query_bind, Service.orThrow_bind, step]
  simp only [gens]
  cases (w.db.findInvite (OrgsService.hashToken token)).filter
      (OrgsService.pending g.now) with
  | none => exact .refl _
  | some invite =>
      simp only [Service.throwIf_bind]
      split
      · exact .refl _
      · refine .cons ?_
        simp only [Service.exec_bind, step, gens]
        cases OrgsService.acceptInviteTx userId invite g w.db with
        | error e => exact .refl _
        | ok r =>
            simp only [Service.record_bind]
            exact .cons (.refl _)

theorem asServed_updateMemberRole (organizationId actorId targetUserId : JsString)
    (role : GrantableRole) :
    AsServed env g w (.updateMemberRole organizationId actorId targetUserId role) := by
  refine Alone.cons ?_
  rw [serve, forget, OrgsService.updateMemberRole, Service.query_bind, Service.orThrow_bind,
    step]
  cases w.db.findMembership targetUserId organizationId with
  | none => exact .refl _
  | some m =>
      simp only [Service.throwIf_bind]
      split
      · exact .refl _
      · refine .cons ?_
        simp only [Service.exec_bind, step]
        cases w.db.updateMembership m.id role.val with
        | error e => exact .refl _
        | ok r =>
            simp only [Service.record_bind]
            exact .cons (.refl _)

theorem asServed_removeMember (organizationId actorId targetUserId : JsString) :
    AsServed env g w (.removeMember organizationId actorId targetUserId) := by
  refine Alone.cons ?_
  rw [serve, OrgsService.removeMember, Service.query_bind, Service.orThrow_bind, step]
  cases w.db.findMembership targetUserId organizationId with
  | none => exact .refl _
  | some m =>
      simp only [Service.throwIf_bind]
      split
      · exact .refl _
      · refine .cons ?_
        simp only [Service.exec_bind, step]
        cases w.db.deleteMembership m.id with
        | error e => exact .refl _
        | ok r =>
            simp only [Service.record_apply]
            exact .cons (.refl _)

/-- **A request that is not interrupted does what the service method does.** -/
theorem alone_eq_serve (request : OrgRequest) (w : World) :
    Alone env g request (.start request, w)
      (.done (serve env g request w).1, (serve env g request w).2) := by
  cases request with
  | register input device => exact asServed_register ..
  | addMember organizationId actorId email role => exact asServed_addMember ..
  | acceptInvite userId userEmail token => exact asServed_acceptInvite ..
  | updateMemberRole organizationId actorId targetUserId role => exact asServed_updateMemberRole ..
  | removeMember organizationId actorId targetUserId => exact asServed_removeMember ..

end Alone

end OrgTask

end PmSaas
