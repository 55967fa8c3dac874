import PmSaas.Api.Changes

/-!
# `seed.ts`: the demo data

`main` upserts three users, the organization `acme` with its project `PM`, and the issues 1 to 7 of
the project, each with `update: {}`: a row that is there stays as it is.  At the end it sets the
`issueCounter` of the project.
-/

namespace PmSaas

open Table

namespace JsString

/-- `Number.prototype.toString(36)` of a natural number. -/
def toString36 (n : ℕ) : JsString :=
  if n = 0 then js "0"
  else (Nat.digits 36 n).reverse.map fun d => Fin.ofNat _ (if d < 10 then 48 + d else 87 + d)

/-- `.padStart(length, c)` with a single code unit `c`. -/
def padStart (length : ℕ) (c : CodeUnit) (s : JsString) : JsString :=
  List.replicate (length - s.length) c ++ s

end JsString

/-! ### The Prisma calls -/

/-- `user.upsert({ where: { email }, update: {}, create: … })`. -/
def Db.upsertUser (row : User) (db : Db) : Except Exn (User × Db) :=
  match db.findUserByEmail row.email with
  | some u => .ok (u, db)
  | none => db.createUser row

/-- `organization.findUnique({ where: { slug } })`. -/
def Db.findOrganization (slug : JsString) (db : Db) : Option Organization :=
  db.organizations.find? (·.slug == slug)

/-- The rows the demo organization comes with. -/
structure SeedOrganization where
  organization : Organization
  subscription : Subscription
  memberships : List Membership
  team : Team

def Db.insertSeedOrganization (new : SeedOrganization) (db : Db) : Db :=
  { db with
    organizations := db.organizations ++ [new.organization]
    subscriptions := db.subscriptions ++ [new.subscription]
    memberships := db.memberships ++ new.memberships
    teams := db.teams ++ [new.team] }

/-- `organization.upsert({ where: { slug }, update: {}, create: …, include: { teams: true } })`. -/
def Db.upsertOrganization (new : SeedOrganization) (db : Db) : Except Exn (Organization × Db) :=
  match db.findOrganization new.organization.slug with
  | some org => .ok (org, db)
  | none =>
      if db.organizations.any (·.id == new.organization.id) ||
          db.subscriptions.any (·.id == new.subscription.id) ||
          new.memberships.any (fun m => db.memberships.any (·.id == m.id)) ||
          !decide (new.memberships.map Membership.id).Nodup ||
          !decide (new.memberships.map Membership.userId).Nodup ||
          db.teams.any (·.id == new.team.id) then
        .error (.prisma .uniqueConstraint)
      else if new.memberships.any (fun m => !db.users.any (·.id == m.userId)) then
        .error (.prisma .foreignKey)
      else .ok (new.organization, db.insertSeedOrganization new)

/-- `org.teams[0]?.id`. -/
def Db.firstTeam (organizationId : JsString) (db : Db) : Option JsString :=
  (db.teams.find? (·.organizationId == organizationId)).map Team.id

/-- `project.upsert({ where: { organizationId_key }, update: {}, create: … })`. -/
def Db.upsertProject (row : Project) (db : Db) : Except Exn (Project × Db) :=
  match db.findProject row.organizationId row.key with
  | some p => .ok (p, db)
  | none => db.createProject row

/-- `issue.upsert({ where: { projectId_number }, update: {}, create: … })`. -/
def Db.upsertIssue (row : Issue) (db : Db) : Except Exn (Unit × Db) :=
  if db.issues.any fun i => i.projectId == row.projectId && i.number == row.number then
    .ok ((), db)
  else (db.createIssue row []).map fun r => ((), r.2)

/-- `data: { issueCounter }`. -/
def Project.setIssueCounter (issueCounter : ℕ) (now : Date) (p : Project) : Project :=
  { p with issueCounter := issueCounter, updatedAt := now }

/-- `project.update({ where: { id }, data: { issueCounter } })`. -/
def Db.setIssueCounter (projectId : JsString) (issueCounter : ℕ) (now : Date) (db : Db) :
    Except Exn (Unit × Db) :=
  if db.projects.any (·.id == projectId) then
    .ok ((), { db with
      projects := updateWhere (·.id == projectId) (Project.setIssueCounter issueCounter now)
        db.projects })
  else .error (.prisma .recordNotFound)

/-! ### The rows -/

namespace Seed

open JsString

/-- Base-36 zero-padded keeps lexicographic order matching numeric order. -/
def rankAt (i : ℕ) : JsString := padStart 6 48 (toString36 (i * 1000))

def ownerEmail : JsString := js "owner@acme.test"
def aliceEmail : JsString := js "alice@acme.test"
def bobEmail : JsString := js "bob@acme.test"

def newUser (email name : JsString) (id : Cuid) (now : Date) : User where
  id := id.val
  email := email
  passwordHash := some (Bcrypt.hash (js "password123"))
  name := name
  avatarUrl := none
  createdAt := now
  updatedAt := now
  emailOnAssigned := true
  emailOnMentioned := true
  emailOnComment := true

def newOrganization (owner alice bob : User) (g : Gen) : SeedOrganization where
  organization := ⟨(g.cuid 0).val, js "acme", js "Acme Inc.", g.now, g.now⟩
  subscription :=
    ⟨(g.cuid 1).val, (g.cuid 0).val, none, none, .FREE, .ACTIVE, 5, none, false, g.now⟩
  memberships :=
    [⟨(g.cuid 2).val, owner.id, (g.cuid 0).val, .OWNER, g.now⟩,
      ⟨(g.cuid 3).val, alice.id, (g.cuid 0).val, .ADMIN, g.now⟩,
      ⟨(g.cuid 4).val, bob.id, (g.cuid 0).val, .MEMBER, g.now⟩]
  team := ⟨(g.cuid 5).val, (g.cuid 0).val, js "Engineering", js "ENG", g.now⟩

def newProject (organizationId : JsString) (teamId : Option JsString) (g : Gen) : Project where
  id := (g.cuid 0).val
  organizationId := organizationId
  teamId := teamId
  key := js "PM"
  name := js "Platform"
  description := some (js "The core product board.")
  issueCounter := 0
  archivedAt := none
  createdAt := g.now
  updatedAt := g.now

structure SeedIssue where
  title : JsString
  status : IssueStatus
  priority : IssuePriority
  assigneeId : Option JsString

def seedIssues (owner alice bob : User) : List SeedIssue :=
  [⟨js "Set up multi-tenant data model", .DONE, .HIGH, some alice.id⟩,
    ⟨js "Implement TenantGuard + RbacGuard", .IN_PROGRESS, .URGENT, some alice.id⟩,
    ⟨js "Kanban drag-and-drop with optimistic UI", .TODO, .HIGH, some bob.id⟩,
    ⟨js "WebSocket presence + live board sync", .TODO, .MEDIUM, some bob.id⟩,
    ⟨js "Stripe billing + webhook reconciliation", .BACKLOG, .MEDIUM, none⟩,
    ⟨js "Notification fan-out via BullMQ", .BACKLOG, .LOW, none⟩,
    ⟨js "Audit log for every mutation", .IN_REVIEW, .MEDIUM, some owner.id⟩]

theorem seedIssues_length (owner alice bob : User) : (seedIssues owner alice bob).length = 7 := rfl

def newIssue (org : Organization) (project : Project) (owner : User) (s : SeedIssue) (i idx : ℕ)
    (g : Gen) : Issue where
  id := (g.cuid i).val
  organizationId := org.id
  projectId := project.id
  number := i + 1
  title := s.title
  description := none
  status := s.status
  priority := s.priority
  rank := rankAt idx
  reporterId := owner.id
  assigneeId := s.assigneeId
  dueDate := none
  createdAt := g.now
  updatedAt := g.now

/-! ### The script -/

/-- The loop over `seedIssues` from its `i`-th turn on. -/
def upsertIssues (org : Organization) (project : Project) (owner : User) (g : Gen) :
    ℕ → (IssueStatus → ℕ) → List SeedIssue → Service Unit
  | _, _, [] => pure ()
  | i, perStatusIndex, s :: rest => do
      let idx := perStatusIndex s.status + 1
      Service.exec (Db.upsertIssue (newIssue org project owner s i idx g))
      upsertIssues org project owner g (i + 1) (Function.update perStatusIndex s.status idx) rest

def main (g : Gen) : Service Unit := do
  let owner ← Service.exec
    (Db.upsertUser (newUser ownerEmail (js "Olivia Owner") (g.cuid 0) g.now))
  let alice ← Service.exec
    (Db.upsertUser (newUser aliceEmail (js "Alice Admin") (g.cuid 1) g.now))
  let bob ← Service.exec (Db.upsertUser (newUser bobEmail (js "Bob Member") (g.cuid 2) g.now))
  let org ← Service.exec (Db.upsertOrganization (newOrganization owner alice bob (g.skip 3)))
  let team ← Service.query (Db.firstTeam org.id)
  let project ← Service.exec (Db.upsertProject (newProject org.id team (g.skip 9)))
  upsertIssues org project owner (g.skip 10) 0 (fun _ => 0) (seedIssues owner alice bob)
  Service.exec
    (Db.setIssueCounter project.id (seedIssues owner alice bob).length g.now)

end Seed

/-- The project `PM` of `acme`. -/
def Db.demoProject (db : Db) : Option Project :=
  (db.findOrganization (js "acme")).bind fun org => db.findProject org.id (js "PM")

end PmSaas
