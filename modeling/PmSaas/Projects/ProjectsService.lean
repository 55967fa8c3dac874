import PmSaas.Issues.IssuesService

/-!
# `projects.service.ts`: the projects of an organization

`create` is the one write that takes an id of another table from the request, the team, and it
checks that the team belongs to the tenant first.
-/

namespace PmSaas

open SortBy

/-- `team: { select: { id, name, key } }`. -/
structure TeamView where
  id : JsString
  name : JsString
  key : JsString
  deriving DecidableEq, Repr

/-- A project as `list` shows it. -/
structure ProjectSummary where
  id : JsString
  key : JsString
  name : JsString
  description : Option JsString
  createdAt : Date
  team : Option TeamView
  /-- `_count.issues` -/
  issues : ℕ
  deriving DecidableEq, Repr

/-! ### The Prisma calls -/

/-- The team a project refers to. -/
def Db.teamOf (p : Project) (db : Db) : Option TeamView :=
  p.teamId.bind fun id =>
    (db.teams.find? (·.id == id)).map fun t => ⟨t.id, t.name, t.key⟩

def Db.summary (p : Project) (db : Db) : ProjectSummary where
  id := p.id
  key := p.key
  name := p.name
  description := p.description
  createdAt := p.createdAt
  team := db.teamOf p
  issues := (db.issues.filter (·.projectId == p.id)).length

/-- `project.findMany({ where: { organizationId, archivedAt: null }, orderBy: { createdAt } })`. -/
def Db.projectList (organizationId : JsString) (db : Db) : List ProjectSummary :=
  (sortBy Project.createdAt (db.projects.filter fun p =>
    p.organizationId == organizationId && p.archivedAt.isNone)).map fun p => db.summary p

/-- `team.findFirst({ where: { id, organizationId } })`. -/
def Db.findTeam (organizationId teamId : JsString) (db : Db) : Option Team :=
  db.teams.find? fun t => t.id == teamId && t.organizationId == organizationId

def Db.insertProject (row : Project) (db : Db) : Db :=
  { db with projects := db.projects ++ [row] }

/-- `project.create`. -/
def Db.createProject (row : Project) (db : Db) : Except Exn (Project × Db) :=
  if db.projects.any (fun p => p.id == row.id ||
      p.organizationId == row.organizationId && p.key == row.key) then
    .error (.prisma .uniqueConstraint)
  else if !db.organizations.any (·.id == row.organizationId) ||
      row.teamId.any (fun t => !db.teams.any (·.id == t)) then
    .error (.prisma .foreignKey)
  else .ok (row, db.insertProject row)

theorem Db.createProject_ok {row p : Project} {db db' : Db}
    (h : db.createProject row = .ok (p, db')) :
    p = row ∧ db' = db.insertProject row ∧ ∀ q ∈ db.projects, q.id ≠ row.id := by
  unfold Db.createProject at h
  split at h
  · cases h
  · rename_i huniq
    split at h
    · cases h
    · simp only [List.any_eq_true, Bool.or_eq_true, beq_iff_eq, not_exists, not_and, not_or]
        at huniq
      cases h
      exact ⟨rfl, rfl, fun q hq => (huniq q hq).1⟩

theorem Db.findTeam_some {organizationId teamId : JsString} {db : Db} {t : Team}
    (h : db.findTeam organizationId teamId = some t) :
    t ∈ db.teams ∧ t.id = teamId ∧ t.organizationId = organizationId := by
  have hp := List.find?_some h
  simp only [Bool.and_eq_true, beq_iff_eq] at hp
  exact ⟨List.mem_of_find?_eq_some h, hp.1, hp.2⟩

/-! ### The service -/

namespace ProjectsService

def list (organizationId : JsString) : Service (List ProjectSummary) :=
  Service.query (Db.projectList organizationId)

def getByKey (organizationId key : JsString) : Service (Project × Option TeamView) := do
  let found ← Service.query fun db =>
    (db.findProject organizationId key).map fun p => (p, db.teamOf p)
  Service.orThrow found (.notFound (js "Project not found"))

theorem getByKey_apply (organizationId key : JsString) (w : World) :
    getByKey organizationId key w =
      match w.db.findProject organizationId key with
      | some p => (.ok (p, w.db.teamOf p), w)
      | none => (.error (.notFound (js "Project not found")), w) := by
  rw [getByKey, Service.query_bind]
  cases w.db.findProject organizationId key <;> rfl

/-- The row `create` inserts. -/
def newProject (organizationId : JsString) (input : CreateProjectInput) (g : Gen) : Project where
  id := (g.cuid 0).val
  organizationId := organizationId
  teamId := input.teamId
  key := input.key
  name := input.name
  description := input.description
  issueCounter := 0
  archivedAt := none
  createdAt := g.now
  updatedAt := g.now

/-- If a team is supplied, it must belong to this tenant. -/
def checkTeam (organizationId : JsString) (teamId : Option JsString) : Service Unit :=
  match truthy teamId with
  | some teamId => do
      let team ← Service.query (Db.findTeam organizationId teamId)
      Service.throwIf team.isNone (.badRequest (js "Team not found in this organization"))
  | none => pure ()

def create (organizationId actorId : JsString) (input : CreateProjectInput) (g : Gen) :
    Service Project := do
  let clash ← Service.query (Db.findProject organizationId input.key)
  Service.throwIf clash.isSome
    (.badRequest (js "Project key \"" ++ input.key ++ js "\" already in use"))
  checkTeam organizationId input.teamId
  let project ← Service.exec (Db.createProject (newProject organizationId input g))
  record
    { organizationId := organizationId
      actorId := some actorId
      action := "project.created"
      entityType := "Project"
      entityId := project.id
      metadata := some [("key", .str project.key)] }
    (g.cuid 1) g.now
  pure project

theorem checkTeam_bind {β : Type} (organizationId : JsString) (teamId : Option JsString)
    (k : Unit → Service β) (w : World) :
    (checkTeam organizationId teamId >>= k) w =
      if (truthy teamId).all fun id => (w.db.findTeam organizationId id).isSome then k () w
      else (.error (.badRequest (js "Team not found in this organization")), w) := by
  unfold checkTeam
  cases truthy teamId with
  | none => rfl
  | some id =>
      simp only [Service.bind_assoc, Service.query_bind, Service.throwIf_bind, Option.all_some]
      by_cases hteam : (w.db.findTeam organizationId id).isSome = true
      · rw [if_pos hteam, if_neg (by simpa using Option.isSome_iff_ne_none.1 hteam)]
      · rw [if_neg hteam, if_pos (by simpa using hteam)]

/-- `create` throws and changes nothing, or inserts a project whose team, if it has one, is a team
of the tenant. -/
theorem create_cases (organizationId actorId : JsString) (input : CreateProjectInput) (g : Gen)
    (w : World) :
    (create organizationId actorId input g w).2 = w ∨
    ∃ db, w.db.createProject (newProject organizationId input g) =
        .ok (newProject organizationId input g, db) ∧
      (∀ id ∈ truthy input.teamId, ∃ t, w.db.findTeam organizationId id = some t) ∧
      Aftermath organizationId { w with db := db }
        (create organizationId actorId input g w).2 := by
  rw [create, Service.query_bind, Service.throwIf_bind]
  split
  · exact .inl rfl
  · rw [checkTeam_bind]
    split
    · rename_i hteam
      rw [Service.exec_bind]
      cases hc : w.db.createProject (newProject organizationId input g) with
      | error e => exact .inl rfl
      | ok r =>
          obtain ⟨hrow, -, -⟩ := Db.createProject_ok hc
          refine .inr ⟨r.2, by rw [← hrow], fun id hid => ?_, ?_⟩
          · rw [Option.mem_def.1 hid] at hteam
            exact Option.isSome_iff_exists.1 (by simpa using hteam)
          · simp only [Service.record_bind]
            exact .recorded ..
    · exact .inl rfl

/-- A project that `create` returns is inserted. -/
theorem create_ok {organizationId actorId : JsString} {input : CreateProjectInput} {g : Gen}
    {w w' : World} {p : Project} (h : create organizationId actorId input g w = (.ok p, w')) :
    ∃ db, w.db.createProject (newProject organizationId input g) = .ok (p, db) ∧
      Aftermath organizationId { w with db := db } w' := by
  rw [create, Service.query_bind, Service.throwIf_bind, checkTeam_bind] at h
  split_ifs at h
  · cases h
  · rw [Service.exec_bind] at h
    cases hc : w.db.createProject (newProject organizationId input g) with
    | error e =>
        rw [hc] at h
        cases h
    | ok r =>
        obtain ⟨q, db⟩ := r
        simp only [hc, Service.record_bind] at h
        cases h
        exact ⟨db, rfl, .recorded ..⟩
  · cases h

end ProjectsService

end PmSaas
