import PmSaas.Issues.IssuesService

/-!
# Issue requests, one database call at a time

While a request of `IssuesService` waits for a database call, the others run.  An `IssueTask` is a
request stopped between two calls; `IssueTask.step` makes the next one.  A request that is never
interrupted does what the service method does (`steps_eq_serve`).
-/

namespace PmSaas

inductive IssueRequest where
  | create (actorId projectKey : JsString) (input : CreateIssueInput)
  | update (actorId issueId : JsString) (input : UpdateIssueInput)
  | move (actorId issueId : JsString) (input : MoveIssueInput)
  | remove (actorId issueId : JsString)

/-- What a request still has to do once its write is committed: the audit row, the event for the
project's room, and perhaps a notification. -/
structure Announcement where
  entry : AuditEntry
  projectId : JsString
  event : IssueEvent
  job : Option NotificationJob

inductive IssueTask where
  | start (request : IssueRequest)
  /-- The project is resolved. -/
  | creating (projectId actorId : JsString) (input : CreateIssueInput)
  /-- The issue is read. -/
  | updating (before : Issue) (actorId issueId : JsString) (input : UpdateIssueInput)
  /-- The issue is read, and the neighbour ranks that are `some` too. -/
  | placing (issue : Issue) (actorId : JsString) (input : MoveIssueInput)
      (above below : Option (Option JsString))
  /-- The issue is read. -/
  | removing (issue : Issue) (actorId : JsString)
  /-- The write is committed. -/
  | auditing (announcement : Announcement)
  | emitting (announcement : Announcement)
  | notifying (job : NotificationJob)
  | done (answer : Except Exn Unit)

namespace IssuesService

def createdAnnouncement (organizationId actorId projectId : JsString) (issue : IssueView) :
    Announcement where
  entry :=
    { organizationId := organizationId
      actorId := some actorId
      action := "issue.created"
      entityType := "Issue"
      entityId := issue.id
      metadata := some [("number", .num issue.number), ("title", .str issue.title)] }
  projectId := projectId
  event := .created issue
  job := (truthy issue.assigneeId).map fun recipientId =>
    assignedJob organizationId actorId recipientId issue

def updatedAnnouncement (organizationId actorId : JsString) (input : UpdateIssueInput)
    (before : Issue) (issue : IssueView) : Announcement where
  entry :=
    { organizationId := organizationId
      actorId := some actorId
      action := "issue.updated"
      entityType := "Issue"
      entityId := issue.id
      metadata := some [("changed", .strs input.changed)] }
  projectId := issue.projectId
  event := .updated issue
  job := (connectedUser input).bind fun recipientId =>
    if some recipientId = before.assigneeId then none
    else some (assignedJob organizationId actorId recipientId issue)

def movedAnnouncement (organizationId actorId : JsString) (input : MoveIssueInput)
    (issue updated : Issue) : Announcement where
  entry :=
    { organizationId := organizationId
      actorId := some actorId
      action := "issue.moved"
      entityType := "Issue"
      entityId := issue.id
      metadata := some [("from", .str issue.status.text), ("to", .str input.status.text)] }
  projectId := updated.projectId
  event := .moved updated.id updated.status updated.rank
  job := none

def removedAnnouncement (organizationId actorId : JsString) (issue : Issue) : Announcement where
  entry :=
    { organizationId := organizationId
      actorId := some actorId
      action := "issue.deleted"
      entityType := "Issue"
      entityId := issue.id
      metadata := none }
  projectId := issue.projectId
  event := .deleted issue.id
  job := none

/-- The service method a request calls. -/
def serve (organizationId : JsString) (g : Gen) : IssueRequest → Service Unit
  | .create actorId projectKey input => do
      let _ ← create organizationId actorId projectKey input g
      pure ()
  | .update actorId issueId input => do
      let _ ← update organizationId actorId issueId input g
      pure ()
  | .move actorId issueId input => do
      let _ ← move organizationId actorId issueId input g
      pure ()
  | .remove actorId issueId => remove organizationId actorId issueId g

end IssuesService

namespace IssueTask

open IssuesService

/-- `if (!row) throw`, then on. -/
def found {α : Type} (row : Option α) (message : String) (next : α → IssueTask) : IssueTask :=
  match row with
  | some a => next a
  | none => .done (.error (.notFound (js message)))

/-- A write: on to the announcement, or the error is the answer. -/
def written {α : Type} (result : Except Exn (α × Db)) (announce : α → Announcement) (w : World) :
    IssueTask × World :=
  match result with
  | .ok (a, db) => (.auditing (announce a), { w with db := db })
  | .error e => (.done (.error e), w)

/-- The next call of a task.  `move` asks for both neighbours at once, and `belowFirst` says which
answer comes first. -/
def step (organizationId : JsString) (belowFirst : Bool) (g : Gen) :
    IssueTask → World → IssueTask × World
  | .start (.create actorId projectKey input), w =>
      (found (w.db.findProject organizationId projectKey) "Project not found"
        fun project => .creating project.id actorId input, w)
  | .start (.update actorId issueId input), w =>
      (found (w.db.findIssue organizationId issueId) "Issue not found"
        fun before => .updating before actorId issueId input, w)
  | .start (.move actorId issueId input), w =>
      (found (w.db.findIssue organizationId issueId) "Issue not found"
        fun issue => .placing issue actorId input none none, w)
  | .start (.remove actorId issueId), w =>
      (found (w.db.findIssue organizationId issueId) "Issue not found"
        fun issue => .removing issue actorId, w)
  | .creating projectId actorId input, w =>
      written (w.db.createIssueTx organizationId actorId projectId input g)
        (createdAnnouncement organizationId actorId projectId) w
  | .updating before actorId issueId input, w =>
      written (w.db.updateIssue issueId (connectedUser input) (input.apply g.now))
        (fun row => updatedAnnouncement organizationId actorId input before (issueSelect row)) w
  | .placing issue actorId input none none, w =>
      if belowFirst then
        (.placing issue actorId input none
          (some (w.db.neighbourRank issue.projectId input.status input.belowId)), w)
      else
        (.placing issue actorId input
          (some (w.db.neighbourRank issue.projectId input.status input.aboveId)) none, w)
  | .placing issue actorId input none (some below), w =>
      (.placing issue actorId input
        (some (w.db.neighbourRank issue.projectId input.status input.aboveId)) (some below), w)
  | .placing issue actorId input (some above) none, w =>
      (.placing issue actorId input (some above)
        (some (w.db.neighbourRank issue.projectId input.status input.belowId)), w)
  | .placing issue actorId input (some above) (some below), w =>
      written ((dropRank above below).bind fun rank =>
          w.db.updateIssue issue.id none (place input.status rank g.now))
        (movedAnnouncement organizationId actorId input issue) w
  | .removing issue actorId, w =>
      written (w.db.deleteIssue issue.id)
        (fun _ => removedAnnouncement organizationId actorId issue) w
  | .auditing announcement, w =>
      (.emitting announcement, w.recorded announcement.entry (g.cuid 0) g.now)
  | .emitting announcement, w =>
      (match announcement.job with
        | some job => .notifying job
        | none => .done (.ok ()),
        w.emitted organizationId announcement.projectId announcement.event)
  | .notifying job, w => (.done (.ok ()), w.enqueued job)
  | .done answer, w => (.done answer, w)

/-- What a task has written and not yet told the room. -/
def announcement : IssueTask → Option Announcement
  | .auditing a => some a
  | .emitting a => some a
  | _ => none

/-! ### What one step can do -/

/-- The steps of a task, by what they find and write. -/
inductive Step (organizationId : JsString) (g : Gen) (w : World) : IssueTask → IssueTask → World → Prop
  /-- A read, or an error. -/
  | quiet {task task' : IssueTask} (before : task.announcement = none)
      (after : task'.announcement = none)
      (resolved : ∀ projectId actorId input, task' = .creating projectId actorId input →
        ∃ p ∈ w.db.projects, p.id = projectId ∧ p.organizationId = organizationId)
      (found : ∀ issue actorId, task' = .removing issue actorId → issue ∈ w.db.issues) :
      Step organizationId g w task task' w
  | create {projectId actorId : JsString} {input : CreateIssueInput} {issue : IssueView} {db : Db}
      (committed : w.db.createIssueTx organizationId actorId projectId input g = .ok (issue, db)) :
      Step organizationId g w (.creating projectId actorId input)
        (.auditing (createdAnnouncement organizationId actorId projectId issue)) { w with db := db }
  | update {before row : Issue} {actorId issueId : JsString} {input : UpdateIssueInput} {db : Db}
      (committed : w.db.updateIssue issueId (connectedUser input) (input.apply g.now) =
        .ok (row, db)) :
      Step organizationId g w (.updating before actorId issueId input)
        (.auditing (updatedAnnouncement organizationId actorId input before (issueSelect row)))
        { w with db := db }
  | move {issue row : Issue} {actorId rank : JsString} {input : MoveIssueInput}
      {above below : Option JsString} {db : Db}
      (committed : w.db.updateIssue issue.id none (place input.status rank g.now) = .ok (row, db)) :
      Step organizationId g w (.placing issue actorId input (some above) (some below))
        (.auditing (movedAnnouncement organizationId actorId input issue row)) { w with db := db }
  | remove {issue : Issue} {actorId : JsString} {db : Db}
      (committed : w.db.deleteIssue issue.id = .ok ((), db)) :
      Step organizationId g w (.removing issue actorId)
        (.auditing (removedAnnouncement organizationId actorId issue)) { w with db := db }
  | audit (a : Announcement) :
      Step organizationId g w (.auditing a) (.emitting a) (w.recorded a.entry (g.cuid 0) g.now)
  | emit (a : Announcement) {task' : IssueTask} (after : task'.announcement = none)
      (idle : ∀ projectId actorId input, task' ≠ .creating projectId actorId input)
      (idle' : ∀ issue actorId, task' ≠ .removing issue actorId) :
      Step organizationId g w (.emitting a) task' (w.emitted organizationId a.projectId a.event)
  | notify (job : NotificationJob) :
      Step organizationId g w (.notifying job) (.done (.ok ())) (w.enqueued job)

section Spec

variable {organizationId : JsString} {g : Gen} {w : World}

theorem Step.answered {task : IssueTask} (before : task.announcement = none)
    (answer : Except Exn Unit) : Step organizationId g w task (.done answer) w :=
  .quiet before rfl (fun _ _ _ h => by cases h) fun _ _ h => by cases h

theorem Step.fail {task : IssueTask} (before : task.announcement = none) (e : Exn) :
    Step organizationId g w task (.done (.error e)) w := .answered before _

theorem Step.updating {task : IssueTask} (before : task.announcement = none) (row : Issue)
    (actorId issueId : JsString) (input : UpdateIssueInput) :
    Step organizationId g w task (.updating row actorId issueId input) w :=
  .quiet before rfl (fun _ _ _ h => by cases h) fun _ _ h => by cases h

theorem Step.placing {task : IssueTask} (before : task.announcement = none) (issue : Issue)
    (actorId : JsString) (input : MoveIssueInput) (above below : Option (Option JsString)) :
    Step organizationId g w task (.placing issue actorId input above below) w :=
  .quiet before rfl (fun _ _ _ h => by cases h) fun _ _ h => by cases h

/-- The first call of a request. -/
theorem step_start (belowFirst : Bool) (request : IssueRequest) :
    Step organizationId g w (.start request)
      (step organizationId belowFirst g (.start request) w).1
      (step organizationId belowFirst g (.start request) w).2 := by
  cases request with
  | create actorId projectKey input =>
      rw [step]
      cases hp : w.db.findProject organizationId projectKey with
      | none => exact .fail rfl _
      | some project =>
          obtain ⟨hmem, horg, _⟩ := Db.findProject_some hp
          refine .quiet rfl rfl ?_ fun _ _ h => by cases h
          intro projectId _ _ h
          cases h
          exact ⟨project, hmem, rfl, horg⟩
  | update actorId issueId input =>
      rw [step]
      cases w.db.findIssue organizationId issueId with
      | none => exact .fail rfl _
      | some before => exact .updating rfl ..
  | move actorId issueId input =>
      rw [step]
      cases w.db.findIssue organizationId issueId with
      | none => exact .fail rfl _
      | some issue => exact .placing rfl ..
  | remove actorId issueId =>
      rw [step]
      cases hi : w.db.findIssue organizationId issueId with
      | none => exact .fail rfl _
      | some issue =>
          refine .quiet rfl rfl (fun _ _ _ h => by cases h) ?_
          intro _ _ h
          cases h
          exact (Db.findIssue_some hi).1

/-- **Nothing but a `Step` happens.** -/
theorem step_spec (belowFirst : Bool) (task : IssueTask) :
    Step organizationId g w task (step organizationId belowFirst g task w).1
      (step organizationId belowFirst g task w).2 := by
  cases task with
  | start request => exact step_start belowFirst request
  | creating projectId actorId input =>
      rw [step]
      cases hc : w.db.createIssueTx organizationId actorId projectId input g with
      | error e => exact .fail rfl e
      | ok r => exact .create hc
  | updating before actorId issueId input =>
      rw [step]
      cases hu : w.db.updateIssue issueId (connectedUser input) (input.apply g.now) with
      | error e => exact .fail rfl e
      | ok r => exact .update hu
  | placing issue actorId input above below =>
      cases above with
      | none =>
          cases below with
          | none =>
              rw [step]
              cases belowFirst <;> exact .placing rfl ..
          | some below => exact .placing rfl ..
      | some above =>
          cases below with
          | none => exact .placing rfl ..
          | some below =>
              rw [step]
              cases dropRank above below with
              | error e => exact .fail rfl e
              | ok rank =>
                  simp only [Except.bind]
                  cases hu : w.db.updateIssue issue.id none (place input.status rank g.now) with
                  | error e => exact .fail rfl e
                  | ok r => exact .move hu
  | removing issue actorId =>
      rw [step]
      cases hd : w.db.deleteIssue issue.id with
      | error e => exact .fail rfl e
      | ok r => exact .remove hd
  | auditing a => exact .audit a
  | emitting a =>
      rw [step]
      cases a.job with
      | none => exact .emit a rfl (fun _ _ _ h => by cases h) fun _ _ h => by cases h
      | some job => exact .emit a rfl (fun _ _ _ h => by cases h) fun _ _ h => by cases h
  | notifying job => exact .notify job
  | done answer => exact .answered rfl _

end Spec

/-! ### A request on its own -/

/-- A task run on without interruption, call `k` with the values `gs k`. -/
def steps (organizationId : JsString) (gs : ℕ → Gen) (calls : List ℕ) (s : IssueTask × World) :
    IssueTask × World :=
  calls.foldl (fun s k => step organizationId false (gs k) s.1 s.2) s

/-- The values of a whole service call, handed out to its steps: `create` has used up an id when it
writes the audit row. -/
def gens (g : Gen) : IssueRequest → ℕ → Gen
  | .create _ _ _, k => if k = 2 then g.skip 1 else g
  | _, _ => g

/-- The world after an announcement. -/
def announced (organizationId : JsString) (a : Announcement) (id : Cuid) (now : Date) (w : World) :
    World :=
  let w := (w.recorded a.entry id now).emitted organizationId a.projectId a.event
  match a.job with
  | some job => w.enqueued job
  | none => w

section Alone

variable {organizationId : JsString} {gs : ℕ → Gen}

theorem steps_cons (k : ℕ) (calls : List ℕ) (task : IssueTask) (w : World) :
    steps organizationId gs (k :: calls) (task, w) =
      steps organizationId gs calls (step organizationId false (gs k) task w) := rfl

theorem steps_done (calls : List ℕ) (answer : Except Exn Unit) (w : World) :
    steps organizationId gs calls (.done answer, w) = (.done answer, w) := by
  induction calls with
  | nil => rfl
  | cons k calls ih => exact ih

theorem steps_auditing (k k' k'' : ℕ) (calls : List ℕ) (a : Announcement) (w : World) :
    steps organizationId gs (k :: k' :: k'' :: calls) (.auditing a, w) =
      (.done (.ok ()), announced organizationId a ((gs k).cuid 0) (gs k).now w) := by
  rw [steps_cons, step, steps_cons, step, announced]
  cases a.job with
  | none => exact steps_done ..
  | some job => exact steps_done ..

theorem forget_apply {α : Type} (x : Service α) (w : World) :
    (do let _ ← x; pure () : Service Unit) w = ((x w).1.map fun _ => (), (x w).2) := by
  rw [Service.bind_apply]
  rcases x w with ⟨_ | _, w'⟩ <;> rfl

section Served

variable {g : Gen} {w : World}

/-- Left alone, the request does what the service method does. -/
def AsServed (organizationId : JsString) (g : Gen) (w : World) (request : IssueRequest) : Prop :=
  steps organizationId (gens g request) (List.range 7) (.start request, w) =
    (.done (serve organizationId g request w).1, (serve organizationId g request w).2)

theorem asServed_create (actorId projectKey : JsString) (input : CreateIssueInput) :
    AsServed organizationId g w (.create actorId projectKey input) := by
  rw [AsServed, show List.range 7 = [0, 1, 2, 3, 4, 5, 6] from rfl, steps_cons]
  rw [serve, forget_apply, create, resolveProject_bind, step]
  cases w.db.findProject organizationId projectKey with
  | none => exact steps_done ..
  | some project =>
      rw [found, steps_cons, step]
      simp only [Service.exec_bind]
      rw [show gens g (.create actorId projectKey input) 1 = g from rfl]
      cases w.db.createIssueTx organizationId actorId project.id input g with
      | error e => exact steps_done ..
      | ok r =>
          obtain ⟨issue, db⟩ := r
          simp only [Service.record_bind, Service.emit_bind]
          rw [written, steps_auditing, announced]
          dsimp only [createdAnnouncement]
          cases truthy issue.assigneeId with
          | none => rfl
          | some recipientId => rfl

theorem asServed_update (actorId issueId : JsString) (input : UpdateIssueInput) :
    AsServed organizationId g w (.update actorId issueId input) := by
  rw [AsServed, show List.range 7 = [0, 1, 2, 3, 4, 5, 6] from rfl, steps_cons]
  rw [serve, forget_apply, update, Service.query_bind, Service.orThrow_bind, step]
  cases w.db.findIssue organizationId issueId with
  | none => exact steps_done ..
  | some before =>
      rw [found, steps_cons, step]
      simp only [Service.exec_bind]
      rw [show gens g (.update actorId issueId input) 1 = g from rfl]
      cases w.db.updateIssue issueId (connectedUser input) (input.apply g.now) with
      | error e => exact steps_done ..
      | ok r =>
          obtain ⟨row, db⟩ := r
          simp only [Service.record_bind, Service.emit_bind]
          rw [written, steps_auditing, announced]
          dsimp only [updatedAnnouncement]
          cases connectedUser input with
          | none => rfl
          | some recipientId =>
              dsimp only [Option.bind_some]
              by_cases hsame : some recipientId = before.assigneeId
              · rw [if_pos hsame, if_pos hsame]
                rfl
              · rw [if_neg hsame, if_neg hsame]
                rfl

theorem asServed_move (actorId issueId : JsString) (input : MoveIssueInput) :
    AsServed organizationId g w (.move actorId issueId input) := by
  rw [AsServed, show List.range 7 = [0, 1, 2, 3, 4, 5, 6] from rfl, steps_cons]
  rw [serve, forget_apply, move, Service.query_bind, Service.orThrow_bind, step]
  cases w.db.findIssue organizationId issueId with
  | none => exact steps_done ..
  | some issue =>
      rw [found, steps_cons, step, if_neg Bool.false_ne_true, steps_cons, step, steps_cons,
        step]
      simp only [Service.query_bind, Service.exec_bind]
      rw [show gens g (.move actorId issueId input) 3 = g from rfl]
      cases dropRank (w.db.neighbourRank issue.projectId input.status input.aboveId)
          (w.db.neighbourRank issue.projectId input.status input.belowId) with
      | error e => exact steps_done ..
      | ok rank =>
          simp only [Except.map, Except.bind]
          cases w.db.updateIssue issue.id none (place input.status rank g.now) with
          | error e => exact steps_done ..
          | ok r =>
              obtain ⟨updated, db⟩ := r
              simp only [Service.record_bind, Service.emit_bind]
              rw [written, steps_auditing, announced]
              rfl

theorem asServed_remove (actorId issueId : JsString) :
    AsServed organizationId g w (.remove actorId issueId) := by
  rw [AsServed, show List.range 7 = [0, 1, 2, 3, 4, 5, 6] from rfl, steps_cons]
  rw [serve, remove, Service.query_bind, Service.orThrow_bind, step]
  cases w.db.findIssue organizationId issueId with
  | none => exact steps_done ..
  | some issue =>
      rw [found, steps_cons, step]
      simp only [Service.exec_bind]
      cases w.db.deleteIssue issue.id with
      | error e => exact steps_done ..
      | ok r =>
          obtain ⟨u, db⟩ := r
          simp only [Service.record_bind]
          rw [written, steps_auditing, announced]
          rfl

end Served

/-- **A request that is not interrupted does what the service method does**, in at most seven
steps. -/
theorem steps_eq_serve (g : Gen) (request : IssueRequest) (w : World) :
    steps organizationId (gens g request) (List.range 7) (.start request, w) =
      (.done (serve organizationId g request w).1, (serve organizationId g request w).2) := by
  cases request with
  | create actorId projectKey input => exact asServed_create ..
  | update actorId issueId input => exact asServed_update ..
  | move actorId issueId input => exact asServed_move ..
  | remove actorId issueId => exact asServed_remove ..

/-- The write of a request that reads and writes with nothing in between, and what it announces. -/
inductive Commit (organizationId : JsString) (g : Gen) (db : Db) :
    IssueRequest → Announcement → Db → Prop
  | create {actorId projectKey : JsString} {input : CreateIssueInput} {project : Project}
      {issue : IssueView} {db' : Db} (found : db.findProject organizationId projectKey = some project)
      (committed : db.createIssueTx organizationId actorId project.id input g = .ok (issue, db')) :
      Commit organizationId g db (.create actorId projectKey input)
        (createdAnnouncement organizationId actorId project.id issue) db'
  | update {actorId issueId : JsString} {input : UpdateIssueInput} {before row : Issue} {db' : Db}
      (found : db.findIssue organizationId issueId = some before)
      (committed : db.updateIssue issueId (connectedUser input) (input.apply g.now) =
        .ok (row, db')) :
      Commit organizationId g db (.update actorId issueId input)
        (updatedAnnouncement organizationId actorId input before (issueSelect row)) db'
  | move {actorId issueId rank : JsString} {input : MoveIssueInput} {issue row : Issue} {db' : Db}
      (found : db.findIssue organizationId issueId = some issue)
      (committed : db.updateIssue issue.id none (place input.status rank g.now) = .ok (row, db')) :
      Commit organizationId g db (.move actorId issueId input)
        (movedAnnouncement organizationId actorId input issue row) db'
  | remove {actorId issueId : JsString} {issue : Issue} {db' : Db}
      (found : db.findIssue organizationId issueId = some issue)
      (committed : db.deleteIssue issue.id = .ok ((), db')) :
      Commit organizationId g db (.remove actorId issueId)
        (removedAnnouncement organizationId actorId issue) db'

/-- A request that is served at once throws and changes nothing, or commits and announces its
write. -/
theorem serve_cases (g : Gen) (request : IssueRequest) (w : World) :
    (serve organizationId g request w).2 = w ∨
    ∃ a db id now, Commit organizationId g w.db request a db ∧
      (serve organizationId g request w).2 =
        announced organizationId a id now { w with db := db } := by
  have hserve : (steps organizationId (gens g request) (List.range 7) (.start request, w)).2 =
      (serve organizationId g request w).2 := congrArg Prod.snd (steps_eq_serve g request w)
  rw [← hserve, show List.range 7 = [0, 1, 2, 3, 4, 5, 6] from rfl, steps_cons]
  cases request with
  | create actorId projectKey input =>
      rw [step]
      cases hp : w.db.findProject organizationId projectKey with
      | none => exact .inl (congrArg Prod.snd (steps_done ..))
      | some project =>
          rw [found, steps_cons, step]
          rw [show gens g (.create actorId projectKey input) 1 = g from rfl]
          cases htx : w.db.createIssueTx organizationId actorId project.id input g with
          | error e => exact .inl (congrArg Prod.snd (steps_done ..))
          | ok r =>
              rw [written, steps_auditing]
              exact .inr ⟨_, _, _, _, .create hp htx, rfl⟩
  | update actorId issueId input =>
      rw [step]
      cases hf : w.db.findIssue organizationId issueId with
      | none => exact .inl (congrArg Prod.snd (steps_done ..))
      | some before =>
          rw [found, steps_cons, step]
          rw [show gens g (.update actorId issueId input) 1 = g from rfl]
          cases hu : w.db.updateIssue issueId (connectedUser input) (input.apply g.now) with
          | error e => exact .inl (congrArg Prod.snd (steps_done ..))
          | ok r =>
              rw [written, steps_auditing]
              exact .inr ⟨_, _, _, _, .update hf hu, rfl⟩
  | move actorId issueId input =>
      rw [step]
      cases hf : w.db.findIssue organizationId issueId with
      | none => exact .inl (congrArg Prod.snd (steps_done ..))
      | some issue =>
          rw [found, steps_cons, step, if_neg Bool.false_ne_true, steps_cons, step, steps_cons,
            step]
          rw [show gens g (.move actorId issueId input) 3 = g from rfl]
          cases dropRank (w.db.neighbourRank issue.projectId input.status input.aboveId)
              (w.db.neighbourRank issue.projectId input.status input.belowId) with
          | error e => exact .inl (congrArg Prod.snd (steps_done ..))
          | ok rank =>
              simp only [Except.bind]
              cases hu : w.db.updateIssue issue.id none (place input.status rank g.now) with
              | error e => exact .inl (congrArg Prod.snd (steps_done ..))
              | ok r =>
                  rw [written, steps_auditing]
                  exact .inr ⟨_, _, _, _, .move hf hu, rfl⟩
  | remove actorId issueId =>
      rw [step]
      cases hf : w.db.findIssue organizationId issueId with
      | none => exact .inl (congrArg Prod.snd (steps_done ..))
      | some issue =>
          rw [found, steps_cons, step]
          cases hd : w.db.deleteIssue issue.id with
          | error e => exact .inl (congrArg Prod.snd (steps_done ..))
          | ok r =>
              rw [written, steps_auditing]
              exact .inr ⟨_, _, _, _, .remove hf hd, rfl⟩

theorem announced_db (a : Announcement) (id : Cuid) (now : Date) (w : World) :
    (announced organizationId a id now w).db = (w.recorded a.entry id now).db := by
  unfold announced
  cases a.job with
  | none => rfl
  | some job => exact World.enqueued_db _ job

theorem announced_broadcasts (a : Announcement) (id : Cuid) (now : Date) (w : World) :
    (announced organizationId a id now w).broadcasts =
      w.broadcasts ++ [⟨projectRoom organizationId a.projectId, a.event⟩] := by
  have hemitted : ((w.recorded a.entry id now).emitted organizationId a.projectId
      a.event).broadcasts = w.broadcasts ++ [⟨projectRoom organizationId a.projectId, a.event⟩] := by
    rw [World.emitted, World.recorded_broadcasts]
  unfold announced
  cases a.job with
  | none => exact hemitted
  | some job => exact (World.enqueued_broadcasts _ job).trans hemitted

end Alone

end IssueTask

/-- The project whose issues a request is about. -/
def IssueRequest.project (organizationId : JsString) (db : Db) : IssueRequest → Option JsString
  | .create _ projectKey _ => (db.findProject organizationId projectKey).map Project.id
  | .update _ issueId _ | .move _ issueId _ | .remove _ issueId =>
      (db.findIssue organizationId issueId).map Issue.projectId

end PmSaas
