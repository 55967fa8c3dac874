import PmSaas.Notifications.NotificationsService
import PmSaas.Realtime.Deliveries

/-!
# Who is told about an issue

`create` and `update` queue a job for whatever assignee the request names, and the worker writes
the row and the mail for that user.  Nothing looks for a membership on the way: a user of another
organization who is made the assignee is told the issue's title (`outsider_notified`).

* `Notifying` is the requests and the worker's jobs over one world, with a journal of what the
  database was when each job was queued and of the notices the worker has given;
* `recipients_are_members` — in every run in which assignees are members when their jobs are
  queued, so were all those who are told.
-/

namespace PmSaas

open TransitionSystem

/-! ### The worker, one call at a time -/

/-- A run of `process`.  A queued job that failed or stalled is processed again, in another run. -/
inductive WorkerTask where
  | idle
  | filing (place : ℕ) (job : NotificationJob)
  /-- The row is written, and a preference gates the mail. -/
  | telling (place : ℕ) (job : NotificationJob) (pref : User → Bool)
  | done

namespace WorkerTask

open NotificationsProcessor

/-- The next call of a run; an idle one takes the job at `place`. -/
def step (place : ℕ) (g : Gen) : WorkerTask → World → WorkerTask × World
  | .idle, w =>
      (match w.queue[place]? with
        | some job => .filing place job
        | none => .idle, w)
  | .filing place job, w =>
      match w.db.createNotification (newNotification job g) with
      | .ok ((), db) =>
          (match pref job.type with
            | some pref => .telling place job pref
            | none => .done, { w with db := db })
      | .error _ => (.done, w)
  | .telling _ job pref, w =>
      match (w.db.users.find? (·.id == job.recipientId)).filter pref with
      | some user => (.done, w.mailed (mail user job.type job.payload))
      | none => (.done, w)
  | .done, w => (.done, w)

/-- The job a run is at, by its place in the queue. -/
def at? : WorkerTask → Option (ℕ × NotificationJob)
  | .filing place job => some (place, job)
  | .telling place job _ => some (place, job)
  | _ => none

/-- Left alone, a run does what `process` does. -/
theorem steps_eq_process (place place' : ℕ) (job : NotificationJob) (g g' : Gen) (w : World) :
    step place' g' (step place' g (.filing place job) w).1 (step place' g (.filing place job) w).2 =
      (.done, (process job g w).2) := by
  rw [process, Service.exec_bind, step]
  cases w.db.createNotification (newNotification job g) with
  | error e => rfl
  | ok r =>
      dsimp only
      cases pref job.type with
      | none => rfl
      | some pref =>
          dsimp only
          rw [step, Service.query_bind]
          generalize Option.filter pref _ = user
          cases user <;> rfl

end WorkerTask

/-! ### The requests and the worker together -/

/-- One party of a run. The organization of an issue request is the one `TenantGuard` resolved. -/
inductive Party where
  | issue (organizationId : JsString) (request : IssueRequest) (task : IssueTask)
  | org (task : OrgTask)
  /-- `OrgsService.create`, whose one transaction is its only write but for the audit row. -/
  | founding (userId : JsString) (input : CreateOrgInput)
  | founded
  | worker (task : WorkerTask)

/-- The rows and mails of one step of the worker. -/
structure Notice where
  /-- The place of the job in the queue. -/
  place : ℕ
  rows : List Notification
  mails : List MailMessage
  /-- The accounts at that time. -/
  accounts : List User

namespace Party

def step (env : Env) (place : ℕ) (belowFirst : Bool) (g : Gen) : Party → World → Party × World
  | .issue organizationId request task, w =>
      (.issue organizationId request (IssueTask.step organizationId belowFirst g task w).1,
        (IssueTask.step organizationId belowFirst g task w).2)
  | .org task, w => (.org (OrgTask.step env g task w).1, (OrgTask.step env g task w).2)
  | .founding userId input, w => (.founded, (OrgsService.create userId input g w).2)
  | .founded, w => (.founded, w)
  | .worker task, w => (.worker (task.step place g w).1, (task.step place g w).2)

/-- The notice that a step from `w` to `w'` gives. -/
def gives (w w' : World) : Party → List Notice
  | .worker task =>
      task.at?.toList.map fun job =>
        { place := job.1
          rows := w'.db.notifications.drop w.db.notifications.length
          mails := w'.outbox.drop w.outbox.length
          accounts := w.db.users }
  | _ => []

end Party

/-- The user a request assigns the issue to. -/
def IssueRequest.assignee : IssueRequest → Option JsString
  | .create _ _ input => truthy input.assigneeId
  | .update _ _ input => IssuesService.connectedUser input
  | _ => none

def IssueRequest.actor : IssueRequest → JsString
  | .create actorId _ _ | .update actorId _ _ | .move actorId _ _ | .remove actorId _ => actorId

namespace Party

/-- If the next step is the `enqueue` of a request, the assignee the request names is a member of
the organization at that moment, or the actor. -/
def AssignsMember (db : Db) : Party → Prop
  | .issue organizationId request (.notifying _) =>
      ∀ userId ∈ request.assignee, userId = request.actor ∨ db.Member organizationId userId
  | _ => True

instance AssignsMember.decidable (db : Db) : ∀ party, Decidable (AssignsMember db party)
  | .issue organizationId request (.notifying _) =>
      inferInstanceAs (Decidable (∀ userId ∈ request.assignee,
        userId = request.actor ∨ db.Member organizationId userId))
  | .issue _ _ (.start _) | .issue _ _ (.creating _ _ _) | .issue _ _ (.updating _ _ _ _)
  | .issue _ _ (.placing _ _ _ _ _) | .issue _ _ (.removing _ _) | .issue _ _ (.auditing _)
  | .issue _ _ (.emitting _) | .issue _ _ (.done _) => isTrue trivial
  | .org _ | .founding _ _ | .founded | .worker _ => isTrue trivial

end Party

/-- No step reads the two journals. -/
structure Notifying (τ : Type*) where
  pool : Pool τ Party World
  /-- The database each job was queued in. -/
  moments : List Db
  notices : List Notice

structure NotifyAct (τ : Type*) where
  thread : τ
  /-- The job an idle run of the worker takes. -/
  place : ℕ
  belowFirst : Bool
  g : Gen

namespace Notifying

variable {τ : Type*}

def next [DecidableEq τ] (env : Env) (s : Notifying τ) (a : NotifyAct τ) : Notifying τ :=
  let pool := s.pool.advance (Party.step env a.place a.belowFirst a.g) a.thread
  { pool := pool
    moments := s.moments ++
      (pool.store.queue.drop s.pool.store.queue.length).map fun _ => s.pool.store.db
    notices := s.notices ++ (s.pool.thread a.thread).gives s.pool.store pool.store }

/-- The condition on a step. -/
def AssignsMember (s : Notifying τ) (a : NotifyAct τ) : Prop :=
  (s.pool.thread a.thread).AssignsMember s.pool.store.db

instance (s : Notifying τ) (a : NotifyAct τ) : Decidable (s.AssignsMember a) :=
  Party.AssignsMember.decidable s.pool.store.db (s.pool.thread a.thread)

end Notifying

/-- Every request and every run of the worker is still to begin, and nothing is queued. -/
structure NotifyingStart {τ : Type*} (s : Notifying τ) : Prop where
  queue : s.pool.store.queue = []
  moments : s.moments = []
  notices : s.notices = []
  parties : ∀ t, (∃ organizationId request,
      s.pool.thread t = .issue organizationId request (.start request)) ∨
    (∃ request, s.pool.thread t = .org (.start request)) ∨
    (∃ userId input, s.pool.thread t = .founding userId input) ∨ s.pool.thread t = .worker .idle

/-- Each row and each mail is for a user who had a membership in the job's organization when the
job was queued. -/
def Notice.Inside (queue : List NotificationJob) (moments : List Db) (d : Notice) : Prop :=
  ∃ job moment, queue[d.place]? = some job ∧ moments[d.place]? = some moment ∧
    (∀ n ∈ d.rows, n.organizationId = job.organizationId ∧
      moment.Member job.organizationId n.userId) ∧
    ∀ msg ∈ d.mails, ∃ u ∈ d.accounts, u.email = msg.recipient ∧
      moment.Member job.organizationId u.id

/-! ### Where the recipient comes from -/

/-- The job tells the assignee that the request names. -/
structure Notifies (organizationId : JsString) (request : IssueRequest) (job : NotificationJob) :
    Prop where
  organization : job.organizationId = organizationId
  recipient : request.assignee = some job.recipientId
  actor : job.actorId = some request.actor

/-- What a task holds is what its request says. -/
def IssueTask.Follows (organizationId : JsString) (request : IssueRequest) : IssueTask → Prop
  | .start r => r = request
  | .creating _ actorId input => ∃ projectKey, request = .create actorId projectKey input
  | .updating _ actorId issueId input => request = .update actorId issueId input
  | .auditing a | .emitting a => ∀ job ∈ a.job, Notifies organizationId request job
  | .notifying job => Notifies organizationId request job
  | .placing _ _ _ _ _ | .removing _ _ | .done _ => True

section Follows

open IssuesService IssueTask

variable {organizationId : JsString} {request : IssueRequest} {g : Gen} {w : World}

theorem follows_start (belowFirst : Bool) :
    (IssueTask.step organizationId belowFirst g (.start request) w).1.Follows organizationId
      request := by
  cases request with
  | create actorId projectKey input =>
      rw [IssueTask.step]
      cases w.db.findProject organizationId projectKey with
      | none => trivial
      | some project => exact ⟨projectKey, rfl⟩
  | update actorId issueId input =>
      rw [IssueTask.step]
      cases w.db.findIssue organizationId issueId with
      | none => trivial
      | some before => exact rfl
  | move actorId issueId input =>
      rw [IssueTask.step]
      cases w.db.findIssue organizationId issueId <;> trivial
  | remove actorId issueId =>
      rw [IssueTask.step]
      cases w.db.findIssue organizationId issueId <;> trivial

/-- The assignee of a created issue is the one the input names. -/
theorem notifies_created {actorId projectId projectKey : JsString} {input : CreateIssueInput}
    {issue : IssueView} {db db' : Db}
    (h : db.createIssueTx organizationId actorId projectId input g = .ok (issue, db')) :
    ∀ job ∈ (createdAnnouncement organizationId actorId projectId issue).job,
      Notifies organizationId (.create actorId projectKey input) job := by
  obtain ⟨project, rank, _, _, hc⟩ := Db.createIssueTx_ok h
  obtain ⟨rfl, _⟩ := Db.createIssue_ok hc
  intro job hjob
  obtain ⟨recipientId, hrecipient, rfl⟩ := Option.map_eq_some_iff.1 hjob
  exact ⟨rfl, hrecipient, rfl⟩

theorem notifies_updated (actorId issueId : JsString) (input : UpdateIssueInput) (before : Issue)
    (issue : IssueView) :
    ∀ job ∈ (updatedAnnouncement organizationId actorId input before issue).job,
      Notifies organizationId (.update actorId issueId input) job := by
  intro job hjob
  obtain ⟨recipientId, hrecipient, hsome⟩ := Option.bind_eq_some_iff.1 hjob
  split at hsome
  · cases hsome
  · cases hsome
    exact ⟨rfl, hrecipient, rfl⟩

/-- **The recipient of a job comes from the request.** -/
theorem IssueTask.Follows.step {task : IssueTask} (h : task.Follows organizationId request)
    (belowFirst : Bool) :
    (task.step organizationId belowFirst g w).1.Follows organizationId request := by
  cases task with
  | start r =>
      obtain rfl : r = request := h
      exact follows_start belowFirst
  | creating projectId actorId input =>
      obtain ⟨projectKey, rfl⟩ := h
      rw [IssueTask.step]
      cases hc : w.db.createIssueTx organizationId actorId projectId input g with
      | error e => trivial
      | ok r => exact notifies_created hc
  | updating before actorId issueId input =>
      obtain rfl : request = .update actorId issueId input := h
      rw [IssueTask.step]
      cases w.db.updateIssue issueId (connectedUser input) (input.apply g.now) with
      | error e => trivial
      | ok r => exact notifies_updated actorId issueId input before _
  | placing issue actorId input above below =>
      have hnone : ∀ result : Except Exn (Issue × Db),
          (written result (movedAnnouncement organizationId actorId input issue) w).1.Follows
            organizationId request := by
        intro result
        cases result with
        | error e => trivial
        | ok r => exact fun job hjob => by cases hjob
      cases above with
      | none =>
          cases below with
          | none =>
              rw [IssueTask.step]
              cases belowFirst <;> trivial
          | some below => trivial
      | some above =>
          cases below with
          | none => trivial
          | some below => exact hnone _
  | removing issue actorId =>
      rw [IssueTask.step]
      cases w.db.deleteIssue issue.id with
      | error e => trivial
      | ok r => exact fun job hjob => by cases hjob
  | auditing a => exact h
  | emitting a =>
      rw [IssueTask.step]
      cases hjob : a.job with
      | none => trivial
      | some job => exact h job hjob
  | notifying job => trivial
  | done answer => trivial

end Follows

/-! ### Who touches the queue -/

section Queue

variable {env : Env} {g : Gen} {w w' : World}

theorem World.recorded_queue (w : World) (entry : AuditEntry) (id : Cuid) (now : Date) :
    (w.recorded entry id now).queue = w.queue := by
  rw [recorded, record]
  cases w.db.createAuditLog entry id.val now <;> rfl

theorem OrgTask.Step.queue {task task' : OrgTask} (h : OrgTask.Step env g w task task' w') :
    w'.queue = w.queue := by
  cases h with
  | issue user device answer =>
      obtain ⟨tokens, hw⟩ := TokenService.issueForUser_frame env ⟨user.id, user.email⟩ device g w
      rw [hw]
      rfl
  | audit entry next => exact World.recorded_queue ..
  | _ => rfl

theorem OrgsService.create_queue (userId : JsString) (input : CreateOrgInput) :
    (OrgsService.create userId input g w).2.queue = w.queue := by
  rw [OrgsService.create, Service.query_bind, Service.throwIf_bind]
  split
  · rfl
  · rw [Service.exec_bind]
    cases w.db.createOrganization (newOrganization userId input.name input.slug g) with
    | error e => rfl
    | ok r =>
        simp only [Service.record_bind]
        exact World.recorded_queue ..

/-- Only `enqueue` puts jobs in the queue. -/
theorem IssueTask.Step.queue {organizationId : JsString} {task task' : IssueTask}
    (h : IssueTask.Step organizationId g w task task' w')
    (hidle : ∀ job, task ≠ .notifying job) : w'.queue = w.queue := by
  cases h with
  | audit a => exact World.recorded_queue ..
  | notify job => exact absurd rfl (hidle job)
  | _ => rfl

theorem World.enqueued_queue (w : World) (job : NotificationJob) :
    (w.enqueued job).queue = w.queue ∧ some job.recipientId = job.actorId ∨
      (w.enqueued job).queue = w.queue ++ [job] ∧ some job.recipientId ≠ job.actorId := by
  unfold enqueued
  split
  · rename_i hself
    exact .inl ⟨rfl, hself⟩
  · rename_i hself
    exact .inr ⟨rfl, hself⟩

/-- The worker leaves the queue. -/
theorem WorkerTask.step_queue (place : ℕ) (task : WorkerTask) :
    (task.step place g w).2.queue = w.queue := by
  cases task with
  | idle => rfl
  | filing k job =>
      rw [WorkerTask.step]
      cases w.db.createNotification (NotificationsProcessor.newNotification job g) <;> rfl
  | telling k job pref =>
      rw [WorkerTask.step]
      generalize Option.filter pref _ = user
      cases user <;> rfl
  | done => rfl

end Queue

/-! ### Every queued job is vouched for -/

theorem forall₂_lookup {α β : Type*} {R : α → β → Prop} {as : List α} {bs : List β}
    (h : List.Forall₂ R as bs) {k : ℕ} {a : α} (ha : as[k]? = some a) :
    ∃ b, bs[k]? = some b ∧ R a b := by
  induction h generalizing k with
  | nil => cases ha
  | @cons a' b as bs hab _ ih =>
      cases k with
      | zero =>
          obtain rfl : a' = a := Option.some.inj ha
          exact ⟨b, rfl, hab⟩
      | succ k => exact ih ha

theorem getElem?_append_of_eq_some {α : Type*} {l : List α} {k : ℕ} {a : α}
    (h : l[k]? = some a) (l' : List α) : (l ++ l')[k]? = some a := by
  rw [List.getElem?_append_left (List.getElem?_eq_some_iff.1 h).1, h]

/-- What a request holds it has from its input, what the worker holds it has from the queue. -/
def Party.Sound (queue : List NotificationJob) : Party → Prop
  | .issue organizationId request task => task.Follows organizationId request
  | .worker task => ∀ p ∈ task.at?, queue[p.1]? = some p.2
  | _ => True

theorem Party.Sound.append {queue : List NotificationJob} {party : Party}
    (h : party.Sound queue) (jobs : List NotificationJob) : party.Sound (queue ++ jobs) := by
  cases party with
  | issue organizationId request task => exact h
  | worker task => exact fun p hp => getElem?_append_of_eq_some (h p hp) jobs
  | org task => trivial
  | founding userId input => trivial
  | founded => trivial

theorem Notice.Inside.append {queue : List NotificationJob} {moments : List Db} {d : Notice}
    (h : d.Inside queue moments) (jobs : List NotificationJob) (later : List Db) :
    d.Inside (queue ++ jobs) (moments ++ later) := by
  obtain ⟨job, moment, hjob, hmoment, hrest⟩ := h
  exact ⟨job, moment, getElem?_append_of_eq_some hjob jobs,
    getElem?_append_of_eq_some hmoment later, hrest⟩

/-- A run of the worker goes on with the job it has taken. -/
theorem WorkerTask.step_sound {place : ℕ} {g : Gen} {task : WorkerTask} {w : World}
    (h : (Party.worker task).Sound w.queue) :
    (Party.worker (task.step place g w).1).Sound w.queue := by
  cases task with
  | idle =>
      rw [WorkerTask.step]
      cases hjob : w.queue[place]? with
      | none => exact fun p hp => by cases hp
      | some job =>
          intro p hp
          obtain rfl : (place, job) = p := Option.some.inj hp
          exact hjob
  | filing k job =>
      rw [WorkerTask.step]
      cases w.db.createNotification (NotificationsProcessor.newNotification job g) with
      | error e => exact fun p hp => by cases hp
      | ok r =>
          dsimp only
          cases NotificationsProcessor.pref job.type with
          | none => exact fun p hp => by cases hp
          | some pref => exact h
  | telling k job pref =>
      rw [WorkerTask.step]
      generalize Option.filter pref _ = user
      cases user <;> exact fun p hp => by cases hp
  | done => exact fun p hp => by cases hp

namespace Party

variable {env : Env} {place : ℕ} {belowFirst : Bool} {g : Gen} {w w' : World} {party : Party}

/-- After a step from `w` the queue has some more jobs, whose recipients were members at `w`. -/
def Queues (w : World) (r : Party × World) : Prop :=
  ∃ jobs, r.2.queue = w.queue ++ jobs ∧
    (∀ job ∈ jobs, w.db.Member job.organizationId job.recipientId) ∧ r.1.Sound (w.queue ++ jobs)

theorem queues_none (hqueue : w'.queue = w.queue) (h : party.Sound w.queue) :
    Queues w (party, w') := by
  refine ⟨[], hqueue.trans (List.append_nil _).symm, fun job hjob => (by cases hjob), ?_⟩
  rw [List.append_nil]
  exact h

/-- `enqueue` drops the job of an actor who is the assignee himself. -/
theorem queues_enqueued {organizationId : JsString} {request : IssueRequest} {task : IssueTask}
    {job : NotificationJob} (hnotifies : Notifies organizationId request job)
    (hassigns : ∀ userId ∈ request.assignee,
      userId = request.actor ∨ w.db.Member organizationId userId)
    (h : (Party.issue organizationId request task).Sound w.queue) :
    Queues w (.issue organizationId request task, w.enqueued job) := by
  obtain ⟨rfl, hrecipient, hactor⟩ := hnotifies
  rcases w.enqueued_queue job with ⟨hsame, _⟩ | ⟨hnew, hne⟩
  · exact queues_none hsame h
  · have hmember : w.db.Member job.organizationId job.recipientId := by
      rcases hassigns job.recipientId hrecipient with hself | hmember
      · exact absurd (hself ▸ hactor.symm) hne
      · exact hmember
    refine ⟨[job], hnew, fun job' hjob => ?_, h.append [job]⟩
    rw [List.mem_singleton.1 hjob]
    exact hmember

/-- **Who is queued to be told is a member.** -/
theorem Sound.step (h : party.Sound w.queue) (env : Env) (place : ℕ) (belowFirst : Bool) (g : Gen)
    (hassigns : party.AssignsMember w.db) : Queues w (party.step env place belowFirst g w) := by
  cases party with
  | org task => exact queues_none (OrgTask.step_spec task).queue trivial
  | founding userId input => exact queues_none (OrgsService.create_queue ..) trivial
  | founded => exact queues_none rfl trivial
  | worker task => exact queues_none (WorkerTask.step_queue ..) (WorkerTask.step_sound h)
  | issue organizationId request task =>
      have hnext : (task.step organizationId belowFirst g w).1.Follows organizationId request :=
        IssueTask.Follows.step h belowFirst
      have hspec : IssueTask.Step organizationId g w task
          (task.step organizationId belowFirst g w).1 (task.step organizationId belowFirst g w).2 :=
        IssueTask.step_spec belowFirst task
      cases task with
      | notifying job => exact queues_enqueued h hassigns hnext
      | _ => exact queues_none (hspec.queue fun job hjob => (by cases hjob)) hnext

end Party

namespace Notifying

variable {τ : Type*} {s s' : Notifying τ}

/-- **The invariant.** -/
structure Vouched (s : Notifying τ) : Prop where
  jobs : List.Forall₂
    (fun (job : NotificationJob) (moment : Db) => moment.Member job.organizationId job.recipientId)
    s.pool.store.queue s.moments
  parties : ∀ t, (s.pool.thread t).Sound s.pool.store.queue
  notices : ∀ d ∈ s.notices, d.Inside s.pool.store.queue s.moments

theorem Vouched.start (h : NotifyingStart s) : s.Vouched := by
  refine ⟨?_, fun t => ?_, fun d hd => ?_⟩
  · rw [h.queue, h.moments]
    exact .nil
  · rcases h.parties t with ⟨organizationId, request, ht⟩ | ⟨request, ht⟩ | ⟨userId, input, ht⟩ | ht
    · rw [ht]
      exact rfl
    · rw [ht]
      trivial
    · rw [ht]
      trivial
    · rw [ht]
      exact fun p hp => by cases hp
  · rw [h.notices] at hd
    cases hd

/-- A step that queues `jobs`, each vouched for, and gives the notices `ds`. -/
theorem Vouched.grow (h : s.Vouched) {jobs : List NotificationJob} {ds : List Notice}
    (hqueue : s'.pool.store.queue = s.pool.store.queue ++ jobs)
    (hmoments : s'.moments = s.moments ++ jobs.map fun _ => s.pool.store.db)
    (hnotices : s'.notices = s.notices ++ ds)
    (hjobs : ∀ job ∈ jobs, s.pool.store.db.Member job.organizationId job.recipientId)
    (hparties : ∀ t, s'.pool.thread t = s.pool.thread t ∨
      (s'.pool.thread t).Sound s'.pool.store.queue)
    (hds : ∀ d ∈ ds, d.Inside s.pool.store.queue s.moments) : s'.Vouched := by
  refine ⟨?_, fun t => ?_, fun d hd => ?_⟩
  · rw [hqueue, hmoments]
    refine List.rel_append h.jobs ?_
    rw [List.forall₂_map_right_iff, List.forall₂_same]
    exact hjobs
  · rcases hparties t with hsame | hsound
    · rw [hsame, hqueue]
      exact (h.parties t).append jobs
    · exact hsound
  · rw [hqueue, hmoments]
    rw [hnotices] at hd
    rcases List.mem_append.1 hd with hd | hd
    · exact (h.notices d hd).append ..
    · exact (hds d hd).append ..

/-- **What the worker sends for a queued job is for the job's recipient.** -/
theorem Vouched.worker (h : s.Vouched) {place : ℕ} {g : Gen} {task : WorkerTask}
    (hsound : (Party.worker task).Sound s.pool.store.queue) :
    ∀ d ∈ (Party.worker task).gives s.pool.store (task.step place g s.pool.store).2,
      d.Inside s.pool.store.queue s.moments := by
  intro d hd
  obtain ⟨⟨k, job⟩, hat, rfl⟩ := List.mem_map.1 hd
  have hat : task.at? = some (k, job) := Option.mem_toList.1 hat
  have hjob : s.pool.store.queue[k]? = some job := hsound _ hat
  obtain ⟨moment, hmoment, hmember⟩ := forall₂_lookup h.jobs hjob
  refine ⟨job, moment, hjob, hmoment, ?_⟩
  cases task with
  | idle => cases hat
  | done => cases hat
  | filing k' job' =>
      obtain ⟨rfl, rfl⟩ : k' = k ∧ job' = job := by simpa [WorkerTask.at?] using hat
      rw [WorkerTask.step, Db.createNotification]
      dsimp only
      split_ifs
      · simp
      · simp
      · simp only [Db.insertNotification, List.drop_left, List.drop_length, List.mem_singleton]
        refine ⟨fun n hn => ?_, fun msg hmsg => by cases hmsg⟩
        rw [hn]
        exact ⟨rfl, hmember⟩
  | telling k' job' pref =>
      obtain ⟨rfl, rfl⟩ : k' = k ∧ job' = job := by simpa [WorkerTask.at?] using hat
      rw [WorkerTask.step]
      cases hu : (s.pool.store.db.users.find? (·.id == job'.recipientId)).filter pref with
      | none => simp
      | some user =>
          obtain ⟨hfind, _⟩ := Option.filter_eq_some_iff.1 hu
          simp only [World.mailed, List.drop_left, List.drop_length, List.mem_singleton]
          refine ⟨fun n hn => (by cases hn), fun msg hmsg => ?_⟩
          have hid : user.id = job'.recipientId := by simpa using List.find?_some hfind
          rw [hmsg]
          exact ⟨user, List.mem_of_find?_eq_some hfind, rfl, hid ▸ hmember⟩

theorem Vouched.given (h : s.Vouched) {env : Env} {place : ℕ} {belowFirst : Bool} {g : Gen}
    {party : Party} (hsound : party.Sound s.pool.store.queue) :
    ∀ d ∈ party.gives s.pool.store (party.step env place belowFirst g s.pool.store).2,
      d.Inside s.pool.store.queue s.moments := by
  cases party with
  | worker task => exact h.worker hsound
  | _ => exact fun d hd => (by cases hd)

/-- **Every step keeps the jobs vouched for.** -/
theorem Vouched.next [DecidableEq τ] {env : Env} {a : NotifyAct τ} (h : s.Vouched)
    (hassigns : s.AssignsMember a) : (s.next env a).Vouched := by
  have hsound := h.parties a.thread
  have hstep : Party.Queues s.pool.store _ := hsound.step env a.place a.belowFirst a.g hassigns
  obtain ⟨jobs, hqueue, hjobs, hparty⟩ := hstep
  refine h.grow hqueue ?_ rfl hjobs (fun t => ?_) (h.given hsound)
  · have hdrop : (s.next env a).pool.store.queue.drop s.pool.store.queue.length = jobs := by
      rw [Notifying.next, Pool.advance_store, hqueue, List.drop_left]
    rw [← hdrop]
    rfl
  · by_cases ht : t = a.thread
    · right
      rw [ht, Notifying.next, Pool.advance_thread_self, Pool.advance_store, hqueue]
      exact hparty
    · exact .inl (Pool.advance_thread_of_ne _ _ ht)

end Notifying

/-- **Who is told about an issue is a member**, in every run of issue requests, membership requests
and the worker in which the assignee a request names is a member whenever the request queues its
notification: each row and each mail is for a user who had a membership in the organization when
the job was queued. -/
theorem recipients_are_members {τ : Type*} [DecidableEq τ] {env : Env} {s₀ s : Notifying τ}
    {as : List (NotifyAct τ)} (h₀ : NotifyingStart s₀)
    (hrun : Run (Guarded (Steps (fun _ _ => True) (Notifying.next env)) Notifying.AssignsMember)
      s₀ as s) : ∀ d ∈ s.notices, d.Inside s.pool.store.queue s.moments := by
  have h : s.Vouched := by
    refine hrun.invariant (P := Notifying.Vouched) ?_ (.start h₀)
    intro s a s' hs hstep
    obtain ⟨⟨_, rfl⟩, hassigns⟩ := hstep
    exact hs.next hassigns
  exact h.notices

/-! ### Ann assigns an issue to Bob -/

namespace Recipients.Samples

open TokenService.Samples

def bobId : Cuid := Demo.firstId
def otherOrgId : Cuid := Demo.secondId
def issueId : Cuid := Demo.thirdId

/-- Bob is a member of the one organization that is given. -/
def world (home : Cuid) : World :=
  { Demo.world with db := { Demo.world.db with
      users := [Demo.user, { Demo.user with id := bobId.val, email := js "bob@demo.test" }]
      organizations := [Demo.organization,
        { Demo.organization with id := otherOrgId.val, slug := js "other" }]
      memberships := [⟨js "cowner", Demo.userId.val, Demo.orgId.val, .OWNER, 0⟩,
        ⟨js "cmember", bobId.val, home.val, .MEMBER, 0⟩] } }

/-- Ann creates an issue of the demo organization for Bob, then the worker runs. -/
def party : Bool → Party
  | true =>
      .issue Demo.orgId.val
        (.create Demo.userId.val Demo.project.key
          { title := js "Secret plan", assigneeId := some bobId.val })
        (.start (.create Demo.userId.val Demo.project.key
          { title := js "Secret plan", assigneeId := some bobId.val }))
  | false => .worker .idle

def start (home : Cuid) : Notifying Bool := ⟨⟨world home, party⟩, [], []⟩

theorem start_ok (home : Cuid) : NotifyingStart (start home) where
  queue := rfl
  moments := rfl
  notices := rfl
  parties
    | true => .inl ⟨_, _, rfl⟩
    | false => .inr (.inr (.inr rfl))

def turn (t : Bool) : NotifyAct Bool := ⟨t, 0, false, ⟨0, fun _ => issueId, fun _ => []⟩⟩

/-- The request, and then the job it has queued. -/
def acts : List (NotifyAct Bool) := List.replicate 5 (turn true) ++ List.replicate 3 (turn false)

def play (home : Cuid) : Notifying Bool := acts.foldl (Notifying.next env) (start home)

end Recipients.Samples

open Recipients.Samples TokenService.Samples in
theorem recipients_are_members_colleague :
    ((play Demo.orgId).notices.flatMap Notice.mails).map MailMessage.recipient =
      [js "bob@demo.test"] ∧
    ∀ d ∈ (play Demo.orgId).notices,
      d.Inside (play Demo.orgId).pool.store.queue (play Demo.orgId).moments :=
  ⟨by decide, recipients_are_members (start_ok Demo.orgId)
    (Along.guarded (show Along _ (Notifying.next env) (start Demo.orgId) acts by decide))⟩

open Recipients.Samples TokenService.Samples in
/-- Bob has never been a member of the demo organization; he gets the row and the mail. -/
theorem outsider_notified :
    NotifyingStart (start otherOrgId) ∧
      Run (Steps (fun _ _ => True) (Notifying.next env)) (start otherOrgId) acts
        (play otherOrgId) ∧
      (∀ moment ∈ (play otherOrgId).moments, ¬moment.Member Demo.orgId.val bobId.val) ∧
      (play otherOrgId).notices.flatMap Notice.rows =
        [⟨issueId.val, Demo.orgId.val, bobId.val, .ISSUE_ASSIGNED,
          [("issueId", .str issueId.val), ("number", .num 1), ("title", .str (js "Secret plan"))],
          none, 0⟩] ∧
      ((play otherOrgId).notices.flatMap Notice.mails).map MailMessage.recipient =
        [js "bob@demo.test"] ∧
      ∃ d ∈ (play otherOrgId).notices,
        ¬d.Inside (play otherOrgId).pool.store.queue (play otherOrgId).moments := by
  have hnone : ∀ moment ∈ (play otherOrgId).moments, ¬moment.Member Demo.orgId.val bobId.val := by
    decide
  have hrow : ∃ d ∈ (play otherOrgId).notices, ∃ n ∈ d.rows,
      n.organizationId = Demo.orgId.val ∧ n.userId = bobId.val := by decide
  refine ⟨start_ok otherOrgId,
    Along.run (show Along _ (Notifying.next env) (start otherOrgId) acts by decide), hnone,
    by decide, by decide, ?_⟩
  obtain ⟨d, hd, n, hn, horg, huser⟩ := hrow
  refine ⟨d, hd, fun ⟨job, moment, _, hmoment, hrows, _⟩ => ?_⟩
  obtain ⟨hjob, hmember⟩ := hrows n hn
  rw [← hjob, horg, huser] at hmember
  exact hnone moment (List.mem_of_getElem? hmoment) hmember

end PmSaas
