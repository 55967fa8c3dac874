import PmSaas.Types.Realtime

/-!
# The world a service call runs in

A service method is a function from the state of the outside world to an answer — a value or the
exception it throws — and the state it leaves behind.  Writes made before a throw stay, exactly as
awaited calls before a `throw` do.  The world is the database, the object bucket, the socket
broadcasts, the notification queue and the mail handed to the transport.

Values the environment supplies during one call (the clock, generated ids, random strings) come
from a `Gen`; generated keys may clash, and then the insert fails as the unique index makes it.
-/

namespace PmSaas

/-- The Prisma error codes the code can meet. -/
inductive PrismaError where
  /-- `P2002` -/
  | uniqueConstraint
  /-- `P2003` -/
  | foreignKey
  /-- `P2025` -/
  | recordNotFound
  deriving DecidableEq, Repr

/-- What a service method can throw. -/
inductive Exn where
  | badRequest (message : JsString)
  | unauthorized (message : JsString)
  | forbidden (message : JsString)
  | notFound (message : JsString)
  | conflict (message : JsString)
  | serviceUnavailable (message : JsString)
  | prisma (code : PrismaError)
  /-- A plain `Error`. -/
  | error (message : JsString)
  deriving DecidableEq, Repr

/-- What the environment supplies during one call. -/
structure Gen where
  /-- The clock. -/
  now : Date
  /-- The `k`-th id produced by `@default(cuid())`. -/
  cuid : ℕ → Cuid
  /-- The `k`-th string produced by `randomBytes`, `nanoid` or `randomUUID`. -/
  random : ℕ → JsString

/-- The settings of `config/env.ts` that the services read. -/
structure Env where
  WEB_ORIGIN : JsString
  JWT_REFRESH_TTL : ℤ
  deriving DecidableEq, Repr

/-- Decoded JWT access-token payload. -/
structure AuthUser where
  sub : JsString
  email : JsString
  deriving DecidableEq, Repr

/-- The supply of values without the first `n` of each kind. -/
def Gen.skip (n : ℕ) (g : Gen) : Gen :=
  { g with cuid := fun k => g.cuid (n + k), random := fun k => g.random (n + k) }

/-- An object in the bucket. -/
structure StoredObject where
  key : JsString
  contentType : JsString
  deriving DecidableEq, Repr

structure NotificationJob where
  organizationId : JsString
  recipientId : JsString
  actorId : Option JsString
  type : NotificationType
  payload : JsonObject
  deriving DecidableEq, Repr

structure MailMessage where
  /-- `to` -/
  recipient : JsString
  subject : JsString
  text : JsString
  deriving DecidableEq, Repr

/-- One `server.to(room).emit(event)`. -/
structure Broadcast where
  room : JsString
  event : IssueEvent
  deriving DecidableEq, Repr

structure World where
  db : Db
  objects : List StoredObject
  broadcasts : List Broadcast
  queue : List NotificationJob
  outbox : List MailMessage
  deriving DecidableEq, Repr

/-- A fresh installation. -/
def World.empty : World := ⟨.empty, [], [], [], []⟩

/-- A service method. -/
def Service (α : Type) : Type := World → Except Exn α × World

namespace Service

variable {α β : Type}

instance : Monad Service where
  pure a := fun w => (.ok a, w)
  bind x f := fun w =>
    match x w with
    | (.ok a, w') => f a w'
    | (.error e, w') => (.error e, w')

def throw (e : Exn) : Service α := fun w => (.error e, w)

/-- A database read. -/
def query (f : Db → α) : Service α := fun w => (.ok (f w.db), w)

/-- A database write or an atomic transaction; when it throws, the database is as before. -/
def exec (f : Db → Except Exn (α × Db)) : Service α := fun w =>
  match f w.db with
  | .ok (a, db) => (.ok a, { w with db := db })
  | .error e => (.error e, w)

/-- `if (!row) throw e`. -/
def orThrow (o : Option α) (e : Exn) : Service α :=
  match o with
  | some a => pure a
  | none => throw e

/-- `if (cond) throw e`. -/
def throwIf (cond : Bool) (e : Exn) : Service Unit :=
  if cond then throw e else pure ()

@[simp] theorem pure_apply (a : α) (w : World) : (pure a : Service α) w = (.ok a, w) := rfl

theorem bind_apply (x : Service α) (f : α → Service β) (w : World) :
    (x >>= f) w =
      match x w with
      | (.ok a, w') => f a w'
      | (.error e, w') => (.error e, w') := rfl

@[simp] theorem query_bind (f : Db → α) (k : α → Service β) (w : World) :
    (query f >>= k) w = k (f w.db) w := rfl

theorem bind_assoc (x : Service α) (f : α → Service β) {γ : Type} (k : β → Service γ) (w : World) :
    ((x >>= f) >>= k) w = (x >>= fun a => f a >>= k) w := by
  rw [bind_apply, bind_apply, bind_apply]
  cases x w with
  | mk r w' => cases r <;> rfl

theorem orThrow_bind (o : Option α) (e : Exn) (k : α → Service β) (w : World) :
    (orThrow o e >>= k) w =
      match o with
      | some a => k a w
      | none => (.error e, w) := by
  cases o <;> rfl

theorem throwIf_bind (c : Bool) (e : Exn) (k : Unit → Service β) (w : World) :
    (throwIf c e >>= k) w = if c then (.error e, w) else k () w := by
  cases c <;> rfl

theorem exec_bind (f : Db → Except Exn (α × Db)) (k : α → Service β) (w : World) :
    (exec f >>= k) w =
      match f w.db with
      | .ok (a, db) => k a { w with db := db }
      | .error e => (.error e, w) := by
  rw [bind_apply, exec]
  cases f w.db <;> rfl

theorem bind_ok {x : Service α} {f : α → Service β} {w w' : World} {b : β}
    (h : (x >>= f) w = (.ok b, w')) : ∃ a w₁, x w = (.ok a, w₁) ∧ f a w₁ = (.ok b, w') := by
  rw [bind_apply] at h
  split at h
  · rename_i a w₁ hx
    exact ⟨a, w₁, hx, h⟩
  · cases h

/-- A write that something follows went through. -/
theorem exec_bind_ok {f : Db → Except Exn (α × Db)} {k : α → Service β} {w w' : World} {b : β}
    (h : (exec f >>= k) w = (.ok b, w')) :
    ∃ a db, f w.db = .ok (a, db) ∧ k a { w with db := db } = (.ok b, w') := by
  rw [exec_bind] at h
  cases hf : f w.db with
  | error e =>
      rw [hf] at h
      cases h
  | ok r =>
      rw [hf] at h
      exact ⟨r.1, r.2, rfl, h⟩

/-- A write that leaves the database as it is. -/
theorem exec_bind_same {f : Db → Except Exn (α × Db)} {k : α → Service β} {w : World} {a : α}
    (hf : f w.db = .ok (a, w.db)) : (exec f >>= k) w = k a w := by
  rw [exec_bind, hf]

end Service

/-! ### Side effects shared by the services -/

/-- The world after an event was emitted to a project's room. -/
def World.emitted (w : World) (orgId projectId : JsString) (event : IssueEvent) : World :=
  { w with broadcasts := w.broadcasts ++ [⟨projectRoom orgId projectId, event⟩] }

/-- `RealtimeGateway.emitToProject`. -/
def emitToProject (orgId projectId : JsString) (event : IssueEvent) : Service Unit := fun w =>
  (.ok (), w.emitted orgId projectId event)

/-- The world after a message was handed to the mail transport. -/
def World.mailed (w : World) (msg : MailMessage) : World :=
  { w with outbox := w.outbox ++ [msg] }

/-- `MailService.send`: best-effort, failures are swallowed. -/
def sendMail (msg : MailMessage) : Service Unit := fun w => (.ok (), w.mailed msg)

/-- The world after a job was queued; nobody is notified about their own action. -/
def World.enqueued (w : World) (job : NotificationJob) : World :=
  if some job.recipientId = job.actorId then w else { w with queue := w.queue ++ [job] }

/-- `NotificationsService.enqueue`. -/
def enqueue (job : NotificationJob) : Service Unit := fun w => (.ok (), w.enqueued job)

structure AuditEntry where
  organizationId : JsString
  actorId : Option JsString
  action : String
  entityType : String
  entityId : JsString
  metadata : Option JsonObject

/-- The `auditLog.create` of `AuditService.record`. -/
def Db.createAuditLog (entry : AuditEntry) (id : JsString) (now : Date) (db : Db) :
    Except Exn (Unit × Db) :=
  if db.auditLogs.any (·.id == id) then .error (.prisma .uniqueConstraint)
  else if !db.organizations.any (·.id == entry.organizationId) then .error (.prisma .foreignKey)
  else if entry.actorId.any (fun a => !db.users.any (·.id == a)) then .error (.prisma .foreignKey)
  else .ok ((), { db with auditLogs := db.auditLogs ++
    [⟨id, entry.organizationId, entry.actorId, entry.action, entry.entityType, entry.entityId,
      entry.metadata, now⟩] })

/-- `AuditService.record` without a transaction client: a failed write is logged and swallowed. -/
def record (entry : AuditEntry) (id : Cuid) (now : Date) : Service Unit := fun w =>
  match w.db.createAuditLog entry id.val now with
  | .ok ((), db) => (.ok (), { w with db := db })
  | .error _ => (.ok (), w)

/-- The world after `record`, which never throws. -/
def World.recorded (w : World) (entry : AuditEntry) (id : Cuid) (now : Date) : World :=
  (record entry id now w).2

namespace World

variable (w : World)

theorem recorded_broadcasts (entry : AuditEntry) (id : Cuid) (now : Date) :
    (w.recorded entry id now).broadcasts = w.broadcasts := by
  rw [recorded, record]
  cases w.db.createAuditLog entry id.val now <;> rfl

theorem enqueued_db (job : NotificationJob) : (w.enqueued job).db = w.db := by
  rw [enqueued]
  split <;> rfl

theorem enqueued_broadcasts (job : NotificationJob) :
    (w.enqueued job).broadcasts = w.broadcasts := by
  rw [enqueued]
  split <;> rfl

end World

namespace Service

variable {β : Type}

theorem emit_bind (orgId projectId : JsString) (event : IssueEvent) (k : Unit → Service β)
    (w : World) :
    (emitToProject orgId projectId event >>= k) w = k () (w.emitted orgId projectId event) := rfl

theorem sendMail_bind (msg : MailMessage) (k : Unit → Service β) (w : World) :
    (sendMail msg >>= k) w = k () (w.mailed msg) := rfl

theorem record_apply (entry : AuditEntry) (id : Cuid) (now : Date) (w : World) :
    record entry id now w = (.ok (), w.recorded entry id now) := by
  rw [World.recorded, record]
  cases w.db.createAuditLog entry id.val now <;> rfl

theorem record_bind (entry : AuditEntry) (id : Cuid) (now : Date) (k : Unit → Service β)
    (w : World) : (record entry id now >>= k) w = k () (w.recorded entry id now) := by
  rw [bind_apply, World.recorded, record]
  cases w.db.createAuditLog entry id.val now <;> rfl

end Service

/-! ### What the side effects leave alone -/

/-- `w'` is `w` after side effects on behalf of one organization: audit rows of that organization,
broadcasts, notification jobs and mail. -/
structure Aftermath (organizationId : JsString) (w w' : World) : Prop where
  db : ∃ logs : List AuditLog, (∀ a ∈ logs, a.organizationId = organizationId) ∧
    w'.db = { w.db with auditLogs := w.db.auditLogs ++ logs }
  objects : w'.objects = w.objects

namespace Aftermath

variable {organizationId : JsString} {w w' w'' : World}

theorem refl (organizationId : JsString) (w : World) : Aftermath organizationId w w :=
  ⟨⟨[], by simp, by simp⟩, rfl⟩

theorem trans (h : Aftermath organizationId w w') (h' : Aftermath organizationId w' w'') :
    Aftermath organizationId w w'' := by
  obtain ⟨⟨logs, hlogs, hdb⟩, hobj⟩ := h
  obtain ⟨⟨logs', hlogs', hdb'⟩, hobj'⟩ := h'
  refine ⟨⟨logs ++ logs', ?_, ?_⟩, hobj'.trans hobj⟩
  · intro a ha
    rcases List.mem_append.1 ha with ha | ha
    · exact hlogs a ha
    · exact hlogs' a ha
  · rw [hdb', hdb]
    simp

theorem issues (h : Aftermath organizationId w w') : w'.db.issues = w.db.issues := by
  obtain ⟨logs, _, hdb⟩ := h.db
  rw [hdb]

theorem memberships (h : Aftermath organizationId w w') :
    w'.db.memberships = w.db.memberships := by
  obtain ⟨logs, _, hdb⟩ := h.db
  rw [hdb]

theorem organizations (h : Aftermath organizationId w w') :
    w'.db.organizations = w.db.organizations := by
  obtain ⟨logs, _, hdb⟩ := h.db
  rw [hdb]

theorem invites (h : Aftermath organizationId w w') : w'.db.invites = w.db.invites := by
  obtain ⟨logs, _, hdb⟩ := h.db
  rw [hdb]

theorem projects (h : Aftermath organizationId w w') : w'.db.projects = w.db.projects := by
  obtain ⟨logs, _, hdb⟩ := h.db
  rw [hdb]

theorem subscriptions (h : Aftermath organizationId w w') :
    w'.db.subscriptions = w.db.subscriptions := by
  obtain ⟨logs, _, hdb⟩ := h.db
  rw [hdb]

theorem recorded {entry : AuditEntry} (id : Cuid) (now : Date) (w : World)
    (h : entry.organizationId = organizationId := by rfl) :
    Aftermath organizationId w (w.recorded entry id now) := by
  subst h
  unfold World.recorded record Db.createAuditLog
  split_ifs with h₁ h₂ h₃
  · exact refl _ w
  · exact refl _ w
  · exact refl _ w
  · exact ⟨⟨_, by simp, rfl⟩, rfl⟩

theorem emitted (h : Aftermath organizationId w w') (orgId projectId : JsString)
    (event : IssueEvent) : Aftermath organizationId w (w'.emitted orgId projectId event) :=
  ⟨h.db, h.objects⟩

theorem enqueued (h : Aftermath organizationId w w') (job : NotificationJob) :
    Aftermath organizationId w (w'.enqueued job) := by
  unfold World.enqueued
  split
  · exact h
  · exact ⟨h.db, h.objects⟩

theorem mailed (h : Aftermath organizationId w w') (msg : MailMessage) :
    Aftermath organizationId w (w'.mailed msg) := ⟨h.db, h.objects⟩

end Aftermath

/-! ### A small installation, for concrete runs -/

namespace Demo

def userId : Cuid := ⟨js "cuser", by decide⟩
def orgId : Cuid := ⟨js "corg", by decide⟩
def projectId : Cuid := ⟨js "cproject", by decide⟩

def firstId : Cuid := ⟨js "cfirst", by decide⟩
def secondId : Cuid := ⟨js "csecond", by decide⟩
def thirdId : Cuid := ⟨js "cthird", by decide⟩

def user : User :=
  ⟨userId.val, js "ann@demo.test", none, js "Ann", none, 0, 0, true, true, true⟩

def organization : Organization := ⟨orgId.val, js "demo", js "Demo", 0, 0⟩

def project : Project :=
  ⟨projectId.val, orgId.val, none, js "PM", js "Demo project", none, 0, none, 0, 0⟩

/-- One user, one organization with one project and no issue. -/
def world : World :=
  { World.empty with db := { Db.empty with
      users := [user], organizations := [organization], projects := [project] } }

end Demo

end PmSaas
